import ReadThrough.Proofs.Cache.Rewriting
import ReadThrough.Proofs.Cache.SoleRequest
import ReadThrough.Proofs.Cache.Untouched
import ReadThrough.Proofs.Shard.Schedule

/-!
# Lookups and elections

A read of a cache is a race of one reader, at the readings of its clock.

While the clock stands still, a lookup `visits` the entry that its name leads
to: if the entry is ripe, the reader is elected and the entry is put off.  A
further visit at the same reading elects nobody and changes nothing, whichever
of the names of the entry it is made by.
-/

namespace ReadThrough

open Std (ExtTreeMap)

variable {Value : Type}

namespace Clock

variable {clock : Clock} {now : Instant} {taken count : Nat}

/-- The next readings, as many as a number says, show an instant. -/
def Shows (clock : Clock) (now : Instant) (count : Nat) : Prop :=
  ∀ number < count, (clock.skip number).read.1 = .ok now

theorem skip_add (clock : Clock) (taken count : Nat) :
    clock.skip (taken + count) = (clock.skip taken).skip count := by
  induction taken generalizing clock with
  | zero => rw [Nat.zero_add, skip]
  | succ taken inductionHypothesis =>
      rw [Nat.succ_add, skip, skip, inductionHypothesis]

theorem Shows.mono
    (shows : clock.Shows now count) (fewer : taken ≤ count) :
    clock.Shows now taken := fun number below =>
  shows number (Nat.lt_of_lt_of_le below fewer)

/-- After some of the readings the others show the instant still. -/
theorem Shows.skip
    (shows : clock.Shows now (taken + count)) :
    (clock.skip taken).Shows now count := by
  intro number below
  rw [← skip_add]
  exact shows _ (Nat.add_lt_add_left below taken)

variable (still : clock.read = (.ok now, clock))

include still

theorem skip_of_still (count : Nat) : clock.skip count = clock := by
  induction count with
  | zero => rfl
  | succ count inductionHypothesis =>
      rw [Clock.skip, still]
      exact inductionHypothesis

theorem shows_of_still (count : Nat) : clock.Shows now count := by
  intro number _
  rw [skip_of_still still, still]

end Clock

namespace Entry

variable {entry : Entry Value} {base : Duration} {now : Instant}

/-- The entry after it has been read at an instant. -/
def visited (entry : Entry Value) (base : Duration) (now : Instant) :
    Entry Value :=
  if entry.Ripe now then entry.postponed base now else entry

theorem not_ripe_visited : ¬ (entry.visited base now).Ripe now := by
  rw [visited]
  split
  · exact not_ripe_postponed entry base now
  next unripe => exact unripe

@[simp]
theorem visited_visited :
    (entry.visited base now).visited base now = entry.visited base now :=
  if_neg not_ripe_visited

end Entry

namespace Shard

variable {shard : Shard Value} {name other key : String} {base : Duration}
  {window : RefreshWindow} {now : Instant} {lookup : Lookup Value}

/-! ## Visiting a shard -/

theorem adjust_congr
    {first second : Entry Value → Entry Value}
    (same : ∀ entry ∈ shard.entries[key]?, first entry = second entry) :
    shard.adjust key first = shard.adjust key second := by
  have entries : shard.entries.modify key first =
      shard.entries.modify key second := by
    apply ExtTreeMap.ext_getElem?
    intro wanted
    rw [ExtTreeMap.getElem?_modify, ExtTreeMap.getElem?_modify]
    split
    · exact Option.map_congr same
    · rfl
  rw [adjust, adjust, entries]

theorem adjust_eq_self
    {change : Entry Value → Entry Value}
    (same : ∀ entry ∈ shard.entries[key]?, change entry = entry) :
    shard.adjust key change = shard := by
  have entries : shard.entries.modify key change = shard.entries := by
    apply ExtTreeMap.ext_getElem?
    intro wanted
    rw [ExtTreeMap.getElem?_modify]
    split
    next here =>
      rw [Std.compare_eq_iff_eq.mp here] at same ⊢
      exact (Option.map_congr same).trans (congrFun Option.map_id_fun' _)
    next => rfl
  rw [adjust, entries]

/-- The shard after a name has been read at an instant. -/
def visited
    (shard : Shard Value) (base : Duration) (now : Instant)
    (name : String) : Shard Value :=
  shard.adjust (shard.primary name) (·.visited base now)

/-- The two parts of a read that are made at one instant come to the second
part alone. -/
theorem elect_of_glance
    (answered : shard.glance name now = some lookup)
    (refresh : Option RefreshWindow) :
    shard.elect refresh name now = (lookup, shard) := by
  rw [glance] at answered
  rw [elect]
  cases resolved : shard.resolve name with
  | none =>
      rw [resolved] at answered
      cases answered
      rfl
  | some entry =>
      simp only [resolved] at answered
      cases expired : entry.isExpired now with
      | true =>
          simp only [expired, if_true, Option.some.injEq] at answered
          simp [expired, answered]
      | false =>
          cases due : entry.isDue now with
          | true => simp [expired, due] at answered
          | false =>
              simp only [expired, due, Bool.false_eq_true, if_false,
                Option.some.injEq] at answered
              simp [expired, due, answered]

/-- A read at one instant elects its reader if the entry is ripe, and visits
it. -/
theorem refreshes_elect_iff :
    (shard.elect (some window) name now).1.refreshes = true ↔
      ∃ entry ∈ shard.resolve name, entry.Ripe now := by
  cases resolved : shard.resolve name with
  | none => simp [elect, resolved, Lookup.refreshes]
  | some entry =>
      by_cases ripe : entry.Ripe now
      · rw [elect_of_ripe window resolved ripe]
        simp [ripe]
      · rw [(elect_of_unripe (some window) resolved ripe).1]
        simp [ripe]

/-- Where nothing is refreshed ahead a read changes nothing. -/
theorem elect_none : (shard.elect none name now).2 = shard := by
  rw [elect]
  split
  · rfl
  · split_ifs <;> rfl

theorem elect_eq_visited :
    (shard.elect (some window) name now).2 =
      shard.visited window.retryBase now name := by
  rw [visited]
  cases resolved : shard.resolve name with
  | none =>
      rw [adjust_eq_self]
      · simp [elect, resolved]
      · rw [resolve] at resolved
        simp [resolved]
  | some entry =>
      have stored : shard.entries[shard.primary name]? = some entry :=
        resolved
      by_cases ripe : entry.Ripe now
      · rw [elect_of_ripe window resolved ripe]
        refine adjust_congr fun found there => ?_
        cases stored.symm.trans there
        exact (if_pos ripe).symm
      · rw [(elect_of_unripe (some window) resolved ripe).2, adjust_eq_self]
        intro found there
        cases stored.symm.trans there
        exact if_neg ripe

@[simp]
theorem primary_visited :
    (shard.visited base now name).primary other = shard.primary other :=
  primary_adjust shard _ _ other

/-- A visit by another name of the entry is the same visit. -/
theorem visited_congr (same : shard.primary other = shard.primary name) :
    shard.visited base now other = shard.visited base now name := by
  rw [visited, visited, same]

theorem visited_visited (same : shard.primary other = shard.primary name) :
    (shard.visited base now name).visited base now other =
      shard.visited base now name := by
  rw [visited, primary_visited, same]
  apply adjust_eq_self
  intro entry stored
  rw [visited, adjust, Option.mem_def,
    ExtTreeMap.getElem?_modify_self] at stored
  obtain ⟨earlier, _, rfl⟩ := Option.map_eq_some_iff.mp stored
  exact Entry.visited_visited

theorem held_visited :
    (shard.visited base now name).held key =
      if key = shard.primary name then
        (shard.held key).map fun held => (held.1.visited base now, held.2)
      else shard.held key := by
  have aliases : ∀ other : String,
      (shard.visited base now name).aliases other = shard.aliases other :=
    fun _ => rfl
  rw [held, held, aliases, visited, adjust, ExtTreeMap.getElem?_modify]
  by_cases same : key = shard.primary name
  · subst same
    simp [Option.map_map, Function.comp_def]
  · simp [same, Ne.symm same]

end Shard

namespace Cache

variable {settings : Settings} {cache left right before after : Cache Value}
  {name other : String} {shard : Shard Value} {index : Nat}
  {window : RefreshWindow} {base : Duration} {now : Instant}

/-! ## Reads as races -/

/-- A read of a cache is a race of one reader whose readings are those of the
clock.  The second one is taken only if the first part does not answer.  Nothing
but the shard of the race can have changed. -/
theorem ends_getFrom_race
    (seat : cache.shards[index]? = some shard) (name : String) :
    Ends (getFrom settings index name) cache
      (fun lookup next => ∃ (first second : Instant) (race : Race Value 1),
        cache.clock.read.1 = .ok first ∧
        (shard.glance name first = none →
          cache.clock.read.2.read.1 = .ok second) ∧
        (Race.start shard).follow settings.refresh (fun _ => name)
            [.glance 0 first, .elect 0 second] = race ∧
        race.readers 0 = .answered lookup ∧
        Reseats index race.shard cache next)
      (fun _ next => Untouched cache next) := by
  rw [getFrom, ends_bind, ends_shardAt, seat]
  simp only [ends_bind, ends_readClock]
  split
  next first clock reading =>
    rw [reading]
    cases glanced : shard.glance name first with
    | some lookup =>
        refine ⟨first, first, _, rfl, ?_, rfl, ?_, ?_⟩
        · rw [glanced]
          nofun
        · simp [Race.follow, Race.after, Race.start, glanced]
        · have kept : Reseats index shard cache (cache.withClock clock) :=
            .of_eq seat rfl rfl
          simpa [Race.follow, Race.after, Race.start, glanced] using kept
    | none =>
        simp only [ends_bind, ends_readClock, clock_withClock]
        split
        next second later again =>
          simp only [ends_putShard, ends_pure]
          have seatLater :
              ((cache.withClock clock).withClock later).shards[index]? =
                some shard := seat
          refine ⟨first, second, _, rfl, fun _ => congrArg Prod.fst again, rfl,
            ?_, ?_⟩
          · simp [Race.follow, Race.after, Race.start, glanced]
          · have unread : Reseats index shard cache
                ((cache.withClock clock).withClock later) :=
              .of_eq seat rfl rfl
            simpa [Race.follow, Race.after, Race.start, glanced] using
              unread.trans (.of_withShard seatLater)
        next => exact ⟨rfl, rfl⟩
  next => exact ⟨rfl, rfl⟩

/-! ## Visits while the clock stands still -/

/-- While the next two readings show one instant, a lookup reads its shard at
that instant, and takes no further reading. -/
theorem ends_lookup_of_shows
    (shows : cache.clock.Shows now 2)
    (seat : cache.shards[cache.route name]? = some shard) :
    Ends (lookup settings name) cache
      (fun found next =>
        found = (shard.elect settings.refresh name now).1 ∧
          Reseats (cache.route name)
            (shard.elect settings.refresh name now).2 cache next ∧
          ∃ taken ≤ 2, next.clock = cache.clock.skip taken)
      (fun _ _ => False) := by
  rw [lookup, ends_bind, ends_shardIndex_of_seat seat, ends_bind, getFrom,
    ends_bind, ends_shardAt, shards_noted, seat]
  -- To note that the name was routed does not concern the clock.
  have reading : (cache.noted (.routed (cache.route name))).clock.read =
      (.ok now, cache.clock.skip 1) := Prod.ext (shows 0 (by decide)) rfl
  have again : ((cache.noted (.routed (cache.route name))).withClock
      (cache.clock.skip 1)).clock.read = (.ok now, cache.clock.skip 2) :=
    Prod.ext (shows 1 (by decide)) rfl
  dsimp only
  refine ends_bind.mpr ((ends_readClock_of_ok reading).mpr ?_)
  cases glanced : shard.glance name now with
  | some found =>
      rw [Shard.elect_of_glance glanced, ends_pure, ends_bind]
      exact ends_recordLookup fun next shards routes clock =>
        ⟨rfl, .of_eq seat shards routes, 1, by decide, clock⟩
  | none =>
      refine ends_bind.mpr ((ends_readClock_of_ok again).mpr ?_)
      simp only [ends_bind, ends_putShard, ends_pure]
      refine ends_recordLookup fun next shards routes clock =>
        ⟨trivial, ?_, 2, Nat.le_refl 2, clock⟩
      have put : Reseats (cache.route name)
          (shard.elect settings.refresh name now).2 cache
          (cache.withShard (cache.route name)
            (shard.elect settings.refresh name now).2) :=
        .of_withShard seat
      exact put.trans (.of_eq put.seat shards routes)

theorem Untouched.held
    (untouched : Untouched left right) (place : Nat × String) :
    right.held place = left.held place :=
  held_eq_of_shards (congrArg (·[place.1]?) untouched.shards)

/-- Two caches store the same under the same names, and their clocks are the
same. -/
structure Abreast (left right : Cache Value) : Prop extends
    Untouched left right where
  clock : right.clock = left.clock

namespace Abreast

theorem refl (cache : Cache Value) : Abreast cache cache :=
  ⟨.refl cache, rfl⟩

theorem symm (abreast : Abreast left right) : Abreast right left :=
  ⟨⟨abreast.shards.symm, abreast.routes.symm⟩, abreast.clock.symm⟩

theorem trans {middle : Cache Value}
    (first : Abreast left middle) (second : Abreast middle right) :
    Abreast left right :=
  ⟨first.toUntouched.trans second.toUntouched,
    second.clock.trans first.clock⟩

theorem route (abreast : Abreast left right) (name : String) :
    right.route name = left.route name := by
  rw [Cache.route, Cache.route, abreast.routes, abreast.shards]

end Abreast

/-- The cache after a name has been read at an instant. -/
def visited (base : Duration) (now : Instant) (cache : Cache Value)
    (name : String) : Cache Value :=
  match cache.shards[cache.route name]? with
  | some shard =>
      cache.withShard (cache.route name) (shard.visited base now name)
  | none => cache

theorem visited_of_seat
    (seat : cache.shards[cache.route name]? = some shard) :
    cache.visited base now name =
      cache.withShard (cache.route name) (shard.visited base now name) := by
  rw [visited, seat]

@[simp]
theorem clock_visited :
    (cache.visited base now name).clock = cache.clock := by
  rw [visited]
  split
  · rfl
  · rfl

theorem Abreast.visited (abreast : Abreast left right) :
    Abreast (left.visited base now name) (right.visited base now name) := by
  rw [Cache.visited, Cache.visited, abreast.route, abreast.shards]
  split
  · refine ⟨⟨?_, abreast.routes⟩, abreast.clock⟩
    rw [withShard, withShard, abreast.shards]
  · exact abreast

variable (base now) in
/-- A visit changes the marks of an entry, which nobody sees. -/
theorem alike_visited (cache : Cache Value) (name : String) :
    Alike cache (cache.visited base now name) := by
  rw [visited]
  split
  next shard seat =>
    refine Alike.withShard seat (Shard.alike_adjust shard _ fun entry => ?_)
    rw [Entry.visited]
    split
    · exact entry.settled_postponed base now
    · rfl
  next => exact .refl cache

/-- What the places hold after a visit. -/
theorem held_visited (coherent : cache.Coherent) (place : Nat × String) :
    (cache.visited base now name).held place =
      if place = cache.place name then
        (cache.held place).map fun held => (held.1.visited base now, held.2)
      else cache.held place := by
  obtain ⟨shard, seat⟩ := coherent.seat name
  obtain ⟨index, key⟩ := place
  rw [visited_of_seat seat, place_of_seat seat,
    (Reseats.of_withShard seat).held]
  by_cases home : index = cache.route name
  · subst home
    rw [if_pos rfl, Shard.held_visited, held_of_seat seat]
    simp
  · rw [if_neg home, if_neg fun same => home (congrArg Prod.fst same)]

/-- A further visit of the same place changes nothing. -/
theorem abreast_visited_visited
    (coherent : cache.Coherent)
    (same : cache.place other = cache.place name) :
    Abreast (cache.visited base now name)
      ((cache.visited base now name).visited base now other) := by
  obtain ⟨shard, seat⟩ := coherent.seat name
  have alike := alike_visited base now cache name
  have routed : (cache.visited base now name).route other =
      cache.route name :=
    (alike.route other).trans (congrArg Prod.fst same)
  have home : cache.route other = cache.route name := congrArg Prod.fst same
  rw [place_of_seat seat, place_of_seat (home ▸ seat)] at same
  rw [visited_of_seat seat] at routed ⊢
  have put : Reseats (cache.route name) (shard.visited base now name) cache _ :=
    .of_withShard seat
  rw [visited, routed, put.seat]
  dsimp only
  rw [Shard.visited_visited (congrArg Prod.snd same),
    withShard_of_seat put.seat]
  exact .refl _

/-- The entry at a place is ripe. -/
def RipeAt (cache : Cache Value) (place : Nat × String) (now : Instant) :
    Prop :=
  ∃ held ∈ cache.held place, held.1.Ripe now

instance (cache : Cache Value) (place : Nat × String) (now : Instant) :
    Decidable (cache.RipeAt place now) :=
  inferInstanceAs (Decidable (∃ held ∈ cache.held place, held.1.Ripe now))

theorem Untouched.ripeAt_iff
    (untouched : Untouched left right) {place : Nat × String} :
    right.RipeAt place now ↔ left.RipeAt place now := by
  rw [RipeAt, RipeAt, untouched.held]

/-- The cache after a lookup of a name at an instant.  Where nothing is
refreshed ahead nobody is elected. -/
def lookedUp
    (refresh : Option RefreshWindow) (now : Instant) (cache : Cache Value)
    (name : String) : Cache Value :=
  match refresh with
  | some window => cache.visited window.retryBase now name
  | none => cache

/-- A lookup at one instant changes the marks of an entry at most. -/
theorem alike_lookedUp
    (refresh : Option RefreshWindow) (cache : Cache Value) (name : String) :
    Alike cache (cache.lookedUp refresh now name) := by
  cases refresh with
  | none => exact .refl cache
  | some window => exact alike_visited _ _ cache name

/-- A lookup at one instant tells what the name shows, and its reader is elected
if entries are refreshed ahead and this one is ripe. -/
theorem ends_lookup_tells
    (coherent : cache.Coherent) (shows : cache.clock.Shows now 2)
    (name : String) :
    Ends (lookup settings name) cache
      (fun found next =>
        found.content = cache.shown (cache.place name) now ∧
          (found.refreshes = true ↔ settings.refresh.isSome = true ∧
            cache.RipeAt (cache.place name) now) ∧
          Untouched (cache.lookedUp settings.refresh now name) next ∧
          ∃ taken ≤ 2, next.clock = cache.clock.skip taken)
      (fun _ _ => False) := by
  obtain ⟨shard, seat⟩ := coherent.seat name
  refine (ends_lookup_of_shows shows seat).weaken ?_ fun _ _ => id
  rintro found next ⟨rfl, read, clock⟩
  refine ⟨?_, ?_, ?_, clock⟩
  · rw [Shard.content_elect, place_of_seat seat, shown_of_seat seat]
    rfl
  · cases settings.refresh with
    | none => simp [Shard.refreshes_elect_none]
    | some window =>
        rw [Shard.refreshes_elect_iff, RipeAt, place_of_seat seat,
          held_of_seat seat, Shard.held, Shard.resolve]
        simp
  · cases ahead : settings.refresh with
    | none =>
        rw [ahead, Shard.elect_none] at read
        rw [lookedUp]
        refine ⟨Array.ext_getElem? fun index => ?_, read.routes⟩
        rw [read.shards_eq]
        split
        next home => rw [home, seat]
        next => rfl
    | some window =>
        rw [ahead, Shard.elect_eq_visited] at read
        rw [lookedUp, visited_of_seat seat]
        refine ⟨Array.ext_getElem? fun index => ?_, read.routes⟩
        rw [read.shards_eq, getElem?_shards_withShard seat]

/-- While the clock stands still, a lookup is a visit.  Its reader learns what
the name shows, and is elected if the entry was ripe. -/
theorem ends_lookup_visits
    (ahead : settings.refresh = some window) (coherent : cache.Coherent)
    (still : cache.clock.read = (.ok now, cache.clock)) (name : String) :
    Ends (lookup settings name) cache
      (fun found next =>
        found.content = cache.shown (cache.place name) now ∧
          (found.refreshes = true ↔ cache.RipeAt (cache.place name) now) ∧
          Abreast (cache.visited window.retryBase now name) next)
      (fun _ _ => False) := by
  refine (ends_lookup_tells coherent (Clock.shows_of_still still 2)
    name).weaken ?_ fun _ _ => id
  rintro found next ⟨content, elected, untouched, taken, _, clock⟩
  rw [ahead] at elected untouched
  refine ⟨content, elected.trans (and_iff_right rfl), untouched, ?_⟩
  rw [clock_visited, clock, Clock.skip_of_still still]

end Cache

end ReadThrough
