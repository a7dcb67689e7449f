import ReadThrough.Cache.Read
import ReadThrough.Cache.Upkeep
import ReadThrough.Proofs.Ending
import ReadThrough.Proofs.Shard.Reading

/-!
# Reading from a cache

Reading leaves a cache `Alike`: its routes and, shard by shard, its entries and
their names are what they were, apart from the marks of refreshing.

A lookup reads the clock once, and once more when the entry turns out to be due.
The last of these readings decides it: `ends_lookup_of_deciding` says that it
finds what the name shows at that instant in the shard that it is routed to.
-/

namespace ReadThrough.Cache

open Std (ExtTreeMap)

variable {Value : Type}

/-! ## Caches that store the same -/

/-- Two caches route alike and store the same, apart from the marks that
refreshing leaves. -/
structure Alike (before after : Cache Value) : Prop where
  routes : after.routes = before.routes
  size : after.shards.size = before.shards.size
  shards : ∀ {index : Nat} {shard : Shard Value},
    before.shards[index]? = some shard →
      ∃ other, after.shards[index]? = some other ∧ shard.Alike other

namespace Alike

theorem refl (cache : Cache Value) : Alike cache cache :=
  ⟨rfl, rfl, fun {_ shard} seat => ⟨shard, seat, Shard.Alike.refl shard⟩⟩

theorem trans {before middle after : Cache Value}
    (first : Alike before middle) (second : Alike middle after) :
    Alike before after where
  routes := second.routes.trans first.routes
  size := second.size.trans first.size
  shards seat := by
    obtain ⟨other, otherSeat, alike⟩ := first.shards seat
    obtain ⟨third, thirdSeat, further⟩ := second.shards otherSeat
    exact ⟨third, thirdSeat, alike.trans further⟩

instance : IsPreorder (Cache Value) Alike where
  refl := refl
  trans _ _ _ := trans

theorem symm {before after : Cache Value} (alike : Alike before after) :
    Alike after before where
  routes := alike.routes.symm
  size := alike.size.symm
  shards {index other} seat := by
    have inside : index < before.shards.size := by
      rw [← alike.size]
      exact (Array.getElem?_eq_some_iff.mp seat).1
    obtain ⟨found, foundSeat, shards⟩ :=
      alike.shards (Array.getElem?_eq_getElem inside)
    rw [seat] at foundSeat
    cases foundSeat
    exact ⟨_, Array.getElem?_eq_getElem inside, shards.symm⟩

theorem of_eq {before after : Cache Value}
    (shards : after.shards = before.shards)
    (routes : after.routes = before.routes) : Alike before after where
  routes := routes
  size := by rw [shards]
  shards {index shard} seat :=
    ⟨shard, by rw [shards, seat], Shard.Alike.refl shard⟩

theorem withShard {cache : Cache Value} {index : Nat}
    {shard other : Shard Value}
    (seat : cache.shards[index]? = some shard)
    (alike : shard.Alike other) : Alike cache (cache.withShard index other) where
  routes := rfl
  size := size_shards_withShard cache index other
  shards {place found} foundSeat := by
    rw [getElem?_shards_withShard seat]
    by_cases same : place = index
    · subst same
      rw [seat] at foundSeat
      cases foundSeat
      exact ⟨other, if_pos rfl, alike⟩
    · exact ⟨found, by rw [if_neg same, foundSeat], Shard.Alike.refl found⟩

theorem route {before after : Cache Value} (alike : Alike before after)
    (name : String) : after.route name = before.route name := by
  unfold Cache.route
  rw [alike.routes, alike.size]

end Alike

theorem alike_noted (cache : Cache Value) (event : Event) :
    Alike cache (cache.noted event) :=
  Alike.of_eq rfl rfl

theorem alike_withClock (cache : Cache Value) (clock : Clock) :
    Alike cache (cache.withClock clock) :=
  Alike.of_eq rfl rfl

/-! ## Stored keys -/

/-- An entry is stored under a key in the shard at an index. -/
def Stores (cache : Cache Value) (index : Nat) (key : String) : Prop :=
  ∃ shard ∈ cache.shards[index]?, key ∈ shard.entries

instance (cache : Cache Value) (index : Nat) (key : String) :
    Decidable (cache.Stores index key) :=
  inferInstanceAs (Decidable (∃ shard ∈ cache.shards[index]?,
    key ∈ shard.entries))

theorem stores_iff_of_seat
    {cache : Cache Value} {index : Nat} {shard : Shard Value} {key : String}
    (seat : cache.shards[index]? = some shard) :
    cache.Stores index key ↔ key ∈ shard.entries := by
  simp [Stores, seat]

theorem stores_of_found
    {cache : Cache Value} {index : Nat} {shard : Shard Value}
    {key : String} {entry : Entry Value}
    (seat : cache.shards[index]? = some shard)
    (found : shard.entries[key]? = some entry) : cache.Stores index key :=
  ⟨shard, seat, Shard.stored_of_found found⟩

theorem Alike.stores_iff
    {before after : Cache Value} (alike : Alike before after)
    {index : Nat} {key : String} :
    after.Stores index key ↔ before.Stores index key := by
  constructor
  · intro storing
    obtain ⟨shard, seat, stored⟩ := storing
    obtain ⟨earlier, earlierSeat, similar⟩ := alike.symm.shards seat
    exact ⟨earlier, earlierSeat, similar.mem_entries.mpr stored⟩
  · intro storing
    obtain ⟨shard, seat, stored⟩ := storing
    obtain ⟨later, laterSeat, similar⟩ := alike.shards seat
    exact ⟨later, laterSeat, similar.mem_entries.mpr stored⟩

/-! ## Actions that only read -/

theorem respects_record_alike (event : Event) :
    Respects (@Alike Value) (record event) := fun cache =>
  alike_noted cache event

theorem respects_readClock_alike :
    Respects Alike (readClock : Action Value Instant) := by
  intro cache
  rw [ends_readClock]
  split
  · exact alike_withClock cache _
  · exact alike_withClock cache _

theorem respects_advanceClock_alike (duration : Duration) :
    Respects (@Alike Value) (advanceClock duration) := by
  intro cache
  rw [ends_advanceClock]
  split
  · exact alike_withClock cache _
  · exact Alike.refl cache

theorem respects_shardIndex_alike (name : String) :
    Respects (@Alike Value) (shardIndex name) := fun cache =>
  ends_shardIndex (fun _ => alike_noted cache _) (Alike.refl cache)

theorem respects_getFrom_alike
    (settings : Settings) (index : Nat) (name : String) :
    Respects (@Alike Value) (getFrom settings index name) := by
  intro cache
  rw [getFrom, ends_bind, ends_shardAt]
  split
  next shard seat =>
    rw [ends_bind, ends_readClock]
    split
    next first clock _ =>
      split
      · exact alike_withClock cache clock
      · rw [ends_bind, ends_readClock]
        split
        next second later _ =>
          have seatLater :
              ((cache.withClock clock).withClock later).shards[index]? =
                some shard := seat
          have unread : Alike cache
              ((cache.withClock clock).withClock later) :=
            Alike.of_eq rfl rfl
          simp only [ends_bind, ends_putShard, ends_pure]
          exact unread.trans <| Alike.withShard seatLater <|
            shard.alike_elect settings.refresh name second
        next fault later _ => exact Alike.of_eq rfl rfl
    next fault clock _ => exact alike_withClock cache clock
  next => exact Alike.refl cache

theorem respects_recordLookup_alike (lookup : Lookup Value) :
    Respects Alike (recordLookup lookup) := by
  have refreshing : Respects Alike
      (do if lookup.refreshes then record .refresh : Action Value PUnit) :=
    (respects_record_alike .refresh).ite (respects_pure _)
  cases lookup with
  | absent =>
      exact (respects_record_alike .miss).bind fun _ => refreshing
  | found value refresh =>
      exact (respects_record_alike .hit).bind fun _ => refreshing
  | missing refresh =>
      exact (respects_record_alike .missingHit).bind fun _ => refreshing

theorem respects_lookup_alike (settings : Settings) (name : String) :
    Respects (@Alike Value) (lookup settings name) :=
  (respects_shardIndex_alike name).bind fun index =>
    (respects_getFrom_alike settings index name).bind fun found =>
      (respects_recordLookup_alike found).bind fun _ => respects_pure found

theorem respects_peek_alike (name : String) :
    Respects (@Alike Value) (peek name) := by
  refine (respects_shardIndex_alike name).bind fun index => ?_
  refine (respects_shardAt index).bind fun shard => ?_
  exact (respects_readClock_alike.bind fun _ => respects_pure _).ite
    (respects_pure _)

theorem respects_keysOf_alike (index : Nat) :
    Respects (@Alike Value) (keysOf index) :=
  (respects_shardAt index).bind fun _ =>
    respects_readClock_alike.bind fun _ => respects_pure _

/-! ## The reading that decides a lookup -/

/-- The reading of the clock by which a lookup of a name is decided: the first
one, or the second when the entry turns out to be due at the first. -/
def deciding (cache : Cache Value) (name : String) :
    Except Fault Instant :=
  match cache.clock.read with
  | (.error fault, _) => .error fault
  | (.ok first, clock) =>
      if (cache.shards[cache.route name]?).any
          (fun shard => (shard.glance name first).isNone) then
        clock.read.1
      else
        .ok first

section Lookup

variable {settings : Settings} {cache : Cache Value} {name : String}
  {shard : Shard Value}

theorem ends_recordLookup
    {found : Lookup Value} {accepts : PUnit → Cache Value → Prop}
    {breaks : Fault → Cache Value → Prop}
    (counted : ∀ next : Cache Value, next.shards = cache.shards →
      next.routes = cache.routes → next.clock = cache.clock →
        accepts ⟨⟩ next) :
    Ends (recordLookup found) cache accepts breaks := by
  have refreshing : ∀ event : Event,
      Ends (do if found.refreshes then record .refresh : Action Value PUnit)
        (cache.noted event) accepts breaks := by
    intro event
    rw [ends_ite]
    split
    · exact counted _ rfl rfl rfl
    · exact counted _ rfl rfl rfl
  cases found with
  | absent => exact ends_bind.mpr (refreshing .miss)
  | found value refresh => exact ends_bind.mpr (refreshing .hit)
  | missing refresh => exact ends_bind.mpr (refreshing .missingHit)

/-- A lookup is a read of the shard that the name is routed to, followed by
counting. -/
theorem ends_lookup_of_getFrom
    (seat : cache.shards[cache.route name]? = some shard)
    {accepts : Lookup Value → Prop}
    (read : ∀ routed : Cache Value, routed.shards = cache.shards →
      routed.clock = cache.clock →
        Ends (getFrom settings (cache.route name) name) routed
          (fun found _ => accepts found) (fun _ _ => False)) :
    Ends (lookup settings name) cache
      (fun found _ => accepts found) (fun _ _ => False) := by
  rw [lookup, ends_bind, ends_shardIndex_of_seat seat, ends_bind]
  refine (read (cache.noted _) rfl rfl).weaken ?_ fun _ _ => id
  intro found next accepted
  rw [ends_bind]
  exact ends_recordLookup fun _ _ _ _ => accepted

theorem ends_lookup_of_glance
    (seat : cache.shards[cache.route name]? = some shard)
    {now : Instant} {answer : Lookup Value}
    (reading : cache.clock.read.1 = .ok now)
    (glance : shard.glance name now = some answer) :
    Ends (lookup settings name) cache
      (fun found _ => found = answer) (fun _ _ => False) := by
  refine ends_lookup_of_getFrom seat fun routed shards clock => ?_
  rw [getFrom, ends_bind, ends_shardAt, shards, seat]
  simp only [ends_bind, ends_readClock, clock]
  generalize cache.clock.read = outcome at reading ⊢
  obtain ⟨first, later⟩ := outcome
  cases reading
  simp only [glance, ends_pure]

/-- A lookup finds what the name shows, at the reading that decides it, in the
shard that it is routed to. -/
theorem ends_lookup_of_deciding
    (seat : cache.shards[cache.route name]? = some shard)
    {now : Instant} (decided : cache.deciding name = .ok now) :
    Ends (lookup settings name) cache
      (fun found _ => found.content = shard.seen name now)
      (fun _ _ => False) := by
  refine ends_lookup_of_getFrom seat fun routed shards clock => ?_
  rw [getFrom, ends_bind, ends_shardAt, shards, seat]
  simp only [ends_bind, ends_readClock, clock]
  rw [deciding] at decided
  rw [seat] at decided
  generalize cache.clock.read = outcome at decided ⊢
  obtain ⟨first | first, later⟩ := outcome
  · cases decided
  · simp only [Option.any_some] at decided ⊢
    cases glance : shard.glance name first with
    | some answer =>
        simp only [glance, Option.isNone_some, Bool.false_eq_true,
          if_false] at decided
        cases decided
        exact Shard.content_of_glance glance
    | none =>
        simp only [glance, Option.isNone_none, if_true] at decided
        simp only [ends_bind, ends_readClock, clock_withClock]
        generalize later.read = second at decided ⊢
        obtain ⟨again, last⟩ := second
        cases decided
        exact shard.content_elect settings.refresh name now

/-- Nobody is elected where nothing is refreshed. -/
theorem ends_lookup_unelected
    (unrefreshed : settings.refresh = none) (cache : Cache Value)
    (name : String) :
    Ends (lookup settings name) cache
      (fun found _ => found.refreshes = false) (fun _ _ => True) := by
  rw [lookup, ends_bind]
  refine ends_shardIndex (fun _ => ?_) trivial
  rw [ends_bind, getFrom, ends_bind, ends_shardAt, unrefreshed]
  split
  next shard seat =>
    rw [ends_bind, ends_readClock]
    split
    next first clock _ =>
      split
      next found glance =>
        rw [ends_pure, ends_bind]
        exact ends_recordLookup fun _ _ _ _ =>
          Shard.refreshes_of_glance glance
      next =>
        rw [ends_bind, ends_readClock]
        split
        · simp only [ends_bind, ends_putShard, ends_pure]
          exact ends_recordLookup fun _ _ _ _ =>
            shard.refreshes_elect_none name _
        · trivial
    next => trivial
  next => trivial

end Lookup

end ReadThrough.Cache
