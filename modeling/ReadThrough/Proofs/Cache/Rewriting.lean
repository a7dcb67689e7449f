import Mathlib.Data.List.TakeWhile
import ReadThrough.Proofs.Cache.Faults
import ReadThrough.Proofs.Cache.Holding
import ReadThrough.Proofs.Cache.Ledger

/-!
# What a write changes

A write that is neither broken off nor dropped `Rewrites` the place of its key.
One shard differs from before, and it is the one that `Shard.rewritten` computes:
what had to make room is gone, and the key holds a fresh entry under the aliases
that the write asks for.

Where refresh times leave nothing to chance, a rewritten shard is rewritten into
itself.  A write that is repeated at the same reading then changes nothing.
-/

namespace ReadThrough

open Std (ExtTreeMap)

/-- The refresh time of an entry follows from the reading at which it is
written. -/
def Settings.FixedRefresh (settings : Settings) : Prop :=
  ∀ window ∈ settings.refresh, window.earliest = window.latest

instance (settings : Settings) : Decidable settings.FixedRefresh :=
  inferInstanceAs (Decidable (∀ window ∈ settings.refresh, _))

/-! ## Rewriting a shard -/

namespace Shard

variable {Value : Type} {shard : Shard Value} {settings : Settings}
  {draft : Draft Value} {now : Instant}

/-- The refresh time of an entry that is written at an instant. -/
def refreshTime
    (shard : Shard Value) (refresh : Option RefreshWindow) (now : Instant) :
    Option Instant :=
  refresh.map fun window =>
    deadline now (window.earliest +
      (shard.takePadding (window.latest - window.earliest)).1)

/-- The shard after the padding of a refresh time has been taken from it. -/
def padded (shard : Shard Value) (refresh : Option RefreshWindow) :
    Shard Value :=
  (refresh.map fun window =>
    (shard.takePadding (window.latest - window.earliest)).2).getD shard

/-- The entry that a draft becomes when it is written to a shard at an
instant. -/
def freshEntry
    (settings : Settings) (draft : Draft Value) (now : Instant)
    (shard : Shard Value) : Entry Value :=
  .fresh draft.key draft.value (deadline now settings.timeToLive)
    ((shard.cleared settings.evictionPercentage draft.key).refreshTime
      settings.refresh now)

/-- The shard after a draft has been written to it at an instant. -/
def rewritten
    (settings : Settings) (draft : Draft Value) (now : Instant)
    (shard : Shard Value) : Shard Value :=
  ((shard.cleared settings.evictionPercentage draft.key).padded
    settings.refresh).upsert (shard.freshEntry settings draft now)
      draft.aliases

@[simp]
theorem key_freshEntry :
    (shard.freshEntry settings draft now).key = draft.key := rfl

theorem padded_rest (refresh : Option RefreshWindow) :
    shard.padded refresh =
      { shard with paddings := (shard.padded refresh).paddings } := by
  cases refresh with
  | none => rfl
  | some window =>
      rw [padded, Option.map_some, Option.getD_some, takePadding]
      split
      · rfl
      · split
        · rfl
        · rfl

theorem Coherent.padded
    (coherent : shard.Coherent) (refresh : Option RefreshWindow) :
    (shard.padded refresh).Coherent := by
  rw [padded_rest]
  exact ⟨coherent.keyed, coherent.inverse, coherent.listed⟩

@[simp]
theorem held_padded (refresh : Option RefreshWindow) (key : String) :
    (shard.padded refresh).held key = shard.held key := by
  rw [padded_rest]
  rfl

@[simp]
theorem keyOfAlias_padded (refresh : Option RefreshWindow) :
    (shard.padded refresh).keyOfAlias = shard.keyOfAlias := by
  rw [padded_rest]

theorem exists_padding_of_refreshTime
    {window : RefreshWindow} (set : settings.refresh = some window) :
    ∃ padding, (padding = 0 ∨ padding < window.latest - window.earliest) ∧
      shard.refreshTime settings.refresh now =
        some (deadline now (window.earliest + padding)) := by
  refine ⟨_, ?_, by rw [refreshTime, set, Option.map_some]⟩
  by_cases narrow : window.latest - window.earliest = 0
  · left
    rw [takePadding, if_pos narrow]
  · exact .inr (takePadding_lt narrow)

section Coherent

variable (coherent : shard.Coherent)

include coherent

/-- Of a rewritten shard the written key holds the fresh entry and the aliases
that were asked for.  Every other key holds what it held, or had to make room. -/
theorem held_rewritten (key : String) :
    (shard.rewritten settings draft now).held key =
      if draft.key = key then
        some (shard.freshEntry settings draft now,
          boundAliases draft.key draft.aliases)
      else if key ∈ shard.evictees settings.evictionPercentage draft.key then
        none
      else shard.held key := by
  have roomy := (coherent.eraseAll
    (shard.evictees settings.evictionPercentage draft.key)).padded
      settings.refresh
  rw [rewritten, cleared, held_upsert roomy, key_freshEntry, held_padded,
    held_eraseAll coherent]

/-- The aliases that were asked for lead to the written key.  Those that it had
besides are unbound, and so are those of the keys that had to make room. -/
theorem keyOfAlias_rewritten_eq_some_iff (name owner : String) :
    (shard.rewritten settings draft now).keyOfAlias[name]? = some owner ↔
      if name ∈ boundAliases draft.key draft.aliases then owner = draft.key
      else shard.keyOfAlias[name]? = some owner ∧ owner ≠ draft.key ∧
        owner ∉ shard.evictees settings.evictionPercentage draft.key := by
  have roomy := (coherent.eraseAll
    (shard.evictees settings.evictionPercentage draft.key)).padded
      settings.refresh
  have stays := keyOfAlias_eraseAll_eq_some_iff coherent
    (shard.evictees settings.evictionPercentage draft.key) name
  rw [rewritten, cleared, getElem?_keyOfAlias_upsert roomy, key_freshEntry,
    keyOfAlias_padded]
  split
  · rw [Option.some.injEq, eq_comm]
  · split
    next own =>
      simp only [reduceCtorEq, false_iff, not_and, not_not]
      intro bound apart
      rw [stays] at own
      exact absurd (Option.some.inj (bound.symm.trans own.1)) apart
    next other =>
      rw [stays]
      refine and_congr_right fun bound => ?_
      refine ⟨fun kept => ⟨?_, kept⟩, And.right⟩
      rintro rfl
      exact other ((stays _).mpr ⟨bound, kept⟩)

end Coherent

/-! ## Rewriting a shard twice -/

theorem eq_of_parts {left right : Shard Value}
    (capacity : left.capacity = right.capacity)
    (entries : left.entries = right.entries)
    (keyOfAlias : left.keyOfAlias = right.keyOfAlias)
    (aliasesOfKey : left.aliasesOfKey = right.aliasesOfKey)
    (paddings : left.paddings = right.paddings) : left = right := by
  cases left
  cases right
  simp_all

theorem paddings_upsert (entry : Entry Value) (aliases : List String) :
    (shard.upsert entry aliases).paddings = shard.paddings := by
  have same : (shard.erase entry.key).paddings = shard.paddings := by
    rw [erase]
    split
    · rfl
    · rfl
  exact same

theorem upsert_upsert
    {entry : Entry Value} {aliases : List String}
    (coherent : shard.Coherent)
    (written : (shard.upsert entry aliases).Coherent) :
    (shard.upsert entry aliases).upsert entry aliases =
      shard.upsert entry aliases := by
  apply eq_of_parts
  · rw [capacity_upsert]
  · apply ExtTreeMap.ext_getElem?
    intro key
    rw [entries_upsert, ExtTreeMap.getElem?_insert]
    split
    next same =>
      rw [entries_upsert, ExtTreeMap.getElem?_insert, if_pos same]
    next => rfl
  · apply ExtTreeMap.ext_getElem?
    intro name
    rw [getElem?_keyOfAlias_upsert written]
    split
    next asked => rw [getElem?_keyOfAlias_upsert coherent, if_pos asked]
    next unasked =>
      rw [getElem?_keyOfAlias_upsert coherent, if_neg unasked]
      split
      · simp
      · simp
  · apply ExtTreeMap.ext_getElem?
    intro key
    rw [getElem?_aliasesOfKey_upsert written]
    split
    next same =>
      rw [getElem?_aliasesOfKey_upsert coherent, if_pos same]
    next => rfl
  · rw [paddings_upsert]

theorem padded_of_fixed (fixed : settings.FixedRefresh) :
    shard.padded settings.refresh = shard := by
  rw [padded]
  cases refresh : settings.refresh with
  | none => rfl
  | some window =>
      rw [Option.map_some, Option.getD_some, fixed window refresh,
        Nat.sub_self]
      rfl

theorem refreshTime_of_fixed
    (fixed : settings.FixedRefresh) (other : Shard Value) :
    shard.refreshTime settings.refresh now =
      other.refreshTime settings.refresh now := by
  rw [refreshTime, refreshTime]
  cases refresh : settings.refresh with
  | none => rfl
  | some window =>
      rw [Option.map_some, Option.map_some, fixed window refresh,
        Nat.sub_self]
      rfl

theorem not_isFullFor_rewritten :
    ¬ (shard.rewritten settings draft now).isFullFor draft.key := by
  rw [isFullFor_iff, rewritten, entries_upsert]
  simp

/-- Writing the same once more at the same instant changes nothing. -/
theorem rewritten_rewritten
    (coherent : shard.Coherent)
    (written : (shard.rewritten settings draft now).Coherent)
    (fixed : settings.FixedRefresh) :
    (shard.rewritten settings draft now).rewritten settings draft now =
      shard.rewritten settings draft now := by
  have again : (shard.rewritten settings draft now).freshEntry settings draft
      now = shard.freshEntry settings draft now := by
    rw [freshEntry, freshEntry, refreshTime_of_fixed fixed]
  have roomy := (coherent.eraseAll
    (shard.evictees settings.evictionPercentage draft.key)).padded
      settings.refresh
  rw [rewritten, cleared_of_room not_isFullFor_rewritten, again,
    padded_of_fixed fixed]
  exact upsert_upsert roomy written

end Shard

/-! ## Rewriting a place -/

namespace Cache

variable {Value : Type} {settings : Settings} {cache before after : Cache Value}
  {draft : Draft Value} {now : Instant} {shard : Shard Value}

/-- The shard of a key is full for it. -/
def IsFullFor (cache : Cache Value) (key : String) : Prop :=
  ∃ shard ∈ cache.shards[cache.route key]?, shard.isFullFor key

instance (cache : Cache Value) (key : String) :
    Decidable (cache.IsFullFor key) :=
  inferInstanceAs (Decidable (∃ shard ∈ cache.shards[cache.route key]?, _))

theorem isFullFor_iff_of_seat {key : String}
    (seat : cache.shards[cache.route key]? = some shard) :
    cache.IsFullFor key ↔ shard.isFullFor key := by
  simp [IsFullFor, seat]

theorem withShard_of_seat {index : Nat}
    (seat : cache.shards[index]? = some shard) :
    cache.withShard index shard = cache := by
  have same : cache.shards.setIfInBounds index shard = cache.shards := by
    apply Array.ext_getElem?
    intro other
    have found := getElem?_shards_withShard seat shard other
    rw [withShard] at found
    rw [found]
    split
    next home => rw [home, seat]
    next => rfl
  rw [withShard, same]

theorem Reseats.noted {index : Nat}
    (reseats : Reseats index shard before after) (event : Event) :
    Reseats index shard before (after.noted event) :=
  reseats.trans (.of_eq reseats.seat rfl rfl)

/-- A write has stored its entry at a reading of the clock, and has changed
nothing but the shard of its key and the routes of its aliases. -/
structure Rewrites
    (settings : Settings) (draft : Draft Value) (now : Instant)
    (before after : Cache Value) : Prop where
  agreed : ¬ before.Conflicts draft
  reading : before.clock.read = (.ok now, after.clock)
  routes : after.routes = before.routesAfter draft
  size : after.shards.size = before.shards.size
  seat : ∀ shard, before.shards[before.route draft.key]? = some shard →
    after.shards[before.route draft.key]? =
      some (shard.rewritten settings draft now)
  others : ∀ index, index ≠ before.route draft.key →
    after.shards[index]? = before.shards[index]?

section Storing

variable {index : Nat}

theorem ends_drawRefreshTime_exactly
    (seat : cache.shards[index]? = some shard)
    (expressible : ∀ window ∈ settings.refresh,
      window.earliest ≤ window.latest ∧ window.latest ≤ Duration.longest)
    (now : Instant) :
    Ends (drawRefreshTime settings.refresh index now) cache
      (fun refreshAt next =>
        refreshAt = shard.refreshTime settings.refresh now ∧
          next = cache.withShard index (shard.padded settings.refresh))
      (fun _ _ => False) := by
  unfold drawRefreshTime
  cases refresh : settings.refresh with
  | none => exact ⟨rfl, (withShard_of_seat seat).symm⟩
  | some window =>
      obtain ⟨ordered, short⟩ := expressible window refresh
      have below := shard.takePadding_le (window.latest - window.earliest)
      have padded : window.earliest +
          (shard.takePadding (window.latest - window.earliest)).1 ≤
            Duration.longest := by
        apply Nat.le_trans (Nat.add_le_add_left below window.earliest)
        rwa [Nat.add_sub_cancel' ordered]
      rw [ends_bind, ends_shardAt, seat]
      simp only [ends_bind, ends_putShard, ends_pure,
        if_neg (Nat.not_lt.mpr padded)]
      exact ⟨rfl, rfl⟩

/-- A write to a shard that does not drop it puts the rewritten shard in its
place, unless the clock cannot be read. -/
theorem ends_writeTo_exactly
    (seat : cache.shards[index]? = some shard)
    (expressible : ∀ window ∈ settings.refresh,
      window.earliest ≤ window.latest ∧ window.latest ≤ Duration.longest)
    (kept : ¬ shard.Refuses settings.evictionPercentage draft.key) :
    Ends (writeTo settings index draft.key draft.value draft.aliases) cache
      (fun evicted next => evicted = shard.isFullFor draft.key ∧
        ∃ now, cache.clock.read = (.ok now, next.clock) ∧
          Reseats index (shard.rewritten settings draft now) cache next)
      (fun fault _ => cache.clock.read.1 = .error fault) := by
  rw [writeTo, ends_bind, ends_shardAt, seat]
  simp only [ends_ite, ends_pure]
  split
  next refuses => exact absurd refuses kept
  next =>
    simp only [ends_bind, ends_putShard, ends_readClock, clock_withShard]
    generalize cache.clock.read = outcome
    obtain ⟨fault | now, clock⟩ := outcome
    · rfl
    · have cleared : Reseats index
          (shard.cleared settings.evictionPercentage draft.key) cache
          ((cache.withShard index (shard.cleared settings.evictionPercentage
            draft.key)).withClock clock) :=
        (Reseats.of_withShard seat).trans
          (.of_eq (Reseats.of_withShard seat).seat rfl rfl)
      refine (ends_drawRefreshTime_exactly cleared.seat expressible
        now).weaken ?_ fun _ _ => False.elim
      rintro refreshAt drawn ⟨rfl, rfl⟩
      have padded : Reseats index
          ((shard.cleared settings.evictionPercentage draft.key).padded
            settings.refresh) cache _ :=
        cleared.trans (.of_withShard cleared.seat)
      have stored : Reseats index (shard.rewritten settings draft now) cache
          _ := padded.trans (.of_withShard padded.seat)
      rw [ends_shardAt, padded.seat]
      simp only [ends_bind, ends_ite, ends_record, ends_pure]
      split
      · split
        · exact ⟨trivial, now, rfl, (stored.noted _).noted _⟩
        · exact ⟨trivial, now, rfl, stored.noted _⟩
      · exact ⟨trivial, now, rfl, stored⟩

end Storing

/-- A write that is not dropped stores its entry, unless one of its aliases
conflicts or the clock cannot be read. -/
theorem ends_writeDraft_rewrites
    (coherent : before.Coherent)
    (expressible : ∀ window ∈ settings.refresh,
      window.earliest ≤ window.latest ∧ window.latest ≤ Duration.longest)
    (kept : ¬ before.Drops settings draft.key) :
    Ends (writeDraft settings draft) before
      (fun evicted after => (evicted = true ↔ before.IsFullFor draft.key) ∧
        ∃ now, Rewrites settings draft now before after)
      (fun fault _ => before.Conflicts draft ∨
        before.clock.read.1 = .error fault) := by
  obtain ⟨shard, seat⟩ := coherent.seat draft.key
  have listed : Listed (before.route draft.key) shard
      (before.noted (.routed (before.route draft.key))) :=
    ⟨seat, fun bound => coherent.routed seat bound⟩
  have room : ¬ shard.Refuses settings.evictionPercentage draft.key :=
    fun refuses => kept ((drops_iff_of_seat seat).mpr refuses)
  rw [writeDraft, write_eq, ends_bind, ends_shardIndex_of_seat seat, ends_bind]
  refine (ends_registerAliases_exactly listed draft.aliases).weaken ?_ ?_
  · rintro _ claimed ⟨free, rfl⟩
    have agreed : ¬ before.Conflicts draft := by
      rintro ⟨name, member, apart, clash⟩
      exact free name member apart clash
    have claimedSeat := (listed.enrolled
      (before.admitted (before.route draft.key) draft.key
        (draft.aliases.filter (· ≠ draft.key)))).seat
    refine (ends_writeTo_exactly claimedSeat expressible room).weaken ?_
      fun _ _ => Or.inr
    rintro evicted after ⟨rfl, now, reading, reseats⟩
    refine ⟨(isFullFor_iff_of_seat seat).symm, now, agreed, reading,
      reseats.routes, reseats.size, ?_, fun index apart =>
        reseats.others apart⟩
    intro found foundSeat
    cases seat.symm.trans foundSeat
    exact reseats.seat
  · rintro fault next ⟨_, conflicts, _⟩
    exact .inl conflicts

namespace Rewrites

variable (rewrites : Rewrites settings draft now before after)

include rewrites

theorem route_key : after.route draft.key = before.route draft.key := by
  rw [route, rewrites.routes, rewrites.size, getElem?_routesAfter_key]
  rfl

/-- The aliases of a written draft are routed to its key's shard. -/
theorem registered
    {name : String} (asked : name ∈ draft.aliases)
    (apart : name ≠ draft.key) :
    after.routes[name]? = some (before.route draft.key) := by
  have free : ∀ name ∈ draft.aliases.filter (· ≠ draft.key),
      ¬ before.Clashes (before.route draft.key) draft.key name := by
    intro name member clash
    obtain ⟨asked, apart⟩ := List.mem_filter.mp member
    exact rewrites.agreed ⟨name, asked, of_decide_eq_true apart, clash⟩
  have listed : name ∈ draft.aliases.filter (· ≠ draft.key) :=
    List.mem_filter.mpr ⟨asked, decide_eq_true apart⟩
  have all : before.admitted (before.route draft.key) draft.key
      (draft.aliases.filter (· ≠ draft.key)) =
        draft.aliases.filter (· ≠ draft.key) :=
    List.takeWhile_eq_self_iff.mpr fun name member =>
      decide_eq_true (free name member)
  rw [rewrites.routes, routesAfter, getElem?_enroll, all]
  split
  · rfl
  next known =>
    cases found : before.routes[name]? with
    | none =>
        have vacant : name ∉ before.routes := by simpa using found
        exact absurd ⟨listed, vacant⟩ known
    | some owner =>
        have home : owner = before.route draft.key :=
          Decidable.by_contra fun elsewhere =>
            free name listed (.inl ⟨owner, found, elsewhere⟩)
        rw [home]

/-- No route is registered that is not there already. -/
theorem routesAfter_eq : after.routesAfter draft = after.routes := by
  rw [routesAfter, enroll_eq_self_iff]
  intro name member
  have kept := (List.takeWhile_subset _) member
  obtain ⟨asked, apart⟩ := List.mem_filter.mp kept
  have found := rewrites.registered asked (of_decide_eq_true apart)
  exact (ExtTreeMap.getElem?_eq_some_iff.mp found).1

variable (coherent : before.Coherent)

include coherent

/-- What the places hold after a write. -/
theorem held
    (seat : before.shards[before.route draft.key]? = some shard)
    (place : Nat × String) :
    after.held place =
      if place = (before.route draft.key, draft.key) then
        some (shard.freshEntry settings draft now,
          Shard.boundAliases draft.key draft.aliases)
      else if before.Evicts settings draft.key place then none
      else before.held place := by
  obtain ⟨index, key⟩ := place
  by_cases home : index = before.route draft.key
  · subst home
    rw [held_of_seat (rewrites.seat shard seat), held_of_seat seat,
      Shard.held_rewritten (coherent.shards seat)]
    simp [Evicts, evictees_of_seat seat, eq_comm]
  · have away : (index, key) ≠ (before.route draft.key, draft.key) :=
      fun same => home (congrArg Prod.fst same)
    have spared : ¬ before.Evicts settings draft.key (index, key) :=
      fun evicted => home evicted.1
    rw [if_neg away, if_neg spared]
    exact held_eq_of_shards (rewrites.others index home)

/-- What the aliases are bound to after a write. -/
theorem binds (index : Nat) (name owner : String) :
    after.bound? index name = some owner ↔
      if index = before.route draft.key ∧ name ∈ draft.aliases ∧
          name ≠ draft.key then
        owner = draft.key
      else before.bound? index name = some owner ∧
        (index, owner) ≠ (before.route draft.key, draft.key) ∧
          ¬ before.Evicts settings draft.key (index, owner) := by
  obtain ⟨shard, seat⟩ := coherent.seat draft.key
  by_cases home : index = before.route draft.key
  · subst home
    rw [bound?_of_seat (rewrites.seat shard seat), bound?_of_seat seat,
      Shard.keyOfAlias_rewritten_eq_some_iff (coherent.shards seat)]
    simp [Evicts, evictees_of_seat seat]
  · have away : ∀ owner : String,
        (index, owner) ≠ (before.route draft.key, draft.key) :=
      fun owner same => home (congrArg Prod.fst same)
    have spared : ¬ before.Evicts settings draft.key (index, owner) :=
      fun evicted => home evicted.1
    rw [if_neg fun own => home own.1, bound?, bound?,
      rewrites.others index home]
    simp [away owner, spared]

/-! ## Writing twice -/

/-- What has just been written does not conflict when it is written again. -/
theorem not_conflicts : ¬ after.Conflicts draft := by
  rintro ⟨name, asked, apart, ⟨owner, routed, elsewhere⟩ |
    ⟨shard, seat, owner, bound, other⟩⟩
  · have home := rewrites.registered asked apart
    rw [Option.mem_def, home] at routed
    exact elsewhere ((Option.some.inj routed).symm.trans
      rewrites.route_key.symm)
  · rw [Option.mem_def] at seat bound
    rw [← bound?_of_seat seat, rewrites.binds coherent, rewrites.route_key,
      if_pos ⟨rfl, asked, apart⟩] at bound
    exact other bound

/-- A write that is repeated at the same reading returns and changes nothing but
the clock and the journal. -/
theorem ends_again
    (coherentAfter : after.Coherent)
    (expressible : ∀ window ∈ settings.refresh,
      window.earliest ≤ window.latest ∧ window.latest ≤ Duration.longest)
    (fixed : settings.FixedRefresh)
    {clock : Clock} (reading : clock.read.1 = .ok now) :
    Ends (writeDraft settings draft) (after.withClock clock)
      (fun evicted last => evicted = false ∧
        last = { after with
          clock := clock.read.2
          journal := last.journal })
      (fun _ _ => False) := by
  obtain ⟨shard, seat⟩ := coherent.seat draft.key
  have written := rewrites.seat shard seat
  have here : (after.withClock clock).shards[(after.withClock clock).route
      draft.key]? = some (shard.rewritten settings draft now) := by
    rw [← rewrites.route_key] at written
    exact written
  have room : ¬ (after.withClock clock).IsFullFor draft.key := fun full =>
    Shard.not_isFullFor_rewritten ((isFullFor_iff_of_seat here).mp full)
  have kept : ¬ (after.withClock clock).Drops settings draft.key := fun drops =>
    Shard.not_isFullFor_rewritten ((drops_iff_of_seat here).mp drops).1
  have agreed : ¬ (after.withClock clock).Conflicts draft :=
    rewrites.not_conflicts coherent
  have coherentHere : (after.withClock clock).Coherent :=
    (alike_withClock after clock).coherent coherentAfter
  refine ((ends_writeDraft_rewrites coherentHere expressible kept).and
    (ends_write_counters here)).weaken ?_ ?_
  · rintro evicted last ⟨⟨full, later, twice⟩, counted⟩
    have spared : evicted = false := by
      rw [← Bool.not_eq_true]
      exact fun evicts => room (full.mp evicts)
    refine ⟨spared, ?_⟩
    have same : later = now := by
      have shown := congrArg Prod.fst twice.reading
      rw [show (after.withClock clock).clock = clock from rfl, reading]
        at shown
      exact (Except.ok.inj shown).symm
    subst same
    have shards : last.shards = after.shards := by
      apply Array.ext_getElem?
      intro index
      by_cases home : index = (after.withClock clock).route draft.key
      · have itself := Shard.rewritten_rewritten (coherent.shards seat)
          (coherentHere.shards here) fixed
        rw [home, twice.seat _ here, itself, ← here]
        rfl
      · exact twice.others index home
    have routes : last.routes = after.routes :=
      twice.routes.trans rewrites.routesAfter_eq
    have counters : last.counters = after.counters := by
      rw [counted, spared]
      rfl
    have moved : last.clock = clock.read.2 :=
      (congrArg Prod.snd twice.reading).symm
    rw [← shards, ← routes, ← counters, ← moved]
  · rintro fault last ⟨conflicts | unread, _⟩
    · exact agreed conflicts
    · cases reading.symm.trans unread

end Rewrites

/-! ## Completed writes -/

/-- An entry is what a write of a draft stores at one reading of the clock. -/
structure IsFresh
    (settings : Settings) (draft : Draft Value) (now : Instant)
    (entry : Entry Value) : Prop where
  key : entry.key = draft.key
  value : entry.value = draft.value
  retries : entry.retries = 0
  expiresAt : entry.expiresAt = deadline now settings.timeToLive
  unscheduled : settings.refresh = none → entry.refreshAt = none
  scheduled : ∀ window, settings.refresh = some window →
    ∃ padding, (padding = 0 ∨ padding < window.latest - window.earliest) ∧
      entry.refreshAt = some (deadline now (window.earliest + padding))

variable (settings draft now shard) in
theorem isFresh_freshEntry :
    IsFresh settings draft now (shard.freshEntry settings draft now) where
  key := rfl
  value := rfl
  retries := rfl
  expiresAt := rfl
  unscheduled none := by
    rw [Shard.freshEntry, Entry.fresh, none]
    rfl
  scheduled _ set := Shard.exists_padding_of_refreshTime set

/-- Whatever has been done to a new cache, a write that is not dropped completes
unless one of its aliases conflicts or the clock cannot be read.  It then has
taken one reading.  The place of its key holds a fresh entry, bound to the
aliases that the write asks for and to no others; what had to make room is gone;
all other places hold what they held, and all other shards are what they were.
Where refresh times are fixed, writing the same at the same reading changes
nothing but the clock and the journal. -/
theorem write_rewrites_one_place [Keyed Value]
    (valid : settings.Valid)
    (expressible : settings.timeToLive ≤ Duration.longest)
    (paddings : Nat → List Nat) (operations : List (Operation Value))
    (draft : Draft Value)
    (kept : ¬ (operate settings (empty settings paddings) operations).Drops
      settings draft.key) :
    let before := operate settings (empty settings paddings) operations
    let home := before.route draft.key
    let own := (home, draft.key)
    let names := Shard.boundAliases draft.key draft.aliases
    Ends (writeDraft settings draft) before
      (fun evicted after =>
        (evicted = true ↔ before.IsFullFor draft.key) ∧
        ∃ (now : Instant) (entry : Entry Value),
          before.clock.read = (.ok now, after.clock) ∧
          IsFresh settings draft now entry ∧
          (∀ place, after.held place =
            if place = own then some (entry, names)
            else if before.Evicts settings draft.key place then none
            else before.held place) ∧
          (∀ place, before.Stores home draft.key ∨
              ¬ before.IsFullFor draft.key →
            ¬ before.Evicts settings draft.key place) ∧
          names.Nodup ∧
          (∀ name, name ∈ names ↔ name ∈ draft.aliases ∧ name ≠ draft.key) ∧
          (∀ name, before.bound? home name = some draft.key →
            name ∉ draft.aliases → after.bound? home name = none) ∧
          (∀ index name owner, after.bound? index name = some owner ↔
            if index = home ∧ name ∈ draft.aliases ∧ name ≠ draft.key then
              owner = draft.key
            else before.bound? index name = some owner ∧
              (index, owner) ≠ own ∧
                ¬ before.Evicts settings draft.key (index, owner)) ∧
          (∀ index, index ≠ home →
            after.shards[index]? = before.shards[index]?) ∧
          (settings.FixedRefresh →
            ∀ clock : Clock, clock.read.1 = .ok now →
              Ends (writeDraft settings draft) (after.withClock clock)
                (fun again last => again = false ∧
                  last = { after with
                    clock := clock.read.2
                    journal := last.journal })
                (fun _ _ => False)))
      (fun fault _ => before.Conflicts draft ∨
        before.clock.read.1 = .error fault) := by
  intro before home own names
  have coherent : before.Coherent :=
    coherent_of_operations valid paddings operations
  have window := valid.window_le expressible
  obtain ⟨shard, seat⟩ := coherent.seat draft.key
  have stays := coherent.ends_of_respects
    (respects_write_runs settings draft.key draft.value draft.aliases)
  refine ((ends_writeDraft_rewrites coherent window kept).and stays).weaken
    ?_ fun _ _ => And.left
  rintro evicted after ⟨⟨full, now, rewrites⟩, coherentAfter⟩
  refine ⟨full, now, shard.freshEntry settings draft now, rewrites.reading,
    isFresh_freshEntry _ _ _ _, rewrites.held coherent seat, ?room, ?once,
    fun _ => Shard.mem_boundAliases, ?unbound, rewrites.binds coherent,
    rewrites.others, fun fixed clock reading =>
      rewrites.ends_again coherent coherentAfter window fixed reading⟩
  case room =>
    rintro place roomy ⟨_, evicted⟩
    rw [evictees_of_seat seat, Shard.evictees] at evicted
    split at evicted
    next squeezed =>
      rcases roomy with stored | room
      · exact (Shard.isFullFor_iff.mp squeezed).1
          ((stores_iff_of_seat seat).mp stored)
      · exact room ((isFullFor_iff_of_seat seat).mpr squeezed)
    next => cases evicted
  case once =>
    refine (Shard.boundAliases_sorted _ _).imp ?_
    rintro name other less rfl
    exact String.lt_irrefl name less
  case unbound =>
    intro name bound unasked
    rw [Option.eq_none_iff_forall_ne_some]
    intro owner still
    rw [rewrites.binds coherent, if_neg fun asked => unasked asked.2.1]
      at still
    rw [bound] at still
    exact still.2.1 (congrArg (Prod.mk home) (Option.some.inj still.1).symm)

/-- A key with an alias, in a shard of one entry. -/
def occupied : List (Operation NameTag) :=
  [.act (.write ⟨"a", some ⟨"a", ["t"]⟩, ["t"]⟩)]

/-- A write that evicts the only entry of its shard, with its alias.  Of the
aliases that it asks for one is given twice and one is its own key. -/
theorem write_rewrites_one_place_occupied :
    let settings := Settings.tight 10
    let before := operate settings (empty settings fun _ => []) occupied
    let draft : Draft NameTag := ⟨"b", none, ["u", "b", "u"]⟩
    settings.Valid ∧ settings.timeToLive ≤ Duration.longest ∧
      ¬ before.Drops settings "b" ∧ settings.FixedRefresh ∧
        Ends (writeDraft settings draft) before
          (fun evicted after => evicted = true ∧
            after.held (1, "a") = none ∧
            after.bound? 1 "t" = none ∧
            (∃ entry, entry.retries = 0 ∧
              after.held (1, "b") = some (entry, ["u"])) ∧
            Ends (writeDraft settings draft) after
              (fun again last => again = false ∧
                last.shards = after.shards ∧ last.routes = after.routes)
              (fun _ _ => False))
          (fun _ _ => False) := by
  intro settings before draft
  have valid : settings.Valid := by decide
  have expressible : settings.timeToLive ≤ Duration.longest := by decide
  have kept : ¬ before.Drops settings "b" := by decide +kernel
  have fixed : settings.FixedRefresh := by decide
  have squeezed : before.IsFullFor "b" := by decide +kernel
  have home : before.route "b" = 1 := by decide +kernel
  have evicts : before.Evicts settings "b" (1, "a") := by decide +kernel
  have bound : before.bound? 1 "t" = some "a" := by decide +kernel
  have agreed : ¬ before.Conflicts draft := by decide +kernel
  have still : before.clock.read.2 = before.clock := by decide +kernel
  have readable : before.clock.read.1.isOk = true := by decide +kernel
  refine ⟨valid, expressible, kept, fixed,
    (write_rewrites_one_place valid expressible (fun _ => []) occupied draft
      kept).weaken ?_ ?_⟩
  · rintro evicted after ⟨full, now, entry, reading, fresh, held, _, _, _, _,
      binds, _, again⟩
    refine ⟨full.mpr squeezed, ?_, ?_, ⟨entry, fresh.retries, ?_⟩, ?_⟩
    · have other : ((1, "a") : Nat × String) ≠
          (before.route draft.key, draft.key) := fun same =>
        absurd (congrArg Prod.snd same) (by decide)
      rw [held, if_neg other, if_pos evicts]
    · rw [Option.eq_none_iff_forall_ne_some]
      intro owner still
      rw [binds, if_neg fun asked => absurd asked.2.1 (by decide)] at still
      cases bound.symm.trans still.1
      exact still.2.2 evicts
    · rw [held, if_pos (congrArg (·, "b") home.symm)]
      rfl
    · have same : after.clock = before.clock :=
        (congrArg Prod.snd reading).symm.trans still
      have shown : after.clock.read.1 = .ok now := by
        rw [same, reading]
      refine (again fixed after.clock shown).weaken ?_ fun _ _ => id
      rintro repeated last ⟨spared, left⟩
      rw [left]
      exact ⟨spared, rfl, rfl⟩
  · rintro fault _ (conflicts | unread)
    · exact agreed conflicts
    · rw [unread] at readable
      cases readable

end Cache

end ReadThrough
