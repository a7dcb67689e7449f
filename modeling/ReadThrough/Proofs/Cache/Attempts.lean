import ReadThrough.Proofs.Cache.Coherence

/-!
# Writes that store nothing

A write that ends in a fault, or that is dropped, has gone some way before.  It
has registered its aliases up to the first that clashes, and if it was the clock
that could not be read, it has already made room in a full shard.

`ends_writeDraft` says exactly what such a write leaves behind.  Whether that is
what was there before depends on the `newcomers` among its aliases and on the
`evictees` of its shard.
-/

namespace ReadThrough

open Std (ExtTreeMap)

/-! ## Registering names -/

/-- Routes to a shard for names that have none. -/
def enroll
    (routes : ExtTreeMap String Nat) (index : Nat) (names : List String) :
    ExtTreeMap String Nat :=
  names.foldl (fun routes name => routes.insertIfNew name index) routes

section Enroll

variable {routes : ExtTreeMap String Nat} {index : Nat}
  {names : List String}

theorem enroll_cons (name : String) :
    enroll routes index (name :: names) =
      enroll (routes.insertIfNew name index) index names :=
  rfl

theorem getElem?_enroll (name : String) :
    (enroll routes index names)[name]? =
      if name ∈ names ∧ name ∉ routes then some index
      else routes[name]? := by
  induction names generalizing routes with
  | nil => simp [enroll]
  | cons head tail inductionHypothesis =>
      rw [enroll_cons, inductionHypothesis]
      simp only [ExtTreeMap.getElem?_insertIfNew,
        ExtTreeMap.mem_insertIfNew, Std.compare_eq_iff_eq]
      by_cases first : head = name
      · subst first
        by_cases known : head ∈ routes
        · simp [known]
        · simp [known]
      · simp [first, Ne.symm first]

/-- Nothing is registered exactly when all names are registered before. -/
theorem enroll_eq_self_iff :
    enroll routes index names = routes ↔ ∀ name ∈ names, name ∈ routes := by
  constructor
  · intro unchanged name member
    apply Decidable.by_contra
    intro unknown
    have found : (enroll routes index names)[name]? = some index := by
      rw [getElem?_enroll, if_pos ⟨member, unknown⟩]
    rw [unchanged] at found
    exact unknown (ExtTreeMap.getElem?_eq_some_iff.mp found).1
  · intro known
    apply ExtTreeMap.ext_getElem?
    intro name
    rw [getElem?_enroll]
    apply if_neg
    intro unknown
    exact unknown.2 (known name unknown.1)

end Enroll

namespace Cache

variable {Value : Type}

/-- An alias of a key is registered on another shard than the given one, or is
bound there to another key. -/
def Clashes
    (cache : Cache Value) (index : Nat) (key name : String) : Prop :=
  (∃ owner ∈ cache.routes[name]?, owner ≠ index) ∨
    ∃ shard ∈ cache.shards[index]?,
      ∃ owner ∈ shard.keyOfAlias[name]?, owner ≠ key

instance (cache : Cache Value) (index : Nat) (key name : String) :
    Decidable (cache.Clashes index key name) :=
  inferInstanceAs (Decidable (_ ∨ _))

/-- Some alias of a draft clashes. -/
def Conflicts (cache : Cache Value) (draft : Draft Value) : Prop :=
  ∃ name ∈ draft.aliases, name ≠ draft.key ∧
    cache.Clashes (cache.route draft.key) draft.key name

instance (cache : Cache Value) (draft : Draft Value) :
    Decidable (cache.Conflicts draft) :=
  inferInstanceAs (Decidable (∃ name ∈ draft.aliases, _))

/-- The first of some names, up to the one that clashes. -/
def admitted
    (cache : Cache Value) (index : Nat) (key : String)
    (names : List String) : List String :=
  names.takeWhile fun name => ¬ cache.Clashes index key name

/-- The aliases of a draft that come before the first clash and have never been
registered. -/
def newcomers (cache : Cache Value) (draft : Draft Value) : List String :=
  (cache.admitted (cache.route draft.key) draft.key
    (draft.aliases.filter (· ≠ draft.key))).filter (· ∉ cache.routes)

/-- The keys of the entries that a write would have to evict. -/
def evictees
    (settings : Settings) (cache : Cache Value) (key : String) :
    List String :=
  ((cache.shards[cache.route key]?).map
    (·.evictees settings.evictionPercentage key)).getD []

/-- The cache with names registered on a shard. -/
def enrolled (cache : Cache Value) (index : Nat) (names : List String) :
    Cache Value :=
  { cache with routes := enroll cache.routes index names }

/-! ## The aliases of a write -/

section Aliases

variable {cache : Cache Value} {index : Nat} {key : String}
  {shard : Shard Value}

theorem clashes_iff_of_seat
    (seat : cache.shards[index]? = some shard) {name : String} :
    cache.Clashes index key name ↔
      (∃ owner ∈ cache.routes[name]?, owner ≠ index) ∨
        ∃ owner ∈ shard.keyOfAlias[name]?, owner ≠ key := by
  simp [Clashes, seat]

/-- Registering names on a shard makes no alias clash there. -/
theorem clashes_enrolled (names : List String) (name : String) :
    (cache.enrolled index names).Clashes index key name ↔
      cache.Clashes index key name := by
  have away : (∃ owner ∈ (enroll cache.routes index names)[name]?,
      owner ≠ index) ↔ ∃ owner ∈ cache.routes[name]?, owner ≠ index := by
    rw [getElem?_enroll]
    split
    next unknown =>
      have nothing : cache.routes[name]? = none :=
        ExtTreeMap.getElem?_eq_none unknown.2
      simp [nothing]
    next => exact Iff.rfl
  exact or_congr_left away

theorem admitted_enrolled (names more : List String) :
    (cache.enrolled index more).admitted index key names =
      cache.admitted index key names := by
  unfold admitted
  congr 1
  funext name
  rw [decide_eq_decide, clashes_enrolled]

/-- What the loop over the aliases relies on. -/
structure Listed (index : Nat) (shard : Shard Value) (cache : Cache Value) :
    Prop where
  seat : cache.shards[index]? = some shard
  bound : ∀ {name owner : String}, shard.keyOfAlias[name]? = some owner →
    cache.routes[name]? = some index

theorem Listed.enrolled
    (listed : Listed index shard cache) (names : List String) :
    Listed index shard (cache.enrolled index names) where
  seat := listed.seat
  bound {name owner} found := by
    have known := listed.bound found
    have member : name ∈ cache.routes :=
      (ExtTreeMap.getElem?_eq_some_iff.mp known).1
    have kept : (enroll cache.routes index names)[name]? =
        cache.routes[name]? := by
      rw [getElem?_enroll]
      apply if_neg
      exact fun unknown => unknown.2 member
    exact kept.trans known

theorem ends_registerAlias_exactly
    (listed : Listed index shard cache) (name : String) :
    Ends (registerAlias key index name) cache
      (fun _ next => ¬ cache.Clashes index key name ∧
        next = cache.enrolled index [name])
      (fun fault next => fault.IsAliasConflict ∧
        cache.Clashes index key name ∧ next = cache) := by
  rw [clashes_iff_of_seat listed.seat]
  simp only [registerAlias, ends_bind, ends_get]
  cases found : cache.routes[name]? with
  | some owner =>
      have known : name ∈ cache.routes :=
        (ExtTreeMap.getElem?_eq_some_iff.mp found).1
      have same : cache.enrolled index [name] = cache := by
        have unchanged : enroll cache.routes index [name] = cache.routes := by
          rw [enroll_eq_self_iff]
          intro other member
          rwa [List.mem_singleton.mp member]
        rw [enrolled, unchanged]
      by_cases home : owner = index
      · subst home
        simp only [ne_eq, not_true_eq_false, if_false, ends_pure, ends_bind,
          ends_shardAt, listed.seat, ends_ite, ends_throw]
        cases bound : shard.keyOfAlias[name]? with
        | none => simp [same]
        | some holder =>
            by_cases own : holder = key
            · simp [own, same]
            · simp [own, Fault.IsAliasConflict]
      · simp [home, Fault.IsAliasConflict]
  | none =>
      have unbound : shard.keyOfAlias[name]? = none := by
        cases bound : shard.keyOfAlias[name]? with
        | none => rfl
        | some holder =>
            rw [listed.bound bound] at found
            cases found
      have inserted : cache.routes.insert name index =
          cache.routes.insertIfNew name index := by
        have unknown : name ∉ cache.routes := by simpa using found
        apply ExtTreeMap.ext_getElem?
        intro other
        rw [ExtTreeMap.getElem?_insert, ExtTreeMap.getElem?_insertIfNew]
        simp [unknown]
      simp only [ends_set, ends_bind, ends_shardAt, listed.seat, ends_ite,
        ends_throw, ends_pure, unbound, Option.any_none,
        Bool.false_eq_true, if_false, inserted]
      refine ⟨?_, rfl⟩
      simp

/-- Aliases are registered one after the other up to the first that clashes. -/
theorem ends_registerAliases_exactly
    (listed : Listed index shard cache) (aliases : List String) :
    Ends (registerAliases key index aliases) cache
      (fun _ next =>
        (∀ name ∈ aliases, name ≠ key → ¬ cache.Clashes index key name) ∧
          next = cache.enrolled index
            (cache.admitted index key (aliases.filter (· ≠ key))))
      (fun fault next => fault.IsAliasConflict ∧
        (∃ name ∈ aliases, name ≠ key ∧ cache.Clashes index key name) ∧
          next = cache.enrolled index
            (cache.admitted index key (aliases.filter (· ≠ key)))) := by
  rw [registerAliases]
  -- Every alias is registered in the cache that the ones before have left; there
  -- the same aliases clash as at first.
  induction aliases generalizing cache with
  | nil => exact ⟨by simp, rfl⟩
  | cons head tail inductionHypothesis =>
      by_cases own : head = key
      · rw [List.filter_cons_of_neg (by simpa using own)]
        refine (inductionHypothesis listed).weaken ?_ ?_
        · intro _ next ended
          simpa [own] using ended
        · intro fault next ended
          simpa [own] using ended
      · rw [List.filter_cons_of_pos (by simpa using own), List.forM,
          ends_bind]
        refine (ends_registerAlias_exactly listed head).weaken ?_ ?_
        · intro _ middle registered
          obtain ⟨free, rfl⟩ := registered
          have admits : cache.admitted index key
              (head :: tail.filter (· ≠ key)) =
                head :: cache.admitted index key (tail.filter (· ≠ key)) := by
            simp [admitted, free]
          have merged : (cache.enrolled index [head]).enrolled index
              (cache.admitted index key (tail.filter (· ≠ key))) =
                cache.enrolled index (head ::
                  cache.admitted index key (tail.filter (· ≠ key))) :=
            rfl
          have rest := inductionHypothesis (listed.enrolled [head])
          simp only [clashes_enrolled, admitted_enrolled, merged] at rest
          rw [admits]
          refine rest.weaken ?_ ?_
          · intro _ next ended
            simpa [own, free] using ended
          · intro fault next ended
            simpa [own, free] using ended
        · intro fault next broken
          obtain ⟨conflict, clash, rfl⟩ := broken
          refine ⟨conflict, ⟨head, by simp, own, clash⟩, ?_⟩
          simp [admitted, clash, enrolled, enroll]

end Aliases

/-! ## Storing -/

section Storing

variable {settings : Settings} {cache : Cache Value} {index : Nat}
  {shard : Shard Value}

theorem ends_drawRefreshTime_safely
    (seat : cache.shards[index]? = some shard)
    (expressible : ∀ window ∈ settings.refresh,
      window.earliest ≤ window.latest ∧ window.latest ≤ Duration.longest)
    (now : Instant) :
    Ends (drawRefreshTime settings.refresh index now) cache
      (fun _ next => ∃ drawn, next.shards[index]? = some drawn)
      (fun _ _ => False) := by
  unfold drawRefreshTime
  cases refresh : settings.refresh with
  | none => exact ⟨shard, seat⟩
  | some window =>
      obtain ⟨ordered, short⟩ := expressible window refresh
      have below := shard.takePadding_le (window.latest - window.earliest)
      have padded : window.earliest +
          (shard.takePadding (window.latest - window.earliest)).1 ≤
            Duration.longest := by
        apply Nat.le_trans (Nat.add_le_add_left below window.earliest)
        rwa [Nat.add_sub_cancel' ordered]
      rw [ends_bind, ends_shardAt, seat]
      simp only [ends_bind, ends_putShard, ends_pure,
        if_neg (Nat.not_lt.mpr padded)]
      exact ⟨_, (getElem?_shards_withShard seat _ index).trans (if_pos rfl)⟩

/-- A write to a shard that stores nothing is dropped, or meets a clock that
cannot be read after making room. -/
theorem ends_writeTo_unstored
    (seat : cache.shards[index]? = some shard)
    (expressible : ∀ window ∈ settings.refresh,
      window.earliest ≤ window.latest ∧ window.latest ≤ Duration.longest)
    (key : String) (value : Option Value) (aliases : List String) :
    Ends (writeTo settings index key value aliases) cache
      (fun evicted next =>
        shard.Refuses settings.evictionPercentage key →
          evicted = false ∧ next = cache)
      (fun fault next =>
        ¬ shard.Refuses settings.evictionPercentage key ∧
          cache.clock.read = (.error fault, next.clock) ∧
            next = (cache.withShard index
              (shard.cleared settings.evictionPercentage key)).withClock
                next.clock) := by
  rw [writeTo, ends_bind, ends_shardAt, seat]
  simp only [ends_ite, ends_pure]
  split
  next => exact fun _ => ⟨trivial, trivial⟩
  next room =>
    simp only [ends_bind, ends_putShard, ends_readClock, clock_withShard]
    generalize reading : cache.clock.read = outcome
    obtain ⟨fault | now, clock⟩ := outcome
    · exact ⟨room, rfl, rfl⟩
    · have roomySeat :
          ((cache.withShard index
            (shard.cleared settings.evictionPercentage key)).withClock
              clock).shards[index]? =
            some (shard.cleared settings.evictionPercentage key) :=
        (getElem?_shards_withShard seat _ index).trans (if_pos rfl)
      refine (ends_drawRefreshTime_safely roomySeat expressible now).weaken
        ?_ fun _ _ => False.elim
      intro refreshAt drawnCache drawn
      obtain ⟨roomy, drawnSeat⟩ := drawn
      simp only [ends_shardAt, drawnSeat, ends_bind, ends_ite, ends_record,
        ends_pure]
      split
      · split
        · exact fun refused => absurd refused room
        · exact fun refused => absurd refused room
      · exact fun refused => absurd refused room

end Storing

/-! ## Whole writes -/

/-- The routes after the aliases of a draft have been registered up to the first
that clashes. -/
def routesAfter (cache : Cache Value) (draft : Draft Value) :
    ExtTreeMap String Nat :=
  enroll cache.routes (cache.route draft.key)
    (cache.admitted (cache.route draft.key) draft.key
      (draft.aliases.filter (· ≠ draft.key)))

/-- The key of a draft is not registered as one of its aliases. -/
theorem getElem?_routesAfter_key (cache : Cache Value) (draft : Draft Value) :
    (cache.routesAfter draft)[draft.key]? = cache.routes[draft.key]? := by
  have unasked : draft.key ∉ cache.admitted (cache.route draft.key) draft.key
      (draft.aliases.filter (· ≠ draft.key)) := by
    intro member
    have asked := (List.takeWhile_sublist _).subset member
    simp at asked
  rw [routesAfter, getElem?_enroll]
  exact if_neg fun unknown => unasked unknown.1

/-- A write has been refused: all that it left behind is in the routes and in the
journal. -/
structure Refused (draft : Draft Value) (before after : Cache Value) :
    Prop where
  shards : after.shards = before.shards
  routes : after.routes = before.routesAfter draft
  counters : after.counters = before.counters
  clock : after.clock = before.clock

/-- A write met a clock that could not be read, after it made room for its
key. -/
structure Stopped
    (settings : Settings) (draft : Draft Value) (before after : Cache Value) :
    Prop where
  shards : ∃ shard,
    before.shards[before.route draft.key]? = some shard ∧
      after.shards = before.shards.setIfInBounds (before.route draft.key)
        (shard.cleared settings.evictionPercentage draft.key)
  routes : after.routes = before.routesAfter draft
  counters : after.counters = before.counters
  clock : before.clock.read = (.error .instantOverflow, after.clock)

/-- A write that stores nothing is refused for a conflict, dropped, or
stopped. -/
theorem ends_writeDraft_unstored
    {settings : Settings} {cache : Cache Value}
    (coherent : cache.Coherent)
    (expressible : ∀ window ∈ settings.refresh,
      window.earliest ≤ window.latest ∧ window.latest ≤ Duration.longest)
    (draft : Draft Value) :
    Ends (writeDraft settings draft) cache
      (fun evicted next => ¬ cache.Conflicts draft ∧
        (cache.Drops settings draft.key →
          evicted = false ∧ Refused draft cache next))
      (fun fault next =>
        (fault.IsAliasConflict ∧ cache.Conflicts draft ∧
          Refused draft cache next) ∨
        (fault = .instantOverflow ∧ ¬ cache.Conflicts draft ∧
          ¬ cache.Drops settings draft.key ∧
            Stopped settings draft cache next)) := by
  obtain ⟨shard, seat⟩ := coherent.seat draft.key
  have listed : Listed (cache.route draft.key) shard
      (cache.noted (.routed (cache.route draft.key))) :=
    ⟨seat, fun bound => coherent.routed seat bound⟩
  rw [writeDraft, write_eq, ends_bind, ends_shardIndex_of_seat seat, ends_bind]
  refine (ends_registerAliases_exactly listed draft.aliases).weaken ?_ ?_
  · intro _ claimed registered
    obtain ⟨free, rfl⟩ := registered
    have agreed : ¬ cache.Conflicts draft := by
      intro conflicts
      obtain ⟨name, member, apart, clash⟩ := conflicts
      exact free name member apart clash
    have claimedSeat := (listed.enrolled
      (cache.admitted (cache.route draft.key) draft.key
        (draft.aliases.filter (· ≠ draft.key)))).seat
    refine (ends_writeTo_unstored claimedSeat expressible draft.key
      draft.value draft.aliases).weaken ?_ ?_
    · intro evicted next unstored
      refine ⟨agreed, fun drops => ?_⟩
      obtain ⟨nothing, rfl⟩ :=
        unstored ((drops_iff_of_seat seat).mp drops)
      exact ⟨nothing, rfl, rfl, rfl, rfl⟩
    · intro fault next unread
      obtain ⟨room, reading, left⟩ := unread
      have overflow := Clock.read_fault (congrArg Prod.fst reading)
      have kept : ¬ cache.Drops settings draft.key := fun drops =>
        room ((drops_iff_of_seat seat).mp drops)
      subst overflow
      refine Or.inr ⟨rfl, agreed, kept, ⟨shard, seat, ?_⟩, ?_, ?_, reading⟩
      · rw [left]
        rfl
      · rw [left]
        rfl
      · rw [left]
        rfl
  · intro fault next broken
    obtain ⟨conflict, clash, rfl⟩ := broken
    exact Or.inl ⟨conflict, clash, rfl, rfl, rfl, rfl⟩

section Unchanged

variable {settings : Settings} {draft : Draft Value}
  {before after : Cache Value}

/-- The routes are as before exactly when there are no newcomers. -/
theorem routesAfter_eq_self_iff :
    before.routesAfter draft = before.routes ↔
      before.newcomers draft = [] := by
  rw [routesAfter, enroll_eq_self_iff, newcomers, List.filter_eq_nil_iff]
  simp

/-- The shards are as before exactly when nothing had to be evicted. -/
theorem Stopped.shards_eq_iff
    (coherent : before.Coherent)
    (stopped : Stopped settings draft before after) :
    after.shards = before.shards ↔
      before.evictees settings draft.key = [] := by
  obtain ⟨shard, seat, cleared⟩ := stopped.shards
  have sameEvictees : before.evictees settings draft.key =
      shard.evictees settings.evictionPercentage draft.key := by
    rw [evictees, seat]
    rfl
  rw [cleared, sameEvictees]
  constructor
  · intro unchanged
    have inside := (Array.getElem?_eq_some_iff.mp seat).1
    have same : shard.cleared settings.evictionPercentage draft.key =
        shard := by
      have found := congrArg (·[before.route draft.key]?) unchanged
      simp only [Array.getElem?_setIfInBounds_self_of_lt inside, seat]
        at found
      exact Option.some.inj found
    rw [List.eq_nil_iff_forall_not_mem]
    -- Whatever is evicted was stored, and is not any more.
    intro key evicted
    have stored :=
      Shard.mem_entries_of_mem_evictees (coherent.shards seat) evicted
    rw [← same] at stored
    exact (Shard.mem_entries_eraseAll.mp stored).2 evicted
  · intro nothing
    have same : shard.cleared settings.evictionPercentage draft.key =
        shard := by
      rw [Shard.cleared, nothing]
      rfl
    rw [same]
    apply Array.ext_getElem?
    intro index
    rw [Array.getElem?_setIfInBounds]
    split
    next home =>
      subst home
      rw [seat]
      simp [(Array.getElem?_eq_some_iff.mp seat).1]
    next => rfl

end Unchanged

end Cache

end ReadThrough
