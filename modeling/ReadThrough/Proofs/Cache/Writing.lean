import ReadThrough.Cache.Write
import ReadThrough.Proofs.Cache.Removing

/-!
# Writing to a cache

A write goes through two stages.  It `Registers` its aliases one after the
other, and ends in a conflict when one of them is taken; otherwise it `Claims`
them all.  Then it `Reseats` the shard of its key: a full shard drops the write,
or else is `cleared` until there is room, and the entry is stored.

`ends_write` says that every write ends in one of four ways: in a conflict,
dropped, broken off after making room, or stored.
-/

namespace ReadThrough

open Std (ExtTreeMap)

/-! ## Clocks -/

/-- A clock that cannot be read stands at an instant that cannot be
represented. -/
theorem Clock.read_fault
    {clock : Clock} {fault : Fault} (unread : clock.read.1 = .error fault) :
    fault = .instantOverflow := by
  have overflows : ∀ instant : Instant, reading instant = .error fault →
      fault = .instantOverflow := by
    intro instant refused
    rw [reading] at refused
    split at refused
    · cases refused
    · cases refused
      rfl
  rw [read] at unread
  split at unread
  · exact overflows _ unread
  · exact overflows _ unread
  · exact overflows _ unread
  · exact overflows _ unread

instance (fault : Fault) : Decidable fault.IsAliasConflict :=
  match fault with
  | .aliasInOtherShard _ => isTrue trivial
  | .aliasOfOtherKey _ => isTrue trivial
  | .aliasOnKey _ _ => isFalse id
  | .instantOverflow => isFalse id
  | .durationOverflow => isFalse id
  | .durationDividedByZero => isFalse id
  | .noShards => isFalse id
  | .shardOutOfRange _ _ => isFalse id
  | .crash _ => isFalse id

namespace Shard

variable {Value : Type}

/-- The shard drops a write of a key: it is full for it, and nothing may be
evicted. -/
def Refuses (shard : Shard Value) (percentage : Nat) (key : String) : Prop :=
  shard.isFullFor key ∧ percentage = 0

/-- The keys of the entries that have to make room for a key. -/
def evictees (shard : Shard Value) (percentage : Nat) (key : String) :
    List String :=
  if shard.isFullFor key then shard.victims percentage else []

/-- The shard with room for a key. -/
def cleared (shard : Shard Value) (percentage : Nat) (key : String) :
    Shard Value :=
  shard.eraseAll (shard.evictees percentage key)

theorem mem_entries_of_mem_evictees
    {shard : Shard Value} (coherent : shard.Coherent)
    {percentage : Nat} {key other : String}
    (member : other ∈ shard.evictees percentage key) :
    other ∈ shard.entries := by
  rw [evictees] at member
  split at member
  · obtain ⟨ranked, among, same⟩ := List.mem_map.mp member
    have listed := List.mem_of_mem_take among
    simp only [byExpiry, Std.ExtTreeSet.mem_toList, Std.ExtTreeSet.mem_ofList,
      List.contains_iff_mem, List.mem_map] at listed
    obtain ⟨stored, there, rfl⟩ := listed
    have found := ExtTreeMap.mem_toList_iff_getElem?_eq_some.mp there
    rw [← same, coherent.keyed found]
    exact stored_of_found found
  · cases member

/-- A shard has nothing against aliases that it binds to nobody or to the key
itself. -/
theorem foreignAlias?_eq_none
    {shard : Shard Value} {key : String} {aliases : List String}
    (free : ∀ name ∈ aliases, name ≠ key → ∀ owner : String,
      shard.keyOfAlias[name]? = some owner → owner = key) :
    shard.foreignAlias? key aliases = none := by
  rw [foreignAlias?, List.findSome?_eq_none_iff]
  intro name member
  obtain ⟨asked, apart⟩ := List.mem_filter.mp member
  rw [Option.map_eq_none_iff, Option.filter_eq_none_iff]
  intro owner bound
  simpa using free name asked (of_decide_eq_true apart) owner bound

end Shard

namespace Cache

variable {Value Result : Type}

/-- The shard that a key is routed to drops a write of it. -/
def Drops (settings : Settings) (cache : Cache Value) (key : String) :
    Prop :=
  ∃ shard ∈ cache.shards[cache.route key]?,
    shard.Refuses settings.evictionPercentage key

instance (settings : Settings) (cache : Cache Value) (key : String) :
    Decidable (cache.Drops settings key) :=
  inferInstanceAs (Decidable (∃ shard ∈ cache.shards[cache.route key]?,
    shard.isFullFor key ∧ settings.evictionPercentage = 0))

theorem drops_iff_of_seat
    {settings : Settings} {cache : Cache Value} {key : String}
    {shard : Shard Value}
    (seat : cache.shards[cache.route key]? = some shard) :
    cache.Drops settings key ↔
      shard.Refuses settings.evictionPercentage key := by
  simp [Drops, seat]

/-! ## Aliases -/

/-- Some of the aliases of a key have been registered on a shard, and nothing
else has changed. -/
structure Registers
    (key : String) (index : Nat) (aliases : List String)
    (before after : Cache Value) : Prop where
  rest : after = { before with routes := after.routes }
  routes : ∀ name : String,
    after.routes[name]? = before.routes[name]? ∨
      (before.routes[name]? = none ∧ after.routes[name]? = some index ∧
        name ∈ aliases ∧ name ≠ key)

namespace Registers

variable {key : String} {index : Nat} {aliases : List String}
  {before middle after : Cache Value}

theorem refl (cache : Cache Value) :
    Registers key index aliases cache cache :=
  ⟨rfl, fun _ => Or.inl rfl⟩

theorem trans
    (first : Registers key index aliases before middle)
    (second : Registers key index aliases middle after) :
    Registers key index aliases before after where
  rest := by rw [second.rest, first.rest]
  routes name := by
    rcases second.routes name with kept | ⟨vacant, taken, asked⟩
    · rw [kept]
      exact first.routes name
    · rcases first.routes name with unchanged | ⟨_, earlier, _⟩
      · exact Or.inr ⟨unchanged ▸ vacant, taken, asked⟩
      · rw [earlier] at vacant
        cases vacant

theorem widen {more : List String}
    (registers : Registers key index aliases before after)
    (subset : aliases ⊆ more) : Registers key index more before after where
  rest := registers.rest
  routes name := by
    rcases registers.routes name with kept | ⟨vacant, taken, asked, apart⟩
    · exact Or.inl kept
    · exact Or.inr ⟨vacant, taken, subset asked, apart⟩

variable (registers : Registers key index aliases before after)

include registers

theorem shards : after.shards = before.shards := by
  rw [registers.rest]

theorem clock : after.clock = before.clock := by
  rw [registers.rest]

theorem keeps {name : String} {place : Nat}
    (found : before.routes[name]? = some place) :
    after.routes[name]? = some place := by
  rcases registers.routes name with kept | ⟨vacant, _⟩
  · rw [kept, found]
  · rw [vacant] at found
    cases found

theorem asked {name : String} {place : Nat}
    (found : after.routes[name]? = some place) :
    before.routes[name]? = some place ∨ (name ∈ aliases ∧ name ≠ key) := by
  rcases registers.routes name with kept | ⟨_, _, asked, apart⟩
  · exact Or.inl (kept ▸ found)
  · exact Or.inr ⟨asked, apart⟩

theorem route_key : after.route key = before.route key := by
  rcases registers.routes key with kept | ⟨_, _, _, apart⟩
  · unfold route
    rw [kept, registers.shards]
  · exact absurd rfl apart

end Registers

/-- All aliases of a key have been registered on a shard, and none of them is
bound to another key there. -/
structure Claims
    (key : String) (index : Nat) (shard : Shard Value)
    (aliases : List String) (before after : Cache Value) : Prop
    extends Registers key index aliases before after where
  registered : ∀ name ∈ aliases, name ≠ key →
    after.routes[name]? = some index
  free : ∀ name ∈ aliases, name ≠ key → ∀ owner : String,
    shard.keyOfAlias[name]? = some owner → owner = key

namespace Claims

variable {key head : String} {index : Nat} {shard : Shard Value}
  {tail : List String} {before middle after : Cache Value}

theorem skip
    (claims : Claims key index shard tail before after) (same : head = key) :
    Claims key index shard (head :: tail) before after where
  toRegisters := claims.widen (List.subset_cons_self head tail)
  registered name member apart := by
    rcases List.mem_cons.mp member with isHead | inTail
    · exact absurd (isHead.trans same) apart
    · exact claims.registered name inTail apart
  free name member apart := by
    rcases List.mem_cons.mp member with isHead | inTail
    · exact absurd (isHead.trans same) apart
    · exact claims.free name inTail apart

theorem cons
    (first : Claims key index shard [head] before middle)
    (rest : Claims key index shard tail middle after) :
    Claims key index shard (head :: tail) before after where
  toRegisters :=
    (first.widen (by simp)).trans
      (rest.widen (List.subset_cons_self head tail))
  registered name member apart := by
    rcases List.mem_cons.mp member with isHead | inTail
    · exact rest.keeps
        (first.registered name (List.mem_singleton.mpr isHead) apart)
    · exact rest.registered name inTail apart
  free name member apart := by
    rcases List.mem_cons.mp member with isHead | inTail
    · exact first.free name (List.mem_singleton.mpr isHead) apart
    · exact rest.free name inTail apart

end Claims

section Aliases

variable {cache : Cache Value} {key name : String} {index : Nat}
  {shard : Shard Value}

theorem ends_registerAlias
    (seat : cache.shards[index]? = some shard) (apart : name ≠ key) :
    Ends (registerAlias key index name) cache
      (fun _ next => Claims key index shard [name] cache next)
      (fun fault next => fault.IsAliasConflict ∧
        Registers key index [name] cache next) := by
  -- The binding is only looked at once the alias leads to the shard.
  have bind : ∀ registered : Cache Value,
      Registers key index [name] cache registered →
      registered.routes[name]? = some index →
        Ends (do
            let shard ← shardAt index
            if (shard.keyOfAlias[name]?).any (· ≠ key) then
              throw (.aliasOfOtherKey name)) registered
          (fun _ next => Claims key index shard [name] cache next)
          (fun fault next => fault.IsAliasConflict ∧
            Registers key index [name] cache next) := by
    intro registered registers leads
    rw [ends_bind, ends_shardAt, registers.shards, seat]
    simp only [ends_ite, ends_throw, ends_pure]
    split
    · exact ⟨trivial, registers⟩
    next free =>
      refine ⟨registers, ?_, ?_⟩
      · intro other member _
        rw [List.mem_singleton.mp member]
        exact leads
      · intro other member _ owner bound
        rw [List.mem_singleton.mp member] at bound
        simpa [bound] using free
  rw [registerAlias]
  simp only [ends_bind, ends_get]
  cases found : cache.routes[name]? with
  | some owner =>
      by_cases same : owner = index
      · subst same
        simpa using bind cache (.refl cache) found
      · simp only [ne_eq, same, not_false_eq_true, if_true]
        exact ⟨trivial, .refl cache⟩
  | none =>
      refine bind _ ⟨rfl, fun other => ?_⟩ ?_
      · rw [ExtTreeMap.getElem?_insert]
        by_cases same : name = other
        · subst same
          exact Or.inr ⟨found, by simp, List.mem_singleton.mpr rfl, apart⟩
        · exact Or.inl (by simp [same])
      · simp

theorem ends_registerAliases
    (seat : cache.shards[index]? = some shard) (aliases : List String) :
    Ends (registerAliases key index aliases) cache
      (fun _ next => Claims key index shard aliases cache next)
      (fun fault next => fault.IsAliasConflict ∧
        Registers key index aliases cache next) := by
  rw [registerAliases]
  induction aliases generalizing cache with
  | nil => exact ⟨.refl cache, by simp, by simp⟩
  | cons head tail inductionHypothesis =>
      by_cases same : head = key
      · -- The key itself is passed over.
        rw [List.filter_cons_of_neg (by simpa using same)]
        apply (inductionHypothesis seat).weaken
        · exact fun _ next claims => claims.skip same
        · intro fault next broken
          obtain ⟨conflict, registers⟩ := broken
          exact ⟨conflict,
            registers.widen (List.subset_cons_self head tail)⟩
      · rw [List.filter_cons_of_pos (by simpa using same),
          List.forM, ends_bind]
        have headOnly : [head] ⊆ head :: tail := by simp
        apply (ends_registerAlias seat same).weaken
        · intro _ middle first
          have middleSeat : middle.shards[index]? = some shard := by
            rw [first.shards, seat]
          apply (inductionHypothesis middleSeat).weaken
          · exact fun _ next rest => first.cons rest
          · intro fault next broken
            obtain ⟨conflict, later⟩ := broken
            exact ⟨conflict, (first.widen headOnly).trans
              (later.widen (List.subset_cons_self head tail))⟩
        · intro fault next broken
          obtain ⟨conflict, registers⟩ := broken
          exact ⟨conflict, registers.widen headOnly⟩

/-- No alias is registered on a shard that is not there. -/
theorem breaks_registerAlias
    (unseated : cache.shards[index]? = none) :
    Ends (registerAlias key index name) cache
      (fun _ _ => False) (fun _ _ => True) := by
  have read : ∀ registered : Cache Value,
      registered.shards = cache.shards →
        Ends (do
            let shard ← shardAt index
            if (shard.keyOfAlias[name]?).any (· ≠ key) then
              throw (.aliasOfOtherKey name)) registered
          (fun _ _ => False) (fun _ _ => True) := by
    intro registered same
    rw [ends_bind, ends_shardAt, same, unseated]
    trivial
  rw [registerAlias]
  simp only [ends_bind, ends_get]
  cases cache.routes[name]? with
  | some owner =>
      by_cases same : owner = index
      · simpa [same] using read cache rfl
      · simp only [ne_eq, same, not_false_eq_true, if_true]
        trivial
  | none => exact read _ rfl

/-- A shard has nothing against aliases once they have been registered. -/
theorem ends_registerAliases_free
    (cache : Cache Value) (key : String) (index : Nat)
    (aliases : List String) :
    Ends (registerAliases key index aliases) cache
      (fun _ next => ∀ shard, next.shards[index]? = some shard →
        shard.foreignAlias? key aliases = none)
      (fun _ _ => True) := by
  cases seat : cache.shards[index]? with
  | some shard =>
      refine (ends_registerAliases seat aliases).weaken ?_
        fun _ _ _ => trivial
      intro _ next claims found same
      rw [claims.shards, seat] at same
      cases same
      exact Shard.foreignAlias?_eq_none claims.free
  | none =>
      rw [registerAliases]
      cases aliases.filter (· ≠ key) with
      | nil =>
          intro shard found
          rw [seat] at found
          cases found
      | cons head tail =>
          rw [List.forM, ends_bind]
          exact (breaks_registerAlias seat).weaken
            (fun _ _ => False.elim) fun _ _ => id

end Aliases

/-! ## Storing -/

section Storing

variable {settings : Settings} {cache : Cache Value} {key : String}
  {index : Nat} {shard : Shard Value}

theorem ends_drawRefreshTime
    (seat : cache.shards[index]? = some shard)
    (refresh : Option RefreshWindow) (now : Instant) :
    Ends (drawRefreshTime refresh index now) cache
      (fun refreshAt next => ∃ drawn padding,
        refreshAt = refresh.map
            (fun window => deadline now (window.earliest + padding)) ∧
          next.clock = cache.clock ∧ shard.Alike drawn ∧
            Reseats index drawn cache next)
      (fun fault next => fault = .durationOverflow ∧
        ∃ drawn, shard.Alike drawn ∧ Reseats index drawn cache next) := by
  unfold drawRefreshTime
  cases refresh with
  | none =>
      exact ⟨shard, 0, rfl, rfl, .refl shard, .of_eq seat rfl rfl⟩
  | some window =>
      have alike :=
        shard.alike_takePadding (window.latest - window.earliest)
      rw [ends_bind, ends_shardAt, seat]
      simp only [ends_bind, ends_putShard, ends_ite, ends_throw, ends_pure]
      split
      · exact ⟨trivial, _, alike, .of_withShard seat⟩
      · exact ⟨_, _, rfl, rfl, alike, .of_withShard seat⟩

/-- A write to a shard is dropped, breaks off after making room, or stores its
entry. -/
theorem ends_writeTo
    {value : Option Value} {aliases : List String}
    {accepts : Bool → Cache Value → Prop}
    {breaks : Fault → Cache Value → Prop}
    (seat : cache.shards[index]? = some shard)
    (dropped : shard.Refuses settings.evictionPercentage key →
      accepts false cache)
    (broken : ∀ fault roomy next,
      ¬ shard.Refuses settings.evictionPercentage key →
        ¬ fault.IsAliasConflict →
          (shard.cleared settings.evictionPercentage key).Alike roomy →
            Reseats index roomy cache next → breaks fault next)
    (stored : ∀ now refreshAt padding roomy next,
      ¬ shard.Refuses settings.evictionPercentage key →
        cache.clock.read = (.ok now, next.clock) →
          refreshAt = settings.refresh.map
              (fun window => deadline now (window.earliest + padding)) →
            (shard.cleared settings.evictionPercentage key).Alike roomy →
              Reseats index
                (roomy.upsert
                  (.fresh key value (deadline now settings.timeToLive)
                    refreshAt) aliases) cache next →
                accepts (shard.isFullFor key) next) :
    Ends (writeTo settings index key value aliases) cache accepts breaks := by
  rw [writeTo, ends_bind, ends_shardAt, seat]
  simp only [ends_ite, ends_pure]
  split
  next refused => exact dropped refused
  next room =>
    have cleared :
        Reseats index (shard.cleared settings.evictionPercentage key) cache
          (cache.withShard index
            (shard.cleared settings.evictionPercentage key)) :=
      .of_withShard seat
    simp only [ends_bind, ends_putShard, ends_readClock, clock_withShard]
    generalize reading : cache.clock.read = outcome
    obtain ⟨fault | now, clock⟩ := outcome
    · refine broken fault _ _ room ?_ (.refl _)
        (cleared.trans (.of_eq cleared.seat rfl rfl))
      rw [Clock.read_fault (congrArg Prod.fst reading)]
      exact id
    · have read : Reseats index
          (shard.cleared settings.evictionPercentage key) cache
          ((cache.withShard index
            (shard.cleared settings.evictionPercentage key)).withClock
              clock) :=
        cleared.trans (.of_eq cleared.seat rfl rfl)
      refine (ends_drawRefreshTime read.seat settings.refresh now).weaken
        ?_ ?_
      · intro refreshAt drawnCache outcome
        obtain ⟨roomy, padding, refreshTime, sameClock, alike, drawn⟩ :=
          outcome
        rw [ends_shardAt, drawn.seat]
        have written : ∀ entry, Reseats index (roomy.upsert entry aliases)
            cache (drawnCache.withShard index
              (roomy.upsert entry aliases)) := fun _ =>
          (read.trans drawn).trans (.of_withShard drawn.seat)
        have storedAs : ∀ next : Cache Value,
            next.shards = (drawnCache.withShard index
              (roomy.upsert (.fresh key value
                (deadline now settings.timeToLive) refreshAt)
                  aliases)).shards →
              next.routes = drawnCache.routes →
                next.clock = clock →
                  accepts (shard.isFullFor key) next := by
          intro next shards routes sameClock
          refine stored now refreshAt padding roomy next room ?_
            refreshTime alike
            ((written _).trans (.of_eq (written _).seat shards routes))
          rw [reading, sameClock]
        simp only [ends_bind, ends_ite, ends_pure, ends_record]
        split
        · split
          · exact storedAs _ rfl rfl sameClock
          · exact storedAs _ rfl rfl sameClock
        · exact storedAs _ rfl rfl sameClock
      · intro fault next broken
        obtain ⟨rfl, roomy, alike, drawn⟩ := broken
        exact broken _ roomy next room id alike (read.trans drawn)

end Storing

/-! ## Whole writes -/

/-- What a write makes of a cache whose shard for the key is given: a conflict
with an alias, a dropped write, a write that broke off after making room, or a
stored entry. -/
inductive WriteOutcome
    (settings : Settings) (key : String) (value : Option Value)
    (aliases : List String) (shard : Shard Value) (before : Cache Value) :
    Except Fault Bool → Cache Value → Prop
  | conflict {fault : Fault} {after : Cache Value}
      (clash : fault.IsAliasConflict)
      (registers : Registers key (before.route key) aliases
        (before.noted (.routed (before.route key))) after) :
      WriteOutcome settings key value aliases shard before
        (.error fault) after
  | dropped {after : Cache Value}
      (refuses : shard.Refuses settings.evictionPercentage key)
      (claims : Claims key (before.route key) shard aliases
        (before.noted (.routed (before.route key))) after) :
      WriteOutcome settings key value aliases shard before
        (.ok false) after
  | broken {fault : Fault} {claimed after : Cache Value}
      {roomy : Shard Value}
      (room : ¬ shard.Refuses settings.evictionPercentage key)
      (harmless : ¬ fault.IsAliasConflict)
      (claims : Claims key (before.route key) shard aliases
        (before.noted (.routed (before.route key))) claimed)
      (alike : (shard.cleared settings.evictionPercentage key).Alike roomy)
      (reseats : Reseats (before.route key) roomy claimed after) :
      WriteOutcome settings key value aliases shard before
        (.error fault) after
  | stored {claimed after : Cache Value} {now : Instant}
      {refreshAt : Option Instant} {padding : Duration}
      {roomy : Shard Value}
      (room : ¬ shard.Refuses settings.evictionPercentage key)
      (claims : Claims key (before.route key) shard aliases
        (before.noted (.routed (before.route key))) claimed)
      (reading : before.clock.read = (.ok now, after.clock))
      (refreshTime : refreshAt = settings.refresh.map
        fun window => deadline now (window.earliest + padding))
      (alike : (shard.cleared settings.evictionPercentage key).Alike roomy)
      (reseats : Reseats (before.route key)
        (roomy.upsert
          (.fresh key value (deadline now settings.timeToLive) refreshAt)
          aliases) claimed after) :
      WriteOutcome settings key value aliases shard before
        (.ok (shard.isFullFor key)) after

/-- A write that returns has stored its entry unless it was dropped. -/
theorem WriteOutcome.of_not_drops
    {settings : Settings} {key : String} {value : Option Value}
    {aliases : List String} {shard : Shard Value}
    {before after : Cache Value} {evicted : Bool}
    (outcome : WriteOutcome settings key value aliases shard before
      (.ok evicted) after)
    (seat : before.shards[before.route key]? = some shard)
    (kept : ¬ before.Drops settings key) :
    ∃ (claimed : Cache Value) (now : Instant) (refreshAt : Option Instant)
      (padding : Duration) (roomy : Shard Value),
      Claims key (before.route key) shard aliases
          (before.noted (.routed (before.route key))) claimed ∧
        before.clock.read = (.ok now, after.clock) ∧
          refreshAt = settings.refresh.map
            (fun window => deadline now (window.earliest + padding)) ∧
            (shard.cleared settings.evictionPercentage key).Alike roomy ∧
              Reseats (before.route key)
                (roomy.upsert
                  (.fresh key value (deadline now settings.timeToLive)
                    refreshAt) aliases) claimed after := by
  cases outcome with
  | dropped refuses claims =>
      exact absurd ((drops_iff_of_seat seat).mpr refuses) kept
  | stored room claims reading refreshTime alike reseats =>
      exact ⟨_, _, _, _, _, claims, reading, refreshTime, alike, reseats⟩

/-- What a shard has nothing against passes its check. -/
theorem run_checkAliases_bind
    {cache : Cache Value} {key : String} {index : Nat}
    {aliases : List String} {shard : Shard Value}
    (seat : cache.shards[index]? = some shard)
    (free : shard.foreignAlias? key aliases = none)
    (rest : Action Value Result) :
    (checkAliases key index aliases >>= fun _ => rest).run cache =
      rest.run cache := by
  rw [checkAliases, bind_assoc, run_shardAt_bind_of_seat seat, free]
  rfl

/-- Registering the aliases of a write has found every conflict already: the
shard's own check never fires. -/
theorem write_eq
    (settings : Settings) (key : String) (value : Option Value)
    (aliases : List String) :
    write settings key value aliases = (do
      let index ← shardIndex key
      registerAliases key index aliases
      writeTo settings index key value aliases) := by
  rw [write]
  congr 1
  funext index cache
  have passed := ends_registerAliases_free cache key index aliases
  change EStateM.bind _ _ cache = EStateM.bind _ _ cache
  rw [Ends, EStateM.run] at passed
  unfold EStateM.bind
  cases registered : registerAliases key index aliases cache with
  | error fault next => rfl
  | ok result next =>
      rw [registered] at passed
      cases seat : next.shards[index]? with
      | some shard =>
          exact run_checkAliases_bind seat (passed shard seat) _
      | none =>
          -- Without a shard both actions break off at their first look at it.
          change (checkAliases key index aliases >>= _).run next =
            (writeTo settings index key value aliases).run next
          rw [writeTo, checkAliases, bind_assoc,
            run_shardAt_bind_of_unseated seat,
            run_shardAt_bind_of_unseated seat]

/-- Every write ends in one of the four ways. -/
theorem ends_write
    {settings : Settings} {cache : Cache Value} {key : String}
    {value : Option Value} {aliases : List String} {shard : Shard Value}
    (seat : cache.shards[cache.route key]? = some shard) :
    Ends (write settings key value aliases) cache
      (fun evicted =>
        WriteOutcome settings key value aliases shard cache (.ok evicted))
      (fun fault =>
        WriteOutcome settings key value aliases shard cache
          (.error fault)) := by
  have routedSeat :
      (cache.noted (.routed (cache.route key))).shards[cache.route key]? =
        some shard := seat
  rw [write_eq, ends_bind, ends_shardIndex_of_seat seat, ends_bind]
  apply (ends_registerAliases routedSeat aliases).weaken
  · intro _ claimed claims
    have claimedSeat : claimed.shards[cache.route key]? = some shard := by
      rw [claims.shards, routedSeat]
    apply ends_writeTo claimedSeat
    · intro refuses
      exact .dropped refuses claims
    · intro fault roomy next room harmless alike reseats
      exact .broken room harmless claims alike reseats
    · intro now refreshAt padding roomy next room reading refreshTime alike
        reseats
      rw [claims.clock] at reading
      exact .stored room claims reading refreshTime alike reseats
  · intro fault next broken
    obtain ⟨clash, registers⟩ := broken
    exact .conflict clash registers

end Cache

end ReadThrough
