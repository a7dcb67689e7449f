import ReadThrough.Proofs.Cache.Atomicity

/-!
# Alias conflicts

A write `Collides` when it ends in an alias conflict.  It does so exactly if one
of its aliases belongs to another key, in whatever shard, or is registered on
another shard than the one that its key is routed to.

The first reason goes away when the entry is deleted, evicted, swept, or
overwritten without the alias; then nobody has the alias.  The second reason
stays: an alias that an entry once had is left to the keys of the shard where
that entry was.
-/

namespace ReadThrough.Cache

open Std (ExtTreeMap)

variable {Value Result : Type}

/-- The entry that a shard stores under a key has an alias. -/
def HasAlias
    (cache : Cache Value) (index : Nat) (key name : String) : Prop :=
  ∃ shard ∈ cache.shards[index]?, key ∈ shard.entries ∧
    name ∈ shard.aliases key

instance (cache : Cache Value) (index : Nat) (key name : String) :
    Decidable (cache.HasAlias index key name) :=
  inferInstanceAs (Decidable (∃ shard ∈ cache.shards[index]?, _ ∧ _))

/-- A write ends in an alias conflict. -/
def Collides [Keyed Value]
    (settings : Settings) (cache : Cache Value) (writing : Writing Value) :
    Prop :=
  ∃ fault : Fault, fault.IsAliasConflict ∧
    answer (writing.action settings) cache = .error fault

/-! ## Aliases of entries -/

section Aliases

variable {cache : Cache Value} (coherent : cache.Coherent)

include coherent

theorem hasAlias_iff_of_seat
    {index : Nat} {shard : Shard Value}
    (seat : cache.shards[index]? = some shard) {key name : String} :
    cache.HasAlias index key name ↔ shard.keyOfAlias[name]? = some key := by
  have paired := coherent.shards seat
  constructor
  · rintro ⟨other, otherSeat, _, listed⟩
    rw [Option.mem_def, seat] at otherSeat
    cases otherSeat
    exact paired.inverse.mpr listed
  · intro bound
    exact ⟨shard, seat, paired.owner_stored bound,
      paired.inverse.mp bound⟩

theorem HasAlias.registered
    {index : Nat} {key name : String}
    (has : cache.HasAlias index key name) :
    cache.routes[name]? = some index := by
  obtain ⟨shard, seat, _, listed⟩ := has
  exact coherent.routed seat ((coherent.shards seat).inverse.mpr listed)

/-- At most one entry has an alias. -/
theorem HasAlias.unique
    {index place : Nat} {key holder name : String}
    (has : cache.HasAlias index key name)
    (holds : cache.HasAlias place holder name) :
    place = index ∧ holder = key := by
  obtain ⟨left, leftSeat, _, leftListed⟩ := has
  obtain ⟨right, rightSeat, _, rightListed⟩ := holds
  exact coherent.bound_once rightSeat leftSeat
    ((coherent.shards rightSeat).inverse.mpr rightListed)
    ((coherent.shards leftSeat).inverse.mpr leftListed)

/-- An alias clashes if it is registered elsewhere or if another key has it;
that key may then be sought in any shard. -/
theorem clashes_iff_hasAlias {index : Nat} {key name : String}
    (inside : index < cache.shards.size) :
    cache.Clashes index key name ↔
      (∃ place holder, cache.HasAlias place holder name ∧ holder ≠ key) ∨
        ∃ place ∈ cache.routes[name]?, place ≠ index := by
  obtain ⟨shard, seat⟩ : ∃ shard, cache.shards[index]? = some shard :=
    ⟨_, Array.getElem?_eq_getElem inside⟩
  rw [clashes_iff_of_seat seat]
  constructor
  · rintro (elsewhere | ⟨holder, bound, other⟩)
    · exact Or.inr elsewhere
    · exact Or.inl
        ⟨index, holder, (hasAlias_iff_of_seat coherent seat).mpr bound, other⟩
  · rintro (⟨place, holder, has, other⟩ | elsewhere)
    · by_cases here : place = index
      · subst here
        exact Or.inr
          ⟨holder, (hasAlias_iff_of_seat coherent seat).mp has, other⟩
      · exact Or.inl ⟨place, has.registered coherent, here⟩
    · exact Or.inl elsewhere

end Aliases

/-! ## Writes that collide -/

section Collisions

variable {settings : Settings} {cache : Cache Value}

theorem ends_writeDraft_conflict
    (coherent : cache.Coherent) (draft : Draft Value) :
    Ends (writeDraft settings draft) cache
      (fun _ _ => ¬ cache.Conflicts draft)
      (fun fault _ => fault.IsAliasConflict ↔ cache.Conflicts draft) := by
  obtain ⟨shard, seat⟩ := coherent.seat draft.key
  have listed : Listed (cache.route draft.key) shard
      (cache.noted (.routed (cache.route draft.key))) :=
    ⟨seat, fun bound => coherent.routed seat bound⟩
  rw [writeDraft, write_eq, ends_bind, ends_shardIndex_of_seat seat, ends_bind]
  refine (ends_registerAliases_exactly listed draft.aliases).weaken ?_ ?_
  · intro _ claimed registered
    obtain ⟨free, rfl⟩ := registered
    have agreed : ¬ cache.Conflicts draft := by
      intro conflicts
      obtain ⟨name, member, apart, clash⟩ := conflicts
      exact free name member apart clash
    -- No fault that a write meets after its aliases is a conflict.
    apply ends_writeTo (listed.enrolled _).seat
    · exact fun _ => agreed
    · intro fault _ _ _ harmless _ _
      exact iff_of_false harmless agreed
    · exact fun _ _ _ _ _ _ _ _ _ _ => agreed
  · intro fault _ broken
    obtain ⟨conflict, clash, _⟩ := broken
    exact iff_of_true conflict clash

theorem answers_conflict_iff
    {action : Action Value Result} {holds : Prop}
    (ends : Ends action cache (fun _ _ => ¬ holds)
      (fun fault _ => fault.IsAliasConflict ↔ holds)) :
    (∃ fault : Fault, fault.IsAliasConflict ∧
      answer action cache = .error fault) ↔ holds := by
  rw [Ends] at ends
  rw [answer]
  cases run : action.run cache with
  | ok result next =>
      rw [run] at ends
      simp [ends]
  | error fault next =>
      rw [run] at ends
      simp [← ends]

/-- A write collides exactly if one of its aliases clashes. -/
theorem collides_iff_conflicts [Keyed Value]
    (coherent : cache.Coherent) (writing : Writing Value) :
    Collides settings cache writing ↔
      cache.Conflicts (writing.draft cache) := by
  apply answers_conflict_iff
  rw [writing.action_eq, ends_discard]
  apply ends_writing coherent writing
  intro journal
  have noted : { cache with journal }.Coherent := coherent.of_eq rfl rfl
  exact ends_writeDraft_conflict noted (writing.draft cache)

end Collisions

/-! ## What an act does to the aliases -/

section Acts

variable {settings : Settings} {before after : Cache Value}
  {act : Act Value}

/-- Whatever a write has come to, its aliases have been registered before. -/
theorem WriteOutcome.registers
    {draft : Draft Value} {shard : Shard Value}
    {result : Except Fault Bool}
    (outcome : WriteOutcome settings draft.key draft.value draft.aliases
      shard before result after) :
    ∃ registered, after.routes = registered.routes ∧
      Registers draft.key (before.route draft.key) draft.aliases
        (before.noted (.routed (before.route draft.key))) registered := by
  cases outcome with
  | conflict clash registers => exact ⟨_, rfl, registers⟩
  | dropped refuses claims => exact ⟨_, rfl, claims.toRegisters⟩
  | broken room harmless claims alike reseats =>
      exact ⟨_, reseats.routes, claims.toRegisters⟩
  | stored room claims reading refreshTime alike reseats =>
      exact ⟨_, reseats.routes, claims.toRegisters⟩

/-- Only a write registers names, and only those that it is given as
aliases. -/
theorem Effect.registered
    (effect : Effect settings before act after) {name : String} {index : Nat}
    (found : after.routes[name]? = some index) :
    before.routes[name]? = some index ∨
      ∃ draft, act = .write draft ∧ before.route draft.key = index ∧
        name ∈ draft.aliases ∧ name ≠ draft.key := by
  cases effect with
  | quiet alike => exact Or.inl (alike.routes ▸ found)
  | removes seat reseats => exact Or.inl (reseats.routes ▸ found)
  | @writes draft _ shard result seat outcome =>
      obtain ⟨registered, same, registers⟩ := outcome.registers
      rw [same] at found
      rcases registers.routes name with kept | ⟨_, taken, asked, apart⟩
      · exact Or.inl (kept ▸ found)
      · rw [taken] at found
        exact Or.inr ⟨draft, rfl, Option.some.inj found, asked, apart⟩

/-- The aliases of a shard that a write has stored an entry in: an alias that it
asked for belonged to nobody else, and any other alias belongs to the same key
as before. -/
theorem bound_of_stored
    (coherent : before.Coherent) {claimed : Cache Value}
    {entry : Entry Value} {aliases : List String}
    {shard roomy : Shard Value} {keys : List String} {name holder : String}
    (seat : before.shards[before.route entry.key]? = some shard)
    (claims : Claims entry.key (before.route entry.key) shard aliases
      (before.noted (.routed (before.route entry.key))) claimed)
    (alike : (shard.eraseAll keys).Alike roomy)
    (bound : (roomy.upsert entry aliases).keyOfAlias[name]? = some holder) :
    shard.keyOfAlias[name]? = some holder ∨
      ∀ index owner, before.HasAlias index owner name →
        index = before.route entry.key ∧ owner = holder := by
  have roomyCoherent : roomy.Coherent :=
    alike.coherent ((coherent.shards seat).eraseAll keys)
  rw [Shard.getElem?_keyOfAlias_upsert roomyCoherent] at bound
  split at bound
  next asked =>
    cases bound
    obtain ⟨member, apart⟩ := Shard.mem_boundAliases.mp asked
    refine Or.inr fun index owner has => ?_
    have here : index = before.route entry.key := by
      have known := claims.keeps (has.registered coherent)
      rw [claims.registered name member apart] at known
      exact (Option.some.inj known).symm
    subst here
    exact ⟨rfl, claims.free name member apart owner
      ((hasAlias_iff_of_seat coherent seat).mp has)⟩
  next =>
    split at bound
    · cases bound
    · rw [alike.keyOfAlias] at bound
      exact Or.inl (Shard.keyOfAlias_of_eraseAll bound)

/-- An alias that an entry comes by belonged to nobody else. -/
theorem Effect.bound
    (coherent : before.Coherent) (effect : Effect settings before act after)
    {place : Nat} {right : Shard Value} {name holder : String}
    (rightSeat : after.shards[place]? = some right)
    (bound : right.keyOfAlias[name]? = some holder) :
    before.HasAlias place holder name ∨
      ∀ index owner, before.HasAlias index owner name →
        index = place ∧ owner = holder := by
  have has_of_seat : ∀ {shard : Shard Value},
      before.shards[place]? = some shard →
        shard.keyOfAlias[name]? = some holder →
          before.HasAlias place holder name :=
    fun seat => (hasAlias_iff_of_seat coherent seat).mpr
  have removed : ∀ {index : Nat} {shard other : Shard Value}
      {keys : List String} {start : Cache Value},
      start.shards = before.shards →
        before.shards[index]? = some shard →
          (shard.eraseAll keys).Alike other →
            Reseats index other start after →
              before.HasAlias place holder name := by
    intro index shard other keys start same seat alike reseats
    rw [reseats.shards_eq, same] at rightSeat
    split at rightSeat
    next home =>
      cases rightSeat
      rw [alike.keyOfAlias] at bound
      exact has_of_seat (home ▸ seat) (Shard.keyOfAlias_of_eraseAll bound)
    next => exact has_of_seat rightSeat bound
  cases effect with
  | quiet alike =>
      obtain ⟨left, leftSeat, similar⟩ := alike.symm.shards rightSeat
      exact Or.inl (has_of_seat leftSeat (similar.keyOfAlias ▸ bound))
  | removes seat reseats =>
      exact Or.inl (removed rfl seat (.refl _) reseats)
  | @writes draft _ shard result seat outcome =>
      cases outcome with
      | conflict clash registers =>
          rw [registers.shards] at rightSeat
          exact Or.inl (has_of_seat rightSeat bound)
      | dropped refuses claims =>
          rw [claims.shards] at rightSeat
          exact Or.inl (has_of_seat rightSeat bound)
      | broken room harmless claims alike reseats =>
          exact Or.inl (removed claims.shards seat alike reseats)
      | stored room claims reading refreshTime alike reseats =>
          rw [reseats.shards_eq, claims.shards] at rightSeat
          split at rightSeat
          next home =>
            cases rightSeat
            subst home
            exact (bound_of_stored coherent seat claims alike bound).imp_left
              (has_of_seat seat)
          next => exact Or.inl (has_of_seat rightSeat bound)

/-- No act passes an alias from one entry to another. -/
theorem HasAlias.unmoved
    (coherent : before.Coherent) (act : Act Value)
    {index place : Nat} {owner holder name : String}
    (has : before.HasAlias index owner name)
    (holds : (Cache.after settings before act).HasAlias place holder name) :
    place = index ∧ holder = owner := by
  obtain ⟨right, rightSeat, _, listed⟩ := holds
  have later := coherent.after settings act
  have bound := (later.shards rightSeat).inverse.mpr listed
  have effect := effect_of_act settings coherent act
  rcases effect.bound coherent rightSeat bound with earlier | others
  · exact has.unique coherent earlier
  · obtain ⟨same, alike⟩ := others index owner has
    exact ⟨same.symm, alike.symm⟩

end Acts

/-! ## Runs -/

section Runs

variable {settings : Settings} {earlier cache : Cache Value}

theorem Coherent.registered_of_runs
    (coherent : earlier.Coherent) (runs : Runs settings earlier cache)
    {name : String} {index : Nat}
    (found : earlier.routes[name]? = some index) :
    cache.routes[name]? = some index := by
  obtain ⟨acts, rfl⟩ := runs
  exact routes_follow coherent found acts

/-- Every name that has been registered in the course of a run was an alias of
a write, whose key was then routed to the same shard. -/
theorem asked_of_registered
    (coherent : earlier.Coherent) (acts : List (Act Value))
    {name : String} {index : Nat}
    (found : (follow settings earlier acts).routes[name]? = some index) :
    earlier.routes[name]? = some index ∨
      ∃ (middle : Cache Value) (draft : Draft Value),
        Runs settings earlier middle ∧
          Runs settings (Cache.after settings middle (.write draft))
            (follow settings earlier acts) ∧
            middle.route draft.key = index ∧
              name ∈ draft.aliases ∧ name ≠ draft.key := by
  induction acts generalizing earlier with
  | nil => exact Or.inl found
  | cons act acts inductionHypothesis =>
      have effect := effect_of_act settings coherent act
      rw [follow_cons] at found ⊢
      rcases inductionHypothesis (coherent.after settings act) found with
        known | ⟨middle, draft, before, rest⟩
      · rcases effect.registered known with
          kept | ⟨draft, rfl, home, asked, apart⟩
        · exact Or.inl kept
        · exact Or.inr ⟨earlier, draft, ⟨[], rfl⟩, ⟨acts, rfl⟩, home,
            asked, apart⟩
      · have led : Runs settings earlier middle :=
          trans_of (Runs settings) ⟨[act], rfl⟩ before
        exact Or.inr ⟨middle, draft, led, rest⟩

/-- A single alias that has been registered is left to the keys of its shard,
and there to the key that has it. -/
theorem collides_single_iff [Keyed Value]
    (coherent : cache.Coherent) {name : String} {index : Nat}
    (registered : cache.routes[name]? = some index)
    {key : String} (apart : name ≠ key) (value : Option Value) :
    Collides settings cache (.given ⟨key, value, [name]⟩) ↔
      cache.route key ≠ index ∨
        ∃ holder, cache.HasAlias index holder name ∧ holder ≠ key := by
  have single : cache.Conflicts ⟨key, value, [name]⟩ ↔
      cache.Clashes (cache.route key) key name := by
    simp [Conflicts, apart]
  rw [collides_iff_conflicts coherent, Writing.draft, single,
    clashes_iff_hasAlias coherent (coherent.route_lt key)]
  constructor
  · rintro (⟨place, holder, has, other⟩ | ⟨place, found, elsewhere⟩)
    · have here := has.registered coherent
      rw [registered] at here
      cases here
      exact Or.inr ⟨holder, has, other⟩
    · rw [Option.mem_def, registered] at found
      cases found
      exact Or.inl elsewhere.symm
  · rintro (elsewhere | ⟨holder, has, other⟩)
    · exact Or.inr ⟨index, registered, elsewhere.symm⟩
    · exact Or.inl ⟨index, holder, has, other⟩

end Runs

/-- Whatever has been done to a new cache, a write collides exactly if one of
its aliases belongs to another key, in whatever shard, or is registered on
another shard than its key is routed to.

An alias that an entry has had at any time is registered on the shard of that
entry for good: it can be claimed by the keys of that shard as long as no other
key has it, and by no key of another shard.  In particular this is so when its
entry has just been deleted, evicted, swept, or written without it; for then
nobody has it.  And no name is registered that no write has asked for. -/
theorem collides_iff [Keyed Value]
    {settings : Settings} (valid : settings.Valid)
    (paddings : Nat → List Nat) (operations : List (Operation Value)) :
    let cache := operate settings (empty settings paddings) operations
    (∀ writing : Writing Value,
      let draft := writing.draft cache
      Collides settings cache writing ↔
        ∃ name ∈ draft.aliases, name ≠ draft.key ∧
          ((∃ index owner, cache.HasAlias index owner name ∧
              owner ≠ draft.key) ∨
            ∃ index ∈ cache.routes[name]?,
              index ≠ cache.route draft.key)) ∧
    (∀ (earlier : Cache Value) (index : Nat) (owner name : String),
      Runs settings (empty settings paddings) earlier →
        Runs settings earlier cache → earlier.HasAlias index owner name →
          ∀ (key : String) (value : Option Value), name ≠ key →
            (Collides settings cache (.given ⟨key, value, [name]⟩) ↔
              cache.route key ≠ index ∨
                ∃ holder, cache.HasAlias index holder name ∧
                  holder ≠ key)) ∧
    (∀ (act : Act Value) (index : Nat) (owner name : String),
      cache.HasAlias index owner name →
        let next := after settings cache act
        ¬ next.HasAlias index owner name →
          ∀ (key : String) (value : Option Value), name ≠ key →
            (Collides settings next (.given ⟨key, value, [name]⟩) ↔
              next.route key ≠ index)) ∧
    (∀ (name : String) (index : Nat), cache.routes[name]? = some index →
      ∃ (earlier : Cache Value) (draft : Draft Value),
        Runs settings (empty settings paddings) earlier ∧
          Runs settings (after settings earlier (.write draft)) cache ∧
            earlier.route draft.key = index ∧
              name ∈ draft.aliases ∧ name ≠ draft.key) := by
  intro cache
  have new : (empty settings paddings : Cache Value).Coherent :=
    coherent_empty valid paddings
  have runs : Runs settings (empty settings paddings) cache :=
    runs_operate settings (empty settings paddings) operations
  have coherent : cache.Coherent := new.of_runs runs
  refine ⟨?_, ?_, ?_, ?_⟩
  · intro writing draft
    rw [collides_iff_conflicts coherent, Conflicts]
    simp only [clashes_iff_hasAlias coherent (coherent.route_lt _)]
    exact Iff.rfl
  · intro earlier index owner name reached later has key value apart
    have known : cache.routes[name]? = some index :=
      (new.of_runs reached).registered_of_runs later
        (has.registered (new.of_runs reached))
    exact collides_single_iff coherent known apart value
  · intro act index owner name has next lost key value apart
    have known : next.routes[name]? = some index :=
      coherent.registered_of_runs ⟨[act], rfl⟩ (has.registered coherent)
    refine (collides_single_iff (coherent.after settings act) known apart
      value).trans (or_iff_left ?_)
    rintro ⟨holder, holds, _⟩
    obtain ⟨_, rfl⟩ := has.unmoved coherent act holds
    exact lost holds
  · intro name index found
    obtain ⟨acts, reached⟩ := runs
    rw [← reached] at found ⊢
    apply (asked_of_registered new acts found).resolve_left
    simp [empty]

/-- An alias of a key on the first shard. -/
def lent : List (Operation NameTag) :=
  [.act (.write ⟨"d", none, ["t"]⟩)]

theorem collides_iff_lent :
    let cache := operate Settings.twoShards
      (empty Settings.twoShards fun _ => []) lent
    let next := after Settings.twoShards cache (.delete "d")
    Settings.twoShards.Valid ∧ cache.HasAlias 0 "d" "t" ∧
      ¬ next.HasAlias 0 "d" "t" ∧
        ¬ Collides Settings.twoShards next (.given ⟨"e", none, ["t"]⟩) ∧
          Collides Settings.twoShards next (.given ⟨"a", none, ["t"]⟩) := by
  intro cache next
  have valid : Settings.twoShards.Valid := by decide
  have has : cache.HasAlias 0 "d" "t" := by decide +kernel
  have lost : ¬ next.HasAlias 0 "d" "t" := by decide +kernel
  obtain ⟨_, _, afterwards, _⟩ := collides_iff valid (fun _ => []) lent
  have claimed := afterwards (.delete "d") 0 "d" "t" has lost
  refine ⟨valid, has, lost, ?_, ?_⟩
  · rw [claimed "e" none (by decide)]
    decide +kernel
  · rw [claimed "a" none (by decide)]
    decide +kernel

/-- A write on the second shard collides though nobody has its alias any
more. -/
theorem released_alias_collides :
    let cache := after Settings.twoShards
      (operate Settings.twoShards (empty Settings.twoShards fun _ => []) lent)
      (.delete "d")
    Settings.twoShards.Valid ∧
      Collides Settings.twoShards cache (.given ⟨"a", none, ["t"]⟩) ∧
        ∀ index holder, ¬ cache.HasAlias index holder "t" := by
  intro cache
  have valid : Settings.twoShards.Valid := by decide
  have coherent : cache.Coherent :=
    ((coherent_empty valid fun _ => []).of_runs
      (runs_operate Settings.twoShards _ lent)).after _ (.delete "d")
  refine ⟨valid, (collides_iff_conflicts coherent _).mpr (by decide +kernel),
    ?_⟩
  rintro index holder ⟨shard, seat, _, listed⟩
  have bound := (coherent.shards seat).inverse.mpr listed
  have unbound : ∀ shard ∈ cache.shards.toList,
      shard.keyOfAlias["t"]? = none := by
    decide +kernel
  rw [unbound shard (Array.mem_toList_iff.mpr (Array.mem_of_getElem? seat))]
    at bound
  cases bound

end ReadThrough.Cache
