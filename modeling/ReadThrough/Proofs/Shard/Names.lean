import ReadThrough.Shard.Eviction
import ReadThrough.Shard.Election

/-!
# The names of a shard

A shard is `Coherent` when its two alias indices are inverses of each other,
every entry is stored under its own key, and only stored keys have aliases.
Every change of a shard keeps it coherent.  Removing an entry relies on that:
it unbinds whatever the index lists for the key.

In a coherent shard each change has a plain effect on both indices, which
`getElem?_keyOfAlias_erase`, `getElem?_keyOfAlias_eraseAll` and
`getElem?_keyOfAlias_upsert` state.
-/

namespace ReadThrough

open Std (ExtTreeMap)

/-! ## Folds over maps by name -/

theorem getElem?_foldl_erase
    {Bound : Type} (names : List String) (name : String)
    (index : ExtTreeMap String Bound) :
    (names.foldl .erase index)[name]? =
      if name ∈ names then none else index[name]? := by
  induction names generalizing index with
  | nil => simp
  | cons head tail inductionHypothesis =>
      rw [List.foldl_cons, inductionHypothesis, ExtTreeMap.getElem?_erase]
      by_cases later : name ∈ tail
      · simp [later]
      · by_cases first : head = name
        · simp [first]
        · simp [later, first, Ne.symm first]

theorem getElem?_foldl_insert
    {Bound : Type} (names : List String) (name : String) (bound : Bound)
    (index : ExtTreeMap String Bound) :
    (names.foldl (fun index name => index.insert name bound)
        index)[name]? =
      if name ∈ names then some bound else index[name]? := by
  induction names generalizing index with
  | nil => simp
  | cons head tail inductionHypothesis =>
      rw [List.foldl_cons, inductionHypothesis, ExtTreeMap.getElem?_insert]
      by_cases later : name ∈ tail
      · simp [later]
      · by_cases first : head = name
        · simp [first]
        · simp [later, first, Ne.symm first]

namespace Shard

variable {Value : Type}

theorem stored_of_found
    {shard : Shard Value} {key : String} {entry : Entry Value}
    (found : shard.entries[key]? = some entry) : key ∈ shard.entries :=
  (ExtTreeMap.getElem?_eq_some_iff.mp found).1

/-! ## Coherence -/

/-- The maps of a shard agree with each other. -/
structure Coherent (shard : Shard Value) : Prop where
  /-- Every entry is stored under its own key. -/
  keyed : ∀ {key : String} {entry : Entry Value},
    shard.entries[key]? = some entry → entry.key = key
  /-- The alias indices are inverses of each other. -/
  inverse : ∀ {name key : String},
    shard.keyOfAlias[name]? = some key ↔ name ∈ shard.aliases key
  /-- A key with a list of aliases is stored, and its list is not empty, is
  strictly sorted and does not hold the key. -/
  listed : ∀ {key : String} {aliases : List String},
    shard.aliasesOfKey[key]? = some aliases →
      key ∈ shard.entries ∧ aliases ≠ [] ∧
        aliases.Pairwise (· < ·) ∧ key ∉ aliases

theorem coherent_empty (capacity : Nat) (paddings : List Nat) :
    (empty capacity paddings : Shard Value).Coherent where
  keyed stored := by simp [empty] at stored
  inverse := by simp [empty, aliases]
  listed bound := by simp [empty] at bound

theorem mem_aliases_iff
    {shard : Shard Value} {name key : String} :
    name ∈ shard.aliases key ↔
      ∃ aliases, shard.aliasesOfKey[key]? = some aliases ∧
        name ∈ aliases := by
  rw [aliases]
  cases shard.aliasesOfKey[key]? with
  | none => simp
  | some list => simp

theorem keyOfAlias_of_erase
    {shard : Shard Value} {key name owner : String}
    (bound : (shard.erase key).keyOfAlias[name]? = some owner) :
    shard.keyOfAlias[name]? = some owner := by
  rw [erase] at bound
  split at bound
  · rw [getElem?_foldl_erase] at bound
    split at bound
    · cases bound
    · exact bound
  · exact bound

theorem keyOfAlias_of_eraseAll
    {shard : Shard Value} {keys : List String} {name owner : String}
    (bound : (shard.eraseAll keys).keyOfAlias[name]? = some owner) :
    shard.keyOfAlias[name]? = some owner := by
  induction keys generalizing shard with
  | nil => exact bound
  | cons key rest inductionHypothesis =>
      exact keyOfAlias_of_erase (inductionHypothesis bound)

section Coherent

variable {shard : Shard Value} (coherent : shard.Coherent)

include coherent

theorem Coherent.owner_stored
    {name key : String} (bound : shard.keyOfAlias[name]? = some key) :
    key ∈ shard.entries := by
  obtain ⟨list, found, _⟩ := mem_aliases_iff.mp (coherent.inverse.mp bound)
  exact (coherent.listed found).1

/-! ## Removing entries -/

theorem getElem?_keyOfAlias_erase (key name : String) :
    (shard.erase key).keyOfAlias[name]? =
      if shard.keyOfAlias[name]? = some key then none
      else shard.keyOfAlias[name]? := by
  by_cases stored : key ∈ shard.entries
  · rw [erase, if_pos stored, getElem?_foldl_erase]
    simp only [coherent.inverse]
  · have unbound : shard.keyOfAlias[name]? ≠ some key := fun bound =>
      stored (coherent.owner_stored bound)
    rw [erase, if_neg stored, if_neg unbound]

theorem getElem?_aliasesOfKey_erase (key other : String) :
    (shard.erase key).aliasesOfKey[other]? =
      if key = other then none else shard.aliasesOfKey[other]? := by
  by_cases stored : key ∈ shard.entries
  · rw [erase, if_pos stored, ExtTreeMap.getElem?_erase]
    simp
  · rw [erase, if_neg stored]
    by_cases same : key = other
    · subst same
      rw [if_pos rfl]
      cases found : shard.aliasesOfKey[key]? with
      | none => rfl
      | some list => exact absurd (coherent.listed found).1 stored
    · rw [if_neg same]

theorem aliases_erase (key other : String) :
    (shard.erase key).aliases other =
      if key = other then [] else shard.aliases other := by
  unfold aliases
  rw [getElem?_aliasesOfKey_erase coherent]
  by_cases same : key = other
  · simp [same]
  · simp [same]

theorem Coherent.erase (key : String) : (shard.erase key).Coherent where
  keyed stored := by
    rw [entries_erase, ExtTreeMap.getElem?_erase] at stored
    split at stored
    · cases stored
    · exact coherent.keyed stored
  inverse := by
    intro name owner
    rw [getElem?_keyOfAlias_erase coherent, aliases_erase coherent]
    by_cases same : key = owner
    · subst same
      simp
    · rw [if_neg same, ← coherent.inverse]
      split
      next bound => simp [bound, same]
      next => rfl
  listed := by
    intro owner list found
    rw [getElem?_aliasesOfKey_erase coherent] at found
    split at found
    · cases found
    next different =>
      obtain ⟨stored, listed⟩ := coherent.listed found
      refine ⟨?_, listed⟩
      rw [entries_erase, ExtTreeMap.mem_erase]
      exact ⟨by simpa using different, stored⟩

theorem Coherent.eraseAll (keys : List String) :
    (shard.eraseAll keys).Coherent := by
  induction keys generalizing shard with
  | nil => exact coherent
  | cons key rest inductionHypothesis =>
      exact inductionHypothesis (coherent.erase key)

theorem keyOfAlias_eraseAll_eq_some_iff
    (keys : List String) (name owner : String) :
    (shard.eraseAll keys).keyOfAlias[name]? = some owner ↔
      shard.keyOfAlias[name]? = some owner ∧ owner ∉ keys := by
  induction keys generalizing shard with
  | nil => simp [Shard.eraseAll]
  | cons key rest inductionHypothesis =>
      have step := inductionHypothesis (coherent.erase key)
      rw [Shard.eraseAll, List.foldl_cons, ← Shard.eraseAll, step,
        getElem?_keyOfAlias_erase coherent]
      by_cases bound : shard.keyOfAlias[name]? = some key
      · rw [if_pos bound, bound]
        simp only [reduceCtorEq, false_and, Option.some.injEq,
          List.mem_cons, not_or, false_iff]
        intro bound
        obtain ⟨rfl, different, _⟩ := bound
        exact different rfl
      · rw [if_neg bound]
        constructor
        · intro bound
          obtain ⟨found, later⟩ := bound
          refine ⟨found, ?_⟩
          rw [List.mem_cons, not_or]
          exact ⟨fun same => bound (same ▸ found), later⟩
        · intro bound
          obtain ⟨found, apart⟩ := bound
          exact ⟨found, fun member => apart (List.mem_cons_of_mem _ member)⟩

end Coherent

@[simp]
theorem getElem?_entries_eraseAll
    (shard : Shard Value) (keys : List String) (key : String) :
    (shard.eraseAll keys).entries[key]? =
      if key ∈ keys then none else shard.entries[key]? := by
  induction keys generalizing shard with
  | nil => simp [eraseAll]
  | cons head tail inductionHypothesis =>
      rw [eraseAll, List.foldl_cons, ← eraseAll, inductionHypothesis,
        entries_erase, ExtTreeMap.getElem?_erase]
      by_cases later : key ∈ tail
      · simp [later]
      · by_cases first : head = key
        · simp [first]
        · simp [later, first, Ne.symm first]

theorem mem_entries_eraseAll
    {shard : Shard Value} {keys : List String} {key : String} :
    key ∈ (shard.eraseAll keys).entries ↔
      key ∈ shard.entries ∧ key ∉ keys := by
  rw [ExtTreeMap.mem_iff_isSome_getElem?, getElem?_entries_eraseAll,
    ExtTreeMap.mem_iff_isSome_getElem?]
  by_cases member : key ∈ keys
  · simp [member]
  · simp [member]

/-! ## Writing an entry -/

theorem boundAliases_sorted (key : String) (aliases : List String) :
    (boundAliases key aliases).Pairwise (· < ·) := by
  have ordered :=
    Std.ExtTreeSet.ordered_toList
      (t := Std.ExtTreeSet.ofList (aliases.filter (· ≠ key)))
  exact ordered.imp fun less => compareOfLessAndEq_eq_lt.mp less

section Upsert

variable {shard : Shard Value} {entry : Entry Value}
  {aliases : List String}

/-- The aliases that a write asks for lead to its key, and those that the key
had before lead nowhere. -/
theorem getElem?_keyOfAlias_upsert
    (coherent : shard.Coherent) (name : String) :
    (shard.upsert entry aliases).keyOfAlias[name]? =
      if name ∈ boundAliases entry.key aliases then some entry.key
      else if shard.keyOfAlias[name]? = some entry.key then none
      else shard.keyOfAlias[name]? := by
  simp only [upsert]
  rw [getElem?_foldl_insert, getElem?_keyOfAlias_erase coherent]

/-- The list of a written key holds the aliases that the write asks for; there
is none when it asks for none. -/
theorem getElem?_aliasesOfKey_upsert
    (coherent : shard.Coherent) (key : String) :
    (shard.upsert entry aliases).aliasesOfKey[key]? =
      if entry.key = key then
        if (boundAliases entry.key aliases).isEmpty then none
        else some (boundAliases entry.key aliases)
      else shard.aliasesOfKey[key]? := by
  simp only [upsert]
  by_cases nothing : (boundAliases entry.key aliases).isEmpty
  · rw [if_pos nothing, getElem?_aliasesOfKey_erase coherent,
      if_pos nothing]
  · rw [if_neg nothing, ExtTreeMap.getElem?_insert,
      getElem?_aliasesOfKey_erase coherent, if_neg nothing]
    by_cases same : entry.key = key
    · simp [same]
    · simp [same]

theorem aliases_upsert (coherent : shard.Coherent) (key : String) :
    (shard.upsert entry aliases).aliases key =
      if entry.key = key then boundAliases entry.key aliases
      else shard.aliases key := by
  unfold Shard.aliases
  rw [getElem?_aliasesOfKey_upsert coherent]
  by_cases same : entry.key = key
  · rw [if_pos same, if_pos same]
    split
    next nothing => exact (List.isEmpty_iff.mp nothing).symm
    next => rfl
  · rw [if_neg same, if_neg same]

/-- A write keeps a shard coherent when none of its aliases is bound to
another key. -/
theorem Coherent.upsert
    (coherent : shard.Coherent)
    (free : ∀ name ∈ aliases, name ≠ entry.key →
      ∀ owner, shard.keyOfAlias[name]? = some owner → owner = entry.key) :
    (shard.upsert entry aliases).Coherent where
  keyed stored := by
    rw [entries_upsert, ExtTreeMap.getElem?_insert] at stored
    split at stored
    next same =>
      cases stored
      exact Std.compare_eq_iff_eq.mp same
    next => exact coherent.keyed stored
  inverse := by
    intro name owner
    rw [getElem?_keyOfAlias_upsert coherent, aliases_upsert coherent]
    by_cases asked : name ∈ boundAliases entry.key aliases
    · rw [if_pos asked]
      by_cases same : entry.key = owner
      · exact iff_of_true (congrArg some same) (by rwa [if_pos same])
      · rw [if_neg same, ← coherent.inverse]
        have member := mem_boundAliases.mp asked
        constructor
        · intro equal
          exact absurd (Option.some.inj equal) same
        · intro bound
          exact absurd (free name member.1 member.2 owner bound).symm same
    · rw [if_neg asked]
      by_cases same : entry.key = owner
      · subst same
        simp [asked]
      · rw [if_neg same, ← coherent.inverse]
        split
        next bound => simp [bound, same]
        next => rfl
  listed := by
    intro key list found
    rw [getElem?_aliasesOfKey_upsert coherent] at found
    rw [entries_upsert, ExtTreeMap.mem_insert]
    by_cases same : entry.key = key
    · subst same
      rw [if_pos rfl] at found
      split at found
      · cases found
      next inhabited =>
        cases found
        refine ⟨Or.inl (by simp), ?_, boundAliases_sorted _ _, ?_⟩
        · exact fun empty => inhabited (List.isEmpty_iff.mpr empty)
        · exact fun member => (mem_boundAliases.mp member).2 rfl
    · rw [if_neg same] at found
      obtain ⟨stored, listed⟩ := coherent.listed found
      exact ⟨Or.inr stored, listed⟩

end Upsert

end Shard

end ReadThrough
