import ReadThrough.Proofs.Shard.Names
import ReadThrough.Shard.Eviction

/-!
# Removing many entries from a shard

Evictions and sweeps remove entries by lists of keys.  All of these keys are
stored, and none is listed twice, so a shard loses as many entries as its list
is long.  A shard that was swept is `Purged`: what had expired is gone, with its
aliases, and nothing else has changed.
-/

namespace ReadThrough

open Std (ExtTreeMap)

namespace Shard

variable {Value : Type} {shard : Shard Value} {key : String}

/-! ## Distinct keys -/

theorem size_erase_of_stored (stored : key ∈ shard.entries) :
    (shard.erase key).size + 1 = shard.size := by
  have inhabited : 0 < shard.entries.size :=
    Nat.pos_of_ne_zero fun nothing => ExtTreeMap.ne_empty_of_mem stored
      (ExtTreeMap.eq_empty_iff_size_eq_zero.mpr nothing)
  rw [size, size, entries_erase, ExtTreeMap.size_erase,
    if_pos (ExtTreeMap.contains_iff_mem.mpr stored)]
  omega

/-- Every key that is stored and removed makes the shard smaller by one. -/
theorem size_eraseAll_of_nodup {keys : List String}
    (distinct : keys.Nodup) (stored : ∀ key ∈ keys, key ∈ shard.entries) :
    (shard.eraseAll keys).size + keys.length = shard.size := by
  induction keys generalizing shard with
  | nil => rfl
  | cons key keys inductionHypothesis =>
      obtain ⟨fresh, distinctRest⟩ := List.nodup_cons.mp distinct
      obtain ⟨keyStored, restStored⟩ := List.forall_mem_cons.mp stored
      have rest := inductionHypothesis distinctRest
        fun other member => by
          have apart : key ≠ other := fun same => fresh (same ▸ member)
          rw [entries_erase, ExtTreeMap.mem_erase]
          exact ⟨by simpa using apart, restStored other member⟩
      have first := size_erase_of_stored keyStored
      rw [eraseAll, List.foldl_cons, ← eraseAll, List.length_cons]
      omega

theorem nodup_victims (coherent : shard.Coherent) (percentage : Nat) :
    (shard.victims percentage).Nodup := by
  rw [victims, List.Nodup, List.pairwise_map]
  have ranked : ∀ rank ∈ shard.byExpiry, ∃ entry,
      shard.entries[rank.2]? = some entry ∧ entry.expiresAt = rank.1 := by
    intro rank member
    simp only [byExpiry, Std.ExtTreeSet.mem_toList,
      Std.ExtTreeSet.mem_ofList, List.contains_iff_mem, List.mem_map]
      at member
    obtain ⟨stored, there, rfl⟩ := member
    have found := ExtTreeMap.mem_toList_iff_getElem?_eq_some.mp there
    exact ⟨stored.2, by rw [coherent.keyed found, found], rfl⟩
  have distinct : shard.byExpiry.Pairwise (· ≠ ·) := by
    refine (Std.ExtTreeSet.distinct_toList).imp ?_
    intro left right apart same
    rw [same] at apart
    exact apart Std.ReflCmp.compare_self
  refine List.Pairwise.imp_of_mem ?_
    (distinct.sublist (List.take_sublist _ _))
  intro left right leftMember rightMember apart sameKey
  obtain ⟨one, oneFound, oneExpiry⟩ :=
    ranked left (List.mem_of_mem_take leftMember)
  obtain ⟨other, otherFound, otherExpiry⟩ :=
    ranked right (List.mem_of_mem_take rightMember)
  rw [sameKey, otherFound] at oneFound
  cases oneFound
  exact apart (Prod.ext (oneExpiry.symm.trans otherExpiry) sameKey)

/-! ## Expired entries -/

theorem mem_expiredKeys_iff
    (coherent : shard.Coherent) {now : Instant} :
    key ∈ shard.expiredKeys now ↔
      ∃ entry, shard.entries[key]? = some entry ∧
        entry.expiresAt < now := by
  rw [expiredKeys, List.mem_map]
  constructor
  · rintro ⟨stored, listed, rfl⟩
    obtain ⟨member, expired⟩ := List.mem_filter.mp listed
    have found := ExtTreeMap.mem_toList_iff_getElem?_eq_some.mp member
    rw [coherent.keyed found]
    exact ⟨stored.2, found, of_decide_eq_true expired⟩
  · rintro ⟨entry, found, expired⟩
    refine ⟨(key, entry), List.mem_filter.mpr ⟨?_, ?_⟩,
      coherent.keyed found⟩
    · exact ExtTreeMap.mem_toList_iff_getElem?_eq_some.mpr found
    · exact decide_eq_true expired

theorem mem_entries_of_mem_expiredKeys
    (coherent : shard.Coherent) {now : Instant}
    (member : key ∈ shard.expiredKeys now) : key ∈ shard.entries := by
  obtain ⟨entry, found, _⟩ := (mem_expiredKeys_iff coherent).mp member
  exact stored_of_found found

theorem nodup_expiredKeys
    (coherent : shard.Coherent) (now : Instant) :
    (shard.expiredKeys now).Nodup := by
  rw [expiredKeys, List.Nodup, List.pairwise_map]
  have listed : ∀ stored ∈ shard.entries.toList,
      stored.2.key = stored.1 := by
    intro stored member
    exact coherent.keyed
      (ExtTreeMap.mem_toList_iff_getElem?_eq_some.mp member)
  have distinct : shard.entries.toList.Pairwise
      fun left right => ¬ compare left.1 right.1 = .eq :=
    ExtTreeMap.distinct_keys_toList
  refine List.Pairwise.imp_of_mem ?_
    (distinct.sublist List.filter_sublist)
  intro left right leftMember rightMember apart
  rw [listed left (List.mem_filter.mp leftMember).1,
    listed right (List.mem_filter.mp rightMember).1]
  exact fun same => apart (Std.compare_eq_iff_eq.mpr same)

/-- A key is stored with an entry that has not expired by an instant. -/
def Keeps (shard : Shard Value) (now : Instant) (key : String) : Prop :=
  ∃ entry, shard.entries[key]? = some entry ∧ now ≤ entry.expiresAt

/-- What had expired by an instant is gone from a shard, with all aliases, and
nothing else has changed. -/
structure Purged (old : Shard Value) (now : Instant) (new : Shard Value) :
    Prop where
  entries : ∀ {key : String} {entry : Entry Value},
    new.entries[key]? = some entry ↔
      old.entries[key]? = some entry ∧ now ≤ entry.expiresAt
  keyOfAlias : ∀ {name key : String},
    new.keyOfAlias[name]? = some key ↔
      old.keyOfAlias[name]? = some key ∧ old.Keeps now key
  aliasesOfKey : ∀ {key : String} {names : List String},
    new.aliasesOfKey[key]? = some names ↔
      old.aliasesOfKey[key]? = some names ∧ old.Keeps now key
  rest : new = { old with
    entries := new.entries
    keyOfAlias := new.keyOfAlias
    aliasesOfKey := new.aliasesOfKey }

theorem eraseAll_rest (shard : Shard Value) (keys : List String) :
    shard.eraseAll keys = { shard with
      entries := (shard.eraseAll keys).entries
      keyOfAlias := (shard.eraseAll keys).keyOfAlias
      aliasesOfKey := (shard.eraseAll keys).aliasesOfKey } := by
  induction keys generalizing shard with
  | nil => rfl
  | cons key keys inductionHypothesis =>
      have first : shard.erase key = { shard with
          entries := (shard.erase key).entries
          keyOfAlias := (shard.erase key).keyOfAlias
          aliasesOfKey := (shard.erase key).aliasesOfKey } := by
        rw [erase]
        split
        · rfl
        · rfl
      have rest := inductionHypothesis (shard.erase key)
      rw [first] at rest
      rw [eraseAll, List.foldl_cons, first]
      exact rest

theorem getElem?_aliasesOfKey_eraseAll
    (coherent : shard.Coherent) (keys : List String) (key : String) :
    (shard.eraseAll keys).aliasesOfKey[key]? =
      if key ∈ keys then none else shard.aliasesOfKey[key]? := by
  induction keys generalizing shard with
  | nil => simp [eraseAll]
  | cons head tail inductionHypothesis =>
      rw [eraseAll, List.foldl_cons, ← eraseAll,
        inductionHypothesis (coherent.erase head),
        getElem?_aliasesOfKey_erase coherent]
      by_cases later : key ∈ tail
      · simp [later]
      · by_cases first : head = key
        · simp [first]
        · simp [later, first, Ne.symm first]

/-- Of the stored keys those are not expired that keep their entry. -/
theorem notMem_expiredKeys_iff
    (coherent : shard.Coherent) {now : Instant}
    (stored : key ∈ shard.entries) :
    key ∉ shard.expiredKeys now ↔ shard.Keeps now key := by
  rw [mem_expiredKeys_iff coherent, Keeps,
    ExtTreeMap.getElem?_eq_some_getElem stored]
  simp

theorem purged_eraseAll
    (coherent : shard.Coherent) (now : Instant) :
    shard.Purged now (shard.eraseAll (shard.expiredKeys now)) where
  entries {key entry} := by
    rw [getElem?_entries_eraseAll]
    split
    next expired =>
      obtain ⟨found, there, past⟩ := (mem_expiredKeys_iff coherent).mp expired
      rw [there]
      simp only [reduceCtorEq, Option.some.injEq, false_iff, not_and,
        Nat.not_le]
      rintro rfl
      exact past
    next live =>
      refine ⟨fun there => ⟨there, ?_⟩, And.left⟩
      obtain ⟨same, sameThere, kept⟩ := (notMem_expiredKeys_iff coherent
        (stored_of_found there)).mp live
      cases there.symm.trans sameThere
      exact kept
  keyOfAlias {name key} := by
    rw [keyOfAlias_eraseAll_eq_some_iff coherent]
    refine and_congr_right fun bound => ?_
    exact notMem_expiredKeys_iff coherent (coherent.owner_stored bound)
  aliasesOfKey {key names} := by
    rw [getElem?_aliasesOfKey_eraseAll coherent]
    split
    next expired =>
      simp only [reduceCtorEq, false_iff, not_and]
      intro listed kept
      exact (notMem_expiredKeys_iff coherent
        (coherent.listed listed).1).mpr kept expired
    next live =>
      refine ⟨fun listed => ⟨listed, ?_⟩, And.left⟩
      exact (notMem_expiredKeys_iff coherent
        (coherent.listed listed).1).mp live
  rest := eraseAll_rest shard _

end Shard

end ReadThrough
