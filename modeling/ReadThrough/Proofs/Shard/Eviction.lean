import Mathlib.Algebra.Order.Floor.Div
import Mathlib.Data.List.Perm.Subperm
import ReadThrough.Proofs.Shard.Removing

/-!
# Forced evictions

Candidates for eviction are ranked by their expiry, and by their keys where they
expire together.  `Selects` is what a partial selection of the first candidates
promises: it takes a number of them, and none that it takes comes after one that
it leaves.  It promises nothing about the order of the candidates, before or
after.

No two entries of a coherent shard have the same rank.  So all selections of one
number of candidates take the same ones (`Selects.perm`), and a forced eviction
leaves the same shard behind whichever selection it goes by.
-/

namespace ReadThrough

open Std (ExtTreeMap)

/-! ## Ranks -/

/-- What candidates for eviction are ranked by. -/
def Entry.rank {Value : Type} (entry : Entry Value) : Instant × String :=
  (entry.expiresAt, entry.key)

/-- A number of candidates has been chosen, and none of them comes after one
that was left. -/
structure Selects
    (count : Nat) (candidates chosen : List (Instant × String)) : Prop where
  length : chosen.length = count
  partition : ∃ left, (chosen ++ left).Perm candidates ∧
    ∀ one ∈ chosen, ∀ other ∈ left, (soonerFirst one other).isLE

namespace Selects

variable {count : Nat} {candidates others chosen chosenToo :
  List (Instant × String)}

theorem subset_candidates (selects : Selects count candidates chosen) :
    chosen ⊆ candidates := by
  obtain ⟨left, same, _⟩ := selects.partition
  exact fun one member => same.subset (List.mem_append_left left member)

theorem nodup
    (selects : Selects count candidates chosen)
    (distinct : candidates.Nodup) : chosen.Nodup := by
  obtain ⟨left, same, _⟩ := selects.partition
  exact (List.nodup_append.mp (same.nodup_iff.mpr distinct)).1

/-- A candidate that was not chosen comes after all that were. -/
theorem isLE_of_notMem
    (selects : Selects count candidates chosen)
    {one other : Instant × String} (member : one ∈ chosen)
    (candidate : other ∈ candidates) (passed : other ∉ chosen) :
    (soonerFirst one other).isLE := by
  obtain ⟨left, same, ordered⟩ := selects.partition
  have found := same.symm.subset candidate
  exact ordered one member other
    ((List.mem_append.mp found).resolve_left passed)

/-- Two selections of one number of candidates agree, in whatever order these
were given. -/
theorem subset
    (selects : Selects count candidates chosen)
    (selectsToo : Selects count others chosenToo)
    (same : candidates.Perm others) (distinct : candidates.Nodup) :
    chosen ⊆ chosenToo := by
  intro one member
  apply Decidable.by_contra
  intro missed
  -- As many were chosen the other way, so one of them was missed in turn.
  have another : ¬ chosenToo ⊆ chosen := by
    intro within
    have equal := (selectsToo.nodup (same.nodup_iff.mp distinct)).subperm within
    have reordered := equal.perm_of_length_le
      (Nat.le_of_eq (selects.length.trans selectsToo.length.symm))
    exact missed (reordered.symm.subset member)
  obtain ⟨other, chosenOther, passed⟩ : ∃ other ∈ chosenToo,
      other ∉ chosen := by
    simpa [List.subset_def] using another
  have before := selects.isLE_of_notMem member
    (same.symm.subset (selectsToo.subset_candidates chosenOther)) passed
  have after := selectsToo.isLE_of_notMem chosenOther
    (same.subset (selects.subset_candidates member)) missed
  have equal : one = other :=
    Std.LawfulEqCmp.eq_of_compare (Std.OrientedCmp.isLE_antisymm before after)
  exact passed (equal ▸ member)

theorem perm
    (selects : Selects count candidates chosen)
    (selectsToo : Selects count others chosenToo)
    (same : candidates.Perm others) (distinct : candidates.Nodup) :
    chosen.Perm chosenToo :=
  ((selects.nodup distinct).subperm
    (selects.subset selectsToo same distinct)).perm_of_length_le
      (Nat.le_of_eq (selectsToo.length.trans selects.length.symm))

end Selects

namespace Shard

variable {Value : Type} {shard : Shard Value} {percentage : Nat}

/-! ## Candidates -/

/-- The ranks of the entries, in the order of their keys. -/
def candidates (shard : Shard Value) : List (Instant × String) :=
  shard.entries.toList.map fun stored => stored.2.rank

theorem mem_candidates {rank : Instant × String} :
    rank ∈ shard.candidates ↔
      ∃ (key : String) (entry : Entry Value),
        shard.entries[key]? = some entry ∧ entry.rank = rank := by
  rw [candidates, List.mem_map]
  simp only [Prod.exists, ExtTreeMap.mem_toList_iff_getElem?_eq_some]

theorem nodup_candidates (coherent : shard.Coherent) :
    shard.candidates.Nodup := by
  rw [candidates, List.Nodup, List.pairwise_map]
  refine List.Pairwise.imp_of_mem ?_
    ExtTreeMap.distinct_keys_toList
  intro left right leftMember rightMember apart same
  have keyed : ∀ stored ∈ shard.entries.toList, stored.2.key = stored.1 :=
    fun stored member => coherent.keyed
      (ExtTreeMap.mem_toList_iff_getElem?_eq_some.mp member)
  have keys : left.2.key = right.2.key := congrArg Prod.snd same
  rw [keyed left leftMember, keyed right rightMember] at keys
  exact apart (Std.compare_eq_iff_eq.mpr keys)

theorem byExpiry_sorted :
    shard.byExpiry.Pairwise fun left right =>
      soonerFirst left right = .lt :=
  Std.ExtTreeSet.ordered_toList

theorem byExpiry_perm (coherent : shard.Coherent) :
    shard.byExpiry.Perm shard.candidates := by
  have distinct : shard.byExpiry.Nodup := by
    refine byExpiry_sorted.imp ?_
    intro left right less same
    have equal : soonerFirst right right = .eq := Std.ReflCmp.compare_self
    rw [same, equal] at less
    cases less
  rw [List.perm_ext_iff_of_nodup distinct (nodup_candidates coherent)]
  intro rank
  rw [byExpiry, Std.ExtTreeSet.mem_toList, Std.ExtTreeSet.mem_ofList,
    List.contains_iff_mem]
  exact Iff.rfl

/-- Every entry is a candidate for an eviction. -/
theorem length_byExpiry (coherent : shard.Coherent) :
    shard.byExpiry.length = shard.size := by
  rw [(byExpiry_perm coherent).length_eq, candidates, List.length_map,
    ExtTreeMap.length_toList]
  rfl

/-! ## Victims -/

/-- The victims are the first candidates, as many as are to be evicted. -/
theorem selects_take (coherent : shard.Coherent) (percentage : Nat) :
    Selects (evictionCount shard.size percentage) shard.candidates
      (shard.byExpiry.take (evictionCount shard.size percentage)) where
  length := by
    rw [List.length_take, length_byExpiry coherent]
    exact Nat.min_eq_left (evictionCount_le _ _)
  partition := by
    refine ⟨shard.byExpiry.drop (evictionCount shard.size percentage), ?_, ?_⟩
    · rw [List.take_append_drop]
      exact byExpiry_perm coherent
    · have sorted : shard.byExpiry.Pairwise fun left right =>
          soonerFirst left right = .lt := byExpiry_sorted
      rw [← List.take_append_drop (evictionCount shard.size percentage)
        shard.byExpiry, List.pairwise_append] at sorted
      intro one chosen other left
      rw [sorted.2.2 one chosen other left]
      rfl

theorem length_victims (coherent : shard.Coherent) (percentage : Nat) :
    (shard.victims percentage).length =
      evictionCount shard.size percentage := by
  rw [victims, List.length_map, (selects_take coherent percentage).length]

/-- A percentage evicts its share rounded up, but at least one entry. -/
theorem evictionCount_eq_ceilDiv
    {size : Nat} (inhabited : 1 ≤ size) (within : percentage ≤ 100) :
    evictionCount size percentage =
      max 1 ((size * percentage) ⌈/⌉ 100) := by
  rw [Nat.ceilDiv_eq_add_pred_div, evictionCount]
  apply Nat.min_eq_left
  have share : size * percentage ≤ size * 100 :=
    Nat.mul_le_mul_left size within
  omega

theorem mem_victims_iff (coherent : shard.Coherent) {key : String} :
    key ∈ shard.victims percentage ↔
      ∃ entry, shard.entries[key]? = some entry ∧ entry.rank ∈
        shard.byExpiry.take (evictionCount shard.size percentage) := by
  rw [victims, List.mem_map]
  constructor
  · rintro ⟨rank, taken, rfl⟩
    have listed := (byExpiry_perm coherent).subset (List.mem_of_mem_take taken)
    obtain ⟨key, entry, found, rfl⟩ := mem_candidates.mp listed
    have keyed : entry.rank.2 = key := coherent.keyed found
    exact ⟨entry, keyed ▸ found, taken⟩
  · rintro ⟨entry, found, taken⟩
    exact ⟨entry.rank, taken, coherent.keyed found⟩

/-- Every victim expires before every survivor, or together with it under a
smaller key. -/
theorem victim_sooner
    (coherent : shard.Coherent) {key other : String}
    {entry survivor : Entry Value}
    (found : shard.entries[key]? = some entry)
    (evicted : key ∈ shard.victims percentage)
    (foundOther : shard.entries[other]? = some survivor)
    (spared : other ∉ shard.victims percentage) :
    soonerFirst entry.rank survivor.rank = .lt := by
  obtain ⟨same, sameFound, taken⟩ := (mem_victims_iff coherent).mp evicted
  cases found.symm.trans sameFound
  have left : survivor.rank ∉
      shard.byExpiry.take (evictionCount shard.size percentage) :=
    fun there => spared ((mem_victims_iff coherent).mpr
      ⟨survivor, foundOther, there⟩)
  have before := (selects_take coherent percentage).isLE_of_notMem taken
    (mem_candidates.mpr ⟨other, survivor, foundOther, rfl⟩) left
  refine (Ordering.isLE_iff_eq_lt_or_eq_eq.mp before).resolve_right ?_
  intro equal
  exact left (Std.LawfulEqCmp.eq_of_compare equal ▸ taken)

/-! ## The order of the candidates -/

/-- What is left does not depend on the order in which keys are removed. -/
theorem eraseAll_congr
    (coherent : shard.Coherent) {keys others : List String}
    (same : ∀ key, key ∈ keys ↔ key ∈ others) :
    shard.eraseAll keys = shard.eraseAll others := by
  have entries : (shard.eraseAll keys).entries =
      (shard.eraseAll others).entries := by
    apply ExtTreeMap.ext_getElem?
    intro key
    simp only [getElem?_entries_eraseAll, same]
  have keyOfAlias : (shard.eraseAll keys).keyOfAlias =
      (shard.eraseAll others).keyOfAlias := by
    apply ExtTreeMap.ext_getElem?
    intro name
    apply Option.ext
    intro owner
    simp only [keyOfAlias_eraseAll_eq_some_iff coherent, same]
  have aliasesOfKey : (shard.eraseAll keys).aliasesOfKey =
      (shard.eraseAll others).aliasesOfKey := by
    apply ExtTreeMap.ext_getElem?
    intro key
    simp only [getElem?_aliasesOfKey_eraseAll coherent, same]
  rw [eraseAll_rest shard keys, eraseAll_rest shard others, entries,
    keyOfAlias, aliasesOfKey]

/-- Whichever selection an eviction goes by, and in whatever order the candidates
are given to it, the same shard is left. -/
theorem eraseAll_of_selects
    (coherent : shard.Coherent)
    {listed chosen : List (Instant × String)}
    (candidates : listed.Perm shard.candidates)
    (selects : Selects (evictionCount shard.size percentage) listed chosen) :
    shard.eraseAll (chosen.map (·.2)) =
      shard.eraseAll (shard.victims percentage) := by
  have same := selects.perm (selects_take coherent percentage) candidates
    (candidates.nodup_iff.mpr (nodup_candidates coherent))
  exact eraseAll_congr coherent fun _ => (same.map (·.2)).mem_iff

end Shard

end ReadThrough
