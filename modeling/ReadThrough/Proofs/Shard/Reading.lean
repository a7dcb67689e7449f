import ReadThrough.Proofs.Deadline
import ReadThrough.Proofs.Shard.Names

/-!
# What readers see of a shard

`seen` is what a name shows at an instant: nothing, or the value or missing
record of the live entry that the name leads to.

Reading changes a shard: an election puts the next one off and is counted.
Shards that differ in nothing else, and in the paddings that are left, are
`Alike`.  They show the same under every name.
-/

namespace ReadThrough

open Std (ExtTreeMap)

namespace Entry

variable {Value : Type}

/-- An entry without the marks that refreshing leaves on it. -/
def settled (entry : Entry Value) : Entry Value :=
  { entry with refreshAt := none, retries := 0 }

@[simp]
theorem settled_postponed
    (entry : Entry Value) (retryBase : Duration) (now : Instant) :
    (entry.postponed retryBase now).settled = entry.settled :=
  rfl

theorem settled_eq_iff {left right : Entry Value} :
    left.settled = right.settled ↔
      left.key = right.key ∧ left.value = right.value ∧
        left.expiresAt = right.expiresAt := by
  simp [settled]

/-- The value or missing record that an entry shows at an instant. -/
def shown (entry : Entry Value) (now : Instant) : Option (Option Value) :=
  if entry.isExpired now then none else some entry.value

theorem shown_eq_some_iff
    {entry : Entry Value} {now : Instant} {value : Option Value} :
    entry.shown now = some value ↔
      now ≤ entry.expiresAt ∧ entry.value = value := by
  rw [shown, isExpired]
  by_cases expired : entry.expiresAt < now
  · simp [expired, Nat.not_le.mpr expired]
  · simp [expired, Nat.not_lt.mp expired]

/-! ## Deadlines -/

theorem not_isExpired
    {entry : Entry Value} {now : Instant} (live : now ≤ entry.expiresAt) :
    entry.isExpired now = false :=
  decide_eq_false (Nat.not_lt.mpr live)

theorem not_isDue
    {entry : Entry Value} {now : Instant}
    (early : ∀ instant ∈ entry.refreshAt, now ≤ instant) :
    entry.isDue now = false := by
  rw [isDue]
  cases refresh : entry.refreshAt with
  | none => rfl
  | some instant =>
      exact decide_eq_false (Nat.not_lt.mpr (early instant refresh))

theorem isDue_of_lt
    {entry : Entry Value} {now due : Instant}
    (refresh : entry.refreshAt = some due) (late : due < now) :
    entry.isDue now = true := by
  rw [isDue, refresh]
  exact decide_eq_true late

end Entry

namespace Lookup

variable {Value : Type}

/-- The value or missing record that was found, if anything was. -/
def content : Lookup Value → Option (Option Value)
  | .absent => none
  | .found value _ => some (some value)
  | .missing _ => some none

@[simp]
theorem refreshes_lookup (entry : Entry Value) (refresh : Bool) :
    (entry.lookup refresh).refreshes = refresh := by
  rw [Entry.lookup]
  cases entry.value with
  | none => rfl
  | some value => rfl

@[simp]
theorem content_lookup (entry : Entry Value) (refresh : Bool) :
    (entry.lookup refresh).content = some entry.value := by
  rw [Entry.lookup]
  cases entry.value with
  | none => rfl
  | some value => rfl

end Lookup

namespace Shard

variable {Value : Type} {shard : Shard Value}

/-! ## Names and entries -/

theorem resolve_of_stored {name : String} (stored : name ∈ shard.entries) :
    shard.resolve name = shard.entries[name]? := by
  rw [resolve, primary, if_pos stored]

theorem resolve_of_bound
    {name key : String} (free : name ∉ shard.entries)
    (bound : shard.keyOfAlias[name]? = some key) :
    shard.resolve name = shard.entries[key]? := by
  rw [resolve, primary, if_neg free, bound, Option.getD_some]

/-- The value or missing record that a name shows at an instant. -/
def seen (shard : Shard Value) (name : String) (now : Instant) :
    Option (Option Value) :=
  (shard.resolve name).bind (·.shown now)

/-! ## Shards that store the same -/

/-- Two shards store the same entries, apart from the marks that refreshing
leaves, under the same names. -/
structure Alike (left right : Shard Value) : Prop where
  capacity : right.capacity = left.capacity
  entries : ∀ key : String,
    right.entries[key]?.map Entry.settled =
      left.entries[key]?.map Entry.settled
  keyOfAlias : right.keyOfAlias = left.keyOfAlias
  aliasesOfKey : right.aliasesOfKey = left.aliasesOfKey

namespace Alike

theorem refl (shard : Shard Value) : Alike shard shard :=
  ⟨rfl, fun _ => rfl, rfl, rfl⟩

theorem symm {left right : Shard Value} (alike : Alike left right) :
    Alike right left where
  capacity := alike.capacity.symm
  entries key := (alike.entries key).symm
  keyOfAlias := alike.keyOfAlias.symm
  aliasesOfKey := alike.aliasesOfKey.symm

theorem trans {left middle right : Shard Value}
    (first : Alike left middle) (second : Alike middle right) :
    Alike left right where
  capacity := second.capacity.trans first.capacity
  entries key := (second.entries key).trans (first.entries key)
  keyOfAlias := second.keyOfAlias.trans first.keyOfAlias
  aliasesOfKey := second.aliasesOfKey.trans first.aliasesOfKey

variable {left right : Shard Value} (alike : Alike left right)

include alike

theorem stored
    {key : String} {entry : Entry Value}
    (found : left.entries[key]? = some entry) :
    ∃ other, right.entries[key]? = some other ∧
      other.settled = entry.settled := by
  have mapped := alike.entries key
  rw [found, Option.map_some, Option.map_eq_some_iff] at mapped
  exact mapped

theorem mem_entries {key : String} :
    key ∈ right.entries ↔ key ∈ left.entries := by
  have mapped := congrArg Option.isSome (alike.entries key)
  rw [Option.isSome_map, Option.isSome_map] at mapped
  rw [ExtTreeMap.mem_iff_isSome_getElem?,
    ExtTreeMap.mem_iff_isSome_getElem?, mapped]

theorem coherent (coherent : left.Coherent) : right.Coherent where
  keyed found := by
    obtain ⟨other, stored, same⟩ := alike.symm.stored found
    exact (Entry.settled_eq_iff.mp same).1.symm.trans
      (coherent.keyed stored)
  inverse := by
    unfold Shard.aliases
    rw [alike.keyOfAlias, alike.aliasesOfKey]
    exact coherent.inverse
  listed found := by
    rw [alike.aliasesOfKey] at found
    rw [alike.mem_entries]
    exact coherent.listed found

end Alike

theorem alike_adjust
    (shard : Shard Value) (key : String)
    {change : Entry Value → Entry Value}
    (marks : ∀ entry, (change entry).settled = entry.settled) :
    Alike shard (shard.adjust key change) := by
  refine ⟨rfl, fun other => ?_, rfl, rfl⟩
  rw [adjust, ExtTreeMap.getElem?_modify]
  split
  next same =>
    rw [Std.compare_eq_iff_eq.mp same, Option.map_map]
    exact congrArg (Option.map · _) (funext marks)
  next => rfl

theorem primary_adjust
    (shard : Shard Value) (key : String)
    (change : Entry Value → Entry Value) (name : String) :
    (shard.adjust key change).primary name = shard.primary name := by
  simp only [primary, adjust, ExtTreeMap.mem_modify]

/-- Adjusting what a name stands for adjusts what it leads to. -/
theorem resolve_adjust_primary
    (shard : Shard Value) (change : Entry Value → Entry Value)
    (name : String) :
    (shard.adjust (shard.primary name) change).resolve name =
      (shard.resolve name).map change := by
  rw [resolve, primary_adjust, adjust, ExtTreeMap.getElem?_modify_self,
    resolve]

/-- Reading changes no more than the marks of refreshing. -/
theorem alike_elect
    (shard : Shard Value) (refresh : Option RefreshWindow)
    (name : String) (now : Instant) :
    Alike shard (shard.elect refresh name now).2 := by
  rw [elect]
  split
  · exact Alike.refl shard
  · split
    · exact Alike.refl shard
    · split
      · split
        · exact Alike.refl shard
        · exact alike_adjust shard _ fun entry =>
            entry.settled_postponed _ now
      · exact Alike.refl shard

theorem takePadding_le (shard : Shard Value) (spread : Duration) :
    (shard.takePadding spread).1 ≤ spread := by
  rw [takePadding]
  split
  · exact Nat.zero_le spread
  next inhabited =>
    split
    · exact Nat.zero_le spread
    next padding _ _ =>
      exact Nat.le_of_lt
        (Nat.mod_lt padding (Nat.pos_of_ne_zero inhabited))

theorem alike_takePadding (shard : Shard Value) (spread : Duration) :
    Alike shard (shard.takePadding spread).2 := by
  rw [takePadding]
  split
  · exact Alike.refl shard
  · split
    · exact Alike.refl shard
    · exact ⟨rfl, fun _ => rfl, rfl, rfl⟩

/-! ## Reading at an instant -/

/-- A glance that answers shows what is seen at its instant. -/
theorem content_of_glance
    {name : String} {now : Instant} {lookup : Lookup Value}
    (answer : shard.glance name now = some lookup) :
    lookup.content = shard.seen name now := by
  rw [glance] at answer
  rw [seen]
  cases found : shard.resolve name with
  | none =>
      rw [found] at answer
      cases answer
      rfl
  | some entry =>
      simp only [found] at answer
      simp only [Option.bind_some, Entry.shown]
      by_cases expired : entry.isExpired now
      · rw [if_pos expired] at answer ⊢
        cases answer
        rfl
      · rw [if_neg expired] at answer ⊢
        split at answer
        · cases answer
        · cases answer
          exact Lookup.content_lookup entry false

/-- The first part of a read elects nobody. -/
theorem refreshes_of_glance
    {name : String} {now : Instant} {lookup : Lookup Value}
    (answer : shard.glance name now = some lookup) :
    lookup.refreshes = false := by
  rw [glance] at answer
  split at answer
  · cases answer
    rfl
  · split at answer
    · cases answer
      rfl
    · split at answer
      · cases answer
      · cases answer
        exact Lookup.refreshes_lookup _ false

/-- Neither does the second part where nothing is refreshed. -/
theorem refreshes_elect_none
    (shard : Shard Value) (name : String) (now : Instant) :
    (shard.elect none name now).1.refreshes = false := by
  rw [elect]
  split
  · rfl
  · split
    · rfl
    · split
      · exact Lookup.refreshes_lookup _ false
      · exact Lookup.refreshes_lookup _ false

/-- An entry that is neither expired nor due answers the first part of a
read. -/
theorem glance_of_resolve
    {name : String} {entry : Entry Value} {now : Instant}
    (resolved : shard.resolve name = some entry)
    (live : now ≤ entry.expiresAt)
    (early : ∀ instant ∈ entry.refreshAt, now ≤ instant) :
    shard.glance name now = some (entry.lookup false) := by
  have unexpired := Entry.not_isExpired live
  have notDue := Entry.not_isDue early
  simp only [glance, resolved, unexpired, notDue, Bool.false_eq_true,
    if_false]

/-- A live entry that is due leaves a read to its second part. -/
theorem glance_of_due
    {name : String} {entry : Entry Value} {now : Instant}
    (resolved : shard.resolve name = some entry)
    (live : now ≤ entry.expiresAt) (due : entry.isDue now = true) :
    shard.glance name now = none := by
  have unexpired := Entry.not_isExpired live
  simp only [glance, resolved, unexpired, due, Bool.false_eq_true,
    if_false, if_true]

/-- The second part of a read elects its reader while the entry is due. -/
theorem elect_of_due
    {name : String} {entry : Entry Value} {now : Instant}
    (window : RefreshWindow)
    (resolved : shard.resolve name = some entry)
    (live : now ≤ entry.expiresAt) (due : entry.isDue now = true) :
    shard.elect (some window) name now =
      (entry.lookup true,
        shard.adjust (shard.primary name)
          (·.postponed window.retryBase now)) := by
  have unexpired := Entry.not_isExpired live
  simp only [elect, resolved, unexpired, due, Bool.false_eq_true,
    if_false, if_true]

/-- The second part of a read elects nobody when another reader has been
elected in between. -/
theorem elect_of_early
    {name : String} {entry : Entry Value} {now : Instant}
    (refresh : Option RefreshWindow)
    (resolved : shard.resolve name = some entry)
    (live : now ≤ entry.expiresAt)
    (early : ∀ instant ∈ entry.refreshAt, now ≤ instant) :
    shard.elect refresh name now = (entry.lookup false, shard) := by
  have unexpired := Entry.not_isExpired live
  have notDue := Entry.not_isDue early
  simp only [elect, resolved, unexpired, notDue, Bool.false_eq_true,
    if_false]

/-- The second part of a read shows what is seen at its own instant. -/
theorem content_elect
    (shard : Shard Value) (refresh : Option RefreshWindow)
    (name : String) (now : Instant) :
    (shard.elect refresh name now).1.content = shard.seen name now := by
  rw [elect, seen]
  cases shard.resolve name with
  | none => rfl
  | some entry =>
      simp only [Option.bind_some, Entry.shown]
      by_cases expired : entry.isExpired now
      · rw [if_pos expired, if_pos expired]
        rfl
      · rw [if_neg expired, if_neg expired]
        split
        · split
          · exact Lookup.content_lookup entry false
          · exact Lookup.content_lookup entry true
        · exact Lookup.content_lookup entry false

/-- A read that elects nobody shows what is seen at its instant. -/
theorem content_peek
    (shard : Shard Value) (name : String) (now : Instant) :
    (shard.peek name now).content = shard.seen name now := by
  rw [peek, seen]
  cases shard.resolve name with
  | none => rfl
  | some entry =>
      simp only [Option.bind_some, Entry.shown]
      by_cases expired : entry.isExpired now
      · rw [if_pos expired, if_pos expired]
        rfl
      · rw [if_neg expired, if_neg expired]
        exact Lookup.content_lookup entry false

end Shard

end ReadThrough
