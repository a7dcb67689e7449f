import ReadThrough.Shard

/-!
# Eviction

A full shard makes room by evicting the entries that expire soonest; entries
that expire together are taken in the order of their keys.  A sweep removes the
entries that have expired.
-/

namespace ReadThrough

/-- Earlier instants first, and at one instant smaller keys first. -/
def soonerFirst : Instant × String → Instant × String → Ordering :=
  lexOrd.compare

instance : Std.TransCmp soonerFirst :=
  letI : Ord (Instant × String) := lexOrd
  inferInstanceAs (Std.TransOrd (Instant × String))

instance : Std.LawfulEqCmp soonerFirst :=
  letI : Ord (Instant × String) := lexOrd
  inferInstanceAs (Std.LawfulEqOrd (Instant × String))

namespace Shard

variable {Value : Type}

/-- Whether a write of a key finds no room: the key is not stored, and the
shard holds as many entries as it may. -/
def isFullFor (shard : Shard Value) (key : String) : Bool :=
  decide (key ∉ shard.entries) && decide (shard.capacity ≤ shard.size)

/-- Number of entries to evict: the percentage of `size`, rounded up, but at
least one and at most all. -/
def evictionCount (size percentage : Nat) : Nat :=
  min (max 1 ((size * percentage + 99) / 100)) size

/-- No more entries are evicted than there are. -/
theorem evictionCount_le (size percentage : Nat) :
    evictionCount size percentage ≤ size :=
  Nat.min_le_right _ _

/-- At least one entry is evicted if there is one. -/
theorem evictionCount_pos
    {size : Nat} (percentage : Nat) (inhabited : 0 < size) :
    0 < evictionCount size percentage := by
  rw [evictionCount]
  exact Nat.lt_min.mpr
    ⟨Nat.lt_of_lt_of_le Nat.one_pos (Nat.le_max_left _ _), inhabited⟩

/-- Expiry and key of every entry, the soonest to expire first. -/
def byExpiry (shard : Shard Value) : List (Instant × String) :=
  (Std.ExtTreeSet.ofList
    (shard.entries.toList.map fun stored =>
      (stored.2.expiresAt, stored.2.key)) soonerFirst).toList

/-- The keys that a forced eviction removes. -/
def victims (shard : Shard Value) (percentage : Nat) : List String :=
  (shard.byExpiry.take (evictionCount shard.size percentage)).map (·.2)

/-- The keys of the entries that have expired. -/
def expiredKeys (shard : Shard Value) (now : Instant) : List String :=
  (shard.entries.toList.filter fun stored => stored.2.isExpired now).map
    fun stored => stored.2.key

end Shard

end ReadThrough
