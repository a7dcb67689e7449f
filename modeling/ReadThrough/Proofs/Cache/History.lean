import Mathlib.Data.List.Induction
import ReadThrough.Proofs.Cache.RoundTrip

/-!
# The history of a run

The history of a run tells what each act did, as far as it matters to readers: a
write that completed or did not and the keys that were evicted for it, a
deletion, a sweep.  A write of the history `Stands` when nothing later in the
history revoked it.
-/

namespace ReadThrough

open Std (ExtTreeMap)

/-- What an act did, as far as it matters to readers. -/
inductive Deed (Value : Type) where
  /-- Nothing that shows. -/
  | nothing
  /-- A draft was to be written.  `completed` is the reading of the clock if it
  was; `evicted` are the keys of the entries that made room for it. -/
  | wrote (draft : Draft Value) (completed : Option Instant)
      (evicted : List String)
  /-- A name was deleted. -/
  | deleted (name : String)
  /-- The expired entries of a shard were removed, at a reading of the clock. -/
  | swept (instant : Instant)
  deriving DecidableEq, Repr

/-- After the deed an earlier write of a draft counts no longer: its key was
written again or evicted, or one of its names was deleted. -/
def Deed.Revokes {Value : Type} (deed : Deed Value) (draft : Draft Value) :
    Prop :=
  match deed with
  | .nothing => False
  | .wrote later completed evicted =>
      (completed.isSome ∧ later.key = draft.key) ∨ draft.key ∈ evicted
  | .deleted name => name ∈ draft.names
  | .swept _ => False

/-- The last completed write of a key in a history, taken at a reading of the
clock and not revoked since. -/
def Stands {Value : Type}
    (history : List (Deed Value)) (draft : Draft Value) (wroteAt : Instant) :
    Prop :=
  ∃ older evicted later,
    history = older ++ .wrote draft (some wroteAt) evicted :: later ∧
      ∀ deed ∈ later, ¬ deed.Revokes draft

/-- The drafts that were to be written, whether or not they were. -/
def drafted {Value : Type} (history : List (Deed Value)) :
    List (Draft Value) :=
  history.filterMap fun
    | .wrote draft _ _ => some draft
    | _ => none

/-- The readings of the clock at which shards were swept. -/
def sweepTimes {Value : Type} (history : List (Deed Value)) : List Instant :=
  history.filterMap fun
    | .swept instant => some instant
    | _ => none

/-- No key that was to be written is an alias of a write with another key. -/
def NamesApart {Value : Type} (history : List (Deed Value)) : Prop :=
  ∀ first ∈ drafted history, ∀ second ∈ drafted history,
    first.key ∈ second.aliases → first.key = second.key

instance {Value : Type} (history : List (Deed Value)) :
    Decidable (NamesApart history) :=
  inferInstanceAs (Decidable (∀ first ∈ drafted history,
    ∀ second ∈ drafted history,
      first.key ∈ second.aliases → first.key = second.key))

namespace Cache

variable {Value : Type}

/-- The reading of the clock at which a write completes: it returns, and it is not
dropped. -/
def completedAt
    (settings : Settings) (cache : Cache Value) (draft : Draft Value) :
    Option Instant :=
  match result? (writeDraft settings draft) cache, cache.clock.read.1 with
  | some _, .ok now =>
      if cache.Drops settings draft.key then none else some now
  | _, _ => none

/-- The keys of the entries that make room for a write.  A write that is dropped
evicts none, and neither does one whose aliases clash. -/
def evictedFor
    (settings : Settings) (cache : Cache Value) (draft : Draft Value) :
    List String :=
  match cache.shards[cache.route draft.key]?,
      (writeDraft settings draft).run cache with
  | none, _ => []
  | some shard, .ok _ _ =>
      if cache.Drops settings draft.key then []
      else shard.evictees settings.evictionPercentage draft.key
  | some shard, .error fault _ =>
      if fault.IsAliasConflict then []
      else shard.evictees settings.evictionPercentage draft.key

/-- What an act does to a cache. -/
def deed (settings : Settings) (cache : Cache Value) :
    Act Value → Deed Value
  | .quiet _ => .nothing
  | .write draft =>
      .wrote draft (completedAt settings cache draft)
        (evictedFor settings cache draft)
  | .delete name => .deleted name
  | .sweep index =>
      match result? (sweep index) cache, cache.clock.read.1 with
      | some _, .ok now => .swept now
      | _, _ => .nothing

/-- What the acts of a run do, one after the other. -/
def chronicle (settings : Settings) :
    Cache Value → List (Act Value) → List (Deed Value)
  | _, [] => []
  | cache, act :: acts =>
      deed settings cache act ::
        chronicle settings (after settings cache act) acts

end Cache

/-! ## Standing writes -/

section Stands

variable {Value : Type} {history : List (Deed Value)} {deed : Deed Value}
  {draft other : Draft Value} {wroteAt otherAt : Instant}

@[simp]
theorem drafted_append (early late : List (Deed Value)) :
    drafted (early ++ late) = drafted early ++ drafted late :=
  List.filterMap_append

@[simp]
theorem sweepTimes_append (early late : List (Deed Value)) :
    sweepTimes (early ++ late) = sweepTimes early ++ sweepTimes late :=
  List.filterMap_append

theorem NamesApart.of_append
    {later : List (Deed Value)} (apart : NamesApart (history ++ later)) :
    NamesApart history := by
  intro first firstMember second secondMember
  apply apart first _ second _
  · rw [drafted_append]
    exact List.mem_append_left _ firstMember
  · rw [drafted_append]
    exact List.mem_append_left _ secondMember

theorem Stands.mem (stands : Stands history draft wroteAt) :
    draft ∈ drafted history := by
  obtain ⟨older, evicted, later, rfl, _⟩ := stands
  simp [drafted]

/-- What stands after a deed is what it wrote, and what stood before and was not
revoked. -/
theorem stands_append_iff :
    Stands (history ++ [deed]) draft wroteAt ↔
      (∃ evicted, deed = .wrote draft (some wroteAt) evicted) ∨
        (Stands history draft wroteAt ∧ ¬ deed.Revokes draft) := by
  constructor
  · intro stands
    obtain ⟨older, evicted, later, whole, kept⟩ := stands
    rcases List.eq_nil_or_concat later with rfl | ⟨between, last, rfl⟩
    · have ends := List.append_inj' whole rfl
      exact Or.inl ⟨evicted, List.singleton_inj.mp ends.2⟩
    · rw [List.concat_eq_append] at whole kept
      rw [← List.cons_append, ← List.append_assoc] at whole
      obtain ⟨same, lastSame⟩ := List.append_inj' whole rfl
      have deedIs : deed = last := List.singleton_inj.mp lastSame
      refine Or.inr ⟨⟨older, evicted, between, same, ?_⟩, ?_⟩
      · exact fun deed member => kept deed (List.mem_append_left _ member)
      · rw [deedIs]
        exact kept last (by simp)
  · intro wroteOrKept
    rcases wroteOrKept with ⟨evicted, rfl⟩ | ⟨stands, last⟩
    · exact ⟨history, evicted, [], rfl, by simp⟩
    · obtain ⟨older, evicted, later, rfl, kept⟩ := stands
      refine ⟨older, evicted, later ++ [deed], by simp, ?_⟩
      intro any member
      rcases List.mem_append.mp member with earlier | final
      · exact kept any earlier
      · rw [List.mem_singleton.mp final]
        exact last

/-- At most one write of a key stands. -/
theorem Stands.unique
    (stands : Stands history draft wroteAt)
    (otherStands : Stands history other otherAt)
    (sameKey : draft.key = other.key) :
    draft = other ∧ wroteAt = otherAt := by
  induction history using List.reverseRecOn with
  | nil => cases stands.mem
  | append_singleton history deed inductionHypothesis =>
      rcases stands_append_iff.mp stands with ⟨evicted, wrote⟩ | earlier
      · rcases stands_append_iff.mp otherStands with ⟨_, same⟩ | ⟨_, kept⟩
        · rw [wrote] at same
          cases same
          exact ⟨rfl, rfl⟩
        · rw [wrote] at kept
          exact absurd (Or.inl ⟨rfl, sameKey⟩) kept
      · rcases stands_append_iff.mp otherStands with ⟨_, wrote⟩ | otherEarlier
        · rw [wrote] at earlier
          exact absurd (Or.inl ⟨rfl, sameKey.symm⟩) earlier.2
        · exact inductionHypothesis earlier.1 otherEarlier.1

end Stands

end ReadThrough
