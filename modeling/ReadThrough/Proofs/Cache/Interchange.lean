import Mathlib.Data.List.Basic
import Mathlib.Data.Set.BooleanAlgebra
import Mathlib.Order.CompletePartialOrder
import ReadThrough.Proofs.Cache.Coherence
import ReadThrough.Proofs.Cache.Local

/-!
# Work on different shards may change places

A `Visit` is what is asked of one shard: a lookup, a write, a deletion, or a
sweep.  All shards share the routes of the aliases, the clock and the counters,
and a visit may end in a fault with part of its aliases registered.  Still, two
visits to different shards that share no name may change places while the clock
shows the same: neither learns of the other, and what they leave behind differs
in the order of the journal at most.

The changes of one visit are out of the other's view, so each makes the same
changes whether it comes first or second (`Local`); changes that concern
different shards and different names may be swapped one by one.
-/

namespace ReadThrough

open Std (ExtTreeMap)

/-! ## A clock that shows the same -/

namespace Clock

/-- All further readings are the same. -/
def Steady (clock : Clock) : Prop :=
  ∀ count, (clock.skip count).read.1 = clock.read.1

theorem Steady.inStep {clock : Clock} (steady : clock.Steady) :
    clock.InStep clock.read.2 := fun count =>
  (steady (count + 1)).trans (steady count).symm

theorem Steady.of_inStep
    {left right : Clock} (steady : left.Steady)
    (inStep : left.InStep right) : right.Steady := fun count => by
  rw [inStep count, steady count, inStep.reading]

/-- A clock that reading does not move shows the same until it is told to move
on. -/
theorem steady_of_still {clock : Clock} (still : clock.read.2 = clock) :
    clock.Steady := by
  intro count
  induction count with
  | zero => rfl
  | succ count inductionHypothesis =>
      rw [skip, still]
      exact inductionHypothesis

end Clock

/-! ## Events in another order -/

theorem Counters.count_comm
    (counters : Counters) (first second : Event) :
    (counters.count first).count second =
      (counters.count second).count first := by
  cases first with
  | evicted number =>
      cases second with
      | evicted other =>
          simp only [count]
          rw [UInt64.add_assoc, UInt64.add_comm number.toUInt64,
            ← UInt64.add_assoc]
      | _ => rfl
  | _ => cases second <;> rfl

namespace Cache

variable {Value Result First Second : Type}

/-! ## Swapping changes -/

section Swapping

variable {places otherPlaces : Set Nat} {names otherNames : Set String}
  (elsewhere : Disjoint places otherPlaces)
  (unrelated : Disjoint names otherNames)

include elsewhere unrelated

theorem likewise_change_change
    (cache : Cache Value) {first second : Change Value}
    (touches : first.Touches places names)
    (touchesOther : second.Touches otherPlaces otherNames) :
    Likewise ((cache.change first).change second)
      ((cache.change second).change first) := by
  cases first with
  | note event =>
      cases second with
      | note other =>
          exact ⟨rfl, rfl, Counters.count_comm _ other event, rfl⟩
      | _ => exact ⟨rfl, rfl, rfl, rfl⟩
  | put index shard =>
      cases second with
      | put other shard' =>
          have apart : other ≠ index := fun same =>
            Set.disjoint_left.mp elsewhere touches (same ▸ touchesOther)
          exact ⟨Array.setIfInBounds_comm _ _ apart, rfl, rfl, rfl⟩
      | _ => exact ⟨rfl, rfl, rfl, rfl⟩
  | enroll name index =>
      cases second with
      | enroll other index' =>
          have apart : name ≠ other := fun same =>
            Set.disjoint_left.mp unrelated touches (same ▸ touchesOther)
          refine ⟨rfl, ?_, rfl, rfl⟩
          apply ExtTreeMap.ext_getElem?
          intro wanted
          simp only [change, ExtTreeMap.getElem?_insert,
            Std.compare_eq_iff_eq]
          by_cases here : name = wanted
          · have gone : other ≠ wanted := fun same =>
              apart (here.trans same.symm)
            simp [here, gone]
          · simp [here]
      | _ => exact ⟨rfl, rfl, rfl, rfl⟩
  | read => cases second <;> exact ⟨rfl, rfl, rfl, rfl⟩

theorem likewise_change_changeAll
    (cache : Cache Value) {first : Change Value}
    (touches : first.Touches places names)
    {changes : List (Change Value)}
    (touchOther : ∀ made ∈ changes, made.Touches otherPlaces otherNames) :
    Likewise ((cache.change first).changeAll changes)
      ((cache.changeAll changes).change first) := by
  induction changes generalizing cache with
  | nil => exact .refl _
  | cons made changes inductionHypothesis =>
      obtain ⟨touchesOther, others⟩ := List.forall_mem_cons.mp touchOther
      have swapped := likewise_change_change elsewhere unrelated cache
        touches touchesOther
      exact (swapped.changeAll changes).trans
        (inductionHypothesis (cache.change made) others)

theorem likewise_changeAll_changeAll
    (cache : Cache Value) {early late : List (Change Value)}
    (touch : ∀ made ∈ early, made.Touches places names)
    (touchOther : ∀ made ∈ late, made.Touches otherPlaces otherNames) :
    Likewise ((cache.changeAll early).changeAll late)
      ((cache.changeAll late).changeAll early) := by
  induction early generalizing cache with
  | nil => exact .refl _
  | cons made early inductionHypothesis =>
      obtain ⟨touches, others⟩ := List.forall_mem_cons.mp touch
      have swapped := likewise_change_changeAll elsewhere unrelated cache
        touches touchOther
      exact (inductionHypothesis (cache.change made) others).trans
        (swapped.changeAll early)

/-- What concerns other shards and other names is out of view. -/
theorem view_change
    {cache : Cache Value} (steady : cache.clock.Steady)
    {made : Change Value}
    (touchesOther : made.Touches otherPlaces otherNames) :
    View places names cache (cache.change made) := by
  cases made with
  | note event => exact ⟨rfl, fun _ _ => rfl, fun _ _ => rfl, .refl _⟩
  | read => exact ⟨rfl, fun _ _ => rfl, fun _ _ => rfl, steady.inStep⟩
  | put index shard =>
      refine ⟨size_shards_withShard cache index shard, ?_, fun _ _ => rfl,
        .refl _⟩
      intro other place
      have apart : index ≠ other := fun same =>
        Set.disjoint_left.mp elsewhere place (same ▸ touchesOther)
      exact Array.getElem?_setIfInBounds_ne apart
  | enroll name index =>
      refine ⟨rfl, fun _ _ => rfl, ?_, .refl _⟩
      intro other named
      have apart : name ≠ other := fun same =>
        Set.disjoint_left.mp unrelated named (same ▸ touchesOther)
      simp only [change, ExtTreeMap.getElem?_insert, Std.compare_eq_iff_eq,
        if_neg apart]

theorem view_changeAll
    {cache : Cache Value} (steady : cache.clock.Steady)
    {changes : List (Change Value)}
    (touchOther : ∀ made ∈ changes, made.Touches otherPlaces otherNames) :
    View places names cache (cache.changeAll changes) := by
  induction changes generalizing cache with
  | nil => exact .refl cache
  | cons made changes inductionHypothesis =>
      obtain ⟨touchesOther, others⟩ := List.forall_mem_cons.mp touchOther
      have unseen := view_change elsewhere unrelated steady touchesOther
      exact unseen.trans
        (inductionHypothesis (steady.of_inStep unseen.clock) others)

end Swapping

/-! ## Changing places -/

/-- Two actions give the same answers whichever comes first, and leave the same
shards, routes and counters behind. -/
structure Interchange
    (cache : Cache Value) (first : Action Value First)
    (second : Action Value Second) : Prop where
  answersFirst : answer first (final second cache) = answer first cache
  answersSecond : answer second (final first cache) = answer second cache
  shards : (final second (final first cache)).shards =
    (final first (final second cache)).shards
  routes : (final second (final first cache)).routes =
    (final first (final second cache)).routes
  counters : (final second (final first cache)).counters =
    (final first (final second cache)).counters
  clock : (final second (final first cache)).clock =
    (final first (final second cache)).clock

theorem interchange_of_local
    {places otherPlaces : Set Nat} {names otherNames : Set String}
    (elsewhere : Disjoint places otherPlaces)
    (unrelated : Disjoint names otherNames)
    {cache : Cache Value} (steady : cache.clock.Steady)
    {first : Action Value First} {second : Action Value Second}
    (firstLocal : Local places names cache first)
    (secondLocal : Local otherPlaces otherNames cache second) :
    Interchange cache first second := by
  obtain ⟨early, touch, earlyLeaves⟩ := firstLocal cache (.refl cache)
  obtain ⟨late, touchOther, lateLeaves⟩ := secondLocal cache (.refl cache)
  have unseenLate : View places names cache (final second cache) := by
    rw [lateLeaves.left]
    exact view_changeAll elsewhere unrelated steady touchOther
  have unseenEarly :
      View otherPlaces otherNames cache (final first cache) := by
    rw [earlyLeaves.left]
    exact view_changeAll elsewhere.symm unrelated.symm steady touch
  -- Each makes the same changes second as first, so it is left to swap them.
  obtain ⟨again, touchAgain, firstAgain⟩ := firstLocal _ unseenLate
  obtain ⟨anew, touchAnew, secondAnew⟩ := secondLocal _ unseenEarly
  have same : Likewise (final first (final second cache))
      (final second (final first cache)) := by
    rw [firstAgain.right, secondAnew.right, secondAnew.left,
      firstAgain.left]
    exact likewise_changeAll_changeAll elsewhere.symm unrelated.symm cache
      touchAnew touchAgain
  exact ⟨firstAgain.answer, secondAnew.answer, same.shards, same.routes,
    same.counters, same.clock⟩

end Cache

/-! ## Visits to a shard -/

/-- What is asked of one shard, by the type of the answer. -/
inductive Visit (Value : Type) : Type → Type where
  | lookup (name : String) : Visit Value (Lookup Value)
  | peek (name : String) : Visit Value (Lookup Value)
  | write (draft : Draft Value) : Visit Value Bool
  | delete (name : String) : Visit Value Bool
  | sweep (index : Nat) : Visit Value Nat

namespace Visit

variable {Value Result : Type}

/-- What a visit does to a cache. -/
def action (settings : Settings) :
    Visit Value Result → Cache.Action Value Result
  | .lookup name => Cache.lookup settings name
  | .peek name => Cache.peek name
  | .write draft => Cache.writeDraft settings draft
  | .delete name => Cache.delete name
  | .sweep index => Cache.sweep index

/-- The shard that is visited. -/
def home (cache : Cache Value) : Visit Value Result → Nat
  | .lookup name => cache.route name
  | .peek name => cache.route name
  | .write draft => cache.route draft.key
  | .delete name => cache.route name
  | .sweep index => index

/-- The names that a visit is given. -/
def names : Visit Value Result → List String
  | .lookup name => [name]
  | .peek name => [name]
  | .write draft => draft.key :: draft.aliases
  | .delete name => [name]
  | .sweep _ => []

end Visit

namespace Cache

variable {Value Result First Second : Type}

/-- A visit has nothing in view but its shard and its names. -/
theorem local_visit
    (settings : Settings) (cache : Cache Value)
    (visit : Visit Value Result) :
    Local {visit.home cache} {name | name ∈ visit.names} cache
      (visit.action settings) := by
  cases visit with
  | lookup name =>
      exact local_lookup settings List.mem_cons_self (Set.mem_singleton _)
  | peek name =>
      exact local_peek List.mem_cons_self (Set.mem_singleton _)
  | write draft =>
      exact local_writeDraft settings List.mem_cons_self
        (fun _ => List.mem_cons_of_mem draft.key) (Set.mem_singleton _)
  | delete name =>
      exact local_delete List.mem_cons_self (Set.mem_singleton _)
  | sweep index => exact local_sweep (Set.mem_singleton index)

/-- Visits to different shards that share no name may change places while the
clock shows the same. -/
theorem interchange_visits
    (settings : Settings) (cache : Cache Value)
    (steady : cache.clock.Steady)
    (first : Visit Value First) (second : Visit Value Second)
    (apart : first.home cache ≠ second.home cache)
    (unrelated : first.names.Disjoint second.names) :
    Interchange cache (first.action settings)
      (second.action settings) := by
  refine interchange_of_local (Set.disjoint_singleton.mpr apart) ?_ steady
    (local_visit settings cache first) (local_visit settings cache second)
  exact Set.disjoint_left.mpr fun _ ours theirs => unrelated ours theirs

/-- A write that breaks off at its second alias, after it has registered the
first one, and a deletion in the other shard. -/
theorem interchange_visits_broken :
    let cache := operate Settings.twoShards
      (empty Settings.twoShards fun _ => []) contested
    let broken : Visit NameTag Bool := .write ⟨"b", none, ["y", "a"]⟩
    let removal : Visit NameTag Bool := .delete "d"
    answer (broken.action Settings.twoShards) cache =
        .error (.aliasInOtherShard "a") ∧
      Interchange cache (broken.action Settings.twoShards)
        (removal.action Settings.twoShards) := by
  intro cache broken removal
  have steady : cache.clock.Steady :=
    Clock.steady_of_still (by decide +kernel)
  refine ⟨by decide +kernel, ?_⟩
  exact interchange_visits Settings.twoShards cache steady broken removal
    (by decide +kernel) (by simp [broken, removal, Visit.names])

end Cache

end ReadThrough
