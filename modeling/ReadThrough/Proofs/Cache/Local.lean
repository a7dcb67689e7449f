import Mathlib.Data.Set.Insert
import ReadThrough.Proofs.Cache.Twins

/-!
# What an action has in view

An action that is `Local` to some shards and names does the same on all caches
that look the same there: it gives the same answer and makes the same changes,
and these concern nothing else.  It neither learns what else a cache holds nor
what has been counted or noted so far.

Whatever works on one shard is local to that shard and to the names it was
given.  Every action that does not look at the cache as a whole is local to all
shards and all names, so it depends on everything but the counters and the
journal.
-/

namespace ReadThrough

open Std (ExtTreeMap)

namespace Clock

/-- The clock after a number of readings. -/
def skip (clock : Clock) : Nat → Clock
  | 0 => clock
  | count + 1 => clock.read.2.skip count

/-- Two clocks show the same from now on. -/
def InStep (left right : Clock) : Prop :=
  ∀ count, (right.skip count).read.1 = (left.skip count).read.1

namespace InStep

theorem refl (clock : Clock) : InStep clock clock := fun _ => rfl

theorem trans {left middle right : Clock}
    (first : InStep left middle) (second : InStep middle right) :
    InStep left right := fun count =>
  (second count).trans (first count)

theorem reading {left right : Clock} (inStep : InStep left right) :
    right.read.1 = left.read.1 :=
  inStep 0

theorem read {left right : Clock} (inStep : InStep left right) :
    InStep left.read.2 right.read.2 := fun count =>
  inStep (count + 1)

end InStep

end Clock

/-- The least that can be changed of a cache. -/
inductive Change (Value : Type) where
  | note (event : Event)
  | read
  | put (index : Nat) (shard : Shard Value)
  | enroll (name : String) (index : Nat)

namespace Change

variable {Value : Type}

/-- A change concerns no shard and no name but the given ones. -/
def Touches (places : Set Nat) (names : Set String) : Change Value → Prop
  | .note _ => True
  | .read => True
  | .put index _ => index ∈ places
  | .enroll name _ => name ∈ names

end Change

namespace Cache

variable {Value Result Other : Type}

/-- The cache after a change. -/
def change (cache : Cache Value) : Change Value → Cache Value
  | .note event => cache.noted event
  | .read => cache.withClock cache.clock.read.2
  | .put index shard => cache.withShard index shard
  | .enroll name index =>
      { cache with routes := cache.routes.insert name index }

/-- The cache after changes that are made one after the other. -/
def changeAll (cache : Cache Value) (changes : List (Change Value)) :
    Cache Value :=
  changes.foldl change cache

theorem changeAll_cons
    (cache : Cache Value) (first : Change Value)
    (changes : List (Change Value)) :
    cache.changeAll (first :: changes) =
      (cache.change first).changeAll changes := rfl

theorem changeAll_append
    (cache : Cache Value) (early late : List (Change Value)) :
    cache.changeAll (early ++ late) =
      (cache.changeAll early).changeAll late :=
  List.foldl_append

@[simp]
theorem size_shards_change (cache : Cache Value) (made : Change Value) :
    (cache.change made).shards.size = cache.shards.size := by
  cases made with
  | note event => rfl
  | read => rfl
  | put index shard => exact size_shards_withShard cache index shard
  | enroll name index => rfl

/-! ## Looking the same -/

/-- Two caches look the same at some shards and names. -/
structure View
    (places : Set Nat) (names : Set String) (left right : Cache Value) :
    Prop where
  size : right.shards.size = left.shards.size
  shards : ∀ index ∈ places, right.shards[index]? = left.shards[index]?
  routes : ∀ name ∈ names, right.routes[name]? = left.routes[name]?
  clock : left.clock.InStep right.clock

namespace View

variable {places : Set Nat} {names : Set String} {left right : Cache Value}

theorem refl (cache : Cache Value) : View places names cache cache :=
  ⟨rfl, fun _ _ => rfl, fun _ _ => rfl, .refl cache.clock⟩

theorem trans {middle : Cache Value}
    (first : View places names left middle)
    (second : View places names middle right) :
    View places names left right where
  size := second.size.trans first.size
  shards index place :=
    (second.shards index place).trans (first.shards index place)
  routes name named :=
    (second.routes name named).trans (first.routes name named)
  clock := first.clock.trans second.clock

/-- What looks the same still does after the same change. -/
theorem change (view : View places names left right) (made : Change Value) :
    View places names (left.change made) (right.change made) := by
  refine ⟨?_, ?_, ?_, ?_⟩
  · rw [size_shards_change, size_shards_change, view.size]
  · intro index place
    cases made with
    | put other shard =>
        simp only [Cache.change, withShard,
          Array.getElem?_setIfInBounds, view.size, view.shards index place]
    | note event => exact view.shards index place
    | read => exact view.shards index place
    | enroll name other => exact view.shards index place
  · intro name named
    cases made with
    | enroll other index =>
        simp only [Cache.change, ExtTreeMap.getElem?_insert,
          view.routes name named]
    | note event => exact view.routes name named
    | read => exact view.routes name named
    | put index shard => exact view.routes name named
  · cases made with
    | read => exact view.clock.read
    | note event => exact view.clock
    | put index shard => exact view.clock
    | enroll name index => exact view.clock

theorem changeAll
    (view : View places names left right) (changes : List (Change Value)) :
    View places names (left.changeAll changes)
      (right.changeAll changes) := by
  induction changes generalizing left right with
  | nil => exact view
  | cons made changes inductionHypothesis =>
      exact inductionHypothesis (view.change made)

theorem route
    (view : View places names left right) {name : String}
    (named : name ∈ names) : right.route name = left.route name := by
  rw [Cache.route, view.routes name named, view.size, Cache.route]

theorem routable_iff
    (view : View places names left right) {name : String}
    (named : name ∈ names) :
    (right.shards.isEmpty ∧ name ∉ right.routes) ↔
      (left.shards.isEmpty ∧ name ∉ left.routes) := by
  rw [ExtTreeMap.mem_iff_isSome_getElem?, view.routes name named,
    ← ExtTreeMap.mem_iff_isSome_getElem?, Array.isEmpty_iff_size_eq_zero,
    view.size, ← Array.isEmpty_iff_size_eq_zero]

end View

/-- Two caches agree on everything but the journal. -/
structure Likewise (left right : Cache Value) : Prop where
  shards : right.shards = left.shards
  routes : right.routes = left.routes
  counters : right.counters = left.counters
  clock : right.clock = left.clock

namespace Likewise

variable {left right : Cache Value}

theorem refl (cache : Cache Value) : Likewise cache cache :=
  ⟨rfl, rfl, rfl, rfl⟩

theorem symm (likewise : Likewise left right) : Likewise right left :=
  ⟨likewise.shards.symm, likewise.routes.symm, likewise.counters.symm,
    likewise.clock.symm⟩

theorem trans {middle : Cache Value}
    (first : Likewise left middle) (second : Likewise middle right) :
    Likewise left right where
  shards := second.shards.trans first.shards
  routes := second.routes.trans first.routes
  counters := second.counters.trans first.counters
  clock := second.clock.trans first.clock

theorem change (likewise : Likewise left right) (made : Change Value) :
    Likewise (left.change made) (right.change made) := by
  obtain ⟨shards, routes, counters, clock⟩ := likewise
  cases made with
  | note event =>
      exact ⟨shards, routes, congrArg (·.count event) counters, clock⟩
  | read =>
      exact ⟨shards, routes, counters, congrArg (·.read.2) clock⟩
  | put index shard =>
      exact ⟨congrArg (·.setIfInBounds index shard) shards, routes,
        counters, clock⟩
  | enroll name index =>
      exact ⟨shards, congrArg (·.insert name index) routes, counters,
        clock⟩

theorem changeAll
    (likewise : Likewise left right) (changes : List (Change Value)) :
    Likewise (left.changeAll changes) (right.changeAll changes) := by
  induction changes generalizing left right with
  | nil => exact likewise
  | cons made changes inductionHypothesis =>
      exact inductionHypothesis (likewise.change made)

theorem view
    (likewise : Likewise left right) (places : Set Nat)
    (names : Set String) : View places names left right where
  size := by rw [likewise.shards]
  shards _ _ := by rw [likewise.shards]
  routes _ _ := by rw [likewise.routes]
  clock := by
    rw [likewise.clock]
    exact .refl left.clock

end Likewise

/-! ## Local actions -/

theorem ends_iff_answer
    {action : Action Value Result} {cache : Cache Value}
    {returns : Result → Cache Value → Prop}
    {breaks : Fault → Cache Value → Prop} :
    Ends action cache returns breaks ↔
      match answer action cache with
      | .ok result => returns result (final action cache)
      | .error fault => breaks fault (final action cache) := by
  rw [Ends, answer, final]
  cases action.run cache with
  | ok result next => exact Iff.rfl
  | error fault next => exact Iff.rfl

theorem answer_bind
    (first : Action Value Other) (second : Other → Action Value Result)
    (cache : Cache Value) :
    answer (first >>= second) cache =
      match answer first cache with
      | .ok result => answer (second result) (final first cache)
      | .error fault => .error fault := by
  simp only [answer, final, bind, EStateM.bind, EStateM.run]
  cases first cache with
  | ok result next => rfl
  | error fault next => rfl

theorem final_bind
    (first : Action Value Other) (second : Other → Action Value Result)
    (cache : Cache Value) :
    final (first >>= second) cache =
      match answer first cache with
      | .ok result => final (second result) (final first cache)
      | .error _ => final first cache := by
  simp only [answer, final, bind, EStateM.bind, EStateM.run]
  cases first cache with
  | ok result next => rfl
  | error fault next => rfl

theorem answer_map
    (change : Other → Result) (action : Action Value Other)
    (cache : Cache Value) :
    answer (change <$> action) cache =
      (answer action cache).map change := by
  simp only [answer, Functor.map, EStateM.map, EStateM.run]
  cases action cache with
  | ok result next => rfl
  | error fault next => rfl

theorem final_map
    (change : Other → Result) (action : Action Value Other)
    (cache : Cache Value) :
    final (change <$> action) cache = final action cache := by
  simp only [final, Functor.map, EStateM.map, EStateM.run]
  cases action cache with
  | ok result next => rfl
  | error fault next => rfl

/-- An action answers the same from two caches and makes the same changes of
them. -/
structure Leaves
    (changes : List (Change Value)) (action : Action Value Result)
    (left right : Cache Value) : Prop where
  answer : answer action right = answer action left
  left : final action left = left.changeAll changes
  right : final action right = right.changeAll changes

/-- What an action does from a cache depends on some shards and names alone and
concerns nothing else. -/
def Local
    (places : Set Nat) (names : Set String) (cache : Cache Value)
    (action : Action Value Result) : Prop :=
  ∀ other, View places names cache other →
    ∃ changes, (∀ made ∈ changes, made.Touches places names) ∧
      Leaves changes action cache other

variable {places : Set Nat} {names : Set String} {cache : Cache Value}

theorem local_of_unchanged
    {action : Action Value Result}
    (unchanged : ∀ other, View places names cache other →
      answer action other = answer action cache ∧
        final action cache = cache ∧ final action other = other) :
    Local places names cache action := by
  intro other view
  obtain ⟨answers, left, right⟩ := unchanged other view
  exact ⟨[], by simp, answers, left, right⟩

theorem local_of_change
    {action : Action Value Result} (made : Change Value)
    (touches : made.Touches places names)
    (changed : ∀ other, View places names cache other →
      answer action other = answer action cache ∧
        final action cache = cache.change made ∧
        final action other = other.change made) :
    Local places names cache action := by
  intro other view
  obtain ⟨answers, left, right⟩ := changed other view
  exact ⟨[made], by simpa using touches, answers, left, right⟩

theorem local_pure (result : Result) :
    Local places names cache (pure result) :=
  local_of_unchanged fun _ _ => ⟨rfl, rfl, rfl⟩

theorem local_throw (fault : Fault) :
    Local places names cache (throw fault : Action Value Result) :=
  local_of_unchanged fun _ _ => ⟨rfl, rfl, rfl⟩

theorem Local.bind
    {first : Action Value Other} {second : Other → Action Value Result}
    (head : Local places names cache first)
    (tail : ∀ result next, answer first cache = .ok result →
      Local places names next (second result)) :
    Local places names cache (first >>= second) := by
  intro other view
  obtain ⟨early, earlyTouches, made⟩ := head other view
  have still := view.changeAll early
  cases answered : answer first cache with
  | error fault =>
      refine ⟨early, earlyTouches, ?_, ?_, ?_⟩
      · simp only [answer_bind, made.answer, answered]
      · simp only [final_bind, answered, made.left]
      · simp only [final_bind, made.answer, answered, made.right]
  | ok result =>
      -- The same changes leave the other cache looking the same.
      obtain ⟨late, lateTouches, later⟩ :=
        tail result (cache.changeAll early) answered _ still
      refine ⟨early ++ late, ?_, ?_, ?_, ?_⟩
      · intro change member
        exact (List.mem_append.mp member).elim (earlyTouches change)
          (lateTouches change)
      · simp only [answer_bind, made.answer, answered, made.left,
          made.right, later.answer]
      · simp only [final_bind, answered, made.left, later.left,
          changeAll_append]
      · simp only [final_bind, made.answer, answered, made.right,
          later.right, changeAll_append]

theorem Local.ite
    {condition : Prop} [Decidable condition]
    {accepted refused : Action Value Result}
    (onAccepted : Local places names cache accepted)
    (onRefused : Local places names cache refused) :
    Local places names cache
      (if condition then accepted else refused) := by
  split
  · exact onAccepted
  · exact onRefused

theorem local_forM
    {Item : Type} {round : Item → Action Value PUnit} {items : List Item}
    (each : ∀ item ∈ items, ∀ next, Local places names next (round item)) :
    Local places names cache (items.forM round) := by
  induction items generalizing cache with
  | nil => exact local_pure PUnit.unit
  | cons item rest inductionHypothesis =>
      refine (each item List.mem_cons_self cache).bind fun _ _ _ => ?_
      exact inductionHypothesis fun other member =>
        each other (List.mem_cons_of_mem item member)

/-! ## Elementary actions -/

theorem local_record (event : Event) :
    Local places names cache (record event) :=
  local_of_change (.note event) trivial fun _ _ => ⟨rfl, rfl, rfl⟩

theorem run_readClock (cache : Cache Value) :
    answer readClock cache = cache.clock.read.1 ∧
      final readClock cache = cache.change .read := by
  have ends : Ends readClock cache
      (fun now next => cache.clock.read.1 = .ok now ∧
        next = cache.change .read)
      (fun fault next => cache.clock.read.1 = .error fault ∧
        next = cache.change .read) := by
    rw [ends_readClock, change]
    obtain ⟨fault | now, clock⟩ := cache.clock.read
    · exact ⟨rfl, rfl⟩
    · exact ⟨rfl, rfl⟩
  rw [ends_iff_answer] at ends
  cases answered : answer readClock cache with
  | ok now =>
      rw [answered] at ends
      exact ⟨ends.1.symm, ends.2⟩
  | error fault =>
      rw [answered] at ends
      exact ⟨ends.1.symm, ends.2⟩

theorem local_readClock : Local places names cache readClock := by
  refine local_of_change .read trivial fun other view => ?_
  obtain ⟨left, leftFinal⟩ := run_readClock cache
  obtain ⟨right, rightFinal⟩ := run_readClock other
  exact ⟨by rw [left, right, view.clock.reading], leftFinal, rightFinal⟩

theorem local_shardAt {index : Nat} (place : index ∈ places) :
    Local places names cache (shardAt index) := by
  refine local_of_unchanged fun other view => ?_
  unfold answer final
  rw [run_shardAt, run_shardAt, view.shards index place, view.size]
  cases cache.shards[index]? with
  | some shard => exact ⟨rfl, rfl, rfl⟩
  | none => exact ⟨rfl, rfl, rfl⟩

theorem local_putShard
    {index : Nat} (place : index ∈ places) (shard : Shard Value) :
    Local places names cache (putShard index shard) :=
  local_of_change (.put index shard) place fun _ _ => ⟨rfl, rfl, rfl⟩

/-! ## Routing -/

theorem run_shardIndex (cache : Cache Value) (name : String) :
    (shardIndex name).run cache =
      if cache.shards.isEmpty ∧ name ∉ cache.routes then
        .error .noShards cache
      else
        .ok (cache.route name)
          (cache.noted (.routed (cache.route name))) := by
  rw [shardIndex, run_get_bind]
  split
  · rfl
  · rfl

theorem local_shardIndex {name : String} (named : name ∈ names) :
    Local places names cache (shardIndex name) := by
  by_cases nowhere : cache.shards.isEmpty ∧ name ∉ cache.routes
  · refine local_of_unchanged fun other view => ?_
    unfold answer final
    simp only [run_shardIndex, (view.routable_iff named).mpr nowhere,
      nowhere, not_false_eq_true, and_self, if_true]
  · refine local_of_change (.note (.routed (cache.route name))) trivial ?_
    intro other view
    have somewhere := (view.routable_iff named).not.mpr nowhere
    unfold answer final
    simp only [run_shardIndex, if_neg nowhere, if_neg somewhere,
      view.route named]
    exact ⟨trivial, rfl, rfl⟩

/-- What follows routing a name is local if it is so for the shard that the name
is routed to. -/
theorem local_routed
    {name : String} {rest : Nat → Action Value Result}
    (named : name ∈ names)
    (tail : ∀ next, Local places names next (rest (cache.route name))) :
    Local places names cache (shardIndex name >>= rest) := by
  refine (local_shardIndex named).bind fun index next answered => ?_
  have home : index = cache.route name := by
    rw [answer, run_shardIndex] at answered
    by_cases nowhere : cache.shards.isEmpty ∧ name ∉ cache.routes
    · rw [if_pos nowhere] at answered
      cases answered
    · rw [if_neg nowhere] at answered
      exact (Except.ok.inj answered).symm
  rw [home]
  exact tail next

/-! ## Reading -/

section Reading

variable (settings : Settings) {index : Nat} {name : String}

theorem local_getFrom (place : index ∈ places) (name : String) :
    Local places names cache (getFrom settings index name) := by
  refine (local_shardAt place).bind fun shard _ _ => ?_
  refine local_readClock.bind fun first _ _ => ?_
  split
  · exact local_pure _
  · refine local_readClock.bind fun second _ _ => ?_
    exact (local_putShard place _).bind fun _ _ _ => local_pure _

theorem local_recordLookup (lookup : Lookup Value) :
    Local places names cache (recordLookup lookup) := by
  have refreshing : ∀ next, Local places names next
      (do if lookup.refreshes then record .refresh :
        Action Value PUnit) := fun _ =>
    (local_record .refresh).ite (local_pure _)
  cases lookup with
  | absent => exact (local_record .miss).bind fun _ next _ => refreshing next
  | found value refresh =>
      exact (local_record .hit).bind fun _ next _ => refreshing next
  | missing refresh =>
      exact (local_record .missingHit).bind fun _ next _ => refreshing next

theorem local_lookup
    (named : name ∈ names) (place : cache.route name ∈ places) :
    Local places names cache (lookup settings name) :=
  local_routed named fun _ =>
    (local_getFrom settings place name).bind fun found _ _ =>
      (local_recordLookup found).bind fun _ _ _ => local_pure found

theorem local_peek
    (named : name ∈ names) (place : cache.route name ∈ places) :
    Local places names cache (peek name) := by
  refine local_routed named fun _ => ?_
  refine (local_shardAt place).bind fun shard _ _ => ?_
  exact (local_readClock.bind fun _ _ _ => local_pure _).ite (local_pure _)

end Reading

/-! ## Writing and removing -/

section Writing

variable (settings : Settings) {index : Nat}

theorem local_bindAlias
    (key : String) (place : index ∈ places) (name : String) :
    Local places names cache (bindAlias key index name) :=
  (local_shardAt place).bind fun _ _ _ =>
    (local_throw _).ite (local_pure _)

/-- What registering an alias begins with. -/
def enrollAlias (index : Nat) (name : String) : Action Value Unit := do
  let cache ← get
  match cache.routes[name]? with
  | some owner =>
      if owner ≠ index then
        throw (.aliasInOtherShard name)
  | none =>
      set { cache with routes := cache.routes.insert name index }

theorem registerAlias_eq (key : String) (index : Nat) (name : String) :
    (registerAlias key index name : Action Value Unit) =
      enrollAlias index name >>= fun _ => bindAlias key index name := by
  funext cache
  change (registerAlias key index name).run cache =
    (get >>= _ >>= _ : Action Value Unit).run cache
  rw [registerAlias, bind_assoc, run_get_bind, run_get_bind]
  cases cache.routes[name]? with
  | none => rfl
  | some owner =>
      dsimp only
      split
      · rfl
      · rfl

theorem local_enrollAlias {name : String} (named : name ∈ names) (index : Nat) :
    Local places names cache (enrollAlias index name) := by
  cases found : cache.routes[name]? with
  | none =>
      refine local_of_change (.enroll name index) named fun other view => ?_
      have foundThere := (view.routes name named).trans found
      unfold answer final
      simp only [enrollAlias, run_get_bind, found, foundThere]
      exact ⟨rfl, rfl, rfl⟩
  | some owner =>
      refine local_of_unchanged fun other view => ?_
      have foundThere := (view.routes name named).trans found
      unfold answer final
      simp only [enrollAlias, run_get_bind, found, foundThere]
      by_cases same : owner = index
      · simp only [same, ne_eq, not_true_eq_false, if_false]
        exact ⟨rfl, rfl, rfl⟩
      · simp only [same, ne_eq, not_false_eq_true, if_true]
        exact ⟨rfl, rfl, rfl⟩

theorem local_registerAlias
    (key : String) (place : index ∈ places)
    {name : String} (named : name ∈ names) :
    Local places names cache (registerAlias key index name) := by
  rw [registerAlias_eq]
  exact (local_enrollAlias named index).bind fun _ _ _ =>
    local_bindAlias key place name

theorem local_drawRefreshTime
    (refresh : Option RefreshWindow) (place : index ∈ places)
    (now : Instant) :
    Local places names cache (drawRefreshTime refresh index now) := by
  unfold drawRefreshTime
  cases refresh with
  | none => exact local_pure _
  | some window =>
      refine (local_shardAt place).bind fun shard _ _ => ?_
      refine (local_putShard place _).bind fun _ _ _ => ?_
      refine Local.ite ?_ (local_pure _)
      exact (local_throw _).bind fun _ _ _ => local_pure _

theorem local_writeTo
    (place : index ∈ places) (key : String) (value : Option Value)
    (aliases : List String) :
    Local places names cache
      (writeTo settings index key value aliases) := by
  refine (local_shardAt place).bind fun shard _ _ => ?_
  refine (local_pure _).ite ?_
  refine (local_putShard place _).bind fun _ _ _ => ?_
  refine local_readClock.bind fun now _ _ => ?_
  refine (local_drawRefreshTime settings.refresh place now).bind
    fun refreshAt _ _ => ?_
  refine (local_shardAt place).bind fun roomy _ _ => ?_
  refine (local_putShard place _).bind fun _ _ _ => Local.ite ?_ ?_
  · refine (local_record _).bind fun _ _ _ => Local.ite ?_ ?_
    · exact (local_record _).bind fun _ _ _ => local_pure _
    · exact local_pure _
  · exact local_pure _

theorem local_writeDraft
    {draft : Draft Value} (named : draft.key ∈ names)
    (aliased : ∀ name ∈ draft.aliases, name ∈ names)
    (place : cache.route draft.key ∈ places) :
    Local places names cache (writeDraft settings draft) := by
  rw [writeDraft, write_eq]
  refine local_routed named fun _ => ?_
  refine Local.bind ?_ fun _ _ _ =>
    local_writeTo settings place draft.key draft.value draft.aliases
  refine local_forM fun name member _ => ?_
  exact local_registerAlias draft.key place
    (aliased name (List.mem_filter.mp member).1)

theorem local_delete
    {name : String} (named : name ∈ names)
    (place : cache.route name ∈ places) :
    Local places names cache (delete name) :=
  local_routed named fun _ =>
    (local_shardAt place).bind fun _ _ _ =>
      (local_putShard place _).bind fun _ _ _ => local_pure _

theorem local_sweep (place : index ∈ places) :
    Local places names cache (sweep index) := by
  refine (local_shardAt place).bind fun shard _ _ => ?_
  refine local_readClock.bind fun now _ _ => ?_
  refine (local_putShard place _).bind fun _ _ _ => ?_
  refine Local.ite ?_ (local_pure _)
  exact (local_record _).bind fun _ _ _ => local_pure _

end Writing

/-! ## The journal does not matter -/

/-- An action does the same on caches that differ in the journal alone. -/
def Congruent (action : Action Value Result) : Prop :=
  ∀ left right, Likewise left right →
    answer action right = answer action left ∧
      Likewise (final action left) (final action right)

theorem congruent_of_local
    {action : Action Value Result}
    (everywhere : ∀ cache, Local Set.univ Set.univ cache action) :
    Congruent action := by
  intro left right likewise
  obtain ⟨changes, _, made⟩ :=
    everywhere left right (likewise.view Set.univ Set.univ)
  refine ⟨made.answer, ?_⟩
  rw [made.left, made.right]
  exact likewise.changeAll changes

theorem Congruent.bind
    {first : Action Value Other} {second : Other → Action Value Result}
    (head : Congruent first) (tail : ∀ result, Congruent (second result)) :
    Congruent (first >>= second) := by
  intro left right likewise
  obtain ⟨sameAnswer, still⟩ := head left right likewise
  rw [answer_bind, answer_bind, final_bind, final_bind, sameAnswer]
  cases answer first left with
  | error fault => exact ⟨rfl, still⟩
  | ok result => exact tail result _ _ still

theorem congruent_advanceClock (duration : Duration) :
    Congruent (advanceClock duration : Action Value Unit) := by
  intro left right likewise
  obtain ⟨shards, routes, counters, clock⟩ := likewise
  simp only [answer, final, advanceClock, run_get_bind, clock]
  cases left.clock.advance duration with
  | ok moved => exact ⟨rfl, shards, routes, counters, rfl⟩
  | error fault => exact ⟨rfl, shards, routes, counters, clock⟩

section Storing

variable (settings : Settings)

theorem local_write
    (key : String) (value : Option Value) (aliases : List String) :
    Local Set.univ Set.univ cache (write settings key value aliases) := by
  change Local _ _ cache (writeDraft settings ⟨key, value, aliases⟩)
  exact local_writeDraft settings (Set.mem_univ _)
    (fun _ _ => Set.mem_univ _) (Set.mem_univ _)

theorem local_discard
    {action : Action Value Result}
    (isLocal : Local places names cache action) :
    Local places names cache (discard action) :=
  isLocal.bind fun _ _ _ => local_pure PUnit.unit

theorem local_storeFetched
    [Keyed Value] (storing : Storing) (name : String) (value : Value) :
    Local Set.univ Set.univ cache
      (storeFetched settings storing name value) := by
  cases storing with
  | byName =>
      apply local_discard
      refine local_routed (Set.mem_univ _) fun _ => ?_
      refine (local_shardAt (Set.mem_univ _)).bind fun shard _ _ => ?_
      exact local_write settings _ _ _
  | byOwnKey => exact local_discard (local_write settings _ _ _)

theorem local_storeAbsence (name : String) :
    Local Set.univ Set.univ cache (storeAbsence settings name) :=
  (local_discard (local_write settings name none [])).ite
    (local_discard (local_delete (Set.mem_univ _) (Set.mem_univ _)))

end Storing

end Cache

end ReadThrough
