import ReadThrough.Proofs.Cache.Elections

/-!
# Plain reads

A plain read answers with live values and nothing else: its caller does not
learn whether the lookup was elected to refresh the entry.

While the clock stands still, plain reads visit the entries that their names
lead to.  What each place holds afterwards is what a single visit makes of it
(`held_visitedAll`), and an entry that somebody has visited is ripe no more.

Two caches that are `Abreast` answer alike whatever has been counted and noted
before.  An action that `KeepsAbreast` depends on nothing else.
-/

namespace ReadThrough

open Std (ExtTreeMap)

namespace Cache

/-- A read whose caller learns live values and nothing else. -/
inductive PlainRead where
  | get (name : String)
  | getMany (names : List String)
  | getManyBy (requests : List Request)
  deriving DecidableEq, Repr

namespace PlainRead

/-- The names that are looked up, in this order. -/
def names : PlainRead → List String
  | .get name => [name]
  | .getMany names => names
  | .getManyBy requests => requests.map (·.name)

/-- What a plain read does to a cache. -/
def action {Value : Type} (settings : Settings) :
    PlainRead → Action Value Unit
  | .get name => discard (get? settings name)
  | .getMany names => discard (Cache.getMany settings names)
  | .getManyBy requests => discard (Cache.getManyBy settings requests)

end PlainRead

/-- The cache after plain reads. -/
def readAll {Value : Type} (settings : Settings) (cache : Cache Value)
    (reads : List PlainRead) : Cache Value :=
  reads.foldl (fun cache read => final (read.action settings) cache) cache

variable {Value Result Other : Type} {settings : Settings}
  {cache left right : Cache Value} {name : String} {names : List String}
  {window : RefreshWindow} {base : Duration} {now : Instant}
  {place : Nat × String}

/-! ## Many visits -/

/-- The cache after names have been read at an instant, one after the other. -/
def visitedAll (base : Duration) (now : Instant) (cache : Cache Value)
    (names : List String) : Cache Value :=
  names.foldl (visited base now) cache

theorem visitedAll_cons (name : String) (names : List String) :
    cache.visitedAll base now (name :: names) =
      (cache.visited base now name).visitedAll base now names := rfl

theorem visitedAll_append (early late : List String) :
    cache.visitedAll base now (early ++ late) =
      (cache.visitedAll base now early).visitedAll base now late :=
  List.foldl_append

@[simp]
theorem clock_visitedAll :
    (cache.visitedAll base now names).clock = cache.clock := by
  induction names generalizing cache with
  | nil => rfl
  | cons name names inductionHypothesis =>
      rw [visitedAll_cons, inductionHypothesis, clock_visited]

variable (base now) in
theorem alike_visitedAll (cache : Cache Value) (names : List String) :
    Alike cache (cache.visitedAll base now names) := by
  induction names generalizing cache with
  | nil => exact .refl cache
  | cons name names inductionHypothesis =>
      exact (alike_visited base now cache name).trans (inductionHypothesis _)

theorem Abreast.visitedAll
    (abreast : Abreast left right) (names : List String) :
    Abreast (left.visitedAll base now names)
      (right.visitedAll base now names) := by
  induction names generalizing left right with
  | nil => exact abreast
  | cons name names inductionHypothesis =>
      exact inductionHypothesis abreast.visited

section Coherent

variable (coherent : cache.Coherent)

include coherent

/-- Read once or many times, an entry is visited once. -/
theorem held_visitedAll (names : List String) (place : Nat × String) :
    (cache.visitedAll base now names).held place =
      if place ∈ names.map cache.place then
        (cache.held place).map fun held => (held.1.visited base now, held.2)
      else cache.held place := by
  induction names generalizing cache with
  | nil => rfl
  | cons name names inductionHypothesis =>
      have alike := alike_visited base now cache name
      have places : (cache.visited base now name).place = cache.place :=
        funext alike.place
      rw [visitedAll_cons, inductionHypothesis (alike.coherent coherent),
        places, held_visited coherent, List.map_cons]
      by_cases here : place = cache.place name
      · subst here
        rw [if_pos rfl, if_pos List.mem_cons_self]
        split
        · simp [Option.map_map, Function.comp_def]
        · rfl
      · rw [if_neg here]
        simp [here]

/-- An entry that has been read at an instant is not ripe at that instant. -/
theorem ripeAt_visitedAll :
    (cache.visitedAll base now names).RipeAt place now ↔
      place ∉ names.map cache.place ∧ cache.RipeAt place now := by
  rw [RipeAt, RipeAt, held_visitedAll coherent]
  by_cases read : place ∈ names.map cache.place
  · rw [if_pos read]
    constructor
    · rintro ⟨held, found, ripe⟩
      obtain ⟨earlier, _, rfl⟩ := Option.map_eq_some_iff.mp found
      exact absurd ripe Entry.not_ripe_visited
    · exact fun unread => absurd read unread.1
  · rw [if_neg read]
    exact (and_iff_right read).symm

theorem visited_of_unripe (unripe : ¬ cache.RipeAt (cache.place name) now) :
    cache.visited base now name = cache := by
  obtain ⟨shard, seat⟩ := coherent.seat name
  rw [place_of_seat seat, RipeAt, held_of_seat seat, Shard.held] at unripe
  rw [visited_of_seat seat, Shard.visited, Shard.adjust_eq_self,
    withShard_of_seat seat]
  intro entry stored
  refine if_neg fun ripe => unripe ?_
  exact ⟨_, by rw [Option.mem_def.mp stored]; rfl, ripe⟩

variable (led : ∀ other ∈ names, cache.place other = cache.place name)

include led

theorem visitedAll_of_unripe
    (unripe : ¬ cache.RipeAt (cache.place name) now) :
    cache.visitedAll base now names = cache := by
  induction names with
  | nil => rfl
  | cons other names inductionHypothesis =>
      obtain ⟨same, led⟩ := List.forall_mem_cons.mp led
      rw [visitedAll_cons, visited_of_unripe coherent (same ▸ unripe)]
      exact inductionHypothesis led

/-- After other reads of the same entry, a visit leaves what it leaves
without them. -/
theorem abreast_visited_visitedAll :
    Abreast (cache.visited base now name)
      ((cache.visitedAll base now names).visited base now name) := by
  induction names generalizing cache with
  | nil => exact .refl _
  | cons other names inductionHypothesis =>
      obtain ⟨same, led⟩ := List.forall_mem_cons.mp led
      have alike := alike_visited base now cache other
      have once : cache.visited base now other =
          cache.visited base now name := by
        obtain ⟨shard, seat⟩ := coherent.seat name
        have home : cache.route other = cache.route name :=
          congrArg Prod.fst same
        rw [place_of_seat seat, place_of_seat (home ▸ seat)] at same
        rw [visited, visited, home, seat]
        dsimp only
        rw [Shard.visited_congr (congrArg Prod.snd same)]
      refine Abreast.trans ?_ (inductionHypothesis (alike.coherent coherent)
        fun further member => ?_)
      · rw [once]
        exact abreast_visited_visited coherent rfl
      · rw [alike.place, alike.place]
        exact led further member

end Coherent

/-! ## Plain reads as visits -/

section Reading

variable (ahead : settings.refresh = some window)

include ahead

theorem ends_get?_visits
    (coherent : cache.Coherent)
    (still : cache.clock.read = (.ok now, cache.clock)) (name : String) :
    Ends (get? settings name) cache
      (fun _ => Abreast (cache.visited window.retryBase now name))
      (fun _ _ => False) := by
  rw [get?, ends_bind]
  exact (ends_lookup_visits ahead coherent still name).weaken
    (fun _ _ looked => looked.2.2) fun _ _ => id

theorem ends_getManyBy_visits
    (coherent : cache.Coherent)
    (still : cache.clock.read = (.ok now, cache.clock))
    (requests : List Request) :
    Ends (getManyBy settings requests) cache
      (fun _ => Abreast (cache.visitedAll window.retryBase now
        (requests.map (·.name))))
      (fun _ _ => False) := by
  rw [getManyBy]
  generalize (∅ : ExtTreeMap String Value) = values
  induction requests generalizing cache values with
  | nil => exact .refl cache
  | cons request requests inductionHypothesis =>
      rw [List.foldlM_cons, ends_bind, ends_bind]
      refine (ends_get?_visits ahead coherent still request.name).weaken
        ?_ fun _ _ => id
      intro found next abreast
      have alike := (alike_visited _ _ cache request.name).trans
        (.of_eq abreast.shards abreast.routes)
      have standing : next.clock.read = (.ok now, next.clock) := by
        rw [abreast.clock, clock_visited, still]
      have rest := fun values =>
        (inductionHypothesis (alike.coherent coherent) standing
          values).weaken (fun _ _ reached =>
            (abreast.visitedAll (requests.map (·.name))).trans reached)
          fun _ _ => id
      cases found with
      | some value => exact rest _
      | none => exact rest _

theorem abreast_plainRead
    (coherent : cache.Coherent)
    (still : cache.clock.read = (.ok now, cache.clock)) (read : PlainRead) :
    Abreast (cache.visitedAll window.retryBase now read.names)
      (final (read.action settings) cache) := by
  have reached : ∀ {Result : Type} {action : Action Value Result}
      {names : List String},
      Ends action cache
        (fun _ => Abreast (cache.visitedAll window.retryBase now names))
        (fun _ _ => False) →
          Abreast (cache.visitedAll window.retryBase now names)
            (final (discard action) cache) := by
    intro Result action names ends
    rw [final_discard]
    exact ends_iff_final.mp
      (ends.weaken (fun _ _ => id) fun _ _ => False.elim)
  cases read with
  | get name => exact reached (ends_get?_visits ahead coherent still name)
  | getMany names =>
      have ends := ends_getManyBy_visits ahead coherent still
        (names.map fun name => { label := name, name })
      rw [List.map_map, show (Request.name ∘ fun name =>
        { label := name, name }) = id from rfl, List.map_id] at ends
      exact reached ends
  | getManyBy requests =>
      exact reached (ends_getManyBy_visits ahead coherent still requests)

/-- Plain reads visit what their names lead to. -/
theorem abreast_readAll
    (coherent : cache.Coherent)
    (still : cache.clock.read = (.ok now, cache.clock))
    (reads : List PlainRead) :
    Abreast (cache.visitedAll window.retryBase now
        (reads.flatMap PlainRead.names))
      (readAll settings cache reads) := by
  induction reads generalizing cache with
  | nil => exact .refl cache
  | cons read reads inductionHypothesis =>
      have abreast := abreast_plainRead ahead coherent still read
      have alike := (alike_visitedAll _ _ cache read.names).trans
        (.of_eq abreast.shards abreast.routes)
      have standing : (final (read.action settings) cache).clock.read =
          (.ok now, (final (read.action settings) cache).clock) := by
        rw [abreast.clock, clock_visitedAll, still]
      rw [List.flatMap_cons, visitedAll_append]
      exact (abreast.visitedAll _).trans
        (inductionHypothesis (alike.coherent coherent) standing)

end Reading

/-! ## Actions that keep caches abreast -/

theorem Abreast.change
    (abreast : Abreast left right) (made : Change Value) :
    Abreast (left.change made) (right.change made) := by
  obtain ⟨⟨shards, routes⟩, clock⟩ := abreast
  cases made with
  | note event => exact ⟨⟨shards, routes⟩, clock⟩
  | read => exact ⟨⟨shards, routes⟩, congrArg (·.read.2) clock⟩
  | put index shard =>
      exact ⟨⟨congrArg (·.setIfInBounds index shard) shards, routes⟩, clock⟩
  | enroll name index =>
      exact ⟨⟨shards, congrArg (·.insert name index) routes⟩, clock⟩

theorem Abreast.changeAll
    (abreast : Abreast left right) (changes : List (Change Value)) :
    Abreast (left.changeAll changes) (right.changeAll changes) := by
  induction changes generalizing left right with
  | nil => exact abreast
  | cons made changes inductionHypothesis =>
      exact inductionHypothesis (abreast.change made)

theorem Abreast.view
    (abreast : Abreast left right) (places : Set Nat)
    (names : Set String) : View places names left right where
  size := by rw [abreast.shards]
  shards _ _ := by rw [abreast.shards]
  routes _ _ := by rw [abreast.routes]
  clock := by
    rw [abreast.clock]
    exact .refl left.clock

/-- An action does the same on caches that are abreast. -/
def KeepsAbreast (action : Action Value Result) : Prop :=
  ∀ left right, Abreast left right →
    answer action right = answer action left ∧
      Abreast (final action left) (final action right)

theorem keepsAbreast_of_local
    {action : Action Value Result}
    (everywhere : ∀ cache, Local Set.univ Set.univ cache action) :
    KeepsAbreast action := by
  intro left right abreast
  obtain ⟨changes, _, made⟩ :=
    everywhere left right (abreast.view Set.univ Set.univ)
  refine ⟨made.answer, ?_⟩
  rw [made.left, made.right]
  exact abreast.changeAll changes

theorem KeepsAbreast.bind
    {first : Action Value Other} {second : Other → Action Value Result}
    (head : KeepsAbreast first)
    (tail : ∀ result, KeepsAbreast (second result)) :
    KeepsAbreast (first >>= second) := by
  intro left right abreast
  obtain ⟨sameAnswer, still⟩ := head left right abreast
  rw [answer_bind, answer_bind, final_bind, final_bind, sameAnswer]
  cases answer first left with
  | error fault => exact ⟨rfl, still⟩
  | ok result => exact tail result _ _ still

theorem keepsAbreast_advanceClock (duration : Duration) :
    KeepsAbreast (advanceClock duration : Action Value Unit) := by
  intro left right abreast
  obtain ⟨⟨shards, routes⟩, clock⟩ := abreast
  simp only [answer, final, advanceClock, run_get_bind, clock]
  cases left.clock.advance duration with
  | ok moved => exact ⟨rfl, ⟨shards, routes⟩, rfl⟩
  | error fault => exact ⟨rfl, ⟨shards, routes⟩, clock⟩

variable (settings)

theorem keepsAbreast_lookup (name : String) :
    KeepsAbreast (lookup settings name : Action Value (Lookup Value)) :=
  keepsAbreast_of_local fun _ =>
    local_lookup settings (Set.mem_univ _) (Set.mem_univ _)

theorem keepsAbreast_peek (name : String) :
    KeepsAbreast (peek name : Action Value (Lookup Value)) :=
  keepsAbreast_of_local fun _ => local_peek (Set.mem_univ _) (Set.mem_univ _)

theorem keepsAbreast_play (plan : Plan Result) :
    KeepsAbreast (plan.play : Action Value (Except Failure Result)) := by
  refine (keepsAbreast_advanceClock plan.advance).bind fun _ =>
    keepsAbreast_of_local fun cache => ?_
  cases plan.ending with
  | returns result => exact local_pure _
  | fails failure => exact local_pure _
  | breaks text => exact local_throw _

theorem keepsAbreast_concludeFlight
    [Keyed Value] (storing : Storing) (name : String) (plan : Plan Value) :
    KeepsAbreast (concludeFlight settings storing name plan) := by
  refine (keepsAbreast_play plan).bind fun outcome =>
    keepsAbreast_of_local fun cache => ?_
  unfold storeOutcome
  split
  · exact (local_storeFetched settings storing name _).bind fun _ _ _ =>
      local_pure _
  · refine Local.ite ?_ (local_pure _)
    exact (local_discard (local_write settings name none [])).bind
      fun _ _ _ => local_pure _
  · exact local_pure _

end Cache

end ReadThrough
