import ReadThrough.Proofs.Cache.PlainReads

/-!
# What a batch gathers

A batch looks its requests up one after the other (`lookupAll`) and sorts them
by what the lookups tell: some have a live value, some were elected to refresh,
some were missed.  `ReadAt` says what the lookups tell while the clock shows one
instant.  Every request reads what its name shows in the cache as it was before,
and of the requests that lead to one ripe entry the first is elected.

The response to the missed requests is asked for their labels only.
-/

namespace ReadThrough

open Std (ExtTreeMap)

variable {Value : Type}

namespace Lookup

theorem value?_eq (lookup : Lookup Value) :
    lookup.value? = lookup.content.join := by
  cases lookup with
  | absent => rfl
  | found value refresh => rfl
  | missing refresh => rfl

theorem isLive_eq (lookup : Lookup Value) :
    lookup.isLive = lookup.content.isSome := by
  cases lookup with
  | absent => rfl
  | found value refresh => rfl
  | missing refresh => rfl

end Lookup

namespace Cache

variable {settings : Settings} {cache : Cache Value} {now : Instant}
  {requests : List Request} {reads : List (Lookup Value)}

/-! ## Looking requests up -/

/-- The lookups of requests, one after the other. -/
def lookupAll (settings : Settings) (requests : List Request) :
    Action Value (List (Lookup Value)) :=
  requests.mapM fun request => lookup settings request.name

/-- The requests whose lookup is of a kind, in their order. -/
def selected
    (kind : Lookup Value → Bool) (requests : List Request)
    (reads : List (Lookup Value)) : List Request :=
  ((requests.zip reads).filter fun read => kind read.2).map (·.1)

@[simp]
theorem selected_cons
    (kind : Lookup Value → Bool) (request : Request) (lookup : Lookup Value) :
    selected kind (request :: requests) (lookup :: reads) =
      if kind lookup then request :: selected kind requests reads
      else selected kind requests reads := by
  rw [selected, List.zip_cons_cons, List.filter_cons]
  split
  · rfl
  · rfl

/-- The values that lookups have found, by label, with those that were found
before. -/
def collected
    (found : ExtTreeMap String Value) :
    List Request → List (Lookup Value) → ExtTreeMap String Value
  | request :: requests, lookup :: reads =>
      collected ((lookup.value?.map (found.insert request.label)).getD found)
        requests reads
  | _, _ => found

/-- A batch gathers what the lookups of its requests tell. -/
theorem gather_eq (requests : List Request) (gathered : Gathered Value) :
    gather settings requests gathered =
      (fun reads =>
        { found := collected gathered.found requests reads
          refreshes := gathered.refreshes ++
            selected (·.refreshes) requests reads
          misses := gathered.misses ++
            selected (!·.isLive) requests reads }) <$>
        lookupAll settings requests := by
  induction requests generalizing gathered with
  | nil => simp [gather, lookupAll, collected, selected]
  | cons request requests inductionHypothesis =>
      rw [gather, lookupAll, List.mapM_cons]
      simp only [inductionHypothesis, map_eq_pure_bind, bind_assoc, pure_bind]
      refine congrArg _ (funext fun lookup => ?_)
      refine congrArg _ (funext fun reads => ?_)
      rw [selected_cons, selected_cons, collected]
      cases lookup with
      | absent => simp [Lookup.value?, Lookup.refreshes, Lookup.isLive]
      | found value refresh =>
          cases refresh with
          | _ => simp [Lookup.value?, Lookup.refreshes, Lookup.isLive]
      | missing refresh =>
          cases refresh with
          | _ => simp [Lookup.value?, Lookup.refreshes, Lookup.isLive]

/-- What requests read at one instant. -/
structure ReadAt
    (settings : Settings) (cache : Cache Value) (now : Instant)
    (requests : List Request) (reads : List (Lookup Value)) : Prop where
  /-- Every request reads what its name shows. -/
  contents : reads.map (·.content) = requests.map fun request =>
    cache.shown (cache.place request.name) now
  /-- A request is elected if its name leads to a ripe entry that no earlier
  request leads to. -/
  elections : ∀ early request late, requests = early ++ request :: late →
    ∀ found ∈ reads[early.length]?, found.refreshes = true ↔
      settings.refresh.isSome = true ∧
        cache.RipeAt (cache.place request.name) now ∧
        ∀ other ∈ early, cache.place other.name ≠ cache.place request.name

/-- Whoever has been read at an instant is not ripe then. -/
theorem ripeAt_lookedUp
    (coherent : cache.Coherent) (ahead : settings.refresh.isSome = true)
    {name : String} {place : Nat × String} :
    (cache.lookedUp settings.refresh now name).RipeAt place now ↔
      place ≠ cache.place name ∧ cache.RipeAt place now := by
  obtain ⟨window, set⟩ := Option.isSome_iff_exists.mp ahead
  have visited : (cache.visitedAll window.retryBase now [name]).RipeAt place
      now ↔ _ := ripeAt_visitedAll coherent
  rw [visitedAll_cons, visitedAll, List.foldl_nil] at visited
  simpa [set, lookedUp] using visited

variable (settings) in
/-- While the clock shows one instant, the lookups of requests tell what they
read at it, and change the marks of entries at most. -/
theorem ends_lookupAll
    (coherent : cache.Coherent)
    (shows : cache.clock.Shows now (2 * requests.length)) :
    Ends (lookupAll settings requests) cache
      (fun reads next =>
        ReadAt settings cache now requests reads ∧ Alike cache next)
      (fun _ _ => False) := by
  induction requests generalizing cache with
  | nil =>
      refine ⟨⟨rfl, ?_⟩, .refl cache⟩
      intro early request late split
      exact absurd split (List.ne_nil_of_length_pos (by simp)).symm
  | cons request requests inductionHypothesis =>
      rw [List.length_cons, Nat.mul_succ, Nat.add_comm] at shows
      rw [lookupAll, List.mapM_cons, ends_bind]
      refine (ends_lookup_tells coherent
        (shows.mono (Nat.le_add_right 2 _)) request.name).weaken ?_
          fun _ _ => id
      rintro lookup next ⟨content, elected, left, taken, few, clock⟩
      have alike : Alike cache next :=
        (alike_lookedUp settings.refresh cache request.name).trans
          (.of_eq left.shards left.routes)
      have later : next.clock.Shows now (2 * requests.length) := by
        rw [clock]
        exact (shows.mono (Nat.add_le_add_right few _)).skip
      rw [ends_bind]
      refine (inductionHypothesis (alike.coherent coherent) later).weaken ?_
        fun _ _ => id
      rintro reads last ⟨read, alikeLast⟩
      refine ⟨⟨?contents, ?elections⟩, alike.trans alikeLast⟩
      case contents =>
        have same : ∀ name, next.shown (next.place name) now =
            cache.shown (cache.place name) now := fun name => by
          rw [alike.place, alike.shown]
        rw [List.map_cons, List.map_cons, content, read.contents]
        simp only [same]
      case elections =>
        intro early other late split found there
        cases early with
        | nil =>
            cases split
            cases Option.some.inj there
            rw [elected]
            simp
        | cons first early =>
            obtain ⟨rfl, rest⟩ := List.cons.inj split
            rw [read.elections early other late rest found there]
            refine and_congr_right fun ahead => ?_
            rw [alike.place, left.ripeAt_iff, ripeAt_lookedUp coherent ahead,
              List.forall_mem_cons, and_comm (a := _ ≠ _), and_assoc, ne_comm]
            simp only [alike.place]

/-! ## What the lookups have told -/

theorem getElem?_added
    (found : ExtTreeMap String Value) (value? : Option Value)
    (own label : String) :
    ((value?.map (found.insert own)).getD found)[label]? =
      if label = own then value?.or found[label]? else found[label]? := by
  cases value? with
  | none => simp
  | some value =>
      by_cases same : label = own
      · subst same
        simp
      · simp [same, ExtTreeMap.getElem?_insert, Ne.symm same]

section Told

variable {tell : String → Option (Option Value)} {keyOf : String → String}
  (told : reads.map (·.content) =
    requests.map fun request => tell request.name)

include told

variable (tell) in
/-- The requests that were missed are those whose names show nothing. -/
theorem missed_eq_filter :
    selected (!·.isLive) requests reads =
      requests.filter fun request => (tell request.name).isNone := by
  induction requests generalizing reads with
  | nil => simp [selected]
  | cons request requests inductionHypothesis =>
      cases reads with
      | nil => cases told
      | cons lookup reads =>
          obtain ⟨first, rest⟩ := List.cons.inj told
          replace first : lookup.content = tell request.name := first
          rw [selected_cons, inductionHypothesis rest, List.filter_cons,
            lookup.isLive_eq, first, Option.not_isSome]

variable (tell keyOf) in
/-- Of the requested labels those have a value whose names show one. -/
theorem getElem?_collected
    (keyed : ∀ request ∈ requests, request.name = keyOf request.label)
    (found : ExtTreeMap String Value) (label : String) :
    (collected found requests reads)[label]? =
      if label ∈ requests.map (·.label) then
        (tell (keyOf label)).join.or found[label]?
      else found[label]? := by
  induction requests generalizing reads found with
  | nil => simp [collected]
  | cons request requests inductionHypothesis =>
      cases reads with
      | nil => cases told
      | cons lookup reads =>
          obtain ⟨first, rest⟩ := List.cons.inj told
          replace first : lookup.content = tell request.name := first
          obtain ⟨named, others⟩ := List.forall_mem_cons.mp keyed
          rw [collected, inductionHypothesis rest others, lookup.value?_eq,
            first, named]
          rw [getElem?_added]
          by_cases own : label = request.label
          · simp [own, ← Option.or_assoc]
          · simp [own]

end Told

/-! ## Responses -/

section Responses

variable [Keyed Value] {storing : Storing} {refreshing : Bool}

/-- A response is asked for the labels of the requests and for no others. -/
theorem storeResponse_congr
    {left right : ExtTreeMap String Value}
    (same : ∀ request ∈ requests,
      right[request.label]? = left[request.label]?)
    (used : ExtTreeMap String Value) :
    storeResponse settings storing refreshing requests right used =
      storeResponse settings storing refreshing requests left used := by
  induction requests generalizing left right used with
  | nil => rfl
  | cons request requests inductionHypothesis =>
      obtain ⟨first, rest⟩ := List.forall_mem_cons.mp same
      rw [storeResponse, storeResponse, first]
      cases left[request.label]? with
      | some value =>
          have erased : ∀ other ∈ requests,
              (right.erase request.label)[other.label]? =
                (left.erase request.label)[other.label]? := by
            intro other member
            rw [ExtTreeMap.getElem?_erase, ExtTreeMap.getElem?_erase,
              rest other member]
          simp only [inductionHypothesis erased]
      | none => simp only [inductionHypothesis rest]

variable (settings requests storing refreshing) in
/-- The values that are used of a response are those of the requested labels. -/
theorem ends_storeResponse
    (cache : Cache Value) (response used : ExtTreeMap String Value) :
    Ends (storeResponse settings storing refreshing requests response used)
      cache
      (fun values _ => ∀ label : String, values[label]? =
        if label ∈ requests.map (·.label) then
          response[label]?.or used[label]?
        else used[label]?)
      (fun _ _ => True) := by
  have always : ∀ (action : Action Value Unit) (cache : Cache Value),
      Ends action cache (fun _ _ => True) (fun _ _ => True) := fun _ _ =>
    ends_iff_final.mpr trivial
  induction requests generalizing cache response used with
  | nil => exact fun label => by simp
  | cons request requests inductionHypothesis =>
      rw [storeResponse]
      cases answered : response[request.label]? with
      | some value =>
          refine ends_bind.mpr ((always _ cache).weaken ?_ fun _ _ => id)
          intro _ next _
          refine (inductionHypothesis next _ _).weaken ?_ fun _ _ => id
          intro values _ uses label
          rw [uses]
          by_cases own : label = request.label
          · subst own
            simp [answered]
          · simp [own, ExtTreeMap.getElem?_erase, ExtTreeMap.getElem?_insert,
              Ne.symm own]
      | none =>
          have rest : ∀ next : Cache Value, Ends (storeResponse settings
              storing refreshing requests response used) next
              (fun values _ => ∀ label : String, values[label]? =
                if label ∈ (request :: requests).map (·.label) then
                  response[label]?.or used[label]?
                else used[label]?)
              (fun _ _ => True) := by
            intro next
            refine (inductionHypothesis next _ _).weaken ?_ fun _ _ => id
            intro values _ uses label
            rw [uses]
            by_cases own : label = request.label
            · subst own
              simp [answered]
            · simp [own]
          have after : ∀ action : Action Value Unit, Ends (action >>= fun _ =>
              storeResponse settings storing refreshing requests response used)
              cache _ _ := fun action =>
            ends_bind.mpr ((always action cache).weaken
              (fun _ next _ => rest next) fun _ _ => id)
          dsimp only
          split
          · exact after _
          · split
            · exact after _
            · exact rest cache

end Responses

end Cache

end ReadThrough
