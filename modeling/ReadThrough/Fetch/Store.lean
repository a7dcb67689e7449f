import ReadThrough.Cache.Read
import ReadThrough.Cache.Write
import ReadThrough.Fetch.Plan

/-!
# Storing what was fetched

A fetched value replaces the entry that the requested name leads to.  That the
source has no record is itself stored when missing records are stored; a
refresh otherwise removes the entry.  Other failures leave the store alone.
-/

namespace ReadThrough.Cache

open Std (ExtTreeMap)

variable {Value : Type} [Keyed Value]

/-! ## Single records -/

/-- Store a fetched value under the key that a name stands for.  The aliases of
the entry stay bound. -/
def storeByName (settings : Settings) (name : String) (value : Value) :
    Action Value Bool := do
  let index ← shardIndex name
  let shard ← shardAt index
  let (key, aliases) := (shard.binding name).getD (name, [])
  write settings key (some value) aliases

/-- The aliases of a value that was fetched under a name. -/
def aliasesWith (name : String) (value : Value) : List String :=
  if name = Keyed.key value ∨ name ∈ Keyed.aliases value then
    Keyed.aliases value
  else
    Keyed.aliases value ++ [name]

/-- Store a fetched value under its own key, so that the requested name leads
to it as well. -/
def storeByOwnKey (settings : Settings) (name : String) (value : Value) :
    Action Value Bool :=
  write settings (Keyed.key value) (some value) (aliasesWith name value)

/-- Store a fetched value. -/
def storeFetched
    (settings : Settings) (storing : Storing)
    (name : String) (value : Value) : Action Value Unit := do
  match storing with
  | .byName => discard (storeByName settings name value)
  | .byOwnKey => discard (storeByOwnKey settings name value)

/-- Take note that a record which was stored is gone. -/
def storeAbsence (settings : Settings) (name : String) :
    Action Value Unit := do
  if settings.storesMissing then
    discard (insertMissing settings name)
  else
    discard (delete name)

/-- Store the outcome of a fetch that somebody waits for, and answer what the
waiting callers learn. -/
def storeOutcome
    (settings : Settings) (storing : Storing) (name : String)
    (outcome : Except Failure Value) :
    Action Value (Except Failure Value) := do
  match outcome with
  | .ok value =>
      storeFetched settings storing name value
      return .ok value
  | .error (.notFound source) =>
      if settings.storesMissing then
        discard (insertMissing settings name)
        return .error (.missingRecord name)
      else
        return .error (.notFound source)
  | .error failure => return .error failure

/-- Store the outcome of a refresh. -/
def storeRefreshed
    (settings : Settings) (storing : Storing) (name : String)
    (outcome : Except Failure Value) : Action Value Unit := do
  match outcome with
  | .ok value => storeFetched settings storing name value
  | .error (.notFound _) => storeAbsence settings name
  | .error _ => return ()

/-! ## Batches -/

/-- Store the response to requests and collect the values that were used.  A
value answers one request; a label that is requested again counts as left out
of the response. -/
def storeResponse
    (settings : Settings) (storing : Storing) (refreshing : Bool) :
    List Request → ExtTreeMap String Value → ExtTreeMap String Value →
      Action Value (ExtTreeMap String Value)
  | [], _, used => return used
  | request :: requests, response, used => do
      match response[request.label]? with
      | some value =>
          storeFetched settings storing request.name value
          storeResponse settings storing refreshing requests
            (response.erase request.label) (used.insert request.label value)
      | none =>
          if refreshing then
            storeAbsence settings request.name
          else if settings.storesMissing then
            discard (insertMissing settings request.name)
          storeResponse settings storing refreshing requests response used

/-- What the lookups of a batch found. -/
structure Gathered (Value : Type) where
  /-- The live values by label. -/
  found : ExtTreeMap String Value
  /-- The requests whose lookup was elected to refresh. -/
  refreshes : List Request
  /-- The requests without a live entry. -/
  misses : List Request

/-- Look the requests of a batch up one after the other. -/
def gather (settings : Settings) :
    List Request → Gathered Value → Action Value (Gathered Value)
  | [], gathered => return gathered
  | request :: requests, gathered => do
      let lookup ← lookup settings request.name
      gather settings requests {
        found :=
          match lookup.value? with
          | some value => gathered.found.insert request.label value
          | none => gathered.found
        refreshes :=
          if lookup.refreshes then gathered.refreshes ++ [request]
          else gathered.refreshes
        misses :=
          if lookup.isLive then gathered.misses
          else gathered.misses ++ [request] }

/-! ## The end of a fetch -/

/-- The end of a fetch that the callers of one name wait for. -/
def concludeFlight
    (settings : Settings) (storing : Storing) (name : String)
    (plan : Plan Value) : Action Value (Except Failure Value) := do
  let outcome ← plan.play
  storeOutcome settings storing name outcome

/-- The end of a fetch that refreshes an entry. -/
def concludeRefresh
    (settings : Settings) (storing : Storing) (name : String)
    (plan : Plan Value) : Action Value Unit := do
  let outcome ← plan.play
  storeRefreshed settings storing name outcome

/-- The end of a fetch for the misses of a batch, which answers with the values
`found` before and those that were fetched. -/
def concludeMisses
    (settings : Settings) (storing : Storing)
    (found : ExtTreeMap String Value) (misses : List Request)
    (plan : Plan (ExtTreeMap String Value)) :
    Action Value (Except Failure (ExtTreeMap String Value)) := do
  let outcome ← plan.play
  match outcome with
  | .error failure => return .error failure
  | .ok response =>
      let fetched ←
        storeResponse settings storing false misses response ∅
      return .ok (found.insertMany fetched.toList)

/-- The end of a fetch that refreshes the entries of a batch. -/
def concludeRefreshes
    (settings : Settings) (storing : Storing) (requests : List Request)
    (plan : Plan (ExtTreeMap String Value)) : Action Value Unit := do
  let outcome ← plan.play
  match outcome with
  | .error _ => return ()
  | .ok response =>
      discard <| storeResponse settings storing true requests response ∅

end ReadThrough.Cache
