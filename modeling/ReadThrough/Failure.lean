/-!
# Failures

A failure is the value with which building a cache or fetching a record ends
without success.  It can be handed to every caller that waited for the same
fetch.
-/

namespace ReadThrough

/-- The ways in which building a cache or fetching a record fails. -/
inductive Failure where
  /-- The settings have a defect. -/
  | invalidSettings (reason : String)
  /-- Sweeping was asked for where nothing can run in the background. -/
  | runtimeUnavailable
  /-- The source of the records has none for the key. -/
  | notFound (key : String)
  /-- The key is cached as known to have no record. -/
  | missingRecord (key : String)
  /-- The fetch failed for any other reason. -/
  | fetchFailed (reason : String)
  deriving DecidableEq, Repr

namespace Failure

/-- The text that reports a failure. -/
def message : Failure → String
  | .invalidSettings reason => "Invalid configuration: " ++ reason
  | .runtimeUnavailable =>
      "Continuous evictions require a running Tokio runtime"
  | .notFound key => "Record not found: " ++ key
  | .missingRecord key => "Record cached as missing: " ++ key
  | .fetchFailed reason => "Fetch failed: " ++ reason

/-- A fetch failure from a chain of causes, the innermost cause first.  The
reason names the outermost first. -/
def ofCauses (causes : List String) : Failure :=
  .fetchFailed (": ".intercalate causes.reverse)

end Failure

end ReadThrough
