import WorkerGen.Bindings.Reference
import WorkerGen.Text.Quoted

/-!
# Why a compilation fails

The causes that end a compilation before anything is rendered, with their wording.
-/

namespace WorkerGen

/-- Why a compilation fails. -/
inductive CompileError where
  /-- An id that cannot be the name of a file. -/
  | invalidHandlerId (id location : String)
  /-- An id that two operations have. -/
  | duplicateHandlerId (id first second : String)
  /-- A result name that is empty or holds control characters. -/
  | invalidResultName (handler name : String)
  /-- A result name that two steps of a handler have; steps are counted from one. -/
  | duplicateResultName (handler name : String) (first second : Nat)
  | unresolved (references : List Reference)
  /-- A phase that needs handlers and comes before they are built. -/
  | notLowered (phase : String)
  /-- So many errors have been reported. -/
  | errorsReported (count : Nat)
deriving DecidableEq

/-- The wording of a cause. -/
def CompileError.message : CompileError → String
  | .invalidHandlerId id location =>
    "invalid handler id '" ++ id ++ "' at " ++ location ++ ": ids must be usable as a file name"
  | .duplicateHandlerId id first second =>
    "duplicate handler id '" ++ id ++ "': declared at " ++ first ++ " and " ++ second
  | .invalidResultName handler name =>
    "invalid result name " ++ Text.quoted name ++ " in '" ++ handler ++
      "': empty or contains control characters"
  | .duplicateResultName handler name first second =>
    "duplicate result name '" ++ name ++ "' in '" ++ handler ++ "': steps " ++ toString first ++
      " and " ++ toString second
  | .unresolved references =>
    toString references.length ++ " unresolved binding reference(s):" ++
      String.join (references.map fun r => "\n  - " ++ r.text)
  | .notLowered phase => "operation units not set - " ++ phase ++ " must run after LowerPhase"
  | .errorsReported count => "Validation failed with " ++ toString count ++ " error(s)"

end WorkerGen
