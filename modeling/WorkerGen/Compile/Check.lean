import WorkerGen.Compile.Error

/-!
# Checks on names

Every handler has a file of its own, so its id must be the name of a file and no other handler may
have it.  Every step keeps its result under its name, so within a handler the names must differ,
be not empty and hold no control characters.  Each check reports the first violation it meets.
-/

namespace WorkerGen

/-- Checks the ids of handlers that follow others, whose ids have been checked. -/
def checkIdsAfter (earlier : List Handler) : List Handler → Except CompileError Unit
  | [] => .ok ()
  | h :: rest =>
    if !isPlainFileName h.id then .error (.invalidHandlerId h.id h.location)
    else match earlier.find? (·.id == h.id) with
      | some first => .error (.duplicateHandlerId h.id first.location h.location)
      | none => checkIdsAfter (h :: earlier) rest

/-- Checks that every id can be the name of a file and that no two are the same. -/
def checkIds (handlers : List Handler) : Except CompileError Unit := checkIdsAfter [] handlers

/-- Whether a result may be kept under a name. -/
def isResultName (name : String) : Bool :=
  !name.toList.isEmpty && !name.toList.any Text.isControl

namespace Handler

/-- Checks the names of steps that follow others, given those with their positions. -/
def checkStepsAfter (id : String) (earlier : List (String × Nat)) :
    List Step → Except CompileError Unit
  | [] => .ok ()
  | step :: rest =>
    if !isResultName step.name then .error (.invalidResultName id step.name)
    else match earlier.lookup step.name with
      | some first => .error (.duplicateResultName id step.name first (earlier.length + 1))
      | none => checkStepsAfter id ((step.name, earlier.length + 1) :: earlier) rest

/-- Checks the names of the steps of a handler. -/
def checkSteps (h : Handler) : Except CompileError Unit := checkStepsAfter h.id [] h.steps

end Handler

/-- Checks the names of all steps. -/
def checkResultNames (handlers : List Handler) : Except CompileError Unit :=
  handlers.forM Handler.checkSteps

end WorkerGen
