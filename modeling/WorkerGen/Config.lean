import WorkerGen.Bindings.Manifest
import WorkerGen.Api.Description

/-!
# The inputs of a compilation

An API description, the bindings of the worker, and the environment of the commands that are run
with the result.
-/

namespace WorkerGen

/-- The inputs of a compilation. -/
structure Config where
  bindings : Manifest
  api : Api
  env : Dictionary String
deriving DecidableEq, Inhabited

end WorkerGen
