import IrOptimizer.Pass.Registry

/-!
# Pipelines

A pipeline is a sequence of registered passes. It is built from requests, each a
pass name or a selector, in order and without dropping repetitions; a request
that is blank stands for nothing. One request that cannot be resolved leaves no
pipeline at all.
-/

namespace IrOptimizer

/-- Why a pipeline cannot be built, or stops. -/
inductive PipelineError where
  | unknownPass (name : String)
  | passFailed (name : String) (index : Nat) (cause : PassError)
  | invalidAfter (name : String) (index : Nat) (cause : DialectError)
deriving DecidableEq

namespace PipelineError

def message : PipelineError → String
  | unknownPass name => "unknown pass `" ++ name ++ "`"
  | passFailed name index cause =>
    "pass `" ++ name ++ "` (pipeline position " ++ toString index ++ ") failed: " ++ cause.message
  | invalidAfter name index cause =>
    "module invalid after pass `" ++ name ++ "` (pipeline position " ++ toString index ++ "): " ++
      cause.message

/-- The pass that an error in a run is attributed to, and its index. -/
def culprit? : PipelineError → Option (String × Nat)
  | unknownPass _ => none
  | passFailed name index _ => some (name, index)
  | invalidAfter name index _ => some (name, index)

end PipelineError

/-- Passes in the order in which they run. -/
structure Pipeline where
  stages : List RegisteredPass

namespace Pipeline

def empty : Pipeline := ⟨[]⟩

def names (p : Pipeline) : List String := p.stages.map (·.name)

/-- The names that a request stands for. -/
def expand (r : PassRegistry) (request : String) : List String :=
  let request := String.ofList (Text.trim request.toList)
  if request.isEmpty then []
  else
    match PassFilter.ofSelector? request with
    | some filter => r.names filter
    | none => [request]

/-- The pass of a name, or the complaint that there is none. -/
def resolve (r : PassRegistry) (name : String) : Except PipelineError RegisteredPass :=
  match r.lookup? name with
  | some e => .ok e
  | none => .error (.unknownPass name)

/-- The pipeline of a list of requests. -/
def build (r : PassRegistry) (requests : List String) : Except PipelineError Pipeline := do
  pure ⟨← (requests.flatMap (expand r)).mapM (resolve r)⟩

/-- The requests in a text, which commas separate. -/
def requestsOf (spec : String) : List String :=
  (spec.toList.splitOn ',').map String.ofList

/-- The pipeline of a text of requests. -/
def parse (r : PassRegistry) (spec : String) : Except PipelineError Pipeline :=
  build r (requestsOf spec)

end Pipeline

end IrOptimizer
