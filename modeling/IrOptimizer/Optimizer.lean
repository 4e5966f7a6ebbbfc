import IrOptimizer.Chunk
import IrOptimizer.Frontend
import IrOptimizer.Pass.Execution
import IrOptimizer.Settings.Merge
import IrOptimizer.Transform.Standard

/-!
# The optimizer

An optimizer reads an input, runs a pipeline on the module and renders the
result. It first resolves the frontend and then the pipeline, and does not read
the input if one of them is unknown. Then it reads the whole input. A split
input is worked on chunk by chunk, and there is a result only if every chunk has
one.
-/

namespace IrOptimizer

/-- Why there is no result, or why it is not written. -/
inductive OptimizerError where
  | unreadable (reason : String)
  | frontend (e : FrontendError)
  | pipeline (e : PipelineError)
  | unwritable (reason : String)
deriving DecidableEq

namespace OptimizerError

def message : OptimizerError → String
  | unreadable reason => "failed to read input: " ++ reason
  | frontend e => e.message
  | pipeline e => e.message
  | unwritable reason => "failed to write output: " ++ reason

end OptimizerError

/-- What an optimizer tells while it works. -/
inductive Event where
  /-- A pass has succeeded, and the module is this. -/
  | passed (snapshot : Snapshot)
  | passFailed (name : String) (index : Nat) (cause : PassError)

/-- What a run tells, in order. -/
def Run.events (r : Run) : List Event :=
  r.snapshots.map .passed ++
    match r.result with
    | .error (.passFailed name index cause) => [.passFailed name index cause]
    | _ => []

/-- A result with what was told on the way to it. -/
structure Report where
  result : Except OptimizerError String
  events : List Event

/-- The context and the registries that runs share. -/
structure Optimizer where
  context : Context
  frontends : FrontendRegistry
  passes : PassRegistry

/-- What a run needs before it takes its input. -/
structure Plan where
  frontend : Frontend
  pipeline : Pipeline

namespace Optimizer

/-- The toy dialect, the standard frontends and the standard passes. -/
def standard (allowUnregistered : Bool) : Optimizer where
  context := ⟨⟨.ofList [(Toy.dialect.name, Toy.dialect)]⟩, allowUnregistered⟩
  frontends := .standard
  passes := .standard

/-- Resolves the frontend, then the pipeline. -/
def plan (o : Optimizer) (s : Settings) : Except OptimizerError Plan := do
  let frontend ← (o.frontends.resolve s.frontendTag).mapError .frontend
  let pipeline ← (Pipeline.build o.passes s.passes).mapError .pipeline
  pure ⟨frontend, pipeline⟩

/-- Runs the pipeline on a module and renders the result. -/
def transform (o : Optimizer) (pipeline : Pipeline) (verifyEach : Bool) (target : Target)
    (m : Module) : Report :=
  let run := pipeline.execute o.context verifyEach m
  match run.result with
  | .ok () => ⟨.ok (target.render run.module), run.events⟩
  | .error e => ⟨.error (.pipeline e), run.events⟩

/-- Works on a module that has been read, if it could be. -/
def processModule (o : Optimizer) (s : Settings) (plan : Plan)
    (loaded : Except FrontendError Module) : Report :=
  match loaded with
  | .error e => ⟨.error (.frontend e), []⟩
  | .ok m => o.transform plan.pipeline s.verifyEach s.target m

/-- Works on one text. -/
def processText (o : Optimizer) (s : Settings) (plan : Plan) (source : String) : Report :=
  o.processModule s plan (plan.frontend.load o.context source)

/-- Works on one chunk; errors in it are placed in the whole input. -/
def processChunk (o : Optimizer) (s : Settings) (plan : Plan) (chunk : Chunk) : Report :=
  let loaded := plan.frontend.load o.context (String.ofList chunk.text)
  o.processModule s plan (loaded.mapError (·.down chunk.linesBefore))

/-- Works on chunks in order up to the first that fails. -/
def processChunks (o : Optimizer) (s : Settings) (plan : Plan) :
    List Chunk → Except OptimizerError (List String) × List Event
  | [] => (.ok [], [])
  | chunk :: chunks =>
    match o.processChunk s plan chunk with
    | ⟨.error e, events⟩ => (.error e, events)
    | ⟨.ok text, events⟩ =>
      let (rest, later) := o.processChunks s plan chunks
      (rest.map (text :: ·), events ++ later)

/-- What stands between the results of two chunks. -/
def separator : String := splitMarker ++ "\n"

/-- Works on the whole input, or on each of its chunks. -/
def processSource (o : Optimizer) (s : Settings) (plan : Plan) (source : String) : Report :=
  if s.splitInput then
    let (texts, events) := o.processChunks s plan (Chunk.split source.toList)
    ⟨texts.map (String.intercalate separator), events⟩
  else o.processText s plan source

/-- Works on an input that has been taken, if it could be. -/
def processInput (o : Optimizer) (s : Settings) (plan : Plan) (text : Except String String) :
    Report :=
  match text with
  | .ok source => o.processSource s plan source
  | .error reason =>
    if s.splitInput then ⟨.error (.unreadable reason), []⟩
    else ⟨.error (.frontend (.unreadable reason)), []⟩

/-- Works on a stream, which is read only if there is a plan. -/
def process (o : Optimizer) (s : Settings) (input : Stream) : Taking Report :=
  match o.plan s with
  | .error e => pure ⟨.error e, []⟩
  | .ok plan => do
    let text ← input.read
    pure (o.processInput s plan text)

/-- Works on a stream and writes the result to a sink, which is untouched if there
is no result. -/
def run (o : Optimizer) (s : Settings) (input : Stream) (sink : Sink) :
    Except OptimizerError Unit × Sink × Nat :=
  match o.process s input with
  | ⟨⟨.error e, _⟩, taken⟩ => (.error e, sink, taken)
  | ⟨⟨.ok text, _⟩, taken⟩ =>
    let (sink, outcome) := sink.writeText text
    (outcome.mapError .unwritable, sink, taken)

end Optimizer

/-- Optimizes a text in memory with the standard optimizer. Here the pipeline is
resolved before the frontend. -/
def optimizeSource (tag source : String) (passes : List String) (target : Target) :
    Except OptimizerError String := do
  let o := Optimizer.standard false
  let pipeline ← (Pipeline.build o.passes passes).mapError .pipeline
  let m ← (o.frontends.parse o.context tag source).mapError .frontend
  (o.transform pipeline false target m).result

end IrOptimizer
