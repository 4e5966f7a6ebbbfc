import IrOptimizer.Pass.Pipeline

/-!
# Execution

Passes run in order, each on the module that the one before it left. A run stops
at the first pass that fails or, under verification, whose result is not valid;
the module is then as that pass left it. Every pass that was passed over without
a complaint leaves a snapshot of the module behind it.
-/

namespace IrOptimizer

/-- The module right after a pass of a run. -/
structure Snapshot where
  index : Nat
  name : String
  module : Module

/-- How a run ends: the module, success or an error, and the snapshots in order. -/
structure Run where
  module : Module
  result : Except PipelineError Unit
  snapshots : List Snapshot

namespace Pipeline

/-- Runs stages, the first of which has the given index. -/
def executeFrom (context : Context) (verifyEach : Bool) (index : Nat) :
    List RegisteredPass → Module → Run
  | [], m => ⟨m, .ok (), []⟩
  | stage :: stages, m =>
    match stage.pass.run context m with
    | (m, .error e) => ⟨m, .error (.passFailed stage.name index e), []⟩
    | (m, .ok ()) =>
      match if verifyEach then context.validate m else .ok () with
      | .error e => ⟨m, .error (.invalidAfter stage.name index e), []⟩
      | .ok () =>
        let rest := executeFrom context verifyEach (index + 1) stages m
        { rest with snapshots := ⟨index, stage.name, m⟩ :: rest.snapshots }

/-- Runs a pipeline on a module. -/
def execute (p : Pipeline) (context : Context) (verifyEach : Bool) (m : Module) : Run :=
  executeFrom context verifyEach 0 p.stages m

end Pipeline

end IrOptimizer
