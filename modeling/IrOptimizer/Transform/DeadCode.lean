import IrOptimizer.Pass.Basic
import IrOptimizer.Toy

/-!
# Dead code

The pass removes operations that do nothing and blocks in which nothing is left.
Children are swept first, so a block that the sweep empties goes as well.
-/

namespace IrOptimizer

/-- An operation that does nothing, or a block without children. -/
def Operation.isDead (op : Operation) : Bool :=
  op.name = Toy.nopName || (op.name = Toy.blockName && op.region.isEmpty)

mutual

/-- The operation with dead code removed from its region. -/
def Operation.sweep : Operation → Operation
  | ⟨name, attributes, region⟩ => ⟨name, attributes, sweepList region⟩

/-- Sweeps every operation, then drops those that are dead. -/
def sweepList : List Operation → List Operation
  | [] => []
  | op :: ops =>
    let op := op.sweep
    if op.isDead then sweepList ops else op :: sweepList ops

end

/-- The module without dead code. -/
def Module.sweep (m : Module) : Module :=
  { m with ops := sweepList m.ops }

/-- Removes dead code. -/
def Pass.deadCode : Pass where
  label := "DeadCode"
  description := "remove toy.nop and empty toy.block operations"
  run := fun _ m => (m.sweep, .ok ())

end IrOptimizer
