import IrOptimizer.Operation

/-!
# Modules

A module is an optionally named sequence of top-level operations. No name and
the empty name are different.
-/

namespace IrOptimizer

/-- The unit that is read, transformed and printed. -/
structure Module where
  name : Option String
  ops : List Operation
deriving DecidableEq

namespace Module

/-- The anonymous module without operations. -/
def empty : Module := ⟨none, []⟩

instance : Inhabited Module := ⟨empty⟩

/-- Puts an operation behind the others. -/
def push (m : Module) (op : Operation) : Module :=
  { m with ops := m.ops ++ [op] }

/-- All operations, nested ones included, in pre-order. -/
def preorder (m : Module) : List Operation :=
  Operation.preorderList m.ops

/-- How many operations there are, nested ones included. -/
def opCount (m : Module) : Nat :=
  m.preorder.length

/-- Edits heads in pre-order until a step refuses one; see `Operation.editHead`. -/
def editHeads {ε : Type} (m : Module) (step : Operation.Head → Except ε Operation.Head) :
    Module × Except ε Unit :=
  let (ops, outcome) := Operation.editHeads step m.ops
  ({ m with ops }, outcome)

end Module

end IrOptimizer
