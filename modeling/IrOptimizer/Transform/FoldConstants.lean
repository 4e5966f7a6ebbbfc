import IrOptimizer.Pass.Basic
import IrOptimizer.Toy

/-!
# Constant folding

A sum or a product of literals is replaced by the literal of its value, inner
ones first. The operands are taken from left to right; if the result leaves the
64-bit range at any of these steps, or there are no operands, nothing is folded.
-/

namespace IrOptimizer

/-- The integer that an operation stands for if it is a literal without children. -/
def literalValue? (op : Operation) : Option Int64 :=
  if op.name = Toy.literalName ∧ op.region = [] then
    (op.attr? Toy.valueKey).bind Attribute.asInt?
  else none

/-- How an operation combines two operands; none if it is not arithmetic. -/
def arithmetic? (name : String) : Option (Int → Int → Int) :=
  if name = Toy.addName then some (· + ·)
  else if name = Toy.mulName then some (· * ·)
  else none

/-- The value of operands combined from left to right, each result in range. -/
def accumulate? (combine : Int → Int → Int) : List Int64 → Option Int64
  | [] => none
  | n :: ns => ns.foldlM (fun a b => int64? (combine a.toInt b.toInt)) n

/-- The value of an operation whose operands are literals. -/
def foldedValue? (name : String) (operands : List Operation) : Option Int64 := do
  let combine ← arithmetic? name
  accumulate? combine (← operands.mapM literalValue?)

mutual

/-- The operation with its children folded and, if its operands allow it, replaced
by a literal. -/
def Operation.fold : Operation → Operation
  | ⟨name, attributes, region⟩ =>
    let region := foldList region
    match foldedValue? name region with
    | some n => Toy.literal n
    | none => ⟨name, attributes, region⟩

def foldList : List Operation → List Operation
  | [] => []
  | op :: ops => op.fold :: foldList ops

end

/-- The module with all constants folded. -/
def Module.foldConstants (m : Module) : Module :=
  { m with ops := foldList m.ops }

/-- Folds constants. -/
def Pass.foldConstants : Pass where
  label := "FoldConstants"
  description := "fold toy.add / toy.mul over literal operands"
  run := fun _ m => (m.foldConstants, .ok ())

end IrOptimizer
