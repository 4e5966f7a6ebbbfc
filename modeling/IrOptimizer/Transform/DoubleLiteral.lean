import IrOptimizer.Pass.Basic
import IrOptimizer.Toy

/-!
# Doubling literals

The pass doubles the value of every literal, in pre-order. It stops at the first
literal that has no integer value or whose double does not fit; the literals
before it stay doubled.
-/

namespace IrOptimizer

/-- The complaint about a literal without an integer value. -/
def missingValue : PassError :=
  .failed "toy.lit without an integer `value`"

/-- The complaint about a literal whose double does not fit. -/
def doublingOverflow (n : Int64) : PassError :=
  .failed ("doubling " ++ toString n.toInt ++ " overflows i64")

/-- Doubles the value of a literal; any other head stays as it is. -/
def doubleHead (head : Operation.Head) : Except PassError Operation.Head :=
  if head.name = Toy.literalName then
    match (head.attributes.find? Toy.valueKey).bind Attribute.asInt? with
    | none => .error missingValue
    | some n =>
      match int64? (2 * n.toInt) with
      | none => .error (doublingOverflow n)
      | some doubled =>
        .ok { head with attributes := head.attributes.insert Toy.valueKey (.int doubled) }
  else .ok head

/-- Doubles every literal. -/
def Pass.doubleLiteral : Pass where
  label := "DoubleLiteral"
  description := "replace every toy.lit n with toy.lit 2n"
  run := fun _ m => m.editHeads doubleHead

end IrOptimizer
