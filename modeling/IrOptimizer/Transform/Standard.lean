import IrOptimizer.Pass.Registry
import IrOptimizer.Transform.Check
import IrOptimizer.Transform.DeadCode
import IrOptimizer.Transform.DoubleLiteral
import IrOptimizer.Transform.FoldConstants
import IrOptimizer.Transform.StripLocation

/-!
# The standard passes

Native passes work on any dialect, integrated ones know the toy dialect.
-/

namespace IrOptimizer

namespace Pass

/-- The passes of the framework, in listing order. -/
def natives : List Pass := [nop, stripLocation, verify]

/-- The passes for the toy dialect, in listing order. -/
def integrated : List Pass := [doubleLiteral, foldConstants, deadCode]

end Pass

/-- The registry of all standard passes, under their names. -/
def PassRegistry.standard : PassRegistry :=
  match PassRegistry.build Pass.natives Pass.integrated with
  | .ok r => r
  | .error _ => .empty

end IrOptimizer
