import IrOptimizer.Pass.Basic

/-!
# Passes that change nothing

One does nothing at all, the other checks the module against the context.
-/

namespace IrOptimizer.Pass

/-- Leaves every module as it is. -/
def nop : Pass where
  label := "Nop"
  description := "does nothing"
  run := fun _ m => (m, .ok ())

/-- Fails if an operation is outside the registered dialects. -/
def verify : Pass where
  label := "Verify"
  description := "fail if any operation is outside the registered dialects"
  run := fun context m => (m, (context.validate m).mapError .invalid)

end IrOptimizer.Pass
