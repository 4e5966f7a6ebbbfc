import IrOptimizer.Dialect

/-!
# Passes

A pass takes a context and a module to an updated module, with success or an
error. A pass that fails may have changed the module before.
-/

namespace IrOptimizer

/-- Why a pass gives up. -/
inductive PassError where
  | failed (message : String)
  | invalid (e : DialectError)
deriving DecidableEq

namespace PassError

def message : PassError → String
  | failed message => message
  | invalid e => e.message

end PassError

/-- A named transformation or check of modules. -/
structure Pass where
  /-- What the name of the pass is made from. -/
  label : String
  description : String := "(undocumented pass)"
  run : Context → Module → Module × Except PassError Unit

end IrOptimizer
