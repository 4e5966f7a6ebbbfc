import IrOptimizer.Generic.Printer
import IrOptimizer.Json.Encode
import IrOptimizer.Text.FilePath

/-!
# Targets

A module is written in generic form or as JSON.
-/

namespace IrOptimizer

/-- A form of output. -/
inductive Target where
  | ir
  | json
deriving DecidableEq

namespace Target

def name : Target → String
  | ir => "ir"
  | json => "json"

/-- The target of that name. -/
def ofName? (name : String) : Option Target :=
  if name = "ir" then some ir else if name = "json" then some json else none

/-- The complaint about a name that no target has. -/
def unknownMessage (name : String) : String :=
  "unknown output target `" ++ name ++ "`"

/-- The target that the extension of an output file suggests. -/
def ofPath? (path : String) : Option Target :=
  match Text.pathExtension? path with
  | some "json" => some json
  | some "ir" | some "mlir" => some ir
  | _ => none

/-- The text of a module in a form of output; it ends with a line break. -/
def render (target : Target) (m : Module) : String :=
  match target with
  | ir => m.print
  | json => m.toJson.pretty 0 ++ "\n"

end Target

end IrOptimizer
