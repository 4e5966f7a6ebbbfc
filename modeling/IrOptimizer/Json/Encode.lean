import IrOptimizer.Json.Document
import IrOptimizer.Module

/-!
# Modules as JSON

A module is an object with its name, if it has one, and its operations; an
operation is an object with its name and, unless they are empty, its attributes
and its region.
-/

namespace IrOptimizer

def Attribute.toJson : Attribute → Json
  | bool b => .bool b
  | int n => .int n.toInt
  | str s => .str s

/-- The fields for attributes; there is none if there are no attributes. -/
def attributesToJson (attributes : Attributes) : List (String × Json) :=
  if attributes.isEmpty then []
  else [("attributes", .object (attributes.entries.map fun (key, value) => (key, value.toJson)))]

mutual

def Operation.toJson : Operation → Json
  | ⟨name, attributes, region⟩ =>
    .object (("name", .str name) :: attributesToJson attributes ++ regionToJson region)

/-- The fields for a region; there is none if the region is empty. -/
def regionToJson : List Operation → List (String × Json)
  | [] => []
  | op :: ops => [("region", .array (op.toJson :: operationsToJson ops))]

def operationsToJson : List Operation → List Json
  | [] => []
  | op :: ops => op.toJson :: operationsToJson ops

end

def Module.toJson (m : Module) : Json :=
  .object ((m.name.toList.map fun name => ("name", .str name)) ++ [("ops", .array (operationsToJson m.ops))])

end IrOptimizer
