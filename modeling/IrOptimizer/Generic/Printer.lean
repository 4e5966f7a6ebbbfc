import IrOptimizer.Module
import IrOptimizer.Text.Word

/-!
# The generic form: printing

A module prints as one operation a line, indented by two spaces for each level
of nesting. A module's name and an attribute's key are printed bare if they are
identifiers and quoted otherwise; attributes are printed in the order of their
keys. The name of an operation is printed as it is.
-/

namespace IrOptimizer.Generic

open Text

/-- An identifier prints bare, any other name quoted. -/
def printName (name : String) : String :=
  if isIdentifier name.toList then name else Quoted.quote name

/-- The blanks that begin a line at a level of nesting. -/
def indent (depth : Nat) : String :=
  String.ofList (List.replicate (2 * depth) ' ')

def printEntry (entry : String × Attribute) : String :=
  printName entry.1 ++ " = " ++ entry.2.print

/-- The attribute dictionary with the blank before it; nothing if there are no attributes. -/
def printAttributes (attributes : Attributes) : String :=
  if attributes.isEmpty then ""
  else " \x7b" ++ String.intercalate ", " (attributes.entries.map printEntry) ++ "\x7d"

mutual

/-- The lines of an operation at a level of nesting. -/
def printOperation (depth : Nat) : Operation → String
  | ⟨name, attributes, region⟩ =>
    indent depth ++ name ++ printAttributes attributes ++ printRegion depth region ++ "\n"

/-- The children between parentheses, with the blank before; nothing if there are none. -/
def printRegion (depth : Nat) : List Operation → String
  | [] => ""
  | op :: ops =>
    " (\n" ++ printOperation (depth + 1) op ++ printOperations (depth + 1) ops ++ indent depth ++ ")"

def printOperations (depth : Nat) : List Operation → String
  | [] => ""
  | op :: ops => printOperation depth op ++ printOperations depth ops

end

/-- The name of a module as it stands between the keyword and the brace. -/
def printSymbol : Option String → String
  | none => ""
  | some name => "@" ++ printName name ++ " "

end IrOptimizer.Generic

namespace IrOptimizer

/-- The generic form of a module. -/
def Module.print (m : Module) : String :=
  "module " ++ Generic.printSymbol m.name ++ "\x7b\n" ++ Generic.printOperations 1 m.ops ++ "\x7d\n"

end IrOptimizer
