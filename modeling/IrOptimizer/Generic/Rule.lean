/-!
# The generic form: rules of the grammar

The grammar of the generic form is made of these rules. When a text does not
follow it, the rules that could have begun at the furthest place reached are
what a reader is told was expected there.
-/

namespace IrOptimizer.Generic

/-- A rule of the grammar, in the order in which expectations are listed. -/
inductive Rule where
  | endOfInput
  | identifier
  | string
  | integer
  | boolean
  | entry
  | dictionary
  | region
  | operation
  | symbol
  | moduleKeyword
  | moduleDeclaration
  | module
deriving DecidableEq

namespace Rule

/-- All rules in listing order. -/
def all : List Rule :=
  [endOfInput, identifier, string, integer, boolean, entry, dictionary, region, operation,
    symbol, moduleKeyword, moduleDeclaration, module]

/-- What a rule stands for, in words. -/
def describe : Rule → String
  | endOfInput => "end of input"
  | identifier => "identifier"
  | string => "string literal"
  | integer => "integer literal"
  | boolean => "boolean"
  | entry => "attribute"
  | dictionary => "attribute dictionary"
  | region => "region"
  | operation => "operation"
  | symbol => "`@` symbol"
  | moduleKeyword | moduleDeclaration | module => "module"

/-- The rules of a list in listing order, each once. -/
def listing (rules : List Rule) : List Rule :=
  all.filter (· ∈ rules)

/-- The sentence that names what was expected. -/
def expectation (rules : List Rule) : String :=
  match rules.map describe with
  | [] => "unknown parsing error"
  | [a] => "expected " ++ a
  | [a, b] => "expected " ++ a ++ " or " ++ b
  | items =>
    "expected " ++ String.intercalate ", " items.dropLast ++ ", or " ++ items.getLast?.getD ""

end Rule

end IrOptimizer.Generic
