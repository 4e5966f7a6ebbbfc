import IrOptimizer.Generic.Rule
import IrOptimizer.Text.Position

/-!
# Errors in source texts

An error in a source text is a place and a cause.
-/

namespace IrOptimizer

/-- What is wrong with a source text. -/
inductive SyntaxProblem where
  /-- More regions are open than any text may have. -/
  | nestingTooDeep
  /-- The text breaks the grammar; one of the rules could have begun here. -/
  | expected (rules : List Generic.Rule)
  | integerOutOfRange
  | duplicateAttribute (key : String)
  /-- A word of a literal list that is not an integer. -/
  | notAnInteger (word : String)
  /-- A cause that a frontend puts in its own words. -/
  | other (message : String)
deriving DecidableEq

namespace SyntaxProblem

def message : SyntaxProblem → String
  | nestingTooDeep => "nesting too deep"
  | expected rules => Generic.Rule.expectation rules
  | integerOutOfRange => "integer literal out of range"
  | duplicateAttribute key => "duplicate attribute `" ++ key ++ "`"
  | notAnInteger word => "expected integer literal, found `" ++ word ++ "`"
  | other message => message

end SyntaxProblem

/-- An error in a source text. -/
structure SyntaxError where
  position : Text.Position
  problem : SyntaxProblem
deriving DecidableEq

namespace SyntaxError

/-- The cause without the place. -/
def detail (e : SyntaxError) : String := e.problem.message

def message (e : SyntaxError) : String :=
  "syntax error at " ++ toString e.position.line ++ ":" ++ toString e.position.column ++ ": " ++
    e.detail

/-- The same error in a text with so many more lines before it. -/
def down (e : SyntaxError) (lines : Nat) : SyntaxError :=
  { e with position := e.position.down lines }

end SyntaxError

end IrOptimizer
