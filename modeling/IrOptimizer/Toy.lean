import IrOptimizer.Dialect
import IrOptimizer.SyntaxError
import IrOptimizer.Text.Blank
import IrOptimizer.Text.Digits

/-!
# The toy dialect

The toy dialect has integer literals, sums, products, blocks and printing. Its
source form is a list of integer literals between blanks; `#` begins a comment
that reaches to the end of its line. Only space, tab, carriage return and line
feed are blanks here, so any other character is part of a word.
-/

namespace IrOptimizer.Toy

open Text

def literalName : String := "toy.lit"
def addName : String := "toy.add"
def mulName : String := "toy.mul"
def nopName : String := "toy.nop"
def blockName : String := "toy.block"

/-- The key under which a literal holds its value. -/
def valueKey : String := "value"

/-- The vocabulary of the dialect. -/
def dialect : Dialect :=
  .ofList "toy" ["lit", "add", "mul", "nop", "block", "print"]

/-- The operation that stands for an integer. -/
def literal (n : Int64) : Operation :=
  (Operation.ofName literalName).setAttr valueKey (.int n)

/-! ## The list of literals -/

/-- The words of a text that begins at a place, each with the place of its first
character. A comment ends the word before it. -/
def words (place : Position) (inComment : Bool) : List Char → List (Position × List Char)
  | [] => []
  | c :: cs =>
    if inComment then words (place.advance c) (c != '\n') cs
    else if c = '#' then words (place.advance c) true cs
    else
      let later := words (place.advance c) false cs
      if isPlainBlank c then later
      else
        match cs, later with
        | d :: _, (_, tail) :: more =>
          if isPlainBlank d || d = '#' then (place, [c]) :: later else (place, c :: tail) :: more
        | _, _ => (place, [c]) :: later

/-- The 64-bit integer that a word stands for: one optional sign and digits. -/
def literal? : List Char → Option Int64
  | '+' :: digits => (natural? digits).bind fun n => int64? n
  | word => (integer? word).bind int64?

/-- The literal of a word, or the complaint about it. -/
def readWord (w : Position × List Char) : Except SyntaxError Operation :=
  match literal? w.2 with
  | some n => .ok (literal n)
  | none => .error ⟨w.1, .notAnInteger (String.ofList w.2)⟩

/-- Reads a list of integer literals. -/
def parse (source : String) : Except SyntaxError Module := do
  pure ⟨none, ← (words .start false source.toList).mapM readWord⟩

end IrOptimizer.Toy
