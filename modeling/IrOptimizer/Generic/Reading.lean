import IrOptimizer.Generic.Grammar
import IrOptimizer.Generic.Nesting
import IrOptimizer.Module
import IrOptimizer.SyntaxError

/-!
# The generic form: reading

Reading has three stages, and the first that fails says why: the nesting of
parentheses is bounded, the text follows the grammar, and what is written makes
sense. The last stage goes through the text in order. Of an attribute, the range
of an integer is judged before the key; of an operation, the attributes before
the region.
-/

namespace IrOptimizer.Generic

open Text

/-- An offence in what is written, at a place given by the characters behind it. -/
structure Offence where
  remaining : Nat
  problem : SyntaxProblem

/-- The value of an attribute; integers have to fit. -/
def WrittenAttribute.meaning (a : WrittenAttribute) : Except Offence Attribute :=
  match a.value with
  | .bool b => .ok (.bool b)
  | .str s => .ok (.str s)
  | .int n =>
    match int64? n with
    | some k => .ok (.int k)
    | none => .error ⟨a.valuePlace, .integerOutOfRange⟩

/-- Adds written attributes to a dictionary; a key may be bound once. -/
def addAttributes (known : Attributes) : List WrittenAttribute → Except Offence Attributes
  | [] => .ok known
  | a :: more => do
    let value ← a.meaning
    if known.contains a.key then .error ⟨a.place, .duplicateAttribute a.key⟩
    else addAttributes (known.insert a.key value) more

mutual

def WrittenOperation.meaning : WrittenOperation → Except Offence Operation
  | ⟨name, attributes, region⟩ => do
    let attributes ← addAttributes .empty attributes
    let region ← meanings region
    pure ⟨name, attributes, region⟩

def meanings : List WrittenOperation → Except Offence (List Operation)
  | [] => .ok []
  | op :: ops => do
    let op ← op.meaning
    let ops ← meanings ops
    pure (op :: ops)

end

def WrittenModule.meaning (m : WrittenModule) : Except Offence Module := do
  pure ⟨m.name, ← meanings m.ops⟩

/-- The place in a text behind which so many characters remain. -/
def place (text : List Char) (remaining : Nat) : Position :=
  .after (text.take (text.length - remaining))

/-- What the grammar makes of a text, or what was expected at the furthest place. -/
def written (levels : Nat) (text : List Char) : Except SyntaxError WrittenModule :=
  let outcome := module levels (.ofList text)
  match outcome.read? with
  | some (m, _) => .ok m
  | none =>
    .error ⟨place text outcome.attempts.remaining, .expected (Rule.listing outcome.attempts.rules)⟩

/-- Reads a module from its characters. -/
def parseChars (text : List Char) : Except SyntaxError Module :=
  match overflow? text with
  | some position => .error ⟨position, .nestingTooDeep⟩
  | none => do
    let m ← written maxNesting text
    match m.meaning with
    | .ok m => .ok m
    | .error offence => .error ⟨place text offence.remaining, offence.problem⟩

/-- Reads a module in generic form. -/
def parse (source : String) : Except SyntaxError Module :=
  parseChars source.toList

end IrOptimizer.Generic
