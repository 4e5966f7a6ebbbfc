import IrOptimizer.Generic.Scanner
import IrOptimizer.Text.Blank
import IrOptimizer.Text.Quoted
import IrOptimizer.Text.Word

/-!
# The generic form: grammar

A text is a module declaration `module @name { … }` or a bare list of operations.
An operation is an identifier, an optional attribute dictionary between braces
and an optional region between parentheses. Blanks and comments may stand before,
between and after these, but not inside a name, a literal or an `@` symbol.

The scanners answer what is written, with places and without judging it: keys may
repeat and integers may be of any size. `region` takes the number of levels that
regions may be nested, counted from where it is used.
-/

namespace IrOptimizer.Generic

open Text

/-- A value as it is written. -/
inductive WrittenValue where
  | bool (b : Bool)
  | int (n : Int)
  | str (s : String)
deriving DecidableEq

/-- An attribute as it is written. Places are given by how many characters
remain behind them. -/
structure WrittenAttribute where
  place : Nat
  key : String
  valuePlace : Nat
  value : WrittenValue
deriving DecidableEq

/-- An operation as it is written. -/
structure WrittenOperation where
  name : String
  attributes : List WrittenAttribute
  region : List WrittenOperation

/-- A text as it is written. -/
structure WrittenModule where
  name : Option String
  ops : List WrittenOperation

/-! ## Blanks and comments -/

/-- The run of blanks and comments at the start of a text, or of the rest of a
comment and what follows it. A comment begins with two slashes and reaches to
the end of its line. -/
def gapRun (inComment : Bool) : List Char → List Char
  | [] => []
  | '/' :: '/' :: cs => '/' :: '/' :: gapRun true cs
  | c :: cs =>
    if inComment then c :: gapRun (c != '\n') cs
    else if isPlainBlank c then c :: gapRun false cs
    else []

open Scanner

/-- Passes over blanks and comments. -/
def gap : Scanner Unit := run fun text => some (gapRun false text, ())

/-! ## Names and literals -/

def identifier : Scanner String :=
  rule .identifier <| run fun text =>
    if isIdentifier (word text) then some (word text, String.ofList (word text)) else none

def string : Scanner String :=
  rule .string <| run fun text =>
    (Quoted.literal? text).map fun (taken, value) => (taken, String.ofList value)

def integer : Scanner Int :=
  rule .integer <| run fun text => (integer? (word text)).map fun n => (word text, n)

def boolean : Scanner Bool :=
  rule .boolean <| run fun text =>
    if word text = "true".toList then some (word text, true)
    else if word text = "false".toList then some (word text, false)
    else none

def moduleKeyword : Scanner Unit :=
  rule .moduleKeyword <| run fun text =>
    if word text = "module".toList then some (word text, ()) else none

/-- A bare or quoted name. -/
def name : Scanner String := orElse identifier string

def value : Scanner WrittenValue :=
  orElse (WrittenValue.int <$> integer)
    (orElse (WrittenValue.bool <$> boolean) (WrittenValue.str <$> string))

/-! ## Operations -/

def entry : Scanner WrittenAttribute :=
  rule .entry do
    let place ← here
    let key ← name
    gap
    char '='
    gap
    let valuePlace ← here
    let value ← value
    pure ⟨place, key, valuePlace, value⟩

/-- The entries of a dictionary, separated by commas. -/
def entries : Scanner (List WrittenAttribute) := do
  let first ← entry
  gap
  let more ← many do
    char ','
    gap
    let next ← entry
    gap
    pure next
  pure (first :: more)

def dictionary : Scanner (List WrittenAttribute) :=
  rule .dictionary do
    char '\x7b'
    gap
    let listed ← optional entries
    gap
    char '\x7d'
    pure (listed.getD [])

/-- An operation, given how its region is read. -/
def operation (region : Scanner (List WrittenOperation)) : Scanner WrittenOperation :=
  rule .operation do
    let name ← identifier
    gap
    let attributes ← optional dictionary
    gap
    let children ← optional region
    pure ⟨name, attributes.getD [], children.getD []⟩

/-- Operations up to the first text that is none, given how their regions are read. -/
def operations (region : Scanner (List WrittenOperation)) : Scanner (List WrittenOperation) :=
  many do
    let op ← operation region
    gap
    pure op

/-- A region that nests at most so many levels, itself included. -/
def region : Nat → Scanner (List WrittenOperation)
  | 0 => rule .region (run fun _ => none)
  | levels + 1 =>
    rule .region do
      char '('
      gap
      let ops ← operations (region levels)
      char ')'
      pure ops

/-! ## Modules -/

def symbol : Scanner String :=
  rule .symbol do
    char '@'
    name

def moduleDeclaration (levels : Nat) : Scanner WrittenModule :=
  rule .moduleDeclaration do
    moduleKeyword
    gap
    let symbol ← optional symbol
    gap
    char '\x7b'
    gap
    let ops ← operations (region levels)
    char '\x7d'
    pure ⟨symbol, ops⟩

def endOfInput : Scanner Unit :=
  rule .endOfInput <| run fun text => if text.isEmpty then some ([], ()) else none

/-- A whole text. A module declaration is preferred to a bare list, whatever
follows it. -/
def module (levels : Nat) : Scanner WrittenModule :=
  rule .module do
    gap
    let m ← orElse (moduleDeclaration levels) (WrittenModule.mk none <$> operations (region levels))
    gap
    endOfInput
    pure m

end IrOptimizer.Generic
