import IrOptimizer.Json.Lexical

/-!
# JSON: readers

A reader takes a cursor to a value and the cursor behind it, or reports the first
problem it meets. Arrays and objects are read item by item, so a problem in an
item is met before one in what follows it. Reading to a type limits how many
brackets may be open at once; skipping a value does not.
-/

namespace IrOptimizer.Json

open Text

/-- A reader of one value. -/
abbrev Reader (α : Type) := StateT Cursor (Except Problem) α

namespace Reader

variable {α σ : Type}

def fail (problem : Problem) : Reader α := throw problem

/-- Passes over so many characters. -/
def skip (n : Nat) : Reader Unit := modify (·.skip n)

/-- Passes over blanks and looks at the next character, which stays unread. -/
def peek : Reader (Option Char) := do
  modify fun c => c.skip (c.rest.takeWhile isPlainBlank).length
  return (← get).peek?

/-- Reads one of the parts without inner values. -/
def lexical (read : List Char → Except Problem (α × Nat)) : Reader α := do
  let (a, n) ← liftM (read (← get).rest)
  skip n
  return a

/-- Passes over one of the parts without inner values. -/
def lexicalSkip (read : List Char → Except Problem Nat) : Reader Unit :=
  lexical fun text => (read text).map fun n => ((), n)

/-- A string whose opening quote is the next character. -/
def stringHere : Reader String := do
  skip 1
  return String.ofList (← lexical stringRest)

/-- A keyword whose first letter is the next character. -/
def keywordHere (rest : String) : Reader Unit := do
  skip 1
  lexicalSkip (keywordRest rest.toList)

/-! ## Arrays -/

/-- Whether another item follows in an array, before which its comma is passed over. -/
def hasItem (first : Bool) : Reader Bool := do
  match ← peek with
  | none => fail .unfinished
  | some c =>
    if c = ']' then return false
    else if first then return true
    else if c = ',' then
      skip 1
      match ← peek with
      | none => fail .unfinished
      | some d => if d = ']' then fail .malformed else return true
    else fail .malformed

/-- The end of an array from which no more items are wanted. -/
def endArray : Reader Unit := do
  match ← peek with
  | none => fail .unfinished
  | some c => if c = ']' then skip 1 else fail .malformed

/-- The items of an array up to its bracket, which stays unread. -/
def itemsFrom (item : Reader α) (first : Bool) (c : Cursor) :
    Except Problem (List α × Cursor) := do
  let (more, d) ← hasItem first c
  if more then
    let (a, d) ← item d
    if d.remaining < c.remaining then
      let (as, e) ← itemsFrom item false d
      pure (a :: as, e)
    else throw .malformed
  else pure ([], d)
termination_by c.remaining

/-- The items of an array whose opening bracket has been passed. -/
def items (item : Reader α) : Reader (List α) := do
  let as ← itemsFrom item true
  endArray
  return as

/-! ## Objects -/

/-- Whether another key follows in an object, before which its comma is passed over. -/
def hasKey (first : Bool) : Reader Bool := do
  match ← peek with
  | none => fail .unfinished
  | some c =>
    if c = '\x7d' then return false
    else if first then
      if c = '"' then return true else fail .malformed
    else if c = ',' then
      skip 1
      match ← peek with
      | none => fail .unfinished
      | some d => if d = '"' then return true else fail .malformed
    else fail .malformed

/-- The colon between a key and its value. -/
def colon : Reader Unit := do
  match ← peek with
  | none => fail .unfinished
  | some c => if c = ':' then skip 1 else fail .malformed

/-- Goes through the fields of an object up to its brace, which stays unread. A
step gets a key, and reads the colon and the value. -/
def fieldsFrom (step : σ → String → Reader σ) (first : Bool) (s : σ) (c : Cursor) :
    Except Problem (σ × Cursor) := do
  let (more, d) ← hasKey first c
  if more then
    let (key, d) ← stringHere d
    let (s, d) ← step s key d
    if d.remaining < c.remaining then fieldsFrom step false s d else throw .malformed
  else pure (s, d)
termination_by c.remaining

/-- The fields of an object whose opening brace has been passed. -/
def fields (step : σ → String → Reader σ) (s : σ) : Reader σ := do
  let s ← fieldsFrom step true s
  skip 1
  return s

/-! ## Values of no interest -/

/-- What is open around a skipped value. -/
inductive Bracket where
  | array
  | object
deriving DecidableEq

namespace Bracket

def close : Bracket → Char
  | array => ']'
  | object => '\x7d'

end Bracket

/-- A key and the colon behind it. -/
def skipKey : Reader Unit := do
  match ← peek with
  | none => fail .unfinished
  | some c =>
    if c = '"' then
      skip 1
      lexicalSkip skipStringRest
      colon
    else fail .malformed

/-- The end of a bracket just opened, or the start of its first value. Answers
whether a value follows. -/
def skipOpened (bracket : Bracket) : Reader Bool := do
  if (← peek) = some bracket.close then
    skip 1
    return false
  else
    if bracket = .object then skipKey
    return true

/-- A value of no interest up to the end of its first part. Answers whether
another value follows at once, and the brackets that are open then. -/
def skipValueStart (stack : List Bracket) : Reader (Bool × List Bracket) := do
  match ← peek with
  | none => fail .unfinished
  | some c =>
    if c = 'n' then keywordHere "ull"; return (false, stack)
    else if c = 't' then keywordHere "rue"; return (false, stack)
    else if c = 'f' then keywordHere "alse"; return (false, stack)
    else if c = '-' || isDigit c then lexicalSkip skipNumber; return (false, stack)
    else if c = '"' then
      skip 1
      lexicalSkip skipStringRest
      return (false, stack)
    else if c = '[' || c = '\x7b' then
      let bracket := if c = '[' then Bracket.array else Bracket.object
      skip 1
      if ← skipOpened bracket then return (true, bracket :: stack) else return (false, stack)
    else fail .malformed

/-- What stands behind a value inside a bracket. Answers whether another value
follows, and the brackets that are open then. -/
def skipBehindValue (bracket : Bracket) (outer : List Bracket) :
    Reader (Bool × List Bracket) := do
  match ← peek with
  | none => fail .unfinished
  | some c =>
    if c = ',' then
      skip 1
      if bracket = .object then skipKey
      return (true, bracket :: outer)
    else if c = bracket.close then
      skip 1
      return (false, outer)
    else fail .malformed

/-- Passes over a value, or the rest of one: `valueNext` says whether a value
follows at once, `stack` which brackets are open. -/
def skipFrom (valueNext : Bool) (stack : List Bracket) (c : Cursor) :
    Except Problem (Unit × Cursor) := do
  match valueNext, stack with
  | false, [] => pure ((), c)
  | false, bracket :: outer =>
    let ((valueNext, stack), d) ← skipBehindValue bracket outer c
    if d.remaining < c.remaining then skipFrom valueNext stack d else throw .malformed
  | true, stack =>
    let ((valueNext, stack), d) ← skipValueStart stack c
    if d.remaining < c.remaining then skipFrom valueNext stack d else throw .malformed
termination_by c.remaining

/-- Passes over a value, however deep it nests. -/
def skipValue : Reader Unit := skipFrom true []

/-! ## Values of the wrong kind -/

/-- Reads a keyword, number or string that is not wanted where it stands. A
bracket is refused before what is inside it is looked at. -/
def refuse {β : Type} : Reader β := do
  match ← peek with
  | none => fail .unfinished
  | some c =>
    if c = 'n' then keywordHere "ull"; fail .mismatch
    else if c = 't' then keywordHere "rue"; fail .mismatch
    else if c = 'f' then keywordHere "alse"; fail .mismatch
    else if c = '-' || isDigit c then
      let _ ← lexical number
      fail .mismatch
    else if c = '"' then
      let _ ← stringHere
      fail .mismatch
    else if c = '[' || c = '\x7b' then fail .mismatch
    else fail .malformed

/-- A string. -/
def string : Reader String := do
  if (← peek) = some '"' then stringHere else refuse

/-- A value inside a bracket, if another bracket may be opened; `levels` says how many. -/
def enter {β : Type} (levels : Nat) (inside : Nat → Reader β) : Reader β :=
  match levels with
  | 0 => fail .malformed
  | levels + 1 => do
    skip 1
    inside levels

end Reader

end IrOptimizer.Json
