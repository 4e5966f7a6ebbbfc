import IrOptimizer.Text.Position

/-!
# The generic form: nesting

Before a text is read, its parentheses are counted, so that reading need not go
deeper than a fixed number of levels. Parentheses inside strings and comments do
not count, and a closing one without a partner is ignored.
-/

namespace IrOptimizer.Generic

open Text

/-- How many regions may be open at once. -/
def maxNesting : Nat := 256

/-- What the next character is part of. -/
inductive Zone where
  | plain
  | comment
  | string
  /-- Inside a string, behind a backslash. -/
  | escape
deriving DecidableEq

namespace Zone

/-- The zone behind a character, given the one that follows it. -/
def step (zone : Zone) (c : Char) (next? : Option Char) : Zone :=
  match zone with
  | comment => if c = '\n' then plain else comment
  | escape => string
  | string => if c = '\\' then escape else if c = '"' then plain else string
  | plain =>
    if c = '"' then string
    else if c = '/' && next? = some '/' then comment
    else plain

end Zone

/-- The place of the first parenthesis that opens a level too many, when so many
levels are open at a place of the text. -/
def tooDeep? (zone : Zone) (depth : Nat) (place : Position) : List Char → Option Position
  | [] => none
  | c :: cs =>
    let zone' := zone.step c cs.head?
    if zone = .plain ∧ c = '(' then
      if depth < maxNesting then tooDeep? zone' (depth + 1) (place.advance c) cs else some place
    else if zone = .plain ∧ c = ')' then tooDeep? zone' (depth - 1) (place.advance c) cs
    else tooDeep? zone' depth (place.advance c) cs

/-- The first parenthesis of a text that opens a level too many. -/
def overflow? (text : List Char) : Option Position :=
  tooDeep? .plain 0 .start text

end IrOptimizer.Generic
