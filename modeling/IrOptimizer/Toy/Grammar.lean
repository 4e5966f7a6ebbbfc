import IrOptimizer.Generic.Grammar

/-!
# The toy dialect: grammar

A list of literals is a sequence of words. A word is a run of characters that are no blanks
and begin no comment; blanks and comments stand before, between and behind words, never in
one. A comment is over at the line feed that ends its line, which is a blank.

The scanners answer words with places and do not judge them. There is a word wherever no
blank and no comment begins, so reading never fails.
-/

namespace IrOptimizer.Toy

open Text
open Generic (Scanner endOfInput)
open Generic.Scanner

/-! ## Blanks and comments -/

def blank : Scanner Unit :=
  run fun text => if text.head?.any isPlainBlank then some (text.take 1, ()) else none

def comment : Scanner Unit := do
  char '#'
  run fun text => some (text.takeWhile (· ≠ '\n'), ())

def blanks : Scanner Unit := do
  let _ ← many blank
  pure ()

/-- Passes over blanks and comments. -/
def gap : Scanner Unit := do
  blanks
  let _ ← many do
    comment
    blanks
  pure ()

/-! ## Words -/

def isWordChar (c : Char) : Bool := !(isPlainBlank c || c = '#')

/-- A word and how many characters remain from its first one on. -/
def word : Scanner (Nat × List Char) := do
  let place ← here
  let letters ← run fun text =>
    let letters := text.takeWhile isWordChar
    if letters.isEmpty then none else some (letters, letters)
  pure (place, letters)

/-- One or more words. -/
def wordList : Scanner (List (Nat × List Char)) := do
  let first ← word
  let more ← many do
    gap
    word
  pure (first :: more)

/-- The words of a whole text. -/
def program : Scanner (List (Nat × List Char)) := do
  gap
  let found ← optional wordList
  gap
  endOfInput
  pure (found.getD [])

end IrOptimizer.Toy
