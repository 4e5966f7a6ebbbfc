import IrOptimizer.Text.Blank
import IrOptimizer.Text.LetterCase
import IrOptimizer.Text.Digits

/-!
# Pass names

The name of a pass is its label in lower case, cut into words that hyphens join.
Words are separated by underscores, hyphens and blanks, and by the boundaries of
camel case: before a capital behind a lowercase letter or a digit, and before the
last capital of several if a lowercase letter follows it.
-/

namespace IrOptimizer.Pass

open Text

/-- The characters that separate words and belong to none. -/
def isSeparator (c : Char) : Bool := c = '_' || c = '-' || isBlank c

/-- Whether a word begins at a character that stands between two others. -/
def isCamelBoundary (before? : Option Char) (c : Char) (after? : Option Char) : Bool :=
  isUppercase c &&
    match before? with
    | none => false
    | some b =>
      if isLowercase b || isDigit b then true
      else if isUppercase b then after?.any isLowercase
      else false

/-- The name made from the rest of a label, given the character before it, whether
a separator has been passed over since the last word, and whether a word has been
written at all. -/
def nameFrom (before? : Option Char) (separated started : Bool) : List Char → List Char
  | [] => []
  | c :: cs =>
    if isSeparator c then nameFrom (some c) true started cs
    else
      let hyphen := if (separated || isCamelBoundary before? c cs.head?) && started then ['-'] else []
      hyphen ++ lowercase c ++ nameFrom (some c) false true cs

/-- The name that a label stands for. -/
def nameOf (label : String) : String :=
  String.ofList (nameFrom none false false label.toList)

end IrOptimizer.Pass
