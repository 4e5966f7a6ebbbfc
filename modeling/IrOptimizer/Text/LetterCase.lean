import IrOptimizer.Text.LetterCase.Table

/-!
# Letter case

Upper and lower case in the sense of Unicode. A single character is put in lower
case without regard to its neighbours; in a whole text, a capital sigma at the
end of a word becomes a final sigma.
-/

namespace IrOptimizer.Text

open LetterCase

def isUppercase (c : Char) : Bool := uppercaseSpans.any (·.contains c.toNat)

def isLowercase (c : Char) : Bool := lowercaseSpans.any (·.contains c.toNat)

/-- Whether a character has a case: upper, lower or title. -/
def isCased (c : Char) : Bool :=
  isUppercase c || isLowercase c || titlecaseSpans.any (·.contains c.toNat)

/-- Whether a character is passed over when the neighbour of a letter is sought. -/
def isCaseIgnorable (c : Char) : Bool := caseIgnorableSpans.any (·.contains c.toNat)

/-- The lowercase form of one character. It is one character, but for the capital
I with a dot, whose dot stays as a combining one. -/
def lowercase (c : Char) : List Char :=
  if c = '\u0130' then ['i', '\u0307']
  else [((lowercaseShifts.findSome? (·.partner? c.toNat)).map Char.ofNat).getD c]

/-- Whether the next character that counts for case has one. -/
def nextIsCased (text : List Char) : Bool :=
  ((text.dropWhile isCaseIgnorable).head?).any isCased

/-- The lowercase form of a text that stands behind the given one, which is listed
backwards. -/
def lowercaseAfter (before : List Char) : List Char → List Char
  | [] => []
  | c :: cs =>
    let form :=
      if c = 'Σ' then if nextIsCased before && !nextIsCased cs then ['ς'] else ['σ']
      else lowercase c
    form ++ lowercaseAfter (c :: before) cs

/-- The lowercase form of a text. -/
def lowercaseText (text : String) : String :=
  String.ofList (lowercaseAfter [] text.toList)

end IrOptimizer.Text
