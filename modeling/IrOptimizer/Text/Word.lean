import IrOptimizer.Text.Digits

/-!
# Words

A word is a maximal run of identifier characters. Which kind of token a word is
(an identifier, an integer, a keyword) is a question about the whole word, so no
token can end in the middle of one.
-/

namespace IrOptimizer.Text

def isLetter (c : Char) : Bool := ('a' ≤ c && c ≤ 'z') || ('A' ≤ c && c ≤ 'Z')

/-- The characters an identifier may begin with: ASCII letters and the underscore. -/
def isIdentifierStart (c : Char) : Bool := isLetter c || c = '_'

/-- The characters an identifier may go on with. -/
def isIdentifierChar (c : Char) : Bool :=
  isLetter c || isDigit c || c = '_' || c = '.' || c = '$' || c = '-'

/-- Whether a text as a whole is an identifier. -/
def isIdentifier : List Char → Bool
  | [] => false
  | c :: cs => isIdentifierStart c && cs.all isIdentifierChar

/-- The word a text begins with; empty if its first character is in no word. -/
def word (text : List Char) : List Char := text.takeWhile isIdentifierChar

theorem isIdentifierChar_of_start {c : Char} (h : isIdentifierStart c = true) :
    isIdentifierChar c = true := by
  simp only [isIdentifierStart, isIdentifierChar, Bool.or_eq_true] at h ⊢
  rcases h with h | h <;> simp [h]

theorem isIdentifierChar_of_mem {name : List Char} (h : isIdentifier name = true) {c : Char}
    (hc : c ∈ name) : isIdentifierChar c = true := by
  cases name with
  | nil => simp at hc
  | cons d ds =>
    simp only [isIdentifier, Bool.and_eq_true, List.all_eq_true] at h
    rcases List.mem_cons.mp hc with rfl | hc
    · exact isIdentifierChar_of_start h.1
    · exact h.2 c hc

/-- Identifier characters followed by a character of no word are a word. -/
theorem word_append {w rest : List Char} (hw : ∀ c ∈ w, isIdentifierChar c = true)
    (hrest : rest.head?.all (fun c => !isIdentifierChar c) = true) :
    word (w ++ rest) = w := by
  rw [word, List.takeWhile_append_of_pos hw]
  cases rest with
  | nil => simp
  | cons d ds =>
    have hd : isIdentifierChar d = false := by simpa using hrest
    simp [hd]

/-- A text is its first word and what is left behind that. -/
theorem word_append_drop (text : List Char) : word text ++ text.drop (word text).length = text :=
  List.prefix_iff_eq_append.mp (List.takeWhile_prefix isIdentifierChar)

end IrOptimizer.Text
