/-!
# Blanks

Two sets of blanks: the four that separate words in source texts, and all
characters with the Unicode property White_Space. `trim` takes the latter from
the ends of a text.
-/

namespace IrOptimizer.Text

/-- Space, tab, carriage return and line feed. -/
def isPlainBlank (c : Char) : Bool :=
  c = ' ' || c = '\t' || c = '\r' || c = '\n'

/-- Whether a character has the property White_Space. -/
def isBlank (c : Char) : Bool :=
  let n := c.toNat
  (0x09 ≤ n && n ≤ 0x0D) || n = 0x20 || n = 0x85 || n = 0xA0 || n = 0x1680 ||
    (0x2000 ≤ n && n ≤ 0x200A) || n = 0x2028 || n = 0x2029 || n = 0x202F || n = 0x205F ||
    n = 0x3000

/-- A text without the blanks at its start. -/
def trimStart (text : List Char) : List Char := text.dropWhile isBlank

/-- A text without the blanks at both ends. -/
def trim (text : List Char) : List Char := (trimStart (trimStart text).reverse).reverse

theorem trimStart_of_no_blank {text : List Char} (h : ∀ c ∈ text, isBlank c = false) :
    trimStart text = text := by
  cases text with
  | nil => rfl
  | cons c cs => simp [trimStart, h c (by simp)]

/-- Where there are no blanks nothing is trimmed. -/
theorem trim_of_no_blank {text : List Char} (h : ∀ c ∈ text, isBlank c = false) :
    trim text = text := by
  rw [trim, trimStart_of_no_blank h, trimStart_of_no_blank (by simpa using h), List.reverse_reverse]

end IrOptimizer.Text
