/-!
# Digits

Numbers written in ASCII digits, decimal or hexadecimal. Leading zeros are allowed.
-/

namespace IrOptimizer.Text

/-! ## Decimal -/

def isDigit (c : Char) : Bool := '0' ≤ c && c ≤ '9'

/-- The number a run of decimal digits stands for. -/
def digitsValue (digits : List Char) : Nat :=
  digits.foldl (fun n c => 10 * n + (c.toNat - '0'.toNat)) 0

/-- The number a nonempty run of digits stands for; any other text is none. -/
def natural? (text : List Char) : Option Nat :=
  if !text.isEmpty && text.all isDigit then some (digitsValue text) else none

/-- A text is a number if it is not empty and has digits only; the number is what they come to.
-/
theorem natural?_eq_some_iff {text : List Char} {n : Nat} :
    natural? text = some n ↔
      text ≠ [] ∧ (∀ c ∈ text, isDigit c = true) ∧ n = digitsValue text := by
  unfold natural?
  by_cases h : (!text.isEmpty && text.all isDigit) = true
  · rw [if_pos h]
    rw [Bool.and_eq_true, Bool.not_eq_true', List.isEmpty_eq_false_iff, List.all_eq_true] at h
    constructor
    · intro hn
      exact ⟨h.1, h.2, (Option.some.inj hn).symm⟩
    · intro hn
      exact congrArg some hn.2.2.symm
  · rw [if_neg h]
    constructor
    · intro hn
      cases hn
    · intro hn
      rw [Bool.and_eq_true, Bool.not_eq_true', List.isEmpty_eq_false_iff, List.all_eq_true] at h
      exact absurd ⟨hn.1, hn.2.1⟩ h

/-- The integer written as an optional minus sign and digits. -/
def integer? : List Char → Option Int
  | '-' :: digits => (natural? digits).map fun n => -(n : Int)
  | digits => (natural? digits).map fun n => (n : Int)

/-! ## Hexadecimal -/

/-- The lowercase digit of a number below sixteen. -/
def hexDigit (n : Nat) : Char :=
  if n < 10 then Char.ofNat ('0'.toNat + n) else Char.ofNat ('a'.toNat + (n - 10))

/-- The value of a digit, in lower or upper case. -/
def hexValue? (c : Char) : Option Nat :=
  if '0' ≤ c && c ≤ '9' then some (c.toNat - '0'.toNat)
  else if 'a' ≤ c && c ≤ 'f' then some (c.toNat - 'a'.toNat + 10)
  else if 'A' ≤ c && c ≤ 'F' then some (c.toNat - 'A'.toNat + 10)
  else none

/-- The number a run of hexadecimal digits stands for; none if another character is in it. -/
def hexNumber? (digits : List Char) : Option Nat :=
  (digits.mapM hexValue?).map fun values => values.foldl (fun n d => 16 * n + d) 0

end IrOptimizer.Text
