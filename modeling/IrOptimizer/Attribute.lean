import IrOptimizer.Text.Quoted

/-!
# Attributes

An attribute is a boolean, a 64-bit integer or a string. Arithmetic on integers
is done in `Int` and comes back through `int64?`, which refuses what does
not fit, so no result is ever a wrapped one.
-/

namespace IrOptimizer

/-- The 64-bit integer of that value; none if it does not fit. -/
def int64? (n : Int) : Option Int64 :=
  if -9223372036854775808 ≤ n ∧ n < 9223372036854775808 then some (Int64.ofInt n) else none

/-- A number is represented by the integer with its value. -/
theorem int64?_eq_some_iff {n : Int} {k : Int64} : int64? n = some k ↔ k.toInt = n := by
  unfold int64?
  constructor
  · intro h
    split at h
    · next hn =>
      cases h
      exact Int64.toInt_ofInt_of_le hn.1 hn.2
    · cases h
  · intro h
    subst h
    rw [if_pos ⟨Int64.le_toInt k, Int64.toInt_lt k⟩, Int64.ofInt_toInt]

/-- An integer from the least to the greatest that 64 bits can hold. -/
def InRange (n : Int) : Prop := -9223372036854775808 ≤ n ∧ n < 9223372036854775808

/-- All that is represented is in the range. -/
theorem inRange_toInt (n : Int64) : InRange n.toInt := ⟨Int64.le_toInt n, Int64.toInt_lt n⟩

/-- Only what is out of range is not represented. -/
theorem int64?_eq_none_iff {n : Int} : int64? n = none ↔ ¬ InRange n := by
  unfold int64? InRange
  split
  · next h => exact ⟨nofun, fun hnot => absurd h hnot⟩
  · next h => exact ⟨fun _ => h, fun _ => rfl⟩

/-- A value that an operation holds under a key. -/
inductive Attribute where
  | bool (b : Bool)
  | int (n : Int64)
  | str (s : String)
deriving DecidableEq, Inhabited

namespace Attribute

/-- The value of an integer attribute. -/
def asInt? : Attribute → Option Int64
  | int n => some n
  | _ => none

theorem bind_asInt?_eq_some_iff {value : Option Attribute} {n : Int64} :
    value.bind asInt? = some n ↔ value = some (int n) := by
  rcases value with _ | _ | _ | _ <;> simp [asInt?]

/-- There is no integer in a value that is missing or of another kind. -/
theorem bind_asInt?_eq_none_iff {value : Option Attribute} :
    value.bind asInt? = none ↔ ∀ n, value ≠ some (int n) := by
  rcases value with _ | _ | _ | _ <;> simp [asInt?]

/-- The value of a string attribute. -/
def asStr? : Attribute → Option String
  | str s => some s
  | _ => none

/-- The written form: strings are quoted. -/
def print : Attribute → String
  | bool true => "true"
  | bool false => "false"
  | int n => toString n.toInt
  | str s => Text.Quoted.quote s

end Attribute

end IrOptimizer
