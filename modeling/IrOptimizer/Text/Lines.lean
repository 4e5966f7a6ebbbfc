/-!
# Lines

A line feed ends a line and belongs to it; the last line may lack one.
-/

namespace IrOptimizer.Text

/-- The lines of a text, each with its line feed if it has one. -/
def lines : List Char → List (List Char)
  | [] => []
  | c :: cs =>
    if c = '\n' then ['\n'] :: lines cs
    else
      match lines cs with
      | [] => [[c]]
      | line :: more => (c :: line) :: more

/-- The lines of a text make up the text. -/
theorem flatten_lines (text : List Char) : (lines text).flatten = text := by
  induction text with
  | nil => rfl
  | cons c cs ih =>
    simp only [lines]
    split
    · next h => simp [ih, h]
    · split
      · next h => rw [h] at ih; simp at ih; simp [← ih]
      · next h => rw [h] at ih; simpa using ih

end IrOptimizer.Text
