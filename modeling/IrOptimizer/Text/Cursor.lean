/-!
# Cursors over a text

A cursor is what is left of a text, together with how many characters that is.
The count makes "how far has reading come" a comparison of two numbers, and it
is the measure by which loops over a text end.
-/

namespace IrOptimizer.Text

/-- The unread part of a text and its length. -/
structure Cursor where
  rest : List Char
  remaining : Nat
  remaining_eq : remaining = rest.length

namespace Cursor

/-- Two cursors with the same unread text are the same. -/
theorem ext {c d : Cursor} (h : c.rest = d.rest) : c = d := by
  obtain ⟨r, n, hn⟩ := c
  obtain ⟨s, m, hm⟩ := d
  subst hn hm
  cases h
  rfl

/-- The cursor at the start of a text. -/
def ofList (text : List Char) : Cursor := ⟨text, text.length, rfl⟩

/-- Passes over so many characters. -/
def skip (c : Cursor) (n : Nat) : Cursor :=
  ⟨c.rest.drop n, c.remaining - n, by simp [c.remaining_eq]⟩

/-- The next character, which stays unread. -/
def peek? (c : Cursor) : Option Char := c.rest.head?

@[simp] theorem rest_ofList (text : List Char) : (ofList text).rest = text := rfl

@[simp] theorem rest_skip (c : Cursor) (n : Nat) : (c.skip n).rest = c.rest.drop n := rfl

end Cursor

end IrOptimizer.Text
