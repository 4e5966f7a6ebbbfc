/-!
# Places in a text

Lines and columns count from one. A line feed ends a line and belongs to the
line it ends; a column counts characters, whatever their width.
-/

namespace IrOptimizer.Text

/-- A place in a source text. -/
structure Position where
  line : Nat
  column : Nat
deriving DecidableEq

namespace Position

/-- The place of the first character. -/
def start : Position := ⟨1, 1⟩

/-- The place after a character that stands at the given place. -/
def advance (p : Position) (c : Char) : Position :=
  if c = '\n' then ⟨p.line + 1, 1⟩ else ⟨p.line, p.column + 1⟩

/-- The place reached after reading a text from its start. -/
def after (text : List Char) : Position :=
  text.foldl advance start

@[simp] theorem after_nil : after [] = start := rfl

/-- A position moves on with each character. -/
theorem after_append_singleton (text : List Char) (c : Char) :
    after (text ++ [c]) = (after text).advance c := by
  simp [after]

/-- The same column so many lines further down. -/
def down (p : Position) (lines : Nat) : Position :=
  ⟨p.line + lines, p.column⟩

end Position

end IrOptimizer.Text
