import IrOptimizer.Text.LetterCase

/-!
# File names

The extension of a path is what stands behind the last dot of its last
component, unless that dot is the first character of the component. Slashes
separate components; empty ones and single dots count as none.
-/

namespace IrOptimizer.Text

/-- The components of a path, without empty ones and single dots. -/
def pathComponents (path : String) : List (List Char) :=
  (path.toList.splitOn '/').filter fun part => part ≠ [] && part ≠ ['.']

/-- The part of a file name behind its last dot, if something stands before it. -/
def extensionOf? (name : List Char) : Option (List Char) :=
  let behind := (name.reverse.takeWhile (· ≠ '.')).reverse
  if behind.length + 1 < name.length then some behind else none

/-- The extension of the file that a path names. -/
def pathExtension? (path : String) : Option String := do
  let name ← (pathComponents path).getLast?
  if name = ['.', '.'] then none
  else (extensionOf? name).map String.ofList

/-- The source form that a file name suggests: its extension in lower case. -/
def sourceTag? (path : String) : Option String :=
  ((pathExtension? path).filter (· ≠ "")).map lowercaseText

end IrOptimizer.Text
