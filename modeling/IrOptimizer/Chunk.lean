import IrOptimizer.Text.Blank
import IrOptimizer.Text.Lines
import IrOptimizer.Text.Slice

/-!
# Chunks of a split input

Lines that hold nothing but a marker cut an input into chunks. Each chunk knows
how many lines of the input come before it, so a place in the chunk can be told
as a place in the input.

`split` follows the lines. `slices?` gets the same chunks in one pass with running counts
of bytes and lines, as slices of the input.
-/

namespace IrOptimizer

/-- What stands on a line between two chunks. -/
def splitMarker : String := "// -----"

/-- A part of a split input. -/
structure Chunk where
  linesBefore : Nat
  text : List Char
deriving DecidableEq

namespace Chunk

/-- Whether a line is a marker, blanks around it apart. -/
def isMarker (line : List Char) : Bool :=
  Text.trim line = splitMarker.toList

/-- The chunks of lines, before which the input has so many others. -/
def ofLines (linesBefore : Nat) : List (List Char) → List Chunk
  | [] => [⟨linesBefore, []⟩]
  | line :: lines =>
    if isMarker line then ⟨linesBefore, []⟩ :: ofLines (linesBefore + 1) lines
    else
      match ofLines (linesBefore + 1) lines with
      | [] => [⟨linesBefore, line⟩]
      | first :: more => ⟨linesBefore, line ++ first.text⟩ :: more

/-- The chunks of an input. -/
def split (source : List Char) : List Chunk :=
  ofLines 0 (Text.lines source)

/-- How far an input has been cut. The open chunk begins at the byte `start`, behind
`startLine` lines; `offset` bytes in `lineNo` lines have been read. -/
structure Cutting where
  start : Nat
  offset : Nat
  startLine : Nat
  lineNo : Nat
  chunks : List Chunk

/-- Reads one more line. A marker closes the open chunk, and the next one begins behind it. -/
def Cutting.readLine? (source : List Char) (c : Cutting) (line : List Char) : Option Cutting :=
  let offset := c.offset + Text.byteLength line
  let lineNo := c.lineNo + 1
  if isMarker line then do
    let text ← Text.slice? source c.start c.offset
    some ⟨offset, offset, lineNo, lineNo, c.chunks ++ [⟨c.startLine, text⟩]⟩
  else some { c with offset, lineNo }

/-- The chunks of an input as slices of it; none if there is no such slice. -/
def slices? (source : List Char) : Option (List Chunk) := do
  let c ← (Text.lines source).foldlM (Cutting.readLine? source) ⟨0, 0, 0, 0, []⟩
  let text ← Text.slice? source c.start (Text.byteLength source)
  some (c.chunks ++ [⟨c.startLine, text⟩])

end Chunk

end IrOptimizer
