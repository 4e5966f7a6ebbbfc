/-!
# Quoted text

The quoted form of a text stands between double quotes. A quote, a backslash, a
line feed and a tab are written with a backslash; every other character stands
for itself, so a quoted text may run over several lines.

Reading is in two steps: `body` finds how far a literal goes, `decode` gives the
text it stands for. `decode_encode` says that quoting loses nothing.
-/

namespace IrOptimizer.Text.Quoted

/-- The written form of one character. -/
def escape (c : Char) : List Char :=
  if c = '"' then ['\\', '"']
  else if c = '\\' then ['\\', '\\']
  else if c = '\n' then ['\\', 'n']
  else if c = '\t' then ['\\', 't']
  else [c]

/-- What stands between the quotes. -/
def encode : List Char → List Char
  | [] => []
  | c :: cs => escape c ++ encode cs

/-- The quoted form of a text. -/
def quote (text : String) : String :=
  String.ofList ('"' :: encode text.toList ++ ['"'])

/-- The characters that may follow a backslash. -/
def isEscapable (c : Char) : Bool := c = '"' || c = '\\' || c = 'n' || c = 't'

/-- The run of characters, behind an opening quote, that the literal is made of:
it ends before a quote or before a backslash that begins no escape. -/
def body : List Char → List Char
  | [] => []
  | '\\' :: c :: cs => if isEscapable c then '\\' :: c :: body cs else []
  | c :: cs => if c = '"' || c = '\\' then [] else c :: body cs

/-- The text a literal's body stands for; none if a backslash ends the body. -/
def decode : List Char → Option (List Char)
  | [] => some []
  | ['\\'] => none
  | '\\' :: c :: cs =>
    let decoded := if c = 'n' then '\n' else if c = 't' then '\t' else c
    (decode cs).map (decoded :: ·)
  | c :: cs => (decode cs).map (c :: ·)

/-- A literal at the start of a text: what it takes up, quotes included, and the
text it stands for. -/
def literal? : List Char → Option (List Char × List Char)
  | '"' :: cs =>
    let inside := body cs
    match cs.drop inside.length, decode inside with
    | '"' :: _, some value => some ('"' :: inside ++ ['"'], value)
    | _, _ => none
  | _ => none

/-- The escape of a character is decoded to it, whatever follows. -/
private theorem decode_escape_append (c : Char) (rest : List Char) :
    decode (escape c ++ rest) = (decode rest).map (c :: ·) := by
  unfold escape
  split
  · next h => subst h; simp [decode]
  · split
    · next h => subst h; simp [decode]
    · split
      · next h => subst h; simp [decode]
      · split
        · next h => subst h; simp [decode]
        · next h _ _ => simp [decode, h]

/-- Encoding is undone by decoding. -/
theorem decode_encode (text : List Char) : decode (encode text) = some text := by
  induction text with
  | nil => rfl
  | cons c cs ih => simp [encode, decode_escape_append, ih]

end IrOptimizer.Text.Quoted
