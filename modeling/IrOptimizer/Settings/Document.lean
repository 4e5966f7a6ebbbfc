import IrOptimizer.Text.Digits

/-!
# Settings documents

A settings document is TOML with at most the five keys of `SettingsFile`, of
which two hold strings, two hold booleans and one holds an array of strings.
Every other key, value, table or dotted key is refused, and so is a key that
comes twice, so only comments, blank lines and plain pairs are ever accepted and
nothing else of TOML is read.
-/

namespace IrOptimizer

/-- What a settings document says; each part may be missing. -/
structure SettingsFile where
  passes : Option (List String)
  target : Option String
  frontend : Option String
  verifyEach : Option Bool
  allowUnregistered : Option Bool
deriving DecidableEq

namespace SettingsFile

/-- The document that says nothing. -/
def empty : SettingsFile := ⟨none, none, none, none, none⟩

/-! ## Characters -/

def isSpace (c : Char) : Bool := c = ' ' || c = '\t'

/-- The characters that may stand for themselves in a comment or on a line of a string. -/
def isPlain (c : Char) : Bool := c = '\t' || (0x20 ≤ c.toNat && c.toNat ≠ 0x7F)

/-- The characters of a key without quotes. -/
def isKeyChar (c : Char) : Bool :=
  ('a' ≤ c && c ≤ 'z') || ('A' ≤ c && c ≤ 'Z') || ('0' ≤ c && c ≤ '9') || c = '_' || c = '-'

def skipSpaces (text : List Char) : List Char := text.dropWhile isSpace

/-- A text without the line break at its start, if there is one. -/
def lineBreak? : List Char → Option (List Char)
  | '\n' :: rest => some rest
  | '\r' :: '\n' :: rest => some rest
  | _ => none

/-- A text without the comment at its start. -/
def skipComment : List Char → List Char
  | '#' :: rest => rest.dropWhile isPlain
  | text => text

/-- What follows a line of which only blanks and a comment are left. -/
def lineEnd? (text : List Char) : Option (List Char) :=
  match skipComment (skipSpaces text) with
  | [] => some []
  | rest => lineBreak? rest

/-- A text without the blanks, line breaks and comments at its start. -/
def skipLines (text : List Char) : List Char :=
  let rest := skipComment (skipSpaces text)
  match lineBreak? rest with
  | some next => if next.length < text.length then skipLines next else next
  | none => rest
termination_by text.length

/-! ## Strings -/

/-- The character of a code point in hexadecimal digits, of which there are so many. -/
def codePoint? (digits : Nat) (text : List Char) : Option Char := do
  if text.length < digits then none
  else
    let n ← Text.hexNumber? (text.take digits)
    if n.isValidChar then some (Char.ofNat n) else none

/-- The character that is escaped behind a backslash, and how many characters that takes. -/
def escaped? : List Char → Option (Char × Nat)
  | 'b' :: _ => some ('\x08', 1)
  | 't' :: _ => some ('\t', 1)
  | 'n' :: _ => some ('\n', 1)
  | 'f' :: _ => some ('\x0c', 1)
  | 'r' :: _ => some ('\r', 1)
  | '"' :: _ => some ('"', 1)
  | '\\' :: _ => some ('\\', 1)
  | 'u' :: text => (codePoint? 4 text).map fun c => (c, 5)
  | 'U' :: text => (codePoint? 8 text).map fun c => (c, 9)
  | _ => none

/-- Puts a character before a string that has been read. -/
def prepend (c : Char) : List Char × List Char → List Char × List Char
  | (value, rest) => (c :: value, rest)

/-- A string on one line behind its opening quote, and what follows it. -/
def basicRest? (text : List Char) : Option (List Char × List Char) :=
  match text with
  | [] => none
  | '"' :: rest => some ([], rest)
  | '\\' :: rest => do
    let (c, n) ← escaped? rest
    prepend c <$> basicRest? (rest.drop n)
  | c :: rest => if isPlain c then prepend c <$> basicRest? rest else none
termination_by text.length

/-- A string without escapes on one line behind its opening quote. -/
def literalRest? : List Char → Option (List Char × List Char)
  | [] => none
  | c :: rest =>
    if c = '\'' then some ([], rest)
    else if isPlain c then prepend c <$> literalRest? rest
    else none

/-- The quotes at the end of a string over several lines: three close it, and up
to two before these belong to it. -/
def closing? (quote : Char) (text : List Char) : Option (List Char × List Char) :=
  let run := (text.takeWhile (· = quote)).length
  if run < 3 then none
  else some (List.replicate (min (run - 3) 2) quote, text.drop (min run 5))

/-- A text without the blanks and line breaks at its start. -/
def skipBlankLines (text : List Char) : List Char :=
  match text with
  | [] => []
  | '\r' :: '\n' :: rest => skipBlankLines rest
  | c :: rest => if isSpace c || c = '\n' then skipBlankLines rest else c :: rest

/-- What follows a backslash at the end of a line, without the blanks and line
breaks there, which it leaves out. -/
def continued? (text : List Char) : Option (List Char) :=
  (lineBreak? (skipSpaces text)).map skipBlankLines

/-- A string over several lines behind its opening quotes. Line breaks are single
line feeds in the value. -/
def multilineRest? (quote : Char) (text : List Char) : Option (List Char × List Char) :=
  match closing? quote text, text with
  | some found, _ => some found
  | none, [] => none
  | none, '\r' :: '\n' :: rest => prepend '\n' <$> multilineRest? quote rest
  | none, '\n' :: rest => prepend '\n' <$> multilineRest? quote rest
  | none, c :: rest =>
    if c = '\\' && quote = '"' then
      match continued? rest with
      | some next => if next.length ≤ rest.length then multilineRest? quote next else none
      | none => do
        let (c, n) ← escaped? rest
        prepend c <$> multilineRest? quote (rest.drop n)
    else if isPlain c then prepend c <$> multilineRest? quote rest
    else none
termination_by text.length

/-- A string in any of its four forms, and what follows it. -/
def string? (text : List Char) : Option (String × List Char) :=
  let found :=
    match text with
    | '"' :: '"' :: '"' :: rest => multilineRest? '"' ((lineBreak? rest).getD rest)
    | '"' :: rest => basicRest? rest
    | '\'' :: '\'' :: '\'' :: rest => multilineRest? '\'' ((lineBreak? rest).getD rest)
    | '\'' :: rest => literalRest? rest
    | _ => none
  found.map fun (value, rest) => (String.ofList value, rest)

/-! ## Values -/

def bool? : List Char → Option (Bool × List Char)
  | 't' :: 'r' :: 'u' :: 'e' :: rest => some (true, rest)
  | 'f' :: 'a' :: 'l' :: 's' :: 'e' :: rest => some (false, rest)
  | _ => none

/-- The strings of an array behind its bracket or a comma. -/
def stringsRest? (text : List Char) : Option (List String × List Char) :=
  match skipLines text with
  | ']' :: rest => some ([], rest)
  | start => do
    let (value, rest) ← string? start
    match skipLines rest with
    | ']' :: rest => some ([value], rest)
    | ',' :: rest =>
      if rest.length < text.length then do
        let (values, rest) ← stringsRest? rest
        some (value :: values, rest)
      else none
    | _ => none
termination_by text.length

def strings? : List Char → Option (List String × List Char)
  | '[' :: rest => stringsRest? rest
  | _ => none

/-! ## Documents -/

/-- A key, with or without quotes, and what follows it. -/
def key? (text : List Char) : Option (String × List Char) :=
  match text with
  | '"' :: rest => (basicRest? rest).map fun (key, rest) => (String.ofList key, rest)
  | '\'' :: rest => (literalRest? rest).map fun (key, rest) => (String.ofList key, rest)
  | _ =>
    let key := text.takeWhile isKeyChar
    if key.isEmpty then none else some (String.ofList key, text.drop key.length)

/-- Reads the value of a key that has not come before. -/
def assign? (s : SettingsFile) (key : String) (text : List Char) :
    Option (SettingsFile × List Char) :=
  if key = "passes" && s.passes.isNone then
    (strings? text).map fun (value, rest) => ({ s with passes := some value }, rest)
  else if key = "target" && s.target.isNone then
    (string? text).map fun (value, rest) => ({ s with target := some value }, rest)
  else if key = "frontend" && s.frontend.isNone then
    (string? text).map fun (value, rest) => ({ s with frontend := some value }, rest)
  else if key = "verify_each" && s.verifyEach.isNone then
    (bool? text).map fun (value, rest) => ({ s with verifyEach := some value }, rest)
  else if key = "allow_unregistered_dialect" && s.allowUnregistered.isNone then
    (bool? text).map fun (value, rest) => ({ s with allowUnregistered := some value }, rest)
  else none

/-- A pair up to the end of its line. -/
def pair? (s : SettingsFile) (text : List Char) : Option (SettingsFile × List Char) := do
  let (key, rest) ← key? text
  match skipSpaces rest with
  | '=' :: rest =>
    let (s, rest) ← assign? s key (skipSpaces rest)
    pure (s, ← lineEnd? rest)
  | _ => none

/-- The pairs of the rest of a document. -/
def pairs? (s : SettingsFile) (text : List Char) : Option SettingsFile :=
  match skipLines text with
  | [] => some s
  | start => do
    let (s, rest) ← pair? s start
    if rest.length < text.length then pairs? s rest else none
termination_by text.length

/-- What a document says, if it is a settings document. A byte order mark at its
start does not count. -/
def parse? (text : String) : Option SettingsFile :=
  match text.toList with
  | '\uFEFF' :: rest => pairs? empty rest
  | chars => pairs? empty chars

end SettingsFile

end IrOptimizer
