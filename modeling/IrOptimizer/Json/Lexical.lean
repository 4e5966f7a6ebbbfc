import IrOptimizer.Text.Blank
import IrOptimizer.Text.Cursor
import IrOptimizer.Text.Digits

/-!
# JSON: strings, numbers and keywords

Readers for the parts of a JSON text that contain no other values. Each works on
the characters that are left and answers a meaning with the number of characters
it takes up. A text may be wrong in three ways (`Problem`), and of several faults
the one that is met first counts.

What is read for its value is judged more strictly than what is skipped: a number
out of range or an unpaired surrogate is an error only where the value is wanted.
-/

namespace IrOptimizer.Json

open Text

/-- How a text fails to be a document of the wanted kind. -/
inductive Problem where
  /-- It is no JSON. -/
  | malformed
  /-- It is JSON of another kind. -/
  | mismatch
  /-- It ends too early. -/
  | unfinished
deriving DecidableEq

/-! ## Keywords -/

/-- How many characters the rest of a keyword takes up. -/
def keywordRest : List Char → List Char → Except Problem Nat
  | [], _ => .ok 0
  | _ :: _, [] => .error .unfinished
  | k :: ks, c :: cs => if k = c then (keywordRest ks cs).map (· + 1) else .error .malformed

/-! ## Strings -/

/-- How many bytes characters take up in UTF-8. -/
def utf8Size (text : List Char) : Nat :=
  text.foldl (fun n c => n + c.utf8Size) 0

/-- The number that four hexadecimal digits stand for. A text of fewer than four
bytes ends too early, whatever it holds. -/
def hexFour (text : List Char) : Except Problem Nat :=
  if utf8Size (text.take 4) < 4 then .error .unfinished
  else
    match hexNumber? (text.take 4) with
    | some n => .ok n
    | none => .error .malformed

/-- The character that a letter behind a backslash stands for. -/
def simpleEscape? (c : Char) : Option Char :=
  if c = '"' || c = '\\' || c = '/' then some c
  else if c = 'b' then some '\x08'
  else if c = 'f' then some '\x0c'
  else if c = 'n' then some '\n'
  else if c = 'r' then some '\r'
  else if c = 't' then some '\t'
  else none

def isLeadingSurrogate (n : Nat) : Bool := 0xD800 ≤ n && n ≤ 0xDBFF

def isTrailingSurrogate (n : Nat) : Bool := 0xDC00 ≤ n && n ≤ 0xDFFF

/-- The character of a code point in four digits and, if that is a leading
surrogate, in the four digits of a second escape. -/
def unicodeEscape (text : List Char) : Except Problem (Char × Nat) := do
  let first ← hexFour text
  if isTrailingSurrogate first then .error .malformed
  else if isLeadingSurrogate first then
    let _ ← keywordRest ['\\', 'u'] (text.drop 4)
    let second ← hexFour (text.drop 6)
    if isTrailingSurrogate second then
      pure (Char.ofNat (0x10000 + (first - 0xD800) * 0x400 + (second - 0xDC00)), 10)
    else .error .malformed
  else pure (Char.ofNat first, 4)

/-- The character that is escaped behind a backslash. -/
def escapeRest : List Char → Except Problem (Char × Nat)
  | [] => .error .unfinished
  | 'u' :: text => (unicodeEscape text).map fun (c, n) => (c, n + 1)
  | c :: _ =>
    match simpleEscape? c with
    | some d => .ok (d, 1)
    | none => .error .malformed

/-- An escape whose character does not matter. -/
def skipEscapeRest : List Char → Except Problem Nat
  | [] => .error .unfinished
  | 'u' :: text => (hexFour text).map fun _ => 5
  | c :: _ => if (simpleEscape? c).isSome then .ok 1 else .error .malformed

/-- The rest of a string behind its opening quote; the count includes the closing one. -/
def stringRest (text : List Char) : Except Problem (List Char × Nat) :=
  match text with
  | [] => .error .unfinished
  | '"' :: _ => .ok ([], 1)
  | '\\' :: rest => do
    let (c, n) ← escapeRest rest
    let (cs, k) ← stringRest (rest.drop n)
    pure (c :: cs, k + n + 1)
  | c :: rest =>
    if c.toNat < 0x20 then .error .malformed
    else do
      let (cs, k) ← stringRest rest
      pure (c :: cs, k + 1)
termination_by text.length

/-- The rest of a string whose value does not matter. -/
def skipStringRest (text : List Char) : Except Problem Nat :=
  match text with
  | [] => .error .unfinished
  | '"' :: _ => .ok 1
  | '\\' :: rest => do
    let n ← skipEscapeRest rest
    let k ← skipStringRest (rest.drop n)
    pure (k + n + 1)
  | c :: rest =>
    if c.toNat < 0x20 then .error .malformed
    else (skipStringRest rest).map (· + 1)
termination_by text.length

/-! ## Numbers -/

/-- What a number is taken for. -/
inductive Number where
  | int (n : Int)
  /-- A number with a fraction or an exponent, or a negative zero. -/
  | float
deriving DecidableEq

/-- The greatest significand that digits are gathered in. -/
def maxSignificand : Nat := UInt64.size - 1

/-- Adds digits to a significand as long as it stays in range; also, how many. -/
def gather (significand taken : Nat) : List Char → Nat × Nat
  | [] => (significand, taken)
  | c :: cs =>
    let next := 10 * significand + (c.toNat - '0'.toNat)
    if next ≤ maxSignificand then gather next (taken + 1) cs else (significand, taken)

/-- The nearest number with 53 significant bits; a tie goes to the even one. -/
def roundTo53 (n : Nat) : Nat :=
  let shift := n.log2 + 1 - 53
  let unit := 1 <<< shift
  let low := n % unit
  let high := n / unit
  if 2 * low > unit || (2 * low = unit && high % 2 = 1) then (high + 1) * unit else high * unit

/-- The least number that rounds to no double: halfway between the greatest double
and the next number with 53 significant bits. -/
def doubleBound : Nat := (1 <<< 1024) - (1 <<< 970)

/-- Whether a significand times a power of ten exceeds every double. -/
def exceedsDouble (significand : Nat) (exponent : Int) : Bool :=
  significand ≠ 0 && 0 ≤ exponent &&
    (308 < exponent ||
      doubleBound ≤ roundTo53 significand * roundTo53 (Nat.pow 10 exponent.toNat))

/-- Accepts a number that some double comes near to. -/
def scaled (significand : Nat) (exponent : Int) (count : Nat) : Except Problem (Number × Nat) :=
  if exceedsDouble significand exponent then .error .malformed else .ok (.float, count)

/-- The exponent behind its letter; `count` is what has been taken up before. -/
def exponentRest (significand : Nat) (exponent : Int) (count : Nat) (text : List Char) :
    Except Problem (Number × Nat) :=
  let (sign, unsigned) :=
    match text with
    | '+' :: rest => ((1 : Int), rest)
    | '-' :: rest => (-1, rest)
    | _ => (1, text)
  let digits := unsigned.takeWhile isDigit
  if digits.isEmpty then .error (if unsigned.isEmpty then .unfinished else .malformed)
  else
    scaled significand (exponent + sign * digitsValue digits)
      (count + (text.length - unsigned.length) + digits.length)

/-- What may follow the digits of a number that is no integer. -/
def exponentOrEnd (significand : Nat) (exponent : Int) (count : Nat) (text : List Char) :
    Except Problem (Number × Nat) :=
  match text with
  | 'e' :: rest | 'E' :: rest => exponentRest significand exponent (count + 1) rest
  | _ => scaled significand exponent count

/-- The fraction behind its point. -/
def fractionRest (significand : Nat) (exponent : Int) (count : Nat) (text : List Char) :
    Except Problem (Number × Nat) :=
  let digits := text.takeWhile isDigit
  let rest := text.drop digits.length
  if digits.isEmpty then .error (if rest.isEmpty then .unfinished else .malformed)
  else
    let (significand, taken) := gather significand 0 digits
    exponentOrEnd significand (exponent - taken) (count + digits.length) rest

/-- A number without its sign. Digits beyond the significand only scale it. -/
def unsignedNumber (negative : Bool) (text : List Char) : Except Problem (Number × Nat) :=
  let digits := text.takeWhile isDigit
  let count := digits.length
  let rest := text.drop count
  if digits.isEmpty then .error (if rest.isEmpty then .unfinished else .malformed)
  else if digits.head? = some '0' && 1 < count then .error .malformed
  else
    let (significand, taken) := gather 0 0 digits
    match rest with
    | '.' :: rest => fractionRest significand (count - taken) (count + 1) rest
    | _ =>
      match rest with
      | 'e' :: _ | 'E' :: _ => exponentOrEnd significand (count - taken) count rest
      | _ =>
        if taken < count then scaled significand (count - taken) count
        else if negative && significand = 0 then .ok (.float, count)
        else .ok (.int (if negative then -significand else significand), count)

/-- A number. -/
def number (text : List Char) : Except Problem (Number × Nat) :=
  match text with
  | '-' :: rest => (unsignedNumber true rest).map fun (n, count) => (n, count + 1)
  | _ => unsignedNumber false text

/-- A number whose value does not matter. If it breaks off, it is malformed. -/
def skipNumber (text : List Char) : Except Problem Nat :=
  let unsigned := if text.head? = some '-' then text.drop 1 else text
  let digits := unsigned.takeWhile isDigit
  if digits.isEmpty || (digits.head? = some '0' && 1 < digits.length) then .error .malformed
  else do
    let rest ← fraction (unsigned.drop digits.length)
    let rest ← exponent rest
    pure (text.length - rest.length)
where
  fraction : List Char → Except Problem (List Char)
    | '.' :: rest =>
      if (rest.takeWhile isDigit).isEmpty then .error .malformed else .ok (rest.dropWhile isDigit)
    | rest => .ok rest
  exponent : List Char → Except Problem (List Char)
    | c :: rest =>
      if c = 'e' || c = 'E' then
        let unsigned :=
          if rest.head? = some '+' || rest.head? = some '-' then rest.drop 1 else rest
        if (unsigned.takeWhile isDigit).isEmpty then .error .malformed
        else .ok (unsigned.dropWhile isDigit)
      else .ok (c :: rest)
    | [] => .ok []

end IrOptimizer.Json
