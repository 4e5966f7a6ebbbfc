/-!
# Streams and sinks

A stream yields bytes and then ends or breaks off. Reading it is a step that
answers the text and takes all its bytes; what is done without that step takes
none (`Taking`). A sink accepts bytes up to a limit. It takes part of a write that
does not fit, so a text is written in as many writes as that needs; once the sink
is full, they fail.
-/

namespace IrOptimizer

/-- An answer, and how many bytes were taken from an input for it. -/
structure Taking (α : Type) where
  answer : α
  taken : Nat

/-- What is answered at once takes nothing, and steps in a row take what each of
them takes. -/
instance : Monad Taking where
  pure answer := ⟨answer, 0⟩
  bind step next := ⟨(next step.answer).answer, step.taken + (next step.answer).taken⟩

/-- The complaint about bytes that are no text. -/
def notTextReason : String := "stream did not contain valid UTF-8"

/-- The bytes that an input yields, and why it breaks off behind them, if it does. -/
structure Stream where
  bytes : ByteArray
  failure : Option String

namespace Stream

/-- The stream of a text. -/
def ofText (text : String) : Stream := ⟨text.toUTF8, none⟩

/-- The whole text, or the reason why there is none. Only a stream that was read
to its end is judged as text. -/
def text (s : Stream) : Except String String :=
  match s.failure with
  | some reason => .error reason
  | none =>
    match String.fromUTF8? s.bytes with
    | some text => .ok text
    | none => .error notTextReason

/-- Reads the stream to where it ends or breaks off, for its text. -/
def read (s : Stream) : Taking (Except String String) := ⟨s.text, s.bytes.size⟩

end Stream

/-- An output that counts what it has accepted. -/
structure Sink where
  /-- How many bytes fit, if that is limited. -/
  limit : Option Nat
  /-- What a full sink answers to a write; without it, that it accepts no byte. -/
  fullReason : Option String
  /-- What the sink answers to a flush, if it refuses. -/
  flushReason : Option String
  written : ByteArray
  flushes : Nat

namespace Sink

/-- The complaint about a write of which no byte is accepted. -/
def incompleteReason : String := "failed to write whole buffer"

/-- An empty sink. -/
def empty (limit : Option Nat) (fullReason flushReason : Option String) : Sink :=
  ⟨limit, fullReason, flushReason, .empty, 0⟩

/-- How many of so many bytes still fit. -/
def fitting (s : Sink) (size : Nat) : Nat :=
  match s.limit with
  | none => size
  | some limit => min size (limit - s.written.size)

/-- One write. The bytes that fit are accepted, and the answer is how many these are. A
full sink refuses, or accepts none. -/
def write (s : Sink) (bytes : ByteArray) : Sink × Except String Nat :=
  let accepted := s.fitting bytes.size
  if accepted = 0 ∧ 0 < bytes.size then
    (s, match s.fullReason with
      | some reason => .error reason
      | none => .ok 0)
  else ({ s with written := s.written ++ bytes.extract 0 accepted }, .ok accepted)

/-- Writes all bytes, what one write leaves by the next. It fails if a write fails or
accepts nothing. -/
def writeAll (s : Sink) (bytes : ByteArray) : Sink × Except String Unit :=
  if _hsize : bytes.size = 0 then (s, .ok ())
  else
    match s.write bytes with
    | (s, .error reason) => (s, .error reason)
    | (s, .ok 0) => (s, .error incompleteReason)
    | (s, .ok (n + 1)) => s.writeAll (bytes.extract (n + 1) bytes.size)
termination_by bytes.size
decreasing_by
  rw [ByteArray.size_extract]
  omega

def flush (s : Sink) : Sink × Except String Unit :=
  ({ s with flushes := s.flushes + 1 },
    match s.flushReason with
    | none => .ok ()
    | some reason => .error reason)

/-- Writes a text and flushes. Nothing is flushed if the write fails. -/
def writeText (s : Sink) (text : String) : Sink × Except String Unit :=
  match s.writeAll text.toUTF8 with
  | (s, .error reason) => (s, .error reason)
  | (s, .ok ()) => s.flush

end Sink

end IrOptimizer
