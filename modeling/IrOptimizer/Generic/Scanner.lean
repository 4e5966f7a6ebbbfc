import IrOptimizer.Generic.Rule
import IrOptimizer.Text.Cursor

/-!
# The generic form: scanners

A scanner reads at a cursor. It answers what it read together with the cursor
behind it, or nothing if it does not apply there; and, in both cases, the
attempts that failed on the way: the furthest place at which rules were tried in
vain, and which rules these were.

Attempts form a log that is only ever added to (`Attempts.merge`), also by
alternatives that are given up later. Choice is ordered, repetition takes as
much as it can, and neither is ever revised.
-/

namespace IrOptimizer.Generic

open Text

/-- Rules tried in vain at the furthest place where any were; the place is given
by how many characters remain behind it. Nothing was tried if there is no rule. -/
structure Attempts where
  remaining : Nat
  rules : List Rule

namespace Attempts

/-- The log of a reader that met no obstacle. -/
def none : Attempts := ⟨0, []⟩

/-- The furthest of two logs; at the same place, the rules of both. -/
def merge (a b : Attempts) : Attempts :=
  if a.rules.isEmpty then b
  else if b.rules.isEmpty then a
  else if a.remaining < b.remaining then a
  else if b.remaining < a.remaining then b
  else ⟨a.remaining, a.rules ++ b.rules⟩

/-- The log of a rule that failed at a cursor, given the log of its parts. The
rule stands for what was tried at its own first character, unless that was a
single rule, which says more. -/
def fail (parts : Attempts) (rule : Rule) (c : Cursor) : Attempts :=
  if parts.rules.isEmpty then ⟨c.remaining, [rule]⟩
  else if parts.remaining < c.remaining then parts
  else if parts.rules.length = 1 then parts
  else ⟨c.remaining, [rule]⟩

end Attempts

/-- What a scanner answers. -/
structure Outcome (α : Type) where
  read? : Option (α × Cursor)
  attempts : Attempts

/-- A reader of one part of the grammar. -/
def Scanner (α : Type) := Cursor → Outcome α

namespace Scanner

variable {α β : Type}

/-- Reads nothing. -/
protected def pure (a : α) : Scanner α := fun c => ⟨some (a, c), .none⟩

/-- One scanner after the other. -/
protected def bind (p : Scanner α) (f : α → Scanner β) : Scanner β := fun c =>
  match p c with
  | ⟨none, attempts⟩ => ⟨none, attempts⟩
  | ⟨some (a, d), attempts⟩ =>
    let next := f a d
    ⟨next.read?, attempts.merge next.attempts⟩

instance : Monad Scanner where
  pure := Scanner.pure
  bind := Scanner.bind

/-- The first scanner if it applies, otherwise the second at the same cursor. -/
def orElse (p : Scanner α) (q : Scanner α) : Scanner α := fun c =>
  match p c with
  | ⟨some r, attempts⟩ => ⟨some r, attempts⟩
  | ⟨none, attempts⟩ =>
    let next := q c
    ⟨next.read?, attempts.merge next.attempts⟩

/-- What the scanner reads, or nothing and no step if it does not apply. -/
def optional (p : Scanner α) : Scanner (Option α) :=
  orElse (some <$> p) (pure none)

/-- Reads a run that is found at the start of what is left, together with its
meaning; rules are not noted inside a run. -/
def run (find : List Char → Option (List Char × α)) : Scanner α := fun c =>
  match find c.rest with
  | some (taken, a) => ⟨some (a, c.skip taken.length), .none⟩
  | none => ⟨none, .none⟩

/-- Reads one given character. -/
def char (ch : Char) : Scanner Unit :=
  run fun text => if text.head? = some ch then some ([ch], ()) else none

/-- How many characters are left; the cursor stays. -/
def here : Scanner Nat := fun c => ⟨some (c.remaining, c), .none⟩

/-- A named rule: if its parts do not apply, the failure is noted. -/
def rule (name : Rule) (p : Scanner α) : Scanner α := fun c =>
  match p c with
  | ⟨some r, attempts⟩ => ⟨some r, attempts⟩
  | ⟨none, attempts⟩ => ⟨none, attempts.fail name c⟩

/-- Applies a scanner as often as it applies. A scanner that reads nothing is
applied once. -/
def many (p : Scanner α) : Scanner (List α) := fun c =>
  match p c with
  | ⟨none, attempts⟩ => ⟨some ([], c), attempts⟩
  | ⟨some (a, d), attempts⟩ =>
    if d.remaining < c.remaining then
      let next := many p d
      ⟨next.read?.map fun (as, e) => (a :: as, e), attempts.merge next.attempts⟩
    else ⟨some ([a], d), attempts⟩
termination_by c => c.remaining

end Scanner

end IrOptimizer.Generic
