import IrOptimizer.Generic.Scanner

/-!
# What scanners read

A scanner answers a result and a log of attempts. What it reads does not depend
on any log, so the results can be followed on their own: `reads p s` is what `p`
makes of the text `s`, together with the text it leaves.

Each combinator has one equation in these terms (`reads_bind`, `reads_orElse`,
`reads_many`, …); with them no proof about a rule of the grammar needs to open a
combinator, a cursor or a log.
-/

namespace IrOptimizer.Generic.Scanner

open Text

variable {α β : Type}

/-- What a scanner makes of a text, and what it leaves of it. -/
def reads (p : Scanner α) (s : List Char) : Option (α × List Char) :=
  (p (.ofList s)).read?.map fun (a, d) => (a, d.rest)

/-- A cursor is given by its unread text. -/
theorem ofList_rest (c : Cursor) : Cursor.ofList c.rest = c := Cursor.ext rfl

/-- What a scanner reads is what it does at a cursor, apart from the log and the places. -/
theorem reads_rest (p : Scanner α) (c : Cursor) :
    p.reads c.rest = (p c).read?.map fun (a, d) => (a, d.rest) := by
  rw [reads, ofList_rest]

@[simp] theorem reads_pure (a : α) (s : List Char) : (pure a : Scanner α).reads s = some (a, s) :=
  rfl

@[simp] theorem reads_here (s : List Char) : here.reads s = some (s.length, s) := rfl

/-- Scanners in a row read one behind the other. -/
@[simp] theorem reads_bind (p : Scanner α) (f : α → Scanner β) (s : List Char) :
    (p >>= f).reads s = (p.reads s).bind fun (a, r) => (f a).reads r := by
  show (Scanner.bind p f (.ofList s)).read?.map _ = _
  unfold Scanner.bind
  rw [reads]
  obtain ⟨result, attempts⟩ := p (.ofList s)
  cases result with
  | none => rfl
  | some found => exact (reads_rest (f found.1) found.2).symm

theorem reads_bind_of_some {p : Scanner α} {f : α → Scanner β} {s r : List Char} {a : α}
    (h : p.reads s = some (a, r)) : (p >>= f).reads s = (f a).reads r := by
  rw [reads_bind, h]
  rfl

theorem reads_bind_of_none {p : Scanner α} {f : α → Scanner β} {s : List Char}
    (h : p.reads s = none) : (p >>= f).reads s = none := by
  rw [reads_bind, h]
  rfl

/-- What is made of an answer does not change how far is read. -/
@[simp] theorem reads_map (f : α → β) (p : Scanner α) (s : List Char) :
    (f <$> p).reads s = (p.reads s).map fun (a, r) => (f a, r) := by
  show (p >>= fun a => pure (f a)).reads s = _
  rw [reads_bind]
  cases p.reads s <;> rfl

/-- The second alternative is tried at the same text, if the first fails. -/
@[simp] theorem reads_orElse (p q : Scanner α) (s : List Char) :
    (orElse p q).reads s = (p.reads s).or (q.reads s) := by
  show (orElse p q (.ofList s)).read?.map _ = _
  unfold orElse
  rw [reads, reads]
  obtain ⟨result, attempts⟩ := p (.ofList s)
  cases result <;> rfl

/-- What is optional and missing reads nothing. -/
@[simp] theorem reads_optional (p : Scanner α) (s : List Char) :
    (optional p).reads s =
      ((p.reads s).map fun (a, r) => (some a, r)).or (some (none, s)) := by
  rw [optional, reads_orElse, reads_map, reads_pure]

/-- A rule only gives a name to what it reads. -/
@[simp] theorem reads_rule (name : Rule) (p : Scanner α) (s : List Char) :
    (rule name p).reads s = p.reads s := by
  show (rule name p (.ofList s)).read?.map _ = _
  unfold rule
  rw [reads]
  obtain ⟨result, attempts⟩ := p (.ofList s)
  cases result <;> rfl

/-- A run reads the characters that it finds. -/
@[simp] theorem reads_run (find : List Char → Option (List Char × α)) (s : List Char) :
    (run find).reads s = (find s).map fun (taken, a) => (a, s.drop taken.length) := by
  show (run find (.ofList s)).read?.map _ = _
  unfold run
  rw [Cursor.rest_ofList]
  cases find s <;> rfl

theorem reads_run_of_some {find : List Char → Option (List Char × α)} {s taken : List Char} {a : α}
    (h : find s = some (taken, a)) : (run find).reads s = some (a, s.drop taken.length) := by
  rw [reads_run, h]
  rfl

/-- A character is read just where it comes next. -/
theorem reads_char_eq_some_iff {ch : Char} {s : List Char} {u : Unit} {r : List Char} :
    (char ch).reads s = some (u, r) ↔ s = ch :: r := by
  rw [char, reads_run]
  cases s with
  | nil => simp
  | cons c cs =>
    by_cases h : c = ch
    · simp [h]
    · simp [h]

@[simp] theorem reads_char_cons (ch : Char) (s : List Char) :
    (char ch).reads (ch :: s) = some ((), s) :=
  reads_char_eq_some_iff.mpr rfl

/-- Where another character comes next, it is not read. -/
theorem reads_char_eq_none {ch : Char} {s : List Char} (h : s.head? ≠ some ch) :
    (char ch).reads s = none := by
  rw [char, reads_run, if_neg h]
  rfl

/-- A repetition stops where its scanner does not apply, and behind a step that
reads nothing. -/
theorem reads_many (p : Scanner α) (s : List Char) :
    (many p).reads s =
      match p.reads s with
      | none => some ([], s)
      | some (a, r) =>
        if r.length < s.length then ((many p).reads r).map fun (as, e) => (a :: as, e)
        else some ([a], r) := by
  show (many p (.ofList s)).read?.map _ = _
  rw [many, reads]
  obtain ⟨result, attempts⟩ := p (.ofList s)
  cases result with
  | none => rfl
  | some found =>
    obtain ⟨a, d⟩ := found
    simp only [Option.map_some]
    rw [show (Cursor.ofList s).remaining = s.length from rfl, d.remaining_eq]
    split
    · rw [reads_rest]
      cases (many p d).read? <;> rfl
    · rfl

/-- A repetition ends where its item cannot be read. -/
theorem reads_many_nil {p : Scanner α} {s : List Char} (h : p.reads s = none) :
    (many p).reads s = some ([], s) := by
  rw [reads_many, h]

/-- A repetition goes on behind an item that has read something. -/
theorem reads_many_cons {p : Scanner α} {s r e : List Char} {a : α} {as : List α}
    (h : p.reads s = some (a, r)) (hlt : r.length < s.length)
    (hrest : (many p).reads r = some (as, e)) : (many p).reads s = some (a :: as, e) := by
  rw [reads_many, h]
  dsimp only
  rw [if_pos hlt, hrest]
  rfl

/-- A repetition of a scanner that always takes something is built from its steps. -/
theorem reads_many_induction {p : Scanner α} {motive : List Char → List α → List Char → Prop}
    (progress : ∀ {s a r}, p.reads s = some (a, r) → r.length < s.length)
    (nil : ∀ {s}, p.reads s = none → motive s [] s)
    (cons : ∀ {s a r as e}, p.reads s = some (a, r) → motive r as e → motive s (a :: as) e)
    {s : List Char} {as : List α} {e : List Char} (h : (many p).reads s = some (as, e)) :
    motive s as e := by
  -- the induction is on how much of the text is left
  induction hn : s.length using Nat.strongRecOn generalizing s as with
  | ind n ih =>
    rw [reads_many] at h
    cases hp : p.reads s with
    | none =>
      rw [hp] at h
      simp only [Option.some.injEq, Prod.mk.injEq] at h
      obtain ⟨rfl, rfl⟩ := h
      exact nil hp
    | some found =>
      obtain ⟨a, r⟩ := found
      have hlt := progress hp
      rw [hp] at h
      dsimp only at h
      rw [if_pos hlt] at h
      obtain ⟨⟨rest, e'⟩, hrest, heq⟩ := Option.map_eq_some_iff.mp h
      simp only [Prod.mk.injEq] at heq
      obtain ⟨rfl, rfl⟩ := heq
      exact cons hp (ih r.length (hn ▸ hlt) hrest rfl)

end IrOptimizer.Generic.Scanner
