import IrOptimizer.Proofs.Generic.Lexical

/-!
# What scanners note

The counterpart of `reads`: of the log that a scanner leaves, here follows only of which places
it can tell. `p.Notes V s` says that the place in the log of `p` at the text `s`, if there is
one, is a place of which `V` holds; a place is given by how many characters remain behind it.

Logs are only merged, and a rule that fails notes the place where it was tried, so each
combinator keeps such a property: what has to be shown of a sequence is shown of its parts,
each at the text that the parts before it leave (`notes_bind`), and of a repetition it is enough
that an invariant of the text is kept by its steps (`notes_many`).
-/

namespace IrOptimizer.Generic

open Text

/-- If the log tells a place, then one of which `V` holds. -/
def Attempts.Only (V : Nat → Prop) (a : Attempts) : Prop := a.rules = [] ∨ V a.remaining

namespace Attempts

variable {V : Nat → Prop} {a b : Attempts}

theorem only_none : Attempts.none.Only V := .inl rfl

theorem Only.of_ne_nil (h : a.Only V) (hrules : a.rules ≠ []) : V a.remaining :=
  h.resolve_left hrules

/-- Two logs that are merged tell only places that one of them told. -/
theorem Only.merge (ha : a.Only V) (hb : b.Only V) : (a.merge b).Only V := by
  unfold Attempts.merge
  split
  · exact hb
  · next hempty =>
    have hplace : V a.remaining := ha.of_ne_nil fun h => hempty (List.isEmpty_iff.mpr h)
    split
    · exact ha
    · split
      · exact ha
      · split
        · exact hb
        · exact .inr hplace

/-- A rule that fails adds no place but its own. -/
theorem Only.fail (ha : a.Only V) {c : Cursor} (hc : V c.remaining) (name : Rule) :
    (a.fail name c).Only V := by
  unfold Attempts.fail
  split
  · exact .inr hc
  · split
    · exact ha
    · split
      · exact ha
      · exact .inr hc

/-- A failure that is noted leaves no empty log. -/
theorem rules_fail_ne_nil (a : Attempts) (name : Rule) (c : Cursor) :
    (a.fail name c).rules ≠ [] := by
  unfold Attempts.fail
  split
  · exact List.cons_ne_nil _ _
  · next hempty =>
    have hrules : a.rules ≠ [] := fun h => hempty (List.isEmpty_iff.mpr h)
    split
    · exact hrules
    · split
      · exact hrules
      · exact List.cons_ne_nil _ _

end Attempts

namespace Scanner

variable {α β : Type} {V : Nat → Prop} {p q : Scanner α} {s : List Char}

/-- The log of a scanner at a text tells no place but such of which `V` holds. -/
def Notes (V : Nat → Prop) (p : Scanner α) (s : List Char) : Prop :=
  (p (.ofList s)).attempts.Only V

theorem notes_mono {V' : Nat → Prop} (h : p.Notes V s) (hle : ∀ k, V k → V' k) :
    p.Notes V' s := h.imp_right (hle _)

/-- What reads nothing notes nothing. -/
theorem notes_pure (a : α) : (pure a : Scanner α).Notes V s := Attempts.only_none

/-- A run is no rule, and notes nothing even where it fails. -/
theorem notes_run {find : List Char → Option (List Char × α)} : (run find).Notes V s := by
  unfold Notes run
  split
  · exact Attempts.only_none
  · exact Attempts.only_none

/-- A sequence notes what its first part notes and, behind what that reads, what the second
notes. -/
theorem notes_bind {f : α → Scanner β} (hp : p.Notes V s)
    (hf : ∀ a r, p.reads s = some (a, r) → (f a).Notes V r) : (p >>= f).Notes V s := by
  show (Scanner.bind p f (.ofList s)).attempts.Only V
  unfold Scanner.bind
  unfold Notes at hp
  unfold reads at hf
  generalize p (.ofList s) = outcome at hp hf ⊢
  obtain ⟨result, attempts⟩ := outcome
  cases result with
  | none => exact hp
  | some found =>
    obtain ⟨a, d⟩ := found
    have hnext := hf a d.rest rfl
    rw [Notes, ofList_rest] at hnext
    exact hp.merge hnext

theorem notes_map {f : α → β} (hp : p.Notes V s) : (f <$> p).Notes V s :=
  notes_bind hp fun _ _ _ => notes_pure _

/-- The second alternative has its say only where the first fails. -/
theorem notes_orElse (hp : p.Notes V s) (hq : p.reads s = none → q.Notes V s) :
    (orElse p q).Notes V s := by
  show (orElse p q (.ofList s)).attempts.Only V
  unfold orElse
  unfold Notes at hp
  unfold reads at hq
  generalize p (.ofList s) = outcome at hp hq ⊢
  obtain ⟨result, attempts⟩ := outcome
  cases result with
  | none => exact hp.merge (hq rfl)
  | some found => exact hp

theorem notes_optional (hp : p.Notes V s) : (optional p).Notes V s :=
  notes_orElse (notes_map hp) fun _ => notes_pure _

/-- A rule that fails notes the place where it was tried, or keeps the log of its parts. -/
theorem notes_rule {name : Rule} (hp : p.Notes V s) (hs : V s.length) :
    (rule name p).Notes V s := by
  show (rule name p (.ofList s)).attempts.Only V
  unfold rule
  unfold Notes at hp
  generalize p (.ofList s) = outcome at hp ⊢
  obtain ⟨result, attempts⟩ := outcome
  cases result with
  | none => exact hp.fail (c := .ofList s) hs name
  | some found => exact hp

/-- A rule that fails leaves no empty log. -/
theorem rules_ne_nil_of_rule {name : Rule} {c : Cursor} (h : (rule name p c).read? = none) :
    (rule name p c).attempts.rules ≠ [] := by
  unfold rule at h ⊢
  generalize p c = outcome at h ⊢
  obtain ⟨result, attempts⟩ := outcome
  cases result with
  | none => exact attempts.rules_fail_ne_nil name c
  | some found => cases h

/-- A repetition notes what its steps note, at texts of which an invariant holds. -/
theorem notes_many {I : List Char → Prop} (hp : ∀ s, I s → p.Notes V s)
    (hstep : ∀ s a r, I s → p.reads s = some (a, r) → I r) (hs : I s) : (many p).Notes V s := by
  -- the induction is on how much of the text is left
  induction hn : s.length using Nat.strongRecOn generalizing s with
  | ind n ih =>
    have hfirst := hp s hs
    have hnext := fun a r => hstep s a r hs
    show (many p (.ofList s)).attempts.Only V
    rw [many]
    unfold Notes at hfirst
    unfold reads at hnext
    generalize p (.ofList s) = outcome at hfirst hnext ⊢
    obtain ⟨result, attempts⟩ := outcome
    cases result with
    | none => exact hfirst
    | some found =>
      obtain ⟨a, d⟩ := found
      dsimp only
      split
      · next hshorter =>
        rw [d.remaining_eq] at hshorter
        have hrest := ih d.rest.length (hn ▸ hshorter) (hnext a d.rest rfl) rfl
        rw [Notes, ofList_rest] at hrest
        exact hfirst.merge hrest
      · exact hfirst

/-! ## Sequences -/

section

variable {f : Unit → Scanner β}

/-- A gap notes nothing, and what follows is tried behind all of it. -/
theorem notes_gap_bind (h : (f ()).Notes V (afterGap s)) : (gap >>= f).Notes V s := by
  refine notes_bind notes_run fun u r hread => ?_
  rw [reads_gap] at hread
  cases hread
  exact h

/-- What stands behind a character is tried only if the character is there. -/
theorem notes_char_bind {ch : Char} (h : ∀ r, s = ch :: r → (f ()).Notes V r) :
    (char ch >>= f).Notes V s :=
  notes_bind notes_run fun _ r hread => h r (reads_char_eq_some_iff.mp hread)

end

theorem notes_here_bind {f : Nat → Scanner β} (h : (f s.length).Notes V s) :
    (here >>= f).Notes V s := by
  refine notes_bind Attempts.only_none fun n r hread => ?_
  rw [reads_here] at hread
  cases hread
  exact h

end Scanner

end IrOptimizer.Generic
