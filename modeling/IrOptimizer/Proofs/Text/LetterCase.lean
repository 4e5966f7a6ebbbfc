import IrOptimizer.Text.Blank
import IrOptimizer.Text.LetterCase

/-!
# What lowering leaves

A character that is put in lower case is either left as it is or replaced. What it is replaced
with stays under lowering, is no capital and is no separator of words (`Lowered`). So a capital
in a lowered text is one without a lowercase form; there are such, the mathematical letters
among them.

The tables are compared run by run and not character by character: what a run is shifted to is
a run again (`Shift.image`), and that two runs have no code point in common is seen from their
ends, or from the parity if both take every second one (`Span.apart`).
-/

namespace IrOptimizer.Text

namespace LetterCase

/-! ## Runs -/

theorem Span.contains_iff {s : Span} {n : Nat} :
    s.contains n = true ↔ s.first ≤ n ∧ n ≤ s.last ∧ (n - s.first) % s.step = 0 := by
  simp only [contains, Bool.and_eq_true, decide_eq_true_eq, and_assoc]

/-- Whether two runs lie beside each other, or take turns. -/
def Span.apart (a b : Span) : Bool :=
  Nat.blt a.last b.first || Nat.blt b.last a.first ||
    (a.step == 2 && b.step == 2 && (a.first + b.first) % 2 == 1)

/-- Runs that are apart share no code point. -/
theorem Span.not_contains_of_apart {a b : Span} (h : a.apart b = true) {n : Nat}
    (hn : a.contains n = true) : b.contains n = false := by
  cases hb : b.contains n with
  | false => rfl
  | true =>
    obtain ⟨ha, ha', hastep⟩ := contains_iff.mp hn
    obtain ⟨hb, hb', hbstep⟩ := contains_iff.mp hb
    simp only [Span.apart, Nat.blt_eq, Bool.or_eq_true, Bool.and_eq_true, beq_iff_eq] at h
    rcases h with (h | h) | ⟨⟨hs, ht⟩, hparity⟩
    · omega
    · omega
    · rw [hs] at hastep
      rw [ht] at hbstep
      omega

/-- The run of the partners. One code point alone may as well be every second. -/
def Shift.image (s : Shift) : Span :=
  ⟨(s.first + s.distance).toNat, (s.last + s.distance).toNat,
    if s.first = s.last then 2 else s.step⟩

/-- A shift that leads to no negative number and takes every code point or every second. -/
def Shift.proper (s : Shift) : Bool :=
  decide (0 ≤ s.first + s.distance) && (s.step == 1 || s.step == 2)

/-- A partner is in the run of the partners. -/
theorem Shift.image_contains {s : Shift} (hs : s.proper = true) {n m : Nat}
    (h : s.partner? n = some m) : s.image.contains m = true := by
  unfold partner? at h
  split at h
  · next hn =>
    obtain ⟨hfirst, hlast, hstep⟩ := hn
    have hm : (n + s.distance).toNat = m := Option.some.inj h
    simp only [Shift.proper, Bool.and_eq_true, decide_eq_true_eq, Bool.or_eq_true, beq_iff_eq] at hs
    obtain ⟨hpos, hsteps⟩ := hs
    apply Span.contains_iff.mpr
    show (s.first + s.distance).toNat ≤ m ∧ m ≤ (s.last + s.distance).toNat ∧
      (m - (s.first + s.distance).toNat) % (if s.first = s.last then 2 else s.step) = 0
    refine ⟨by omega, by omega, ?_⟩
    by_cases hone : s.first = s.last
    · rw [if_pos hone]
      omega
    · rw [if_neg hone]
      rcases hsteps with h1 | h2
      · rw [h1]
        omega
      · rw [h2] at hstep ⊢
        omega
  · cases h

/-! ## The tables -/

/-- Code points of the blanks, the hyphen and the underscore. -/
def separatorSpans : List Span :=
  [⟨0x09, 0x0D, 1⟩, ⟨0x20, 0x20, 1⟩, ⟨0x2D, 0x2D, 1⟩, ⟨0x5F, 0x5F, 1⟩, ⟨0x85, 0x85, 1⟩,
    ⟨0xA0, 0xA0, 1⟩, ⟨0x1680, 0x1680, 1⟩, ⟨0x2000, 0x200A, 1⟩, ⟨0x2028, 0x2029, 1⟩,
    ⟨0x202F, 0x202F, 1⟩, ⟨0x205F, 0x205F, 1⟩, ⟨0x3000, 0x3000, 1⟩]

/-- What no partner is: a separator, a capital, or a character that is replaced itself. -/
def avoidedSpans : List Span :=
  ⟨0x130, 0x130, 1⟩ :: (separatorSpans ++ uppercaseSpans ++
    lowercaseShifts.map fun s => ⟨s.first, s.last, s.step⟩)

/-- All shifts of the table are proper. -/
theorem shifts_proper : lowercaseShifts.all Shift.proper = true := by
  decide +kernel

/-- In the table no partner is in a run that partners avoid. -/
theorem images_apart :
    (lowercaseShifts.all fun s => avoidedSpans.all fun u => s.image.apart u) = true := by
  decide +kernel

end LetterCase

open LetterCase

/-- Whether a character is in no run that partners avoid. -/
def avoided (c : Char) : Bool := avoidedSpans.all fun u => !u.contains c.toNat

theorem avoided.not_contains {c : Char} (h : avoided c = true) {u : Span}
    (hu : u ∈ avoidedSpans) : ¬ u.contains c.toNat = true := by
  simpa using List.all_eq_true.mp h u hu

/-- A partner is no character that partners avoid. A number that is no character stands for the
null character, and neither is that. -/
theorem avoided_partner {n m : Nat} (h : lowercaseShifts.findSome? (·.partner? n) = some m) :
    avoided (Char.ofNat m) = true := by
  obtain ⟨s, hs, hm⟩ := List.exists_of_findSome?_eq_some h
  have himage := Shift.image_contains (List.all_eq_true.mp shifts_proper s hs) hm
  by_cases hvalid : m.isValidChar
  · refine List.all_eq_true.mpr fun u hu => ?_
    have hapart := List.all_eq_true.mp (List.all_eq_true.mp images_apart s hs) u hu
    have hchar : (Char.ofNat m).toNat = m := by
      rw [Char.ofNat, dif_pos hvalid]
      rfl
    rw [hchar, Span.not_contains_of_apart hapart himage]
    rfl
  · rw [Char.ofNat, dif_neg hvalid]
    decide +kernel

/-! ## Lowering -/

/-- What may stand in place of another character that has been put in lower case. -/
structure Lowered (c : Char) : Prop where
  lowercase_eq : lowercase c = [c]
  not_isUppercase : isUppercase c = false
  not_isBlank : isBlank c = false
  not_hyphen : c ≠ '-'
  not_underscore : c ≠ '_'

/-- A character outside the avoided runs is its own lower case. -/
theorem lowercase_of_avoided {c : Char} (h : avoided c = true) : lowercase c = [c] := by
  have hdotted : c ≠ '\u0130' := by
    intro heq
    subst heq
    exact avoided.not_contains h (u := ⟨0x130, 0x130, 1⟩) (List.mem_cons_self ..) (by decide)
  have hnone : lowercaseShifts.findSome? (·.partner? c.toNat) = none := by
    apply List.findSome?_eq_none_iff.mpr
    intro s hs
    have hspan : (⟨s.first, s.last, s.step⟩ : Span) ∈ avoidedSpans :=
      List.mem_cons_of_mem _ (List.mem_append_right _ (List.mem_map.mpr ⟨s, hs, rfl⟩))
    have hout := avoided.not_contains h hspan
    rw [Span.contains_iff] at hout
    exact if_neg hout
  rw [lowercase, if_neg hdotted, hnone]
  rfl

/-- A character outside the avoided runs is no capital. -/
theorem not_isUppercase_of_avoided {c : Char} (h : avoided c = true) : isUppercase c = false := by
  apply List.any_eq_false.mpr
  intro u hu
  exact avoided.not_contains h
    (List.mem_cons_of_mem _ (List.mem_append_left _ (List.mem_append_right _ hu)))

/-- A character outside the avoided runs may stand in place of one that has been put in lower
case. -/
theorem lowered_of_avoided {c : Char} (h : avoided c = true) : Lowered c := by
  have hout : ∀ u ∈ separatorSpans, ¬ u.contains c.toNat = true := fun u hu =>
    avoided.not_contains h
      (List.mem_cons_of_mem _ (List.mem_append_left _ (List.mem_append_left _ hu)))
  simp only [separatorSpans, List.forall_mem_cons, Span.contains_iff, Nat.mod_one, and_true] at hout
  refine ⟨lowercase_of_avoided h, not_isUppercase_of_avoided h, ?_, ?_, ?_⟩
  · simp only [isBlank, Bool.or_eq_false_iff, Bool.and_eq_false_iff, decide_eq_false_iff_not]
    omega
  · intro heq
    subst heq
    exact hout.2.2.1 (by decide)
  · intro heq
    subst heq
    exact hout.2.2.2.1 (by decide)

/-- Lowering leaves a character or puts others in its place. -/
theorem mem_lowercase {c d : Char} (h : d ∈ lowercase c) :
    (d = c ∧ lowercase c = [c]) ∨ Lowered d := by
  unfold lowercase at h ⊢
  by_cases hdotted : c = '\u0130'
  · rw [if_pos hdotted] at h
    rcases List.mem_cons.mp h with rfl | h
    · exact .inr (lowered_of_avoided (by decide +kernel))
    · rw [List.mem_singleton.mp h]
      exact .inr (lowered_of_avoided (by decide +kernel))
  · rw [if_neg hdotted] at h ⊢
    cases hpartner : lowercaseShifts.findSome? (·.partner? c.toNat) with
    | none =>
      rw [hpartner] at h
      exact .inl ⟨List.mem_singleton.mp h, rfl⟩
    | some m =>
      rw [hpartner] at h
      rw [List.mem_singleton.mp h]
      exact .inr (lowered_of_avoided (avoided_partner hpartner))

/-- No character disappears in lowering. -/
theorem lowercase_ne_nil (c : Char) : lowercase c ≠ [] := by
  unfold lowercase
  split
  · exact List.cons_ne_nil _ _
  · exact List.cons_ne_nil _ _

/-- What has been put in lower case stays under lowering. -/
theorem lowercase_of_mem_lowercase {c d : Char} (h : d ∈ lowercase c) : lowercase d = [d] := by
  rcases mem_lowercase h with ⟨rfl, hc⟩ | hd
  · exact hc
  · exact hd.lowercase_eq

end IrOptimizer.Text
