import IrOptimizer.Proofs.Generic.Acceptance

/-!
# Where regions open

`Openings` reads a list of operations like `Operations` does, without a bound on its levels,
and lists the parentheses that open regions on the way, in the order of the text, with how many
regions are open behind each. `Derivation` does so for a whole text. The grammar alone, with as
many levels as there are characters, derives what can be derived at all
(`grammar_eq_some_iff`).

Counting parentheses finds the first of these that is a level too many: operations in which
there is none are passed over, and otherwise the count stops at just that parenthesis
(`Openings.counted`), which is not the end of any phrase, so what the count says there is a
relation of its own (`StopsAt`).
-/

namespace IrOptimizer.Generic

open Text Phrase Scanner

/-- A parenthesis that opens a region: how many regions are open then, this one included, and
how many characters remain, the parenthesis included. -/
structure Opening where
  level : Nat
  remaining : Nat

theorem Counts.length_le {d d' : Nat} {s r : List Char} (h : Counts d d' s r) :
    r.length ≤ s.length := by
  obtain ⟨u, rfl, _⟩ := h
  exact (List.suffix_append u r).length_le

namespace Phrase

/-- Operations inside so many regions, with the parentheses that open regions in them. -/
inductive Openings : Nat → List Char → List Char → List WrittenOperation → List Opening → Prop where
  | nil {d s} : Openings d s s [] []
  | leaf {d s s₁ s₂ r name as ops l} : Head s s₁ name as → Gap s₁ s₂ → Openings d s₂ r ops l →
      Openings d s r (⟨name, as, []⟩ :: ops) l
  | node {d s s₁ s₂ s₃ s₄ s₅ r name as children ops l l'} : Head s s₁ name as →
      Gap s₁ ('(' :: s₂) → Gap s₂ s₃ → Openings (d + 1) s₃ (')' :: s₄) children l → Gap s₄ s₅ →
      Openings d s₅ r ops l' →
      Openings d s r (⟨name, as, children⟩ :: ops) (⟨d + 1, ('(' :: s₂).length⟩ :: (l ++ l'))

/-- How a whole text is derived, with the parentheses that open regions in it. -/
inductive Derivation : List Char → WrittenModule → List Opening → Prop where
  | declared {s s₁ s₂ s₃ s₄ s₅ s₆ s₇ name ops l} : Gap s s₁ → Keyword s₁ s₂ → Gap s₂ s₃ →
      Symbol s₃ s₄ name → Gap s₄ ('\x7b' :: s₅) → Gap s₅ s₆ →
      Openings 0 s₆ ('\x7d' :: s₇) ops l → Gap s₇ [] → Derivation s ⟨name, ops⟩ l
  | bare {s s₁ s₂ ops l} : ¬ StartsDeclaration s → Gap s s₁ → Openings 0 s₁ s₂ ops l →
      Gap s₂ [] → Derivation s ⟨none, ops⟩ l

/-! ## What can be derived -/

/-- Operations have the openings of their regions. -/
theorem Operations.exists_openings {n : Nat} {s r : List Char} {ops : List WrittenOperation}
    (h : Operations n s r ops) (d : Nat) : ∃ l, Openings d s r ops l := by
  induction h generalizing d with
  | nil => exact ⟨[], .nil⟩
  | leaf hhead hgap _ ih =>
    obtain ⟨l, hl⟩ := ih d
    exact ⟨l, .leaf hhead hgap hl⟩
  | node hhead hopen hin _ hout _ ihc ih =>
    obtain ⟨l, hl⟩ := ihc (d + 1)
    obtain ⟨l', hl'⟩ := ih d
    exact ⟨_, .node hhead hopen hin hl hout hl'⟩

/-- A region takes a character to open, so no text needs more levels than it has characters. -/
theorem Openings.operations {d : Nat} {s r : List Char} {ops : List WrittenOperation}
    {l : List Opening} (h : Openings d s r ops l) : Operations s.length s r ops := by
  induction h with
  | nil => exact .nil
  | leaf hhead hgap _ ih =>
    have hshorter := hhead.length_lt
    have hsuffix := hgap.suffix.length_le
    exact .leaf hhead hgap (ih.mono (by omega))
  | @node d s s₁ s₂ s₃ s₄ s₅ r name as children ops l l' hhead hopen hin _ hout _ ihc ih =>
    have h₁ := hhead.length_lt
    have h₂ := hopen.suffix.length_le
    have h₃ := hin.suffix.length_le
    have h₄ := ihc.length_le
    have h₅ := hout.suffix.length_le
    simp only [List.length_cons] at h₂ h₄
    obtain ⟨n, hn⟩ : ∃ n, s.length = n + 1 := ⟨s.length - 1, by omega⟩
    rw [hn]
    exact .node hhead hopen hin (ihc.mono (by omega)) hout (ih.mono (by omega))

/-- What has a reading with any number of levels is derived, and the other way round. -/
theorem exists_derivation_iff {s : List Char} {w : WrittenModule} :
    (∃ l, Derivation s w l) ↔ Reading s.length s w := by
  constructor
  · rintro ⟨l, h⟩
    cases h with
    | declared hgap hkey hgap' hsym hopen hin hops hend =>
      have hbefore := hgap.suffix.length_le
      have hhead := (counts_declarationHead 0 hkey hgap' hsym hopen hin).length_le
      exact .declared hgap (.mk hkey hgap' hsym hopen hin (hops.operations.mono (by omega))) hend
    | bare hno hgap hops hend =>
      exact .bare hno hgap (hops.operations.mono hgap.suffix.length_le) hend
  · intro h
    cases h with
    | declared hgap hdecl hend =>
      obtain ⟨hkey, hgap', hsym, hopen, hin, hops⟩ := hdecl
      obtain ⟨l, hl⟩ := hops.exists_openings 0
      exact ⟨l, .declared hgap hkey hgap' hsym hopen hin hl hend⟩
    | bare hno hgap hops hend =>
      obtain ⟨l, hl⟩ := hops.exists_openings 0
      exact ⟨l, .bare hno hgap hl hend⟩

/-- No text has more levels than characters. -/
theorem Operations.of_length {n : Nat} {s r : List Char} {ops : List WrittenOperation}
    (h : Operations n s r ops) : Operations s.length s r ops := by
  obtain ⟨l, hl⟩ := h.exists_openings 0
  exact hl.operations

theorem Declaration.of_length {n : Nat} {s r : List Char} {m : WrittenModule}
    (h : Declaration n s r m) : Declaration s.length s r m := by
  obtain ⟨hkey, hgap, hsym, hopen, hin, hops⟩ := h
  have hhead := (counts_declarationHead 0 hkey hgap hsym hopen hin).length_le
  exact .mk hkey hgap hsym hopen hin (hops.of_length.mono hhead)

end Phrase

/-- What the grammar alone makes of a text, with as many levels as there are characters. -/
def grammar (s : List Char) : Outcome WrittenModule := module s.length (.ofList s)

/-- The grammar alone reads what can be derived. -/
theorem grammar_eq_some_iff {s : List Char} {w : WrittenModule} :
    (∃ c, (grammar s).read? = some (w, c)) ↔ ∃ l, Derivation s w l := by
  have hreads : (∃ c, (grammar s).read? = some (w, c)) ↔
      ∃ r, (module s.length).reads s = some (w, r) := by
    rw [reads, ← grammar]
    cases (grammar s).read? with
    | none => simp
    | some found => simp [Prod.ext_iff]
  rw [hreads, exists_derivation_iff]
  constructor
  · rintro ⟨r, hread⟩
    obtain ⟨s₁, s₂, hgap, hend, hdecl | ⟨hno, ops, rfl, hops⟩⟩ := reads_module_eq_some hread
    · exact .declared hgap hdecl hend
    · refine .bare (fun hstarts => ?_) hgap hops hend
      -- a declaration would have been found, whatever levels it takes
      obtain ⟨t, r, n, m, htgap, htdecl⟩ := hstarts
      have hfound := moduleDeclaration_complete (htdecl.of_length.mono htgap.suffix.length_le)
      rw [htgap.afterGap htdecl.gapStops, hfound] at hno
      cases hno
  · intro h
    exact ⟨[], reads_module_of_reading h⟩

/-! ## Counting finds the first that is too deep -/

/-- Counting from a text, between phrases and with so many levels open, stops at that
parenthesis. -/
def StopsAt (d : Nat) (s : List Char) (o : Opening) : Prop :=
  ∃ u r, s = u ++ r ∧ r.length = o.remaining ∧
    ∀ place, tooDeep? .plain d place s = some (u.foldl Position.advance place)

/-- What stops behind a part of a text stops in the whole. -/
theorem Counts.stopsAt {d d' : Nat} {s t : List Char} {o : Opening} (h : Counts d d' s t)
    (hstop : StopsAt d' t o) : StopsAt d s o := by
  obtain ⟨u, rfl, hu⟩ := h
  obtain ⟨v, r, rfl, hr, hv⟩ := hstop
  refine ⟨u ++ v, r, (List.append_assoc ..).symm, hr, fun place => ?_⟩
  rw [hu, hv, List.foldl_append]

/-- At the greatest level another bracket is too deep. -/
theorem stopsAt_open (s : List Char) :
    StopsAt maxNesting ('(' :: s) ⟨maxNesting + 1, ('(' :: s).length⟩ := by
  refine ⟨[], '(' :: s, rfl, rfl, fun place => ?_⟩
  simp [tooDeep?]

/-- The first of some openings that is a level too many. -/
def FirstTooDeep (l : List Opening) (o : Opening) : Prop :=
  ∃ before later, l = before ++ o :: later ∧ (∀ x ∈ before, x.level ≤ maxNesting) ∧
    o.level = maxNesting + 1

theorem FirstTooDeep.find?_eq {l : List Opening} {o : Opening} (h : FirstTooDeep l o) :
    l.find? (maxNesting < ·.level) = some o := by
  obtain ⟨before, later, rfl, hbefore, ho⟩ := h
  refine List.find?_eq_some_iff_append.mpr ⟨?_, before, later, rfl, fun x hx => ?_⟩
  · simp [ho]
  · simpa using hbefore x hx

/-- There is one first. -/
theorem FirstTooDeep.unique {l : List Opening} {o o' : Opening} (h : FirstTooDeep l o)
    (h' : FirstTooDeep l o') : o = o' :=
  Option.some.inj (h.find?_eq.symm.trans h'.find?_eq)

theorem FirstTooDeep.not_all {l : List Opening} {o : Opening} (h : FirstTooDeep l o) :
    ¬ ∀ x ∈ l, x.level ≤ maxNesting := by
  obtain ⟨before, later, rfl, _, ho⟩ := h
  intro hall
  have hle := hall o (List.mem_append_right before (List.mem_cons_self ..))
  omega

theorem FirstTooDeep.append_left {l : List Opening} {o : Opening} (h : FirstTooDeep l o)
    (l' : List Opening) : FirstTooDeep (l ++ l') o := by
  obtain ⟨before, later, rfl, hbefore, ho⟩ := h
  exact ⟨before, later ++ l', by simp, hbefore, ho⟩

/-- Behind openings that are not too deep the first is that of the rest. -/
theorem FirstTooDeep.append_right {l l' : List Opening} {o : Opening}
    (hl : ∀ x ∈ l, x.level ≤ maxNesting) (h : FirstTooDeep l' o) : FirstTooDeep (l ++ l') o := by
  obtain ⟨before, later, rfl, hbefore, ho⟩ := h
  exact ⟨l ++ before, later, by simp, List.forall_mem_append.mpr ⟨hl, hbefore⟩, ho⟩

/-- Operations are passed over if no region in them is too deep; otherwise counting stops at the
first that is. The induction follows the derivation: up to the parenthesis of a region, into
its operations, and then to those behind it. -/
theorem Phrase.Openings.counted {d : Nat} {s r : List Char} {ops : List WrittenOperation}
    {l : List Opening} (h : Openings d s r ops l) (hd : d ≤ maxNesting) :
    ((∀ o ∈ l, o.level ≤ maxNesting) ∧ Counts d d s r) ∨
      ∃ o, FirstTooDeep l o ∧ StopsAt d s o := by
  induction h with
  | nil => exact .inl ⟨List.forall_mem_nil _, .refl _ _⟩
  | @leaf d s s₁ s₂ r name as ops l hhead hgap _ ih =>
    have hbefore := (hhead.counts d).trans (hgap.counts d)
    rcases ih hd with ⟨hl, hcounts⟩ | ⟨o, ho, hstop⟩
    · exact .inl ⟨hl, hbefore.trans hcounts⟩
    · exact .inr ⟨o, ho, hbefore.stopsAt hstop⟩
  | @node d s s₁ s₂ s₃ s₄ s₅ r name as children ops l l' hhead hopen hin _ hout _ ihc ih =>
    have hbefore := (hhead.counts d).trans (hopen.counts d)
    by_cases hlast : d < maxNesting
    · have hinside : Counts d (d + 1) s s₃ :=
        (hbefore.trans (counts_open hlast s₂)).trans (hin.counts (d + 1))
      have hfirst : ∀ x ∈ [Opening.mk (d + 1) ('(' :: s₂).length], x.level ≤ maxNesting :=
        List.forall_mem_singleton.mpr hlast
      rcases ihc hlast with ⟨hl, hchildren⟩ | ⟨o, ho, hstop⟩
      · have hbehind : Counts d d s s₅ :=
          ((hinside.trans hchildren).trans (counts_close d s₄)).trans (hout.counts d)
        have hregion := List.forall_mem_append.mpr ⟨hfirst, hl⟩
        rcases ih hd with ⟨hl', hcounts⟩ | ⟨o, ho, hstop⟩
        · exact .inl ⟨List.forall_mem_append.mpr ⟨hregion, hl'⟩, hbehind.trans hcounts⟩
        · exact .inr ⟨o, ho.append_right hregion, hbehind.stopsAt hstop⟩
      · exact .inr ⟨o, (ho.append_left l').append_right hfirst, hinside.stopsAt hstop⟩
    · have hfull : d = maxNesting := by omega
      subst hfull
      exact .inr ⟨_, ⟨[], l ++ l', rfl, List.forall_mem_nil _, rfl⟩,
        hbefore.stopsAt (stopsAt_open s₂)⟩

/-- The same of a whole text. -/
theorem Phrase.Derivation.counted {s : List Char} {w : WrittenModule} {l : List Opening}
    (h : Derivation s w l) :
    ((∀ o ∈ l, o.level ≤ maxNesting) ∧ Counts 0 0 s []) ∨
      ∃ o, FirstTooDeep l o ∧ StopsAt 0 s o := by
  cases h with
  | declared hgap hkey hgap' hsym hopen hin hops hend =>
    have hbefore := (hgap.counts 0).trans (counts_declarationHead 0 hkey hgap' hsym hopen hin)
    rcases hops.counted (Nat.zero_le _) with ⟨hl, hcounts⟩ | ⟨o, ho, hstop⟩
    · have hclose := (hcounts.trans (Gap.nil.counts_char 0 (by decide))).trans (hend.counts 0)
      exact .inl ⟨hl, hbefore.trans hclose⟩
    · exact .inr ⟨o, ho, hbefore.stopsAt hstop⟩
  | bare hno hgap hops hend =>
    rcases hops.counted (Nat.zero_le _) with ⟨hl, hcounts⟩ | ⟨o, ho, hstop⟩
    · exact .inl ⟨hl, ((hgap.counts 0).trans hcounts).trans (hend.counts 0)⟩
    · exact .inr ⟨o, ho, (hgap.counts 0).stopsAt hstop⟩

/-- A place that is told by what is left of the text is the place behind what was read. -/
theorem StopsAt.overflow?_eq {s : List Char} {o : Opening} (h : StopsAt 0 s o) :
    overflow? s = some (place s o.remaining) := by
  obtain ⟨u, r, rfl, hr, hstop⟩ := h
  rw [overflow?, hstop, place, ← hr, List.length_append, Nat.add_sub_cancel, List.take_left]
  rfl

/-- Counting refuses a text that is derived if a region in it is too deep, and then at the first
parenthesis that opens one. -/
theorem Phrase.Derivation.overflow?_iff {s : List Char} {w : WrittenModule} {l : List Opening}
    (h : Derivation s w l) :
    (overflow? s = none ↔ ∀ o ∈ l, o.level ≤ maxNesting) ∧
      ∀ p, overflow? s = some p ↔ ∃ o, FirstTooDeep l o ∧ p = place s o.remaining := by
  rcases h.counted with ⟨hl, u, _, hu⟩ | ⟨o, ho, hstop⟩
  · have hnone : overflow? s = none := hu .start
    refine ⟨iff_of_true hnone hl, fun p => ⟨fun hp => ?_, ?_⟩⟩
    · cases hnone.symm.trans hp
    · rintro ⟨o, ho, _⟩
      exact absurd hl ho.not_all
  · have hsome := hstop.overflow?_eq
    refine ⟨iff_of_false (fun hnone => ?_) ho.not_all, fun p => ⟨fun hp => ?_, ?_⟩⟩
    · cases hnone.symm.trans hsome
    · exact ⟨o, ho, Option.some.inj (hp.symm.trans hsome)⟩
    · rintro ⟨o', ho', rfl⟩
      rw [ho'.unique ho, hsome]

end IrOptimizer.Generic
