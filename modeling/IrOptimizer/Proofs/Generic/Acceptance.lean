import IrOptimizer.Proofs.Generic.Completeness
import IrOptimizer.Proofs.Generic.Meaning
import IrOptimizer.Proofs.Generic.Nesting

/-!
# What the reader of the generic form accepts

The three stages of reading, put together. The nesting check and the grammar
accept exactly the texts that have a reading with at most `maxNesting` regions
open at any point; judging then accepts those whose keys are distinct and whose
integers fit (`parse_eq_ok_iff_reading`). No text has two readings.

The one choice that the grammar does not decide by a first character is between
a module declaration and a bare list, which may begin with an operation called
`module`. The scanner tries the declaration with `maxNesting` levels; that this is
as good as any number of levels is what the nesting check is needed for.
-/

namespace IrOptimizer.Generic

open Text Phrase Scanner

/-! ## The grammar stage -/

theorem reads_endOfInput_iff {s r : List Char} :
    endOfInput.reads s = some ((), r) ↔ s = [] ∧ r = [] := by
  rw [endOfInput, reads_rule, reads_run]
  cases s with
  | nil => simp [eq_comm]
  | cons c cs => simp

/-- A module is read as a declaration, or else as operations, with gaps around and nothing
behind. -/
theorem reads_module (n : Nat) (s : List Char) :
    (module n).reads s =
      (((moduleDeclaration n).reads (afterGap s)).or
        (((operations (region n)).reads (afterGap s)).map fun (ops, r) =>
          (WrittenModule.mk none ops, r))).bind fun (w, r) =>
        (endOfInput.reads (afterGap r)).bind fun (_, e) => some (w, e) := by
  simp only [module, reads_rule, reads_bind, reads_gap, Option.bind_some, reads_orElse, reads_map,
    reads_pure]

/-- The scanner reads a declaration if there is one, else a bare list, up to the end. -/
theorem reads_module_eq_some {n : Nat} {s r : List Char} {w : WrittenModule}
    (h : (module n).reads s = some (w, r)) :
    ∃ s₁ s₂, Gap s s₁ ∧ Gap s₂ [] ∧
      (Declaration n s₁ s₂ w ∨
        (moduleDeclaration n).reads (afterGap s) = none ∧
          ∃ ops, w = ⟨none, ops⟩ ∧ Operations n s₁ s₂ ops) := by
  rw [reads_module] at h
  simp only [Option.bind_eq_some_iff, Option.some.injEq, Prod.mk.injEq] at h
  obtain ⟨⟨w, s₂⟩, hread, ⟨_, e⟩, hend, rfl, rfl⟩ := h
  have hlast : Gap s₂ [] := by
    have hs₂ := (reads_endOfInput_iff.mp hend).1
    exact hs₂ ▸ gap_afterGap s₂
  refine ⟨afterGap s, s₂, gap_afterGap s, hlast, ?_⟩
  rcases Option.or_eq_some_iff.mp hread with hdecl | ⟨hnone, hbare⟩
  · exact .inl (moduleDeclaration_sound hdecl)
  · obtain ⟨⟨ops, _⟩, hops, heq⟩ := Option.map_eq_some_iff.mp hbare
    simp only [Prod.mk.injEq] at heq
    obtain ⟨rfl, rfl⟩ := heq
    exact .inr ⟨hnone, ops, rfl, operations_sound hops⟩

/-- No declaration is read where none begins. -/
theorem reads_moduleDeclaration_eq_none {s : List Char} (n : Nat) (h : ¬ StartsDeclaration s) :
    (moduleDeclaration n).reads (afterGap s) = none := by
  cases hread : (moduleDeclaration n).reads (afterGap s) with
  | none => rfl
  | some found =>
    exact absurd ⟨afterGap s, found.2, n, found.1, gap_afterGap s, moduleDeclaration_sound hread⟩ h

/-- Every reading is read to the end of the text. -/
theorem reads_module_of_reading {n : Nat} {s : List Char} {w : WrittenModule}
    (h : Reading n s w) : (module n).reads s = some (w, []) := by
  cases h with
  | declared hgap hdecl hend =>
    rw [reads_module, hgap.afterGap hdecl.gapStops, moduleDeclaration_complete hdecl]
    dsimp only [Option.some_or, Option.bind_some]
    rw [hend.afterGap gapStops_nil, reads_endOfInput_iff.mpr ⟨rfl, rfl⟩]
    rfl
  | bare hno hgap hops hend =>
    -- the scanner leaves no gap behind the operations, so they must reach to the end
    obtain ⟨s₁, hgap', hops'⟩ := hops.absorb hend
    rw [reads_module, reads_moduleDeclaration_eq_none n hno,
      (hgap.trans hgap').afterGap (hops'.follows closes_nil).gapStops,
      operations_complete hops' closes_nil]
    dsimp only [Option.none_or, Option.map_some, Option.bind_some]
    rw [show afterGap [] = [] from gapStops_nil, reads_endOfInput_iff.mpr ⟨rfl, rfl⟩]
    rfl

/-- Under the nesting check, what the scanner reads is a reading: that it found no
declaration with `maxNesting` levels means that there is none with any number. -/
theorem reading_of_reads_module {s r : List Char} {w : WrittenModule}
    (h : (module maxNesting).reads s = some (w, r)) (hnone : overflow? s = none) :
    Reading maxNesting s w := by
  obtain ⟨s₁, s₂, hgap, hend, hdecl | ⟨hno, ops, rfl, hops⟩⟩ := reads_module_eq_some h
  · exact .declared hgap hdecl hend
  · refine .bare (fun hstarts => ?_) hgap hops hend
    obtain ⟨t, r, m, htgap, htdecl⟩ := exists_declaration_of_starts hstarts hnone
    rw [htgap.afterGap htdecl.gapStops, moduleDeclaration_complete htdecl] at hno
    cases hno

/-- No text has two readings, however many levels they take. -/
theorem Phrase.Reading.unique {n n' : Nat} {s : List Char} {w w' : WrittenModule}
    (h : Reading n s w) (h' : Reading n' s w') : w = w' := by
  -- with enough levels for both, the scanner reads both
  have hread := reads_module_of_reading (h.mono (Nat.le_max_left n n'))
  have hread' := reads_module_of_reading (h'.mono (Nat.le_max_right n n'))
  exact (Prod.mk.inj (Option.some.inj (hread.symm.trans hread'))).1

/-! ## All stages -/

/-- The place of what is left of a text is that behind what is before it. -/
theorem place_append (before s : List Char) : place (before ++ s) s.length = .after before := by
  rw [place, List.length_append, Nat.add_sub_cancel, List.take_left]

/-- The grammar accepts what its scanner reads. -/
theorem written_eq_ok_iff {n : Nat} {s : List Char} {w : WrittenModule} :
    written n s = .ok w ↔ ∃ r, (module n).reads s = some (w, r) := by
  unfold written
  rw [reads]
  obtain ⟨read?, attempts⟩ := module n (.ofList s)
  cases read? with
  | none => simp
  | some found => simp

/-- A text is accepted if it has a reading, and what is written has a meaning. -/
theorem parseChars_eq_ok_iff {s : List Char} {m : Module} :
    parseChars s = .ok m ↔ ∃ w, Reading maxNesting s w ∧ w.meaning = .ok m := by
  unfold parseChars
  constructor
  · intro h
    cases hover : overflow? s with
    | some position => rw [hover] at h; cases h
    | none =>
      rw [hover] at h
      obtain ⟨w, hw, h⟩ := except_bind_eq_ok.mp h
      obtain ⟨r, hread⟩ := written_eq_ok_iff.mp hw
      refine ⟨w, reading_of_reads_module hread hover, ?_⟩
      cases hmeaning : w.meaning with
      | error offence => rw [hmeaning] at h; cases h
      | ok m' => rw [hmeaning] at h; exact congrArg _ (Except.ok.inj h)
  · intro h
    obtain ⟨w, hreading, hmeaning⟩ := h
    rw [hreading.overflow?_eq_none_iff.mpr hreading]
    have hwritten := written_eq_ok_iff.mpr ⟨[], reads_module_of_reading hreading⟩
    refine except_bind_eq_ok.mpr ⟨w, hwritten, ?_⟩
    rw [hmeaning]

/-- The reader accepts exactly the texts of the language that pass the judgement,
and answers the tree that is written. There is at most one reading of a text; and
of texts whose readings agree apart from places and the order of attributes, each
is read as the other. -/
theorem parse_eq_ok_iff_reading (source : String) (m : Module) :
    (parse source = .ok m ↔
      ∃ w, Reading maxNesting source.toList w ∧ w.KeysDistinct ∧ w.IntegersFit ∧ w.tree = m) ∧
    (∀ n n' w w', Reading n source.toList w → Reading n' source.toList w' → w = w') ∧
    ∀ (other : String) w w', Reading maxNesting source.toList w →
      Reading maxNesting other.toList w' → w.Alike w' →
        (parse source = .ok m ↔ parse other = .ok m) := by
  refine ⟨?_, fun n n' w w' h h' => h.unique h', ?_⟩
  · rw [parse, parseChars_eq_ok_iff]
    simp only [WrittenModule.meaning_eq_ok_iff]
  · intro other w w' hw hw' halike
    rw [parse, parse, parseChars_eq_ok_iff, parseChars_eq_ok_iff]
    constructor
    · intro h
      obtain ⟨v, hv, hm⟩ := h
      obtain rfl := hv.unique hw
      exact ⟨w', hw', (halike.meaning m).mp hm⟩
    · intro h
      obtain ⟨v, hv, hm⟩ := h
      obtain rfl := hv.unique hw'
      exact ⟨w, hw, (halike.meaning m).mpr hm⟩

end IrOptimizer.Generic
