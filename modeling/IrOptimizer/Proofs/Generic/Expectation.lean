import IrOptimizer.Proofs.Except
import IrOptimizer.Proofs.Generic.Acceptance
import IrOptimizer.Proofs.Generic.Viability

/-!
# What is expected, and where

When the grammar refuses a text, the error tells the furthest place at which a rule was tried in
vain. It is shown that what is in front of that place can always be completed to a text which is
read, and that something is expected there.

A text is read as a module declaration or as a bare list, and both leave places in the log. A
place of the declaration is completed to a declaration. A place of the list is completed to a
list, but the reader prefers a declaration, and the completed text might begin with one. If it
ends in front of the place, it would have been found in the text at hand; otherwise the completed
text can be cut behind it (`viable_of_listed`).
-/

namespace IrOptimizer.Generic

open Text Phrase Scanner

/-- A text that passes the nesting check and follows the grammar. -/
def Grammatical (s : List Char) : Prop := ∃ w, Reading maxNesting s w

/-- Grammatical is what is not too deep and what the grammar accepts. -/
theorem grammatical_iff {s : List Char} :
    Grammatical s ↔ overflow? s = none ∧ ∃ w, written maxNesting s = .ok w := by
  constructor
  · intro h
    obtain ⟨w, hreading⟩ := h
    exact ⟨hreading.overflow?_eq_none_iff.mpr hreading, w,
      written_eq_ok_iff.mpr ⟨[], reads_module_of_reading hreading⟩⟩
  · intro h
    obtain ⟨hcount, w, hwritten⟩ := h
    obtain ⟨r, hread⟩ := written_eq_ok_iff.mp hwritten
    exact ⟨w, reading_of_reads_module hread hcount⟩

/-! ## The declaration -/

/-- A declaration with the gaps around it. -/
def Declared (s r : List Char) : Prop := Spaced (Trailed (Any (Declaration maxNesting))) s r

/-- A declaration that fits into the levels, with gaps around it, is grammatical. -/
theorem Declared.grammatical {s : List Char} (h : Declared s []) : Grammatical s := by
  obtain ⟨t, hgap, u, ⟨m, hdecl⟩, hend⟩ := h
  exact ⟨m, .declared hgap hdecl hend⟩

/-- A declaration with gaps around it does not depend on what follows. -/
theorem Declared.takes {s t u r : List Char} {m : WrittenModule} (hgap : Gap s t)
    (hdecl : Declaration maxNesting t u m) (hend : Gap u r) : Takes Declared s r :=
  .spaced hgap (hdecl.takes.trailed hend)

/-- At the beginning of a source a declaration is awaited. -/
theorem awaits_declaration (source : List Char) :
    Awaits Grammatical source (Spaced (Any (Declaration maxNesting))) source := by
  refine awaits_start fun s hdecl => ?_
  obtain ⟨t, hgap, m, hdecl⟩ := hdecl
  exact ⟨m, .declared hgap hdecl .nil⟩

/-- Behind a declaration nothing is missing. -/
theorem awaits_gap {source r : List Char} {m : WrittenModule}
    (hread : (moduleDeclaration maxNesting).reads (afterGap source) = some (m, r)) :
    Awaits Grammatical source Gap (afterGap r) := by
  have hfront : Takes Declared source (afterGap r) :=
    Declared.takes (gap_afterGap source) (moduleDeclaration_sound hread) (gap_afterGap r)
  have hstart : Awaits Grammatical source Declared source :=
    awaits_start fun s => Declared.grammatical
  refine hstart.advance hfront id fun hfront hend => ?_
  obtain ⟨t, hgap, u, hdecl, hgap'⟩ := hfront
  exact ⟨t, hgap, u, hdecl, hgap'.trans hend⟩

/-! ## The bare list -/

/-- A whole text that is a list of operations, whether or not it begins with a declaration. -/
def Listed (s : List Char) : Prop := Spaced (Any (Operations maxNesting)) s []

/-- What is listed is not too deep. -/
theorem Listed.overflow?_eq_none {s : List Char} (h : Listed s) : overflow? s = none := by
  obtain ⟨t, hgap, ops, hops⟩ := h
  obtain ⟨u, _, hu⟩ := (hgap.counts 0).trans (hops.counts (by omega))
  exact hu .start

/-- At the beginning of a source operations are awaited. -/
theorem awaits_list (source : List Char) :
    Awaits Listed source (Spaced (Any (Operations maxNesting))) source :=
  awaits_start fun _ h => h

/-- If a text does not begin with a declaration, then what can be completed to a list can be
completed to a text that is read. -/
theorem viable_of_listed {source : List Char} {k : Nat}
    (hno : (moduleDeclaration maxNesting).reads (afterGap source) = none)
    (h : Viable Listed source k) : Viable Grammatical source k := by
  obtain ⟨x, r, y, hsource, hr, hlisted⟩ := h
  by_cases hstarts : StartsDeclaration (x ++ y)
  · obtain ⟨s₁, r', m, hgap, hdecl⟩ :=
      exists_declaration_of_starts hstarts hlisted.overflow?_eq_none
    obtain ⟨d, hd, hfront⟩ := Takes.spaced hgap hdecl.takes
    have hcut : Grammatical (d ++ ['\n']) := by
      obtain ⟨t, hgap, m, hdecl⟩ := hfront ['\n'] (.lineFeed [] r')
      exact ⟨m, .declared hgap hdecl (.blank rfl .nil)⟩
    rcases List.append_eq_append_iff.mp hd with ⟨a, rfl, _⟩ | ⟨a, rfl, rfl⟩
    · -- the declaration does not end in front of the place, so the text may end behind it
      exact ⟨x, r, a ++ ['\n'], hsource, hr, by simpa using hcut⟩
    · cases a with
      | nil => exact ⟨d, r, ['\n'], by simpa using hsource, hr, hcut⟩
      | cons c a =>
        -- the text at hand begins with the same declaration
        obtain ⟨t, hgap, m, hdecl⟩ := hfront (c :: a ++ r) (.same_char c _ _)
        rw [hsource, List.append_assoc, hgap.afterGap hdecl.gapStops,
          moduleDeclaration_complete hdecl] at hno
        cases hno
  · obtain ⟨s₁, hgap, ops, hops⟩ := hlisted
    exact ⟨x, r, y, hsource, hr, _, .bare hstarts hgap hops .nil⟩

/-! ## The whole text -/

/-- In whatever reading a rule fails, what is in front of the place can be completed. -/
theorem notes_module (source : List Char) :
    (module maxNesting).Notes (Viable Grammatical source) source := by
  have hdecl := awaits_declaration source
  have hlist := (awaits_list source).gap (gap_afterGap source)
  refine notes_rule (notes_gap_bind ?_) (viable_of_awaits_declaration hdecl)
  refine notes_bind (notes_orElse ?_ fun hno => notes_map ?_) fun w r hread =>
    notes_gap_bind (notes_bind (notes_rule notes_run ?_) fun _ _ _ => notes_pure _)
  · exact notes_moduleDeclaration (hdecl.gap (gap_afterGap source))
  · exact notes_mono (notes_operations hlist) fun k => viable_of_listed hno
  -- the end of the text is tried behind a declaration or behind a list
  rw [reads_orElse, reads_map] at hread
  rcases Option.or_eq_some_iff.mp hread with hdecl | ⟨hno, hbare⟩
  · exact (awaits_gap hdecl).viable fun z => ⟨z, .blank rfl .nil⟩
  · obtain ⟨⟨ops, r'⟩, hops, heq⟩ := Option.map_eq_some_iff.mp hbare
    cases heq
    have hbehind := awaits_behind_operations hlist (operations_sound hops) (gap_afterGap r)
    exact viable_of_listed hno (viable_of_awaits_operations hbehind)

/-! ## What is expected -/

theorem Rule.mem_all (name : Rule) : name ∈ Rule.all := by
  cases name <;> decide

/-- Of rules that failed at least one is listed. -/
theorem Rule.listing_ne_nil {rules : List Rule} (h : rules ≠ []) : Rule.listing rules ≠ [] := by
  obtain ⟨name, more, rfl⟩ := List.exists_cons_of_ne_nil h
  have hmem : name ∈ Rule.listing (name :: more) :=
    List.mem_filter.mpr ⟨name.mem_all, by simp⟩
  exact List.ne_nil_of_mem hmem

theorem Rule.describe_ne (name : Rule) : name.describe ≠ "" := by
  cases name <;> decide

/-- If there are rules, the sentence has its usual form. -/
theorem Rule.exists_expectation {rules : List Rule} (h : rules ≠ []) :
    ∃ items, items ≠ "" ∧ Rule.expectation rules = "expected " ++ items := by
  match rules with
  | [] => exact absurd rfl h
  | [a] => exact ⟨a.describe, a.describe_ne, rfl⟩
  | [a, b] =>
    refine ⟨a.describe ++ (" or " ++ b.describe), ?_, ?_⟩
    · simp
    · simp [Rule.expectation, String.append_assoc]
  | a :: b :: c :: more =>
    refine ⟨_, ?_, (String.append_assoc ..).trans (String.append_assoc ..)⟩
    simp

/-- What the grammar refuses is refused at a viable place, and something is expected there. -/
theorem written_eq_error_viable {s : List Char} (hgrammar : ∀ w, written maxNesting s ≠ .ok w) :
    ∃ before rest rules, s = before ++ rest ∧ rules ≠ [] ∧
      written maxNesting s = .error ⟨.after before, .expected rules⟩ ∧
      ∃ more, Grammatical (before ++ more) := by
  have hnotes : (module maxNesting (.ofList s)).attempts.Only (Viable Grammatical s) :=
    notes_module s
  have hrules : (module maxNesting (.ofList s)).read? = none →
      (module maxNesting (.ofList s)).attempts.rules ≠ [] := rules_ne_nil_of_rule
  unfold written at hgrammar ⊢
  generalize module maxNesting (.ofList s) = outcome at hgrammar hnotes hrules ⊢
  obtain ⟨read?, attempts⟩ := outcome
  cases read? with
  | some found => exact absurd rfl (hgrammar found.1)
  | none =>
    have hsome := hrules rfl
    obtain ⟨before, rest, more, rfl, hplace, hmore⟩ := hnotes.resolve_left hsome
    refine ⟨before, rest, Rule.listing attempts.rules, rfl, Rule.listing_ne_nil hsome, ?_, more,
      hmore⟩
    dsimp only at hplace ⊢
    rw [← hplace, place_append]

/-- A text that passes the nesting check and that the grammar refuses is refused at a place inside
of it or at its end. What is in front of that place is the front of a text that is read, and the
list of what is expected there is not empty. -/
theorem parse_expects_behind_viable_front (source : String)
    (hcount : overflow? source.toList = none)
    (hgrammar : ∀ w, written maxNesting source.toList ≠ .ok w) :
    ∃ before rest rules, source.toList = before ++ rest ∧
      parse source = .error ⟨.after before, .expected rules⟩ ∧
      (∃ more w, overflow? (before ++ more) = none ∧
        written maxNesting (before ++ more) = .ok w) ∧
      rules ≠ [] ∧
      ∃ items, items ≠ "" ∧ (SyntaxProblem.expected rules).message = "expected " ++ items := by
  obtain ⟨before, rest, rules, hsplit, hrules, hwritten, more, hmore⟩ :=
    written_eq_error_viable hgrammar
  obtain ⟨hcount', w, hw⟩ := grammatical_iff.mp hmore
  refine ⟨before, rest, rules, hsplit, ?_, ⟨more, w, hcount', hw⟩, hrules,
    Rule.exists_expectation hrules⟩
  rw [parse, parseChars, hcount]
  dsimp only
  rw [hwritten]
  rfl

/-- The brace is read as the beginning of a block here, and that reading is given up for a
dictionary whose brace is never closed; yet it is the one that comes further. -/
theorem parse_expects_in_abandoned_block :
    overflow? "module \x7bx = 1".toList = none ∧
    (∀ w, written maxNesting "module \x7bx = 1".toList ≠ .ok w) ∧
    parse "module \x7bx = 1" =
      .error ⟨⟨1, 11⟩, .expected [.identifier, .dictionary, .region]⟩ ∧
    ∃ before more w, Position.after before = ⟨1, 11⟩ ∧
      written maxNesting (before ++ more) = .ok w := by
  have hcount : overflow? "module \x7bx = 1".toList = none := by decide +kernel
  have hrefused : ∀ w, written maxNesting "module \x7bx = 1".toList ≠ .ok w := by
    intro w hw
    have herror : error? (written maxNesting "module \x7bx = 1".toList) =
        some ⟨⟨1, 11⟩, .expected [.identifier, .dictionary, .region]⟩ := by decide +kernel
    rw [hw] at herror
    cases herror
  have hparse : parse "module \x7bx = 1" =
      .error ⟨⟨1, 11⟩, .expected [.identifier, .dictionary, .region]⟩ :=
    eq_error_of_error? (by decide +kernel)
  refine ⟨hcount, hrefused, hparse, ?_⟩
  obtain ⟨before, rest, rules, _, herror, ⟨more, w, _, hw⟩, _⟩ :=
    parse_expects_behind_viable_front "module \x7bx = 1" hcount hrefused
  have hplace := (SyntaxError.mk.inj (Except.error.inj (herror.symm.trans hparse))).1
  exact ⟨before, more, w, hplace, hw⟩

end IrOptimizer.Generic
