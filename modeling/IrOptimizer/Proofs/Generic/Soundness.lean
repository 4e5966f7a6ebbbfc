import IrOptimizer.Proofs.Generic.Lexical

/-!
# Scanners read nothing but the language

What a scanner of the grammar reads is a phrase of the language between the text
it was given and the text it leaves. Each rule has its equation in terms of
`reads` (`reads_entry`, `reads_operation`, …), and soundness follows the parts of
that equation. The nesting level of `region` is the level of `Operations`: the
induction is on it, and inside one level on the repetition.
-/

namespace IrOptimizer.Generic

open Text Phrase Scanner

/-- A character behind the gap that the scanner passes over. -/
theorem gap_of_reads_char {ch : Char} {s r : List Char} {u : Unit}
    (h : (char ch).reads (afterGap s) = some (u, r)) : Gap s (ch :: r) := by
  rw [← reads_char_eq_some_iff.mp h]
  exact gap_afterGap s

/-! ## Attributes -/

/-- An entry is read as its key, an equals sign and its value, with gaps between them. -/
theorem reads_entry (s : List Char) :
    entry.reads s = (name.reads s).bind fun (key, s₁) =>
      ((char '=').reads (afterGap s₁)).bind fun (_, s₂) =>
        (value.reads (afterGap s₂)).bind fun (v, r) =>
          some (⟨s.length, key, (afterGap s₂).length, v⟩, r) := by
  simp only [entry, reads_rule, reads_bind, reads_here, reads_gap,
    Option.bind_some, reads_pure]

/-- What is read as an entry is one. -/
theorem entry_sound {s r : List Char} {a : WrittenAttribute} (h : entry.reads s = some (a, r)) :
    Entry s r a := by
  rw [reads_entry] at h
  simp only [Option.bind_eq_some_iff, Option.some.injEq, Prod.mk.injEq] at h
  obtain ⟨⟨key, s₁⟩, hkey, ⟨_, s₂⟩, heq, ⟨v, _⟩, hvalue, rfl, rfl⟩ := h
  exact .mk (reads_name_iff.mp hkey) (gap_of_reads_char heq) (gap_afterGap s₂)
    (reads_value_iff.mp hvalue)

/-- A comma and the entry behind it, as the repetition in `entries` reads them. -/
def laterEntry : Scanner WrittenAttribute := do
  char ','
  gap
  let next ← entry
  gap
  pure next

theorem reads_laterEntry (s : List Char) :
    laterEntry.reads s = ((char ',').reads s).bind fun (_, s₁) =>
      (entry.reads (afterGap s₁)).bind fun (a, r) => some (a, afterGap r) := by
  simp only [laterEntry, reads_bind, reads_gap, Option.bind_some, reads_pure]

theorem reads_entries (s : List Char) :
    entries.reads s = (entry.reads s).bind fun (a, s₁) =>
      ((many laterEntry).reads (afterGap s₁)).bind fun (more, r) => some (a :: more, r) := by
  simp only [entries, reads_bind, reads_gap, Option.bind_some, reads_pure]
  rfl

/-- What is read as a further entry is a comma and an entry, with the gaps around it. -/
theorem laterEntry_sound {s r : List Char} {a : WrittenAttribute}
    (h : laterEntry.reads s = some (a, r)) :
    ∃ s₁ s₂ r', s = ',' :: s₁ ∧ Gap s₁ s₂ ∧ Entry s₂ r' a ∧ Gap r' r := by
  rw [reads_laterEntry] at h
  simp only [Option.bind_eq_some_iff, Option.some.injEq, Prod.mk.injEq] at h
  obtain ⟨⟨_, s₁⟩, hcomma, ⟨_, r'⟩, hentry, rfl, rfl⟩ := h
  exact ⟨s₁, afterGap s₁, r', reads_char_eq_some_iff.mp hcomma, gap_afterGap s₁,
    entry_sound hentry, gap_afterGap r'⟩

theorem laterEntry_length_lt {s r : List Char} {a : WrittenAttribute}
    (h : laterEntry.reads s = some (a, r)) : r.length < s.length := by
  obtain ⟨s₁, s₂, r', rfl, hgap, hentry, hgap'⟩ := laterEntry_sound h
  have h₁ := hgap.suffix.length_le
  have h₂ := hentry.length_lt
  have h₃ := hgap'.suffix.length_le
  simp only [List.length_cons]
  omega

/-- Entries that follow one which has just been read. -/
theorem laterEntries_sound {t e : List Char} {more : List WrittenAttribute}
    (h : (many laterEntry).reads t = some (more, e)) :
    ∀ {s s₁ a}, Entry s s₁ a → Gap s₁ t → Entries s e (a :: more) := by
  refine reads_many_induction laterEntry_length_lt
    (motive := fun t more e => ∀ {s s₁ a}, Entry s s₁ a → Gap s₁ t → Entries s e (a :: more))
    ?_ ?_ h
  · intro t _ s s₁ a hentry hgap
    exact .last hentry hgap
  · intro t b r more e hstep ih s s₁ a hentry hgap
    obtain ⟨u, v, w, rfl, hgap₁, hnext, hgap₂⟩ := laterEntry_sound hstep
    exact .cons hentry hgap hgap₁ (ih hnext hgap₂)

/-- What is read as entries are entries, divided by commas. -/
theorem entries_sound {s r : List Char} {as : List WrittenAttribute}
    (h : entries.reads s = some (as, r)) : Entries s r as := by
  rw [reads_entries] at h
  simp only [Option.bind_eq_some_iff, Option.some.injEq, Prod.mk.injEq] at h
  obtain ⟨⟨a, s₁⟩, hfirst, ⟨more, _⟩, hmore, rfl, rfl⟩ := h
  exact laterEntries_sound hmore (entry_sound hfirst) (gap_afterGap s₁)

theorem reads_dictionary (s : List Char) :
    dictionary.reads s = ((char '\x7b').reads s).bind fun (_, s₁) =>
      ((optional entries).reads (afterGap s₁)).bind fun (listed, s₂) =>
        ((char '\x7d').reads (afterGap s₂)).bind fun (_, r) => some (listed.getD [], r) := by
  simp only [dictionary, reads_rule, reads_bind, reads_gap, Option.bind_some, reads_pure]

/-- What an optional part reads is the part, or nothing. -/
theorem reads_optional_eq_some {α : Type} {p : Scanner α} {s r : List Char} {a? : Option α}
    (h : (optional p).reads s = some (a?, r)) :
    (∃ a, a? = some a ∧ p.reads s = some (a, r)) ∨ (a? = none ∧ r = s ∧ p.reads s = none) := by
  rw [reads_optional] at h
  rcases Option.or_eq_some_iff.mp h with h | ⟨hnone, h⟩
  · obtain ⟨⟨a, r'⟩, hp, heq⟩ := Option.map_eq_some_iff.mp h
    simp only [Prod.mk.injEq] at heq
    obtain ⟨rfl, rfl⟩ := heq
    exact .inl ⟨a, rfl, hp⟩
  · simp only [Option.some.injEq, Prod.mk.injEq] at h
    obtain ⟨rfl, rfl⟩ := h
    exact .inr ⟨rfl, rfl, Option.map_eq_none_iff.mp hnone⟩

/-- What is read as attributes are entries in braces, or braces around a gap. -/
theorem dictionary_sound {s r : List Char} {as : List WrittenAttribute}
    (h : dictionary.reads s = some (as, r)) : Braces s r as := by
  rw [reads_dictionary] at h
  simp only [Option.bind_eq_some_iff, Option.some.injEq, Prod.mk.injEq] at h
  obtain ⟨⟨_, s₁⟩, hopen, ⟨listed, s₂⟩, hlisted, ⟨_, _⟩, hclose, rfl, rfl⟩ := h
  obtain rfl := reads_char_eq_some_iff.mp hopen
  have hgap := gap_of_reads_char hclose
  rcases reads_optional_eq_some hlisted with ⟨as, rfl, hentries⟩ | ⟨rfl, rfl, _⟩
  · exact .listed (gap_afterGap s₁) ((entries_sound hentries).gap hgap)
  · exact .empty ((gap_afterGap s₁).trans hgap)

/-- Attributes that may be missing are read as such. -/
theorem optional_dictionary_sound {s r : List Char} {as? : Option (List WrittenAttribute)}
    (h : (optional dictionary).reads s = some (as?, r)) : AttributeList s r (as?.getD []) := by
  rcases reads_optional_eq_some h with ⟨as, rfl, hdict⟩ | ⟨rfl, rfl, _⟩
  · exact .braces (dictionary_sound hdict)
  · exact .absent

/-! ## Operations -/

/-- An operation is read as its name, its attributes and its region, if these are there. -/
theorem reads_operation (R : Scanner (List WrittenOperation)) (s : List Char) :
    (operation R).reads s = (identifier.reads s).bind fun (name, s₁) =>
      ((optional dictionary).reads (afterGap s₁)).bind fun (as, s₂) =>
        ((optional R).reads (afterGap s₂)).bind fun (children, r) =>
          some (⟨name, as.getD [], children.getD []⟩, r) := by
  simp only [operation, reads_rule, reads_bind, reads_gap, Option.bind_some, reads_pure]

/-- An operation with the gap behind it, as the repetition in `operations` reads it. -/
def spacedOperation (R : Scanner (List WrittenOperation)) : Scanner WrittenOperation := do
  let op ← operation R
  gap
  pure op

theorem reads_spacedOperation (R : Scanner (List WrittenOperation)) (s : List Char) :
    (spacedOperation R).reads s =
      ((operation R).reads s).bind fun (op, r) => some (op, afterGap r) := by
  simp only [spacedOperation, reads_bind, reads_gap, Option.bind_some, reads_pure]

theorem operations_eq (R : Scanner (List WrittenOperation)) :
    operations R = many (spacedOperation R) := rfl

/-- Without a level left no region is read. -/
theorem reads_region_zero (s : List Char) : (region 0).reads s = none := by
  rw [region, reads_rule, reads_run]
  rfl

/-- A region takes a level, and its operations have the others. -/
theorem reads_region_succ (levels : Nat) (s : List Char) :
    (region (levels + 1)).reads s = ((char '(').reads s).bind fun (_, s₁) =>
      ((operations (region levels)).reads (afterGap s₁)).bind fun (ops, s₂) =>
        ((char ')').reads s₂).bind fun (_, r) => some (ops, r) := by
  simp only [region, reads_rule, reads_bind, reads_gap, Option.bind_some, reads_pure]

/-- An operation is a head and, behind a gap, a region or none. -/
theorem operation_sound {R : Scanner (List WrittenOperation)} {s r : List Char}
    {op : WrittenOperation} (h : (operation R).reads s = some (op, r)) :
    ∃ s₁ s₂ name as, Head s s₁ name as ∧ Gap s₁ s₂ ∧
      ((op = ⟨name, as, []⟩ ∧ r = s₂) ∨
        ∃ children, op = ⟨name, as, children⟩ ∧ R.reads s₂ = some (children, r)) := by
  rw [reads_operation] at h
  simp only [Option.bind_eq_some_iff, Option.some.injEq, Prod.mk.injEq] at h
  obtain ⟨⟨name, s₁⟩, hname, ⟨as, s₂⟩, hattrs, ⟨children, _⟩, hregion, rfl, rfl⟩ := h
  have hhead : Head s s₂ name (as.getD []) :=
    .mk (reads_identifier_iff.mp hname) (gap_afterGap s₁) (optional_dictionary_sound hattrs)
  refine ⟨s₂, afterGap s₂, name, as.getD [], hhead, gap_afterGap s₂, ?_⟩
  rcases reads_optional_eq_some hregion with ⟨children, rfl, hread⟩ | ⟨rfl, rfl, _⟩
  · exact .inr ⟨children, rfl, hread⟩
  · exact .inl ⟨rfl, rfl⟩

/-- A step of the repetition takes something, and may stand before whatever the
later steps read. -/
theorem spacedOperation_sound {n : Nat} {s r : List Char} {op : WrittenOperation}
    (hregion : ∀ {s r ops}, (region n).reads s = some (ops, r) → Region n s r ops)
    (h : (spacedOperation (region n)).reads s = some (op, r)) :
    r.length < s.length ∧
      ∀ {e ops}, Operations n r e ops → Operations n s e (op :: ops) := by
  rw [reads_spacedOperation] at h
  simp only [Option.bind_eq_some_iff, Option.some.injEq, Prod.mk.injEq] at h
  obtain ⟨⟨_, r'⟩, hop, rfl, rfl⟩ := h
  obtain ⟨s₁, s₂, name, as, hhead, hgap, hrest⟩ := operation_sound hop
  have hafter := gap_afterGap r'
  have h₁ := hhead.length_lt
  have h₂ := hgap.suffix.length_le
  have h₃ := hafter.suffix.length_le
  dsimp only
  rcases hrest with ⟨rfl, rfl⟩ | ⟨children, rfl, hread⟩
  · exact ⟨by omega, fun hops => .leaf hhead (hgap.trans hafter) hops⟩
  · have hreg := hregion hread
    have h₄ := hreg.length_lt
    exact ⟨by omega, fun hops => .region hhead hgap hreg hafter hops⟩

/-- If regions are read rightly, so are operations in a row. -/
theorem operations_sound_of_region {n : Nat} {s r : List Char} {ops : List WrittenOperation}
    (hregion : ∀ {s r ops}, (region n).reads s = some (ops, r) → Region n s r ops)
    (h : (operations (region n)).reads s = some (ops, r)) : Operations n s r ops := by
  rw [operations_eq] at h
  refine reads_many_induction (motive := fun s ops r => Operations n s r ops) ?_ ?_ ?_ h
  · intro s op r hop
    exact (spacedOperation_sound hregion hop).1
  · intro s _
    exact .nil
  · intro s op r ops e hop ih
    exact (spacedOperation_sound hregion hop).2 ih

/-- By induction on the level: the operations inside a region have one level less. -/
theorem region_sound {n : Nat} {s r : List Char} {ops : List WrittenOperation}
    (h : (region n).reads s = some (ops, r)) : Region n s r ops := by
  induction n generalizing s r ops with
  | zero =>
    rw [reads_region_zero] at h
    cases h
  | succ n ih =>
    rw [reads_region_succ] at h
    simp only [Option.bind_eq_some_iff, Option.some.injEq, Prod.mk.injEq] at h
    obtain ⟨⟨_, s₁⟩, hopen, ⟨_, s₂⟩, hops, ⟨_, _⟩, hclose, rfl, rfl⟩ := h
    obtain rfl := reads_char_eq_some_iff.mp hopen
    have hs₂ := reads_char_eq_some_iff.mp hclose
    dsimp only at hs₂
    subst hs₂
    exact .mk (gap_afterGap s₁) (operations_sound_of_region ih hops)

/-- What is read as operations are operations in a row, whose regions fit into the levels. -/
theorem operations_sound {n : Nat} {s r : List Char} {ops : List WrittenOperation}
    (h : (operations (region n)).reads s = some (ops, r)) : Operations n s r ops :=
  operations_sound_of_region region_sound h

/-! ## Modules -/

theorem reads_symbol (s : List Char) :
    symbol.reads s = ((char '@').reads s).bind fun (_, s₁) => name.reads s₁ := by
  simp only [symbol, reads_rule, reads_bind]

/-- The name of a module is read as such, and so is that there is none. -/
theorem optional_symbol_sound {s r : List Char} {name? : Option String}
    (h : (optional symbol).reads s = some (name?, r)) : Symbol s r name? := by
  rcases reads_optional_eq_some h with ⟨name, rfl, hsymbol⟩ | ⟨rfl, rfl, _⟩
  · rw [reads_symbol] at hsymbol
    obtain ⟨⟨_, s₁⟩, hat, hname⟩ := Option.bind_eq_some_iff.mp hsymbol
    obtain rfl := reads_char_eq_some_iff.mp hat
    exact .named (reads_name_iff.mp hname)
  · exact .absent

theorem reads_moduleDeclaration (n : Nat) (s : List Char) :
    (moduleDeclaration n).reads s = (moduleKeyword.reads s).bind fun (_, s₁) =>
      ((optional symbol).reads (afterGap s₁)).bind fun (name?, s₂) =>
        ((char '\x7b').reads (afterGap s₂)).bind fun (_, s₃) =>
          ((operations (region n)).reads (afterGap s₃)).bind fun (ops, s₄) =>
            ((char '\x7d').reads s₄).bind fun (_, r) => some (⟨name?, ops⟩, r) := by
  simp only [moduleDeclaration, reads_rule, reads_bind, reads_gap, Option.bind_some, reads_pure]

/-- What is read as a declaration is one. -/
theorem moduleDeclaration_sound {n : Nat} {s r : List Char} {m : WrittenModule}
    (h : (moduleDeclaration n).reads s = some (m, r)) : Declaration n s r m := by
  rw [reads_moduleDeclaration] at h
  simp only [Option.bind_eq_some_iff, Option.some.injEq, Prod.mk.injEq] at h
  obtain ⟨⟨_, s₁⟩, hkey, ⟨name?, s₂⟩, hsym, ⟨_, s₃⟩, hopen, ⟨ops, s₄⟩, hops, ⟨_, _⟩, hclose,
    rfl, rfl⟩ := h
  have hs₄ := reads_char_eq_some_iff.mp hclose
  dsimp only at hs₄
  subst hs₄
  exact .mk (reads_moduleKeyword_iff.mp hkey) (gap_afterGap s₁) (optional_symbol_sound hsym)
    (gap_of_reads_char hopen) (gap_afterGap s₃) (operations_sound hops)

end IrOptimizer.Generic
