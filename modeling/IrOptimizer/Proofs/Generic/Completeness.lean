import IrOptimizer.Proofs.Generic.Soundness

/-!
# Scanners read all of the language

A phrase of the language is what the scanner of its rule reads, provided that the
text behind the phrase cannot go on with it. The scanners take the longest run
and the first alternative, the language leaves both open; they agree because the
first character of a text decides what it can be: `Closes` is said of the texts
behind a list of operations (the end, or a closing bracket), `Follows` of the
texts behind an operation, and no text of either kind begins with a blank, a
comment, a brace or an opening parenthesis.

Consequently a text has at most one reading (`Operations.unique`,
`Declaration.unique`).
-/

namespace IrOptimizer.Generic

open Text Phrase Scanner

/-! ## Attributes -/

/-- Characters of a word are no blanks and begin no comment. -/
theorem gapStops_of_identifierChar {c : Char} (s : List Char) (hc : isIdentifierChar c = true) :
    GapStops (c :: s) := by
  refine gapStops_cons s ?_ ?_
  · cases hb : isPlainBlank c with
    | false => rfl
    | true =>
      simp only [isPlainBlank, Bool.or_eq_true, decide_eq_true_eq] at hb
      obtain ((rfl | rfl) | rfl) | rfl := hb <;> exact absurd hc (by decide)
  · rintro rfl
    exact absurd hc (by decide)

/-- A name begins with neither a blank nor a comment. -/
theorem Phrase.Name.gapStops {s r : List Char} {name : String} (h : Name s r name) :
    GapStops s := by
  cases h with
  | bare h =>
    obtain ⟨c, cs, rfl, hc⟩ := h.head
    exact gapStops_of_identifierChar cs (isIdentifierChar_of_start hc)
  | quoted h =>
    cases h
    exact gapStops_cons _ rfl (by decide)

theorem Phrase.Value.gapStops {s r : List Char} {v : WrittenValue} (h : Value s r v) :
    GapStops s := by
  cases h with
  | @int w r n hn hr =>
    cases w with
    | nil => simp [integer?, natural?] at hn
    | cons c cs =>
      exact gapStops_of_identifierChar _ (isIdentifierChar_of_integer? hn c (List.mem_cons_self ..))
  | true hr => exact gapStops_cons _ rfl (by decide)
  | false hr => exact gapStops_cons _ rfl (by decide)
  | str h =>
    cases h
    exact gapStops_cons _ rfl (by decide)

/-- Every entry is read as it is written. -/
theorem entry_complete {s r : List Char} {a : WrittenAttribute} (h : Entry s r a) :
    entry.reads s = some (a, r) := by
  obtain ⟨hname, hgap, hgap', hvalue⟩ := h
  rw [reads_entry, reads_name_iff.mpr hname]
  dsimp only [Option.bind_some]
  rw [hgap.afterGap (gapStops_cons _ rfl (by decide)), reads_char_cons]
  dsimp only [Option.bind_some]
  rw [hgap'.afterGap hvalue.gapStops, reads_value_iff.mpr hvalue]
  rfl

theorem Phrase.Entry.gapStops {s r : List Char} {a : WrittenAttribute} (h : Entry s r a) :
    GapStops s := by
  obtain ⟨hname, _, _, _⟩ := h
  exact hname.gapStops

/-- Entries begin with a name, so with no gap. -/
theorem Phrase.Entries.gapStops {s r : List Char} {as : List WrittenAttribute}
    (h : Entries s r as) : GapStops s := by
  cases h with
  | last hentry _ => exact hentry.gapStops
  | cons hentry _ _ _ => exact hentry.gapStops

/-- A further entry is read with all of the gap behind it. -/
theorem laterEntry_complete {s s₁ s₂ : List Char} {a : WrittenAttribute} (hgap : Gap s s₁)
    (hentry : Entry s₁ s₂ a) : laterEntry.reads (',' :: s) = some (a, afterGap s₂) := by
  rw [reads_laterEntry, reads_char_cons]
  dsimp only [Option.bind_some]
  rw [hgap.afterGap hentry.gapStops, entry_complete hentry]
  rfl

/-- What the repetition reads behind a first entry: the commas of the list, and no
further one. -/
theorem laterEntries_complete {s r : List Char} {as : List WrittenAttribute}
    (h : Entries s ('\x7d' :: r) as) :
    ∃ a s₁ more, as = a :: more ∧ Entry s s₁ a ∧
      (many laterEntry).reads (afterGap s₁) = some (more, '\x7d' :: r) := by
  generalize he : '\x7d' :: r = e at h
  induction h with
  | last hentry hgap =>
    subst he
    refine ⟨_, _, [], rfl, hentry, ?_⟩
    rw [hgap.afterGap (gapStops_cons _ rfl (by decide))]
    apply reads_many_nil
    rw [reads_laterEntry, reads_char_eq_none (by simp)]
    rfl
  | @cons s s₁ s₂ s₃ e a more hentry hcomma hgap hmore ih =>
    obtain ⟨b, s₄, more', rfl, hnext, hreads⟩ := ih he
    refine ⟨a, s₁, b :: more', rfl, hentry, ?_⟩
    rw [hcomma.afterGap (gapStops_cons _ rfl (by decide))]
    have hstep := laterEntry_complete hgap hnext
    exact reads_many_cons hstep (laterEntry_length_lt hstep) hreads

/-- Entries are read up to the brace that closes them. -/
theorem entries_complete {s r : List Char} {as : List WrittenAttribute}
    (h : Entries s ('\x7d' :: r) as) : entries.reads s = some (as, '\x7d' :: r) := by
  obtain ⟨a, s₁, more, rfl, hentry, hmore⟩ := laterEntries_complete h
  rw [reads_entries, entry_complete hentry]
  dsimp only [Option.bind_some]
  rw [hmore]
  rfl

/-- Where the braces close, there are no entries. -/
theorem reads_entries_brace (s : List Char) : entries.reads ('\x7d' :: s) = none := by
  -- a key is bare or quoted, and a closing brace begins neither
  have hname : name.reads ('\x7d' :: s) = none := by
    rw [name, reads_orElse, reads_identifier_eq_none s (by decide), Option.none_or, string,
      reads_rule, reads_run]
    rfl
  rw [reads_entries, reads_entry, hname]
  rfl

/-- Attributes in braces are read as they are written. -/
theorem dictionary_complete {s r : List Char} {as : List WrittenAttribute} (h : Braces s r as) :
    dictionary.reads s = some (as, r) := by
  have hclose : afterGap ('\x7d' :: r) = '\x7d' :: r := gapStops_cons _ rfl (by decide)
  cases h with
  | empty hgap =>
    rw [reads_dictionary, reads_char_cons]
    dsimp only [Option.bind_some]
    rw [hgap.afterGap hclose, reads_optional, reads_entries_brace]
    dsimp only [Option.bind_some, Option.map_none, Option.none_or]
    rw [hclose, reads_char_cons]
    rfl
  | listed hgap hentries =>
    rw [reads_dictionary, reads_char_cons]
    dsimp only [Option.bind_some]
    rw [hgap.afterGap hentries.gapStops, reads_optional, entries_complete hentries]
    dsimp only [Option.bind_some, Option.map_some, Option.some_or]
    rw [hclose, reads_char_cons]
    rfl

theorem Phrase.Braces.gapStops {s r : List Char} {as : List WrittenAttribute}
    (h : Braces s r as) : GapStops s := by
  cases h <;> exact gapStops_cons _ rfl (by decide)

/-- An attribute list in front of a text that begins neither a dictionary nor a
gap: the scanner comes to that text, whether there is a dictionary or not. -/
theorem optional_dictionary_complete {s r r' : List Char} {as : List WrittenAttribute}
    (h : AttributeList s r as) (hgap : Gap r r') (hstop : GapStops r')
    (hbrace : r'.head? ≠ some '\x7b') :
    ∃ as? t, (optional dictionary).reads (afterGap s) = some (as?, t) ∧ as?.getD [] = as ∧
      afterGap t = r' := by
  cases h with
  | absent =>
    refine ⟨none, r', ?_, rfl, hstop⟩
    rw [hgap.afterGap hstop, reads_optional, reads_dictionary, reads_char_eq_none hbrace]
    rfl
  | braces h =>
    refine ⟨some as, r, ?_, rfl, hgap.afterGap hstop⟩
    rw [show afterGap s = s from h.gapStops, reads_optional, dictionary_complete h]
    rfl

/-! ## Operations -/

/-- A text behind a list of operations: nothing, or a closing bracket. -/
def Closes (s : List Char) : Prop := ∀ c ∈ s.head?, c = ')' ∨ c = '\x7d'

/-- A text behind an operation: another one may begin there, or the list closes. -/
def Follows (s : List Char) : Prop :=
  ∀ c ∈ s.head?, c = ')' ∨ c = '\x7d' ∨ isIdentifierStart c = true

theorem closes_nil : Closes [] := by
  intro c hc
  cases hc

/-- A list of operations ends before the bracket of its region, and before the brace of its
module. -/
theorem closes_paren (s : List Char) : Closes (')' :: s) := by
  intro c hc
  exact .inl (Option.some.inj hc).symm

theorem closes_brace (s : List Char) : Closes ('\x7d' :: s) := by
  intro c hc
  exact .inr (Option.some.inj hc).symm

/-- What closes a list may follow an operation. -/
theorem Closes.follows {s : List Char} (h : Closes s) : Follows s := by
  intro c hc
  rcases h c hc with h | h
  · exact .inl h
  · exact .inr (.inl h)

/-- What may follow an operation begins with no gap. -/
theorem Follows.gapStops {s : List Char} (h : Follows s) : GapStops s := by
  cases s with
  | nil => exact gapStops_nil
  | cons c cs =>
    rcases h c rfl with rfl | rfl | hc
    · exact gapStops_cons cs rfl (by decide)
    · exact gapStops_cons cs rfl (by decide)
    · exact gapStops_of_identifierChar cs (isIdentifierChar_of_start hc)

/-- What may follow an operation begins with no other character. -/
theorem Follows.head?_ne {s : List Char} (h : Follows s) {c : Char} (h₁ : c ≠ ')')
    (h₂ : c ≠ '\x7d') (h₃ : isIdentifierStart c = false) : s.head? ≠ some c := by
  intro hc
  rcases h c hc with h | h | h
  · exact h₁ h
  · exact h₂ h
  · rw [h₃] at h
    cases h

/-- An operation may follow another one. -/
theorem Phrase.Head.follows {s r : List Char} {name : String} {as : List WrittenAttribute}
    (h : Head s r name as) : Follows s := by
  obtain ⟨hname, _, _⟩ := h
  obtain ⟨c, cs, rfl, hc⟩ := hname.head
  intro d hd
  exact .inr (.inr (Option.some.inj hd ▸ hc))

/-- Operations in a row may follow an operation, and so may what closes them. -/
theorem Phrase.Operations.follows {n : Nat} {s r : List Char} {ops : List WrittenOperation}
    (h : Operations n s r ops) (hr : Closes r) : Follows s := by
  cases h with
  | nil => exact hr.follows
  | leaf hhead _ _ => exact hhead.follows
  | node hhead _ _ _ _ _ => exact hhead.follows

/-- No operation begins where a list of operations closes. -/
theorem spacedOperation_closes (R : Scanner (List WrittenOperation)) {s : List Char}
    (h : Closes s) : (spacedOperation R).reads s = none := by
  have hident : identifier.reads s = none := by
    cases s with
    | nil => rfl
    | cons c cs =>
      rcases h c rfl with rfl | rfl
      · exact reads_identifier_eq_none cs (by decide)
      · exact reads_identifier_eq_none cs (by decide)
  rw [reads_spacedOperation, reads_operation, hident]
  rfl

/-- A head in front of a text that begins neither a dictionary nor a gap: then only
the region is left to be read. -/
theorem operation_complete {R : Scanner (List WrittenOperation)} {s s₁ s₂ : List Char}
    {name : String} {as : List WrittenAttribute} (hhead : Head s s₁ name as) (hgap : Gap s₁ s₂)
    (hstop : GapStops s₂) (hbrace : s₂.head? ≠ some '\x7b') :
    (operation R).reads s = ((optional R).reads s₂).bind fun (children, r) =>
      some (⟨name, as, children.getD []⟩, r) := by
  obtain ⟨hname, hgap₁, hattrs⟩ := hhead
  obtain ⟨as?, t, hreads, rfl, ht⟩ := optional_dictionary_complete hattrs hgap hstop hbrace
  rw [reads_operation, reads_identifier_iff.mpr hname]
  dsimp only [Option.bind_some]
  rw [afterGap_eq_of_gap hgap₁, hreads]
  dsimp only [Option.bind_some]
  rw [ht]

/-- Without its bracket there is no region. -/
theorem reads_region_eq_none (n : Nat) {s : List Char} (h : s.head? ≠ some '(') :
    (region n).reads s = none := by
  cases n with
  | zero => exact reads_region_zero s
  | succ n =>
    rw [reads_region_succ, reads_char_eq_none h]
    rfl

/-- A list of operations in front of its end is what the repetition reads. In the
induction each operation is followed by the rest of the list, and the first
character of that rest decides that the operation has no further part. -/
theorem operations_complete {n : Nat} {s r : List Char} {ops : List WrittenOperation}
    (h : Operations n s r ops) (hr : Closes r) :
    (operations (region n)).reads s = some (ops, r) := by
  induction h with
  | nil => exact reads_many_nil (spacedOperation_closes _ hr)
  | @leaf n s s₁ s₂ r name as ops hhead hgap hops ih =>
    have hfollows := hops.follows hr
    have hop : (spacedOperation (region n)).reads s = some (⟨name, as, []⟩, s₂) := by
      rw [reads_spacedOperation, operation_complete hhead hgap hfollows.gapStops
        (hfollows.head?_ne (by decide) (by decide) rfl), reads_optional,
        reads_region_eq_none n (hfollows.head?_ne (by decide) (by decide) rfl)]
      dsimp only [Option.map_none, Option.none_or, Option.bind_some]
      rw [show afterGap s₂ = s₂ from hfollows.gapStops]
      rfl
    exact reads_many_cons hop (spacedOperation_sound region_sound hop).1 (ih hr)
  | @node n s s₁ s₂ s₃ s₄ s₅ r name as children ops hhead hopen hin hchildren hout hops ihc ih =>
    have hfollows := hops.follows hr
    -- the region ends at its parenthesis, where the list of its operations closes
    have hregion : (region (n + 1)).reads ('(' :: s₂) = some (children, s₄) := by
      rw [reads_region_succ, reads_char_cons]
      dsimp only [Option.bind_some]
      rw [hin.afterGap (hchildren.follows (closes_paren s₄)).gapStops, ihc (closes_paren s₄)]
      dsimp only [Option.bind_some]
      rw [reads_char_cons]
      rfl
    have hop : (spacedOperation (region (n + 1))).reads s = some (⟨name, as, children⟩, s₅) := by
      rw [reads_spacedOperation, operation_complete hhead hopen (gapStops_cons _ rfl (by decide))
        (by simp), reads_optional, hregion]
      dsimp only [Option.map_some, Option.some_or, Option.bind_some]
      rw [hout.afterGap hfollows.gapStops]
      rfl
    exact reads_many_cons hop (spacedOperation_sound region_sound hop).1 (ih hr)

/-- A list of operations in front of its end can be read in one way only. -/
theorem Phrase.Operations.unique {n n' : Nat} {s r r' : List Char}
    {ops ops' : List WrittenOperation} (h : Operations n s r ops) (h' : Operations n' s r' ops')
    (hr : Closes r) (hr' : Closes r') : ops = ops' ∧ r = r' := by
  have hread := operations_complete (h.mono (Nat.le_max_left n n')) hr
  have hread' := operations_complete (h'.mono (Nat.le_max_right n n')) hr'
  simpa using hread.symm.trans hread'

/-! ## Modules -/

/-- The name of a module is read up to the brace, whoever the gaps belong to. -/
theorem optional_symbol_complete {s r r' : List Char} {name? : Option String}
    (h : Symbol s r name?) (hgap : Gap r ('\x7b' :: r')) :
    ∃ t, (optional symbol).reads (afterGap s) = some (name?, t) ∧ afterGap t = '\x7b' :: r' := by
  have hstop : GapStops ('\x7b' :: r') := gapStops_cons _ rfl (by decide)
  cases h with
  | absent =>
    refine ⟨'\x7b' :: r', ?_, hstop⟩
    rw [hgap.afterGap hstop, reads_optional, reads_symbol, reads_char_eq_none (by simp)]
    rfl
  | @named s r name hname =>
    refine ⟨r, ?_, hgap.afterGap hstop⟩
    rw [show afterGap ('@' :: s) = '@' :: s from gapStops_cons _ rfl (by decide), reads_optional,
      reads_symbol, reads_char_cons]
    dsimp only [Option.bind_some]
    rw [reads_name_iff.mpr hname]
    rfl

/-- Every declaration is read as it is written. -/
theorem moduleDeclaration_complete {n : Nat} {s r : List Char} {m : WrittenModule}
    (h : Declaration n s r m) : (moduleDeclaration n).reads s = some (m, r) := by
  obtain ⟨hkey, hgap, hsym, hopen, hin, hops⟩ := h
  obtain ⟨t, hreads, ht⟩ := optional_symbol_complete hsym hopen
  rw [reads_moduleDeclaration, reads_moduleKeyword_iff.mpr hkey]
  dsimp only [Option.bind_some]
  rw [afterGap_eq_of_gap hgap, hreads]
  dsimp only [Option.bind_some]
  rw [ht, reads_char_cons]
  dsimp only [Option.bind_some]
  rw [hin.afterGap (hops.follows (closes_brace _)).gapStops, operations_complete hops
    (closes_brace _)]
  dsimp only [Option.bind_some]
  rw [reads_char_cons]
  rfl

/-- A text is a declaration in one way at most. -/
theorem Phrase.Declaration.unique {n n' : Nat} {s r r' : List Char} {m m' : WrittenModule}
    (h : Declaration n s r m) (h' : Declaration n' s r' m') : m = m' ∧ r = r' := by
  have hread := moduleDeclaration_complete (h.mono (Nat.le_max_left n n'))
  have hread' := moduleDeclaration_complete (h'.mono (Nat.le_max_right n n'))
  simpa using hread.symm.trans hread'

theorem Phrase.Declaration.gapStops {n : Nat} {s r : List Char} {m : WrittenModule}
    (h : Declaration n s r m) : GapStops s := by
  obtain ⟨hkey, _, _, _, _, _⟩ := h
  cases hkey
  exact gapStops_cons _ rfl (by decide)

end IrOptimizer.Generic
