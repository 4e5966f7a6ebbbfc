import IrOptimizer.Generic.Nesting
import IrOptimizer.Proofs.Generic.Lexical

/-!
# Counting parentheses follows the language

`tooDeep?` counts parentheses without knowing the grammar. Over a phrase of the
language it comes out in the same zone with as many levels open as before
(`Counts`), unless the phrase itself nests too deep. Two consequences tie the
count to the levels of `Operations`:

- `Operations.counts`: a phrase that fits into the levels that are left is
  passed over without a complaint;
- `Operations.of_tooDeep?`: where there is no complaint, the levels that are left
  suffice, however many the phrase was read with.

So a text that reads at all is refused exactly if it needs more than `maxNesting`
levels (`Reading.overflow?_eq_none_iff`).
-/

namespace IrOptimizer.Generic

open Text Phrase

/-- Counting from one text comes to another behind it, between phrases, with the
number of open levels changed from `d` to `d'`. -/
def Counts (d d' : Nat) (s r : List Char) : Prop :=
  ∃ u, s = u ++ r ∧ ∀ place,
    tooDeep? .plain d place s = tooDeep? .plain d' (u.foldl Position.advance place) r

theorem Counts.refl (d : Nat) (s : List Char) : Counts d d s s :=
  ⟨[], rfl, fun _ => rfl⟩

/-- Counting goes on where it has stopped. -/
theorem Counts.trans {d d' d'' : Nat} {s t r : List Char} (h₁ : Counts d d' s t)
    (h₂ : Counts d' d'' t r) : Counts d d'' s r := by
  obtain ⟨u, rfl, hu⟩ := h₁
  obtain ⟨v, rfl, hv⟩ := h₂
  refine ⟨u ++ v, by simp, fun place => ?_⟩
  rw [hu, hv, List.foldl_append]

/-- Nothing is refused behind a phrase if nothing is refused in front of it. -/
theorem Counts.eq_none {d d' : Nat} {s r : List Char} (h : Counts d d' s r) {place : Position}
    (hnone : tooDeep? .plain d place s = none) :
    ∃ place', tooDeep? .plain d' place' r = none := by
  obtain ⟨u, _, hu⟩ := h
  exact ⟨_, (hu place).symm.trans hnone⟩

/-! ## Single characters -/

/-- A character that begins neither a string nor a comment and is no parenthesis. -/
theorem counts_char (d : Nat) {c : Char} {s : List Char} (hquote : c ≠ '"') (hopen : c ≠ '(')
    (hclose : c ≠ ')') (hslash : c ≠ '/') : Counts d d (c :: s) s := by
  refine ⟨[c], rfl, fun place => ?_⟩
  simp [tooDeep?, Zone.step, hquote, hopen, hclose, hslash]

/-- An opening bracket counts, if there is a level left. -/
theorem counts_open {d : Nat} (hd : d < maxNesting) (s : List Char) :
    Counts d (d + 1) ('(' :: s) s := by
  refine ⟨['('], rfl, fun place => ?_⟩
  simp [tooDeep?, Zone.step, hd]

/-- A closing bracket takes a level back. -/
theorem counts_close (d : Nat) (s : List Char) : Counts (d + 1) d (')' :: s) s := by
  refine ⟨[')'], rfl, fun place => ?_⟩
  simp [tooDeep?, Zone.step]

/-- A level too many is refused where it opens. -/
theorem lt_of_tooDeep?_open {d : Nat} {place : Position} {s : List Char}
    (h : tooDeep? .plain d place ('(' :: s) = none) : d < maxNesting := by
  by_cases hd : d < maxNesting
  · exact hd
  · simp [tooDeep?, hd] at h

/-! ## Gaps and words -/

theorem counts_blank (d : Nat) {c : Char} (hc : isPlainBlank c = true) (s : List Char) :
    Counts d d (c :: s) s := by
  simp only [isPlainBlank, Bool.or_eq_true, decide_eq_true_eq] at hc
  obtain ((rfl | rfl) | rfl) | rfl := hc <;>
    exact counts_char d (by decide) (by decide) (by decide) (by decide)

/-- Inside a comment nothing counts, and the end of its line ends it. -/
theorem tooDeep?_comment (d : Nat) {body s : List Char} (hbody : '\n' ∉ body)
    (hs : s.head?.all (· = '\n') = true) (place : Position) :
    tooDeep? .comment d place (body ++ s) =
      tooDeep? .plain d (body.foldl Position.advance place) s := by
  induction body generalizing place with
  | nil =>
    cases s with
    | nil => rfl
    | cons c cs =>
      have hc : c = '\n' := by simpa using hs
      subst hc
      simp [tooDeep?, Zone.step]
  | cons c cs ih =>
    have hc : c ≠ '\n' := fun h => hbody (h ▸ List.mem_cons_self ..)
    have hcs := ih (fun h => hbody (List.mem_cons_of_mem _ h)) (place.advance c)
    simp [tooDeep?, Zone.step, hc, hcs]

/-- Brackets in comments do not count. -/
theorem Phrase.Gap.counts (d : Nat) {s r : List Char} (h : Gap s r) : Counts d d s r := by
  induction h with
  | nil => exact .refl d _
  | blank hc _ ih => exact (counts_blank d hc _).trans ih
  | @comment body s r hbody hs _ ih =>
    refine Counts.trans ⟨'/' :: '/' :: body, rfl, fun place => ?_⟩ ih
    have hcomment := tooDeep?_comment d hbody hs ((place.advance '/').advance '/')
    simp [tooDeep?, Zone.step, hcomment]

theorem counts_identifierChar (d : Nat) {c : Char} (hc : isIdentifierChar c = true)
    (s : List Char) : Counts d d (c :: s) s := by
  refine counts_char d ?_ ?_ ?_ ?_ <;> (rintro rfl; exact absurd hc (by decide))

/-- A word has no brackets. -/
theorem counts_word (d : Nat) {w : List Char} (hw : ∀ c ∈ w, isIdentifierChar c = true)
    (r : List Char) : Counts d d (w ++ r) r := by
  induction w with
  | nil => exact .refl d r
  | cons c cs ih =>
    exact (counts_identifierChar d (hw c (List.mem_cons_self ..)) _).trans
      (ih fun x hx => hw x (List.mem_cons_of_mem _ hx))

/-! ## Strings, names and values -/

/-- Inside a string nothing counts, and a body does not end it. -/
theorem tooDeep?_body (d : Nat) {b v : List Char} (h : Body b v) (r : List Char)
    (place : Position) :
    tooDeep? .string d place (b ++ r) =
      tooDeep? .string d (b.foldl Position.advance place) r := by
  induction h generalizing place with
  | nil => rfl
  | @plain c b v hquote hslash _ ih => simp [tooDeep?, Zone.step, hquote, hslash, ih]
  | escape he _ ih => simp [tooDeep?, Zone.step, ih]

/-- Brackets in quoted texts do not count. -/
theorem Phrase.Quoted.counts (d : Nat) {s r : List Char} {v : String}
    (h : Phrase.Quoted s r v) : Counts d d s r := by
  obtain @⟨b, v, r, hb⟩ := h
  refine ⟨'"' :: (b ++ ['"']), by simp, fun place => ?_⟩
  have hbody := tooDeep?_body d hb ('"' :: r) (place.advance '"')
  simp [tooDeep?, Zone.step, hbody]

theorem Phrase.Identifier.counts (d : Nat) {s r : List Char} {name : String}
    (h : Identifier s r name) : Counts d d s r := by
  obtain ⟨hw, _⟩ := h
  exact counts_word d (fun _ => isIdentifierChar_of_mem hw) _

/-- A name has no brackets that count. -/
theorem Phrase.Name.counts (d : Nat) {s r : List Char} {name : String} (h : Name s r name) :
    Counts d d s r := by
  cases h with
  | bare h => exact h.counts d
  | quoted h => exact h.counts d

theorem Phrase.Value.counts (d : Nat) {s r : List Char} {v : WrittenValue} (h : Value s r v) :
    Counts d d s r := by
  cases h with
  | int hn _ => exact counts_word d (isIdentifierChar_of_integer? hn) _
  | true _ => exact counts_word d (fun _ => isIdentifierChar_of_mem rfl) _
  | false _ => exact counts_word d (fun _ => isIdentifierChar_of_mem rfl) _
  | str h => exact h.counts d

/-! ## Attributes -/

/-- Punctuation that is no parenthesis, behind a gap. -/
theorem Phrase.Gap.counts_char (d : Nat) {c : Char} {s r : List Char} (h : Gap s (c :: r))
    (hc : c ∈ ['=', ',', '\x7b', '\x7d', '@']) : Counts d d s r := by
  refine (h.counts d).trans ?_
  simp only [List.mem_cons, List.not_mem_nil, or_false] at hc
  obtain rfl | rfl | rfl | rfl | rfl := hc <;>
    exact Generic.counts_char d (by decide) (by decide) (by decide) (by decide)

/-- An attribute has no brackets that count. -/
theorem Phrase.Entry.counts (d : Nat) {s r : List Char} {a : WrittenAttribute}
    (h : Entry s r a) : Counts d d s r := by
  obtain ⟨hname, heq, hgap, hvalue⟩ := h
  exact (((hname.counts d).trans (heq.counts_char d (by decide))).trans (hgap.counts d)).trans
    (hvalue.counts d)

theorem Phrase.Entries.counts (d : Nat) {s r : List Char} {as : List WrittenAttribute}
    (h : Entries s r as) : Counts d d s r := by
  induction h with
  | last hentry hgap => exact (hentry.counts d).trans (hgap.counts d)
  | cons hentry hcomma hgap _ ih =>
    exact (((hentry.counts d).trans (hcomma.counts_char d (by decide))).trans
      (hgap.counts d)).trans ih

theorem Phrase.Braces.counts (d : Nat) {s r : List Char} {as : List WrittenAttribute}
    (h : Braces s r as) : Counts d d s r := by
  cases h with
  | empty hgap =>
    exact (Gap.nil.counts_char d (by decide)).trans (hgap.counts_char d (by decide))
  | listed hgap hentries =>
    exact (((Gap.nil.counts_char d (by decide)).trans (hgap.counts d)).trans
      (hentries.counts d)).trans (Gap.nil.counts_char d (by decide))

/-- Behind the head of an operation the level is that before it. -/
theorem Phrase.Head.counts (d : Nat) {s r : List Char} {name : String}
    {as : List WrittenAttribute} (h : Head s r name as) : Counts d d s r := by
  obtain ⟨hname, hgap, hattrs⟩ := h
  refine ((hname.counts d).trans (hgap.counts d)).trans ?_
  cases hattrs with
  | absent => exact .refl d _
  | braces h => exact h.counts d

/-! ## Operations -/

/-- Operations that fit into the levels that are left are passed over. -/
theorem Phrase.Operations.counts {n : Nat} {s r : List Char} {ops : List WrittenOperation}
    (h : Operations n s r ops) {d : Nat} (hd : d + n ≤ maxNesting) : Counts d d s r := by
  induction h generalizing d with
  | nil => exact .refl d _
  | leaf hhead hgap _ ih => exact ((hhead.counts d).trans (hgap.counts d)).trans (ih hd)
  | @node n s s₁ s₂ s₃ s₄ s₅ r name as children ops hhead hopen hin _ hout _ ihc ih =>
    have hbefore : Counts d (d + 1) s s₂ :=
      ((hhead.counts d).trans (hopen.counts d)).trans (counts_open (by omega) s₂)
    have hinside : Counts (d + 1) d s₂ s₄ :=
      ((hin.counts (d + 1)).trans (ihc (by omega))).trans (counts_close d s₄)
    exact ((hbefore.trans hinside).trans (hout.counts d)).trans (ih hd)

/-- Operations in which nothing is refused fit into the levels that are left. The
induction carries the number of open levels; behind each region the count is back
where it was, because the region fits by induction and so is passed over. -/
theorem Phrase.Operations.of_tooDeep? {n : Nat} {s r : List Char}
    {ops : List WrittenOperation} (h : Operations n s r ops) {d : Nat} {place : Position}
    (hnone : tooDeep? .plain d place s = none) : Operations (maxNesting - d) s r ops := by
  induction h generalizing d place with
  | nil => exact .nil
  | leaf hhead hgap _ ih =>
    obtain ⟨_, hnext⟩ := ((hhead.counts d).trans (hgap.counts d)).eq_none hnone
    exact .leaf hhead hgap (ih hnext)
  | @node n s s₁ s₂ s₃ s₄ s₅ r name as children ops hhead hopen hin _ hout _ ihc ih =>
    obtain ⟨_, hparen⟩ := ((hhead.counts d).trans (hopen.counts d)).eq_none hnone
    have hd : d < maxNesting := lt_of_tooDeep?_open hparen
    obtain ⟨_, hinside⟩ := ((counts_open hd s₂).trans (hin.counts (d + 1))).eq_none hparen
    have hchildren := ihc hinside
    -- now that the children are known to fit, the count gets past them
    have hback : Counts (d + 1) d s₃ s₅ :=
      ((hchildren.counts (d := d + 1) (by omega)).trans (counts_close d s₄)).trans (hout.counts d)
    obtain ⟨_, hrest⟩ := hback.eq_none hinside
    have hops := ih hrest
    have hlevel : maxNesting - d = maxNesting - (d + 1) + 1 := by omega
    rw [hlevel] at hops ⊢
    exact .node hhead hopen hin hchildren hout hops

/-! ## Modules -/

/-- From the keyword of a declaration to its first operation. -/
theorem counts_declarationHead (d : Nat) {s s₁ s₂ s₃ s₄ s₅ : List Char} {name : Option String}
    (hkey : Keyword s s₁) (hgap : Gap s₁ s₂) (hsym : Symbol s₂ s₃ name)
    (hopen : Gap s₃ ('\x7b' :: s₄)) (hin : Gap s₄ s₅) : Counts d d s s₅ := by
  have hword : Counts d d s s₂ := by
    obtain ⟨_⟩ := hkey
    exact (counts_word d (fun _ => isIdentifierChar_of_mem rfl) _).trans (hgap.counts d)
  have hsymbol : Counts d d s₂ s₃ := by
    cases hsym with
    | absent => exact .refl d _
    | named hname => exact (Gap.nil.counts_char d (by decide)).trans (hname.counts d)
  exact ((hword.trans hsymbol).trans (hopen.counts_char d (by decide))).trans (hin.counts d)

/-- Behind a declaration that fits into the levels all brackets are closed. -/
theorem Phrase.Declaration.counts {n : Nat} {s r : List Char} {m : WrittenModule}
    (h : Declaration n s r m) (hn : n ≤ maxNesting) : Counts 0 0 s r := by
  obtain ⟨hkey, hgap, hsym, hopen, hin, hops⟩ := h
  exact ((counts_declarationHead 0 hkey hgap hsym hopen hin).trans
    (hops.counts (by omega))).trans (Gap.nil.counts_char 0 (by decide))

/-- A declaration in which no bracket is too deep fits into the levels. -/
theorem Phrase.Declaration.of_tooDeep? {n : Nat} {s r : List Char} {m : WrittenModule}
    (h : Declaration n s r m) {place : Position} (hnone : tooDeep? .plain 0 place s = none) :
    Declaration maxNesting s r m := by
  obtain ⟨hkey, hgap, hsym, hopen, hin, hops⟩ := h
  obtain ⟨_, hinside⟩ := (counts_declarationHead 0 hkey hgap hsym hopen hin).eq_none hnone
  exact .mk hkey hgap hsym hopen hin (hops.of_tooDeep? hinside)

/-- A text that can be read at all is refused for its nesting exactly if more than
`maxNesting` regions are open somewhere in its reading. -/
theorem Phrase.Reading.overflow?_eq_none_iff {n : Nat} {s : List Char} {m : WrittenModule}
    (h : Reading n s m) : overflow? s = none ↔ Reading maxNesting s m := by
  constructor
  · intro hnone
    cases h with
    | declared hgap hdecl hend =>
      obtain ⟨_, hin⟩ := (hgap.counts 0).eq_none hnone
      exact .declared hgap (hdecl.of_tooDeep? hin) hend
    | bare hno hgap hops hend =>
      obtain ⟨_, hin⟩ := (hgap.counts 0).eq_none hnone
      exact .bare hno hgap (hops.of_tooDeep? hin) hend
  · intro hread
    have hcounts : Counts 0 0 s [] := by
      cases hread with
      | declared hgap hdecl hend =>
        exact ((hgap.counts 0).trans (hdecl.counts (Nat.le_refl _))).trans (hend.counts 0)
      | bare _ hgap hops hend =>
        exact ((hgap.counts 0).trans (hops.counts (by omega))).trans (hend.counts 0)
    obtain ⟨u, _, hu⟩ := hcounts
    rw [overflow?, hu]
    rfl

/-- Where nothing is refused, a declaration at the start of a text needs no more
levels than there are. -/
theorem exists_declaration_of_starts {s : List Char} (h : StartsDeclaration s)
    (hnone : overflow? s = none) :
    ∃ s₁ r m, Gap s s₁ ∧ Declaration maxNesting s₁ r m := by
  obtain ⟨s₁, r, n, m, hgap, hdecl⟩ := h
  obtain ⟨_, hin⟩ := (hgap.counts 0).eq_none hnone
  exact ⟨s₁, r, m, hgap, hdecl.of_tooDeep? hin⟩

end IrOptimizer.Generic
