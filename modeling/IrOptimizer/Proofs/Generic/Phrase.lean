import IrOptimizer.Generic.Grammar

/-!
# The generic form: its language

What a text says, without saying how to read it. Every phrase is a relation
between a text, what the phrase leaves of it, and what is written there; each
constructor is one production. Choice is free, and so is how far a repetition
goes or how much of a gap belongs to which phrase: nothing here prefers the
first alternative or the longest run. Only words are maximal, which `WordStops`
says of the text behind them.

`Operations` carries how many regions may be open at once inside the phrase.
A whole text (`Reading`) is a module declaration if some prefix of it is one,
and a bare list of operations otherwise.
-/

namespace IrOptimizer.Generic.Phrase

open Text

/-! ## Gaps and words -/

/-- Any run of blanks and comments. A comment reaches to the end of its line. -/
inductive Gap : List Char → List Char → Prop where
  | nil {s} : Gap s s
  | blank {c s r} : isPlainBlank c = true → Gap s r → Gap (c :: s) r
  | comment {body s r} : '\n' ∉ body → s.head?.all (· = '\n') = true → Gap s r →
      Gap ('/' :: '/' :: (body ++ s)) r

/-- A gap is at the front of a text. -/
theorem Gap.suffix {s r : List Char} (h : Gap s r) : r <:+ s := by
  induction h with
  | nil => exact List.suffix_rfl
  | blank _ _ ih => exact ih.trans (List.suffix_cons ..)
  | @comment body s r _ _ _ ih =>
    exact ih.trans ((List.suffix_append body s).trans ⟨['/', '/'], rfl⟩)

/-- Two gaps in a row are one. -/
theorem Gap.trans {s t r : List Char} (h₁ : Gap s t) (h₂ : Gap t r) : Gap s r := by
  induction h₁ with
  | nil => exact h₂
  | blank hc _ ih => exact .blank hc (ih h₂)
  | comment hbody hs _ ih => exact .comment hbody hs (ih h₂)

/-- A text that does not go on with a character of a word. -/
def WordStops (s : List Char) : Prop := s.head?.all (fun c => !isIdentifierChar c) = true

inductive Identifier : List Char → List Char → String → Prop where
  | mk {w r} : isIdentifier w = true → WordStops r → Identifier (w ++ r) r (String.ofList w)

/-- An identifier begins with a character that may begin one. -/
theorem Identifier.head {s r : List Char} {name : String} (h : Identifier s r name) :
    ∃ c cs, s = c :: cs ∧ isIdentifierStart c = true := by
  obtain @⟨w, _, hw, _⟩ := h
  cases w with
  | nil => simp [isIdentifier] at hw
  | cons c cs =>
    simp only [isIdentifier, Bool.and_eq_true] at hw
    exact ⟨c, cs ++ r, rfl, hw.1⟩

theorem Identifier.suffix {s r : List Char} {name : String} (h : Identifier s r name) :
    r <:+ s := by
  obtain @⟨w, _, _, _⟩ := h
  exact List.suffix_append w r

/-- An identifier is not empty. -/
theorem Identifier.length_lt {s r : List Char} {name : String} (h : Identifier s r name) :
    r.length < s.length := by
  obtain @⟨w, _, hw, _⟩ := h
  cases w with
  | nil => simp [isIdentifier] at hw
  | cons c cs =>
    simp only [List.cons_append, List.length_cons, List.length_append]
    omega

inductive Keyword : List Char → List Char → Prop where
  | mk {r} : WordStops r → Keyword ("module".toList ++ r) r

theorem Keyword.suffix {s r : List Char} (h : Keyword s r) : r <:+ s := by
  cases h
  exact List.suffix_append _ r

/-! ## Literals -/

/-- A character behind a backslash and the character it stands for. -/
inductive Escape : Char → Char → Prop where
  | quote : Escape '"' '"'
  | backslash : Escape '\\' '\\'
  | lineFeed : Escape 'n' '\n'
  | tab : Escape 't' '\t'

/-- What stands between the quotes of a string, and the text it stands for. -/
inductive Body : List Char → List Char → Prop where
  | nil : Body [] []
  | plain {c b v} : c ≠ '"' → c ≠ '\\' → Body b v → Body (c :: b) (c :: v)
  | escape {c d b v} : Escape c d → Body b v → Body ('\\' :: c :: b) (d :: v)

inductive Quoted : List Char → List Char → String → Prop where
  | mk {b v r} : Body b v → Quoted ('"' :: (b ++ '"' :: r)) r (String.ofList v)

theorem Quoted.suffix {s r : List Char} {name : String} (h : Quoted s r name) : r <:+ s := by
  obtain @⟨b, _, _, _⟩ := h
  exact ((List.suffix_cons ..).trans (List.suffix_append b _)).trans (List.suffix_cons ..)

/-- A quoted text has at least its quotes. -/
theorem Quoted.length_lt {s r : List Char} {name : String} (h : Quoted s r name) :
    r.length < s.length := by
  cases h
  simp only [List.length_cons, List.length_append]
  omega

/-- A bare or quoted name. -/
inductive Name : List Char → List Char → String → Prop where
  | bare {s r name} : Identifier s r name → Name s r name
  | quoted {s r name} : Quoted s r name → Name s r name

theorem Name.suffix {s r : List Char} {name : String} (h : Name s r name) : r <:+ s := by
  cases h with
  | bare h => exact h.suffix
  | quoted h => exact h.suffix

/-- A name is not empty, whether it is quoted or not. -/
theorem Name.length_lt {s r : List Char} {name : String} (h : Name s r name) :
    r.length < s.length := by
  cases h with
  | bare h => exact h.length_lt
  | quoted h => exact h.length_lt

inductive Value : List Char → List Char → WrittenValue → Prop where
  | int {w r n} : integer? w = some n → WordStops r → Value (w ++ r) r (.int n)
  | true {r} : WordStops r → Value ("true".toList ++ r) r (.bool .true)
  | false {r} : WordStops r → Value ("false".toList ++ r) r (.bool .false)
  | str {s r v} : Quoted s r v → Value s r (.str v)

theorem Value.suffix {s r : List Char} {v : WrittenValue} (h : Value s r v) : r <:+ s := by
  cases h with
  | int | true | false => exact List.suffix_append _ r
  | str h => exact h.suffix

/-! ## Attributes -/

/-- A key, an equals sign and a value, with the places where key and value begin. -/
inductive Entry : List Char → List Char → WrittenAttribute → Prop where
  | mk {s s₁ s₂ s₃ r key value} : Name s s₁ key → Gap s₁ ('=' :: s₂) → Gap s₂ s₃ →
      Value s₃ r value → Entry s r ⟨s.length, key, s₃.length, value⟩

theorem Value.length_le {s r : List Char} {v : WrittenValue} (h : Value s r v) :
    r.length ≤ s.length := by
  cases h with
  | int | true | false => simp only [List.length_append]; omega
  | str h => exact Nat.le_of_lt h.length_lt

/-- An entry begins with its key and ends with its value, at the places that it names. -/
theorem Entry.exists_value {s r : List Char} {a : WrittenAttribute} (h : Entry s r a) :
    a.place = s.length ∧ ∃ t, t <:+ s ∧ t.length = a.valuePlace ∧ Value t r a.value := by
  obtain ⟨hname, hgap, hgap', hvalue⟩ := h
  have hbehind := hgap.suffix.trans hname.suffix
  exact ⟨rfl, _, hgap'.suffix.trans ((List.suffix_cons ..).trans hbehind), rfl, hvalue⟩

theorem Entry.suffix {s r : List Char} {a : WrittenAttribute} (h : Entry s r a) : r <:+ s := by
  obtain ⟨_, t, ht, _, hvalue⟩ := h.exists_value
  exact hvalue.suffix.trans ht

/-- An entry has at least its key. -/
theorem Entry.length_lt {s r : List Char} {a : WrittenAttribute} (h : Entry s r a) :
    r.length < s.length := by
  obtain ⟨hname, hgap, hgap', hvalue⟩ := h
  have h₁ := hname.length_lt
  have h₂ := hgap.suffix.length_le
  have h₃ := hgap'.suffix.length_le
  have h₄ := hvalue.length_le
  simp only [List.length_cons] at h₂
  omega

/-- One or more entries with commas between them. -/
inductive Entries : List Char → List Char → List WrittenAttribute → Prop where
  | last {s s₁ r a} : Entry s s₁ a → Gap s₁ r → Entries s r [a]
  | cons {s s₁ s₂ s₃ r a more} : Entry s s₁ a → Gap s₁ (',' :: s₂) → Gap s₂ s₃ →
      Entries s₃ r more → Entries s r (a :: more)

/-- A gap behind entries belongs to them. -/
theorem Entries.gap {s r r' : List Char} {as : List WrittenAttribute} (h : Entries s r as)
    (hgap : Gap r r') : Entries s r' as := by
  induction h with
  | last hentry hgap₁ => exact .last hentry (hgap₁.trans hgap)
  | cons hentry hcomma hgap₁ _ ih => exact .cons hentry hcomma hgap₁ (ih hgap)

theorem Entries.length_lt {s r : List Char} {as : List WrittenAttribute} (h : Entries s r as) :
    r.length < s.length := by
  induction h with
  | last hentry hgap => exact Nat.lt_of_le_of_lt hgap.suffix.length_le hentry.length_lt
  | cons hentry hcomma hgap _ ih =>
    have h₁ := hentry.length_lt
    have h₂ := hcomma.suffix.length_le
    have h₃ := hgap.suffix.length_le
    simp only [List.length_cons] at h₂
    omega

/-- An attribute dictionary between braces. -/
inductive Braces : List Char → List Char → List WrittenAttribute → Prop where
  | empty {s r} : Gap s ('\x7d' :: r) → Braces ('\x7b' :: s) r []
  | listed {s s₁ r as} : Gap s s₁ → Entries s₁ ('\x7d' :: r) as → Braces ('\x7b' :: s) r as

theorem Braces.length_lt {s r : List Char} {as : List WrittenAttribute} (h : Braces s r as) :
    r.length < s.length := by
  cases h with
  | empty hgap =>
    have h₁ := hgap.suffix.length_le
    simp only [List.length_cons] at h₁ ⊢
    omega
  | listed hgap hentries =>
    have h₁ := hgap.suffix.length_le
    have h₂ := hentries.length_lt
    simp only [List.length_cons] at h₂ ⊢
    omega

/-- An optional attribute dictionary. -/
inductive AttributeList : List Char → List Char → List WrittenAttribute → Prop where
  | absent {s} : AttributeList s s []
  | braces {s r as} : Braces s r as → AttributeList s r as

/-- Attributes that may be missing leave no more than there was. -/
theorem AttributeList.length_le {s r : List Char} {as : List WrittenAttribute}
    (h : AttributeList s r as) : r.length ≤ s.length := by
  cases h with
  | absent => exact Nat.le_refl _
  | braces h => exact Nat.le_of_lt h.length_lt

/-! ## Operations -/

/-- An operation up to its region. -/
inductive Head : List Char → List Char → String → List WrittenAttribute → Prop where
  | mk {s s₁ s₂ r name as} : Identifier s s₁ name → Gap s₁ s₂ → AttributeList s₂ r as →
      Head s r name as

theorem Head.length_lt {s r : List Char} {name : String} {as : List WrittenAttribute}
    (h : Head s r name as) : r.length < s.length := by
  obtain ⟨hname, hgap, hattrs⟩ := h
  have h₁ := hname.length_lt
  have h₂ := hgap.suffix.length_le
  have h₃ := hattrs.length_le
  omega

/-- Operations, of which each may have a region; inside this phrase at most so
many regions are open at any point. -/
inductive Operations : Nat → List Char → List Char → List WrittenOperation → Prop where
  | nil {n s} : Operations n s s []
  | leaf {n s s₁ s₂ r name as ops} : Head s s₁ name as → Gap s₁ s₂ →
      Operations n s₂ r ops → Operations n s r (⟨name, as, []⟩ :: ops)
  | node {n s s₁ s₂ s₃ s₄ s₅ r name as children ops} : Head s s₁ name as →
      Gap s₁ ('(' :: s₂) → Gap s₂ s₃ → Operations n s₃ (')' :: s₄) children → Gap s₄ s₅ →
      Operations (n + 1) s₅ r ops → Operations (n + 1) s r (⟨name, as, children⟩ :: ops)

/-- Operations in a row may be none, and leave no more than there was. -/
theorem Operations.length_le {n : Nat} {s r : List Char} {ops : List WrittenOperation}
    (h : Operations n s r ops) : r.length ≤ s.length := by
  induction h with
  | nil => exact Nat.le_refl _
  | leaf hhead hgap _ ih =>
    have h₁ := hhead.length_lt
    have h₂ := hgap.suffix.length_le
    omega
  | node hhead hopen hgap _ hclose _ ihc ih =>
    have h₁ := hhead.length_lt
    have h₂ := hopen.suffix.length_le
    have h₃ := hgap.suffix.length_le
    have h₄ := hclose.suffix.length_le
    simp only [List.length_cons] at h₂ ihc
    omega

/-- A region, itself one of the levels it may have. -/
inductive Region : Nat → List Char → List Char → List WrittenOperation → Prop where
  | mk {n s s₁ r ops} : Gap s s₁ → Operations n s₁ (')' :: r) ops → Region (n + 1) ('(' :: s) r ops

/-- A region that is written takes at least its braces. -/
theorem Region.length_lt {n : Nat} {s r : List Char} {ops : List WrittenOperation}
    (h : Region n s r ops) : r.length < s.length := by
  obtain ⟨hgap, hops⟩ := h
  have h₁ := hgap.suffix.length_le
  have h₂ := hops.length_le
  simp only [List.length_cons] at h₂ ⊢
  omega

/-- An operation with a region, in front of others. -/
theorem Operations.region {n : Nat} {s s₁ s₂ s₃ s₄ r : List Char} {name : String}
    {as : List WrittenAttribute} {children ops : List WrittenOperation}
    (hhead : Head s s₁ name as) (hgap : Gap s₁ s₂) (hregion : Region n s₂ s₃ children)
    (hgap' : Gap s₃ s₄) (hops : Operations n s₄ r ops) :
    Operations n s r (⟨name, as, children⟩ :: ops) := by
  obtain ⟨hin, hchildren⟩ := hregion
  exact .node hhead hgap hin hchildren hgap' hops

/-- A gap behind operations belongs to the last of them, or else comes before them all. -/
theorem Operations.absorb {n : Nat} {s r r' : List Char} {ops : List WrittenOperation}
    (h : Operations n s r ops) (hgap : Gap r r') : ∃ s', Gap s s' ∧ Operations n s' r' ops := by
  induction h with
  | nil => exact ⟨_, hgap, .nil⟩
  | leaf hhead hbetween _ ih =>
    obtain ⟨s', hs', hops⟩ := ih hgap
    exact ⟨_, .nil, .leaf hhead (hbetween.trans hs') hops⟩
  | node hhead hopen hin hchildren hout _ _ ih =>
    obtain ⟨s', hs', hops⟩ := ih hgap
    exact ⟨_, .nil, .node hhead hopen hin hchildren (hout.trans hs') hops⟩

/-- Operations behind operations are operations in a row. -/
theorem Operations.append {n : Nat} {s t r : List Char} {ops ops' : List WrittenOperation}
    (h : Operations n s t ops) (h' : Operations n t r ops') : Operations n s r (ops ++ ops') := by
  induction h with
  | nil => exact h'
  | leaf hhead hgap _ ih => exact .leaf hhead hgap (ih h')
  | node hhead hopen hin hchildren hout _ _ ih => exact .node hhead hopen hin hchildren hout (ih h')

/-- What can be read with some regions open can be read with more. -/
theorem Operations.mono {n n' : Nat} {s r : List Char} {ops : List WrittenOperation}
    (h : Operations n s r ops) (hle : n ≤ n') : Operations n' s r ops := by
  induction h generalizing n' with
  | nil => exact .nil
  | leaf hhead hgap _ ih => exact .leaf hhead hgap (ih hle)
  | node hhead hopen hgap _ hclose _ ihc ih =>
    cases n' with
    | zero => omega
    | succ n' => exact .node hhead hopen hgap (ihc (by omega)) hclose (ih (by omega))

/-! ## Modules -/

/-- The optional name of a module. -/
inductive Symbol : List Char → List Char → Option String → Prop where
  | absent {s} : Symbol s s none
  | named {s r name} : Name s r name → Symbol ('@' :: s) r (some name)

theorem Symbol.suffix {s r : List Char} {name : Option String} (h : Symbol s r name) : r <:+ s := by
  cases h with
  | absent => exact List.suffix_rfl
  | named h => exact h.suffix.trans (List.suffix_cons ..)

inductive Declaration (levels : Nat) : List Char → List Char → WrittenModule → Prop where
  | mk {s s₁ s₂ s₃ s₄ s₅ r name ops} : Keyword s s₁ → Gap s₁ s₂ → Symbol s₂ s₃ name →
      Gap s₃ ('\x7b' :: s₄) → Gap s₄ s₅ → Operations levels s₅ ('\x7d' :: r) ops →
      Declaration levels s r ⟨name, ops⟩

/-- A declaration that fits into some levels fits into more. -/
theorem Declaration.mono {n n' : Nat} {s r : List Char} {m : WrittenModule}
    (h : Declaration n s r m) (hle : n ≤ n') : Declaration n' s r m := by
  obtain ⟨hkey, hgap, hsym, hopen, hin, hops⟩ := h
  exact .mk hkey hgap hsym hopen hin (hops.mono hle)

/-- Some prefix of the text, blanks and comments before it apart, is a module
declaration, however deep its regions are. -/
def StartsDeclaration (s : List Char) : Prop :=
  ∃ s₁ r levels m, Gap s s₁ ∧ Declaration levels s₁ r m

/-- A whole text in which at most so many regions are open at any point. A
declaration at its start is preferred, whatever follows it. -/
inductive Reading (levels : Nat) : List Char → WrittenModule → Prop where
  | declared {s s₁ s₂ m} : Gap s s₁ → Declaration levels s₁ s₂ m → Gap s₂ [] →
      Reading levels s m
  | bare {s s₁ s₂ ops} : ¬ StartsDeclaration s → Gap s s₁ → Operations levels s₁ s₂ ops →
      Gap s₂ [] → Reading levels s ⟨none, ops⟩

/-- A reading within some levels is one within more. -/
theorem Reading.mono {n n' : Nat} {s : List Char} {m : WrittenModule}
    (h : Reading n s m) (hle : n ≤ n') : Reading n' s m := by
  cases h with
  | declared hgap hdecl hend => exact .declared hgap (hdecl.mono hle) hend
  | bare hnone hgap hops hend => exact .bare hnone hgap (hops.mono hle) hend

end IrOptimizer.Generic.Phrase
