import IrOptimizer.Proofs.Generic.Phrase

/-!
# Phrases in front of other texts

Of what a phrase leaves of a text, only the first character matters to it: a word must end there,
and so must the line of a comment. A line feed is as good as any character for both. `StandsIn`
says when a text can be left in the place of another one for these reasons, and `Takes P s r`
that the front of `s` which `P` takes when it leaves `r` is taken as well before all that stands
in for `r`.

Every phrase of the language takes its front in this sense (`Gap.takes`, …, `Declaration.takes`),
because fronts can be put together (`Takes.bind`). What is read may name places, which are counted
from the end of the text, so for most phrases what is written there is left open (`Any`).
-/

namespace IrOptimizer.Generic.Phrase

open Text

/-- A text that may be left in the place of another one: it begins with the same character, or
with a line feed. -/
def StandsIn (r' r : List Char) : Prop := r'.head? = r.head? ∨ r'.head? = some '\n'

namespace StandsIn

variable {r r' : List Char}

/-- A line feed may stand in for whatever comes next. -/
theorem lineFeed (s r : List Char) : StandsIn ('\n' :: s) r := .inr rfl

theorem same_char (c : Char) (s r : List Char) : StandsIn (c :: s) (c :: r) := .inl rfl

/-- What stands in for the end of a text does so behind the same characters. -/
theorem append (h : StandsIn r' r) (x : List Char) : StandsIn (x ++ r') (x ++ r) := by
  cases x with
  | nil => exact h
  | cons c cs => exact same_char c _ _

/-- What is asked of the first character, and holds of a line feed. -/
theorem head?_all {p : Char → Bool} (h : StandsIn r' r) (hp : p '\n' = true)
    (hr : r.head?.all p = true) : r'.head?.all p = true := by
  rcases h with hsame | hfeed
  · rw [hsame]
    exact hr
  · rw [hfeed]
    exact hp

/-- A word that ends before a text ends before what stands in for it. -/
theorem wordStops (h : StandsIn r' r) (hr : WordStops r) : WordStops r' := h.head?_all rfl hr

end StandsIn

/-- The front of a text is a phrase before whatever stands in for the rest. -/
def Takes (P : List Char → List Char → Prop) (s r : List Char) : Prop :=
  ∃ x, s = x ++ r ∧ ∀ r', StandsIn r' r → P (x ++ r') r'

/-- A phrase, whatever is written there. -/
def Any {α : Type} (P : List Char → List Char → α → Prop) (s r : List Char) : Prop :=
  ∃ a, P s r a

namespace Takes

variable {P Q R : List Char → List Char → Prop} {s t r : List Char}

theorem nil (hP : ∀ s, P s s) : Takes P s s := ⟨[], rfl, fun r' _ => hP r'⟩

theorem char (c : Char) (s : List Char) : Takes (fun s r => s = c :: r) (c :: s) s :=
  ⟨[c], rfl, fun _ _ => rfl⟩

/-- One front behind another. -/
theorem bind (hP : Takes P s t) (hQ : Takes Q t r)
    (h : ∀ {s t r}, P s t → Q t r → R s r) : Takes R s r := by
  obtain ⟨x, rfl, hx⟩ := hP
  obtain ⟨y, rfl, hy⟩ := hQ
  refine ⟨x ++ y, (List.append_assoc ..).symm, fun r' hr' => ?_⟩
  rw [List.append_assoc]
  exact h (hx (y ++ r') (hr'.append y)) (hy r' hr')

/-- What is weaker is taken as well. -/
theorem mono (hP : Takes P s r) (h : ∀ {s r}, P s r → Q s r) : Takes Q s r := by
  obtain ⟨x, hs, hx⟩ := hP
  exact ⟨x, hs, fun r' hr' => h (hx r' hr')⟩

/-- A front together with the character behind it. -/
theorem past {c : Char} (hP : Takes P s (c :: r)) : Takes (fun s r => P s (c :: r)) s r :=
  hP.bind (char c r) fun h heq => heq ▸ h

end Takes

/-! ## Gaps -/

/-- A gap is one before whatever stands in for the rest. -/
theorem Gap.takes {s r : List Char} (h : Gap s r) : Takes Gap s r := by
  induction h with
  | nil => exact .nil fun _ => .nil
  | @blank c s r hc _ ih => exact (Takes.char c s).bind ih fun heq hgap => heq ▸ .blank hc hgap
  | @comment body s r hbody hline _ ih =>
    obtain ⟨x, rfl, hx⟩ := ih
    refine ⟨'/' :: '/' :: (body ++ x), by simp, fun r' hr' => ?_⟩
    have hcomment := Gap.comment hbody ((hr'.append x).head?_all rfl hline) (hx r' hr')
    simpa using hcomment

/-- A phrase behind a gap. -/
def Spaced (P : List Char → List Char → Prop) (s r : List Char) : Prop :=
  ∃ t, Gap s t ∧ P t r

/-- A phrase in front of a gap. -/
def Trailed (P : List Char → List Char → Prop) (s r : List Char) : Prop :=
  ∃ t, P s t ∧ Gap t r

/-- A phrase is taken with the gap in front of it. -/
theorem Takes.spaced {P : List Char → List Char → Prop} {s t r : List Char} (hgap : Gap s t)
    (hP : Takes P t r) : Takes (Spaced P) s r :=
  hgap.takes.bind hP fun hgap hP => ⟨_, hgap, hP⟩

/-- A phrase is taken with the gap behind it. -/
theorem Takes.trailed {P : List Char → List Char → Prop} {s t r : List Char} (hP : Takes P s t)
    (hgap : Gap t r) : Takes (Trailed P) s r :=
  hP.bind hgap.takes fun hP hgap => ⟨_, hP, hgap⟩

/-- A given character with a gap behind it. -/
def Mark (c : Char) (s r : List Char) : Prop := ∃ s₁, s = c :: s₁ ∧ Gap s₁ r

theorem Mark.takes {c : Char} {s r : List Char} (h : Gap s r) : Takes (Mark c) (c :: s) r :=
  (Takes.char c s).bind h.takes fun heq hgap => ⟨_, heq, hgap⟩

/-! ## Words and literals -/

/-- An identifier ends before whatever stands in for the rest. -/
theorem Identifier.takes {s r : List Char} {name : String} (h : Identifier s r name) :
    Takes (fun s r => Identifier s r name) s r := by
  obtain @⟨w, _, hw, hstops⟩ := h
  exact ⟨w, rfl, fun r' hr' => .mk hw (hr'.wordStops hstops)⟩

theorem Keyword.takes {s r : List Char} (h : Keyword s r) : Takes Keyword s r := by
  obtain ⟨hstops⟩ := h
  exact ⟨_, rfl, fun r' hr' => .mk (hr'.wordStops hstops)⟩

/-- A quoted text ends at its quote, whatever follows. -/
theorem Quoted.takes {s r : List Char} {v : String} (h : Quoted s r v) :
    Takes (fun s r => Quoted s r v) s r := by
  obtain @⟨b, _, _, hb⟩ := h
  refine ⟨'"' :: (b ++ ['"']), by simp, fun r' _ => ?_⟩
  have hquoted : Quoted ('"' :: (b ++ '"' :: r')) r' _ := .mk hb
  simpa using hquoted

theorem Name.takes {s r : List Char} {name : String} (h : Name s r name) :
    Takes (fun s r => Name s r name) s r := by
  cases h with
  | bare h => exact h.takes.mono .bare
  | quoted h => exact h.takes.mono .quoted

theorem Value.takes {s r : List Char} {v : WrittenValue} (h : Value s r v) :
    Takes (fun s r => Value s r v) s r := by
  cases h with
  | int hn hstops => exact ⟨_, rfl, fun r' hr' => .int hn (hr'.wordStops hstops)⟩
  | true hstops => exact ⟨_, rfl, fun r' hr' => .true (hr'.wordStops hstops)⟩
  | false hstops => exact ⟨_, rfl, fun r' hr' => .false (hr'.wordStops hstops)⟩
  | str h => exact h.takes.mono .str

/-! ## Attributes -/

/-- An entry up to its value. -/
def Key (s r : List Char) : Prop :=
  ∃ s₁ s₂ key, Name s s₁ key ∧ Gap s₁ ('=' :: s₂) ∧ Gap s₂ r

/-- A key with its equals sign does not depend on the value behind it. -/
theorem Key.takes {s r : List Char} (h : Key s r) : Takes Key s r := by
  obtain ⟨s₁, s₂, key, hname, hgap, hgap'⟩ := h
  have hequals := (hname.takes.trailed hgap).past
  exact hequals.bind hgap'.takes fun ⟨s₁, hname, hgap⟩ hgap' => ⟨s₁, _, key, hname, hgap, hgap'⟩

/-- A key with a value behind it is an entry. -/
theorem Key.entry {s t r : List Char} {v : WrittenValue} (hkey : Key s t) (hvalue : Value t r v) :
    Any Entry s r := by
  obtain ⟨s₁, s₂, key, hname, hgap, hgap'⟩ := hkey
  exact ⟨_, .mk hname hgap hgap' hvalue⟩

/-- A gap behind a key belongs to it. -/
theorem Key.gap {s t r : List Char} (h : Key s t) (hgap : Gap t r) : Key s r := by
  obtain ⟨s₁, s₂, key, hname, hequals, hbehind⟩ := h
  exact ⟨s₁, s₂, key, hname, hequals, hbehind.trans hgap⟩

/-- An entry is one before whatever stands in for the rest. -/
theorem Entry.takes {s r : List Char} {a : WrittenAttribute} (h : Entry s r a) :
    Takes (Any Entry) s r := by
  obtain ⟨hname, hgap, hgap', hvalue⟩ := h
  have hkey : Key _ _ := ⟨_, _, _, hname, hgap, hgap'⟩
  exact hkey.takes.bind hvalue.takes Key.entry

theorem Entries.takes {s r : List Char} {as : List WrittenAttribute} (h : Entries s r as) :
    Takes (Any Entries) s r := by
  induction h with
  | last hentry hgap =>
    exact (hentry.takes.trailed hgap).mono fun ⟨_, ⟨a, hentry⟩, hgap⟩ => ⟨[a], .last hentry hgap⟩
  | @cons s s₁ s₂ s₃ r a more hentry hcomma hgap _ ih =>
    have hfirst := (hentry.takes.trailed hcomma).past
    exact hfirst.bind (.spaced hgap ih) fun ⟨s₁, ⟨a, hentry⟩, hcomma⟩ ⟨t, hgap, more, hmore⟩ =>
      ⟨a :: more, .cons hentry hcomma hgap hmore⟩

/-- A comma and the entry behind it, with the gap that follows. -/
def NextEntry (s r : List Char) : Prop := ∃ t, Mark ',' s t ∧ Trailed (Any Entry) t r

/-- A further entry, with its comma, does not depend on what is behind the gap that follows. -/
theorem NextEntry.takes {s t u r : List Char} {a : WrittenAttribute} (hgap : Gap s t)
    (hentry : Entry t u a) (hbehind : Gap u r) : Takes NextEntry (',' :: s) r :=
  (Mark.takes hgap).bind (hentry.takes.trailed hbehind) fun hcomma hentry => ⟨_, hcomma, hentry⟩

theorem Braces.takes {s r : List Char} {as : List WrittenAttribute} (h : Braces s r as) :
    Takes (Any Braces) s r := by
  cases h with
  | empty hgap =>
    exact (Mark.takes hgap).past.mono fun ⟨s, heq, hgap⟩ => heq ▸ ⟨[], .empty hgap⟩
  | listed hgap hentries =>
    exact (Mark.takes hgap).bind hentries.takes.past fun ⟨s, heq, hgap⟩ ⟨as, hentries⟩ =>
      heq ▸ ⟨as, .listed hgap hentries⟩

theorem AttributeList.takes {s r : List Char} {as : List WrittenAttribute}
    (h : AttributeList s r as) : Takes (Any AttributeList) s r := by
  cases h with
  | absent => exact .nil fun _ => ⟨[], .absent⟩
  | braces h => exact h.takes.mono fun ⟨as, h⟩ => ⟨as, .braces h⟩

/-! ## Operations -/

/-- The head of an operation does not depend on its region. -/
theorem Head.takes {s r : List Char} {name : String} {as : List WrittenAttribute}
    (h : Head s r name as) : Takes (Any fun s r => Head s r name) s r := by
  obtain ⟨hname, hgap, hattrs⟩ := h
  exact hname.takes.bind (.spaced hgap hattrs.takes) fun hname ⟨t, hgap, as, hattrs⟩ =>
    ⟨as, .mk hname hgap hattrs⟩

theorem Operations.takes {n : Nat} {s r : List Char} {ops : List WrittenOperation}
    (h : Operations n s r ops) : Takes (Any (Operations n)) s r := by
  induction h with
  | nil => exact .nil fun _ => ⟨[], .nil⟩
  | leaf hhead hgap _ ih =>
    exact hhead.takes.bind (.spaced hgap ih) fun ⟨as, hhead⟩ ⟨t, hgap, ops, hops⟩ =>
      ⟨_, .leaf hhead hgap hops⟩
  | @node n s s₁ s₂ s₃ s₄ s₅ r name as children ops hhead hopen hin _ hout _ ihc ih =>
    have hregion : Takes (Any (Region (n + 1))) ('(' :: s₂) s₄ :=
      (Mark.takes hin).bind ihc.past fun ⟨_, heq, hin⟩ ⟨children, hchildren⟩ =>
        heq ▸ ⟨children, .mk hin hchildren⟩
    have hfront : Takes (Trailed (Any fun s r => Head s r name)) s ('(' :: s₂) :=
      hhead.takes.trailed hopen
    have hbehind : Takes (Spaced (Any (Operations (n + 1)))) s₄ r := .spaced hout ih
    have hrest : Takes (fun s r => ∃ t, Any (Region (n + 1)) s t ∧
        Spaced (Any (Operations (n + 1))) t r) ('(' :: s₂) r :=
      hregion.bind hbehind fun hregion hbehind => ⟨_, hregion, hbehind⟩
    exact hfront.bind hrest
      fun ⟨_, ⟨as, hhead⟩, hopen⟩ ⟨_, ⟨children, hregion⟩, _, hout, ops, hops⟩ =>
        ⟨_, .region hhead hopen hregion hout hops⟩

/-! ## Modules -/

theorem Symbol.takes {s r : List Char} {name : Option String} (h : Symbol s r name) :
    Takes (fun s r => Symbol s r name) s r := by
  cases h with
  | absent => exact .nil fun _ => .absent
  | @named s r name hname =>
    exact (Takes.char '@' s).bind hname.takes fun heq hname => heq ▸ .named hname

/-- What stands between the keyword of a declaration and its first operation. -/
def Title (s r : List Char) : Prop :=
  ∃ s₁ s₂ s₃ name, Gap s s₁ ∧ Symbol s₁ s₂ name ∧ Gap s₂ ('\x7b' :: s₃) ∧ Gap s₃ r

theorem Title.takes {s r : List Char} (h : Title s r) : Takes Title s r := by
  obtain ⟨s₁, s₂, s₃, name, hgap, hsym, hopen, hin⟩ := h
  have hname := ((Takes.spaced hgap hsym.takes).trailed hopen).past
  exact hname.bind hin.takes fun ⟨_, ⟨_, hgap, hsym⟩, hopen⟩ hin =>
    ⟨_, _, _, name, hgap, hsym, hopen, hin⟩

/-- A gap behind a title belongs to it. -/
theorem Title.gap {s t r : List Char} (h : Title s t) (hgap : Gap t r) : Title s r := by
  obtain ⟨s₁, s₂, s₃, name, hbefore, hsym, hopen, hin⟩ := h
  exact ⟨s₁, s₂, s₃, name, hbefore, hsym, hopen, hin.trans hgap⟩

/-- What stands behind the keyword of a declaration. -/
def Block (n : Nat) (s r : List Char) : Prop :=
  ∃ t, Title s t ∧ Any (Operations n) t ('\x7d' :: r)

/-- A gap in front of a block belongs to it. -/
theorem Block.of_gap {n : Nat} {s t r : List Char} (hgap : Gap s t) (h : Block n t r) :
    Block n s r := by
  obtain ⟨u, ⟨s₁, s₂, s₃, name, hbefore, hsym, hopen, hin⟩, hops⟩ := h
  exact ⟨u, ⟨s₁, s₂, s₃, name, hgap.trans hbefore, hsym, hopen, hin⟩, hops⟩

/-- A block behind the keyword is a declaration. -/
theorem Block.declaration {n : Nat} {s t r : List Char} (hkey : Keyword s t) (h : Block n t r) :
    Any (Declaration n) s r := by
  obtain ⟨_, ⟨_, _, _, name, hgap, hsym, hopen, hin⟩, ops, hops⟩ := h
  exact ⟨⟨name, ops⟩, .mk hkey hgap hsym hopen hin hops⟩

/-- A declaration does not depend on what follows its last brace. -/
theorem Declaration.takes {n : Nat} {s r : List Char} {m : WrittenModule}
    (h : Declaration n s r m) : Takes (Any (Declaration n)) s r := by
  obtain ⟨hkey, hgap, hsym, hopen, hin, hops⟩ := h
  have htitle : Title _ _ := ⟨_, _, _, _, hgap, hsym, hopen, hin⟩
  have hblock : Takes (Block n) _ r :=
    htitle.takes.bind hops.takes.past fun htitle hops => ⟨_, htitle, hops⟩
  exact hkey.takes.bind hblock Block.declaration

end IrOptimizer.Generic.Phrase
