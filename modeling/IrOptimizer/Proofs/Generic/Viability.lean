import IrOptimizer.Proofs.Generic.Attempts
import IrOptimizer.Proofs.Generic.Fronts
import IrOptimizer.Proofs.Generic.Soundness

/-!
# Every place that scanners note can be reached by a good text

A place of a text is viable if what is in front of it is the front of some good text. Here `Good`
is any property of texts, and the places are those where rules fail, in readings that are given up
later as well as in those that are not.

What has to be known of the place where a scanner is used is what would make the text good there.
`Awaits P s` says that `s` may be exchanged for any text that stands in for it and is a phrase `P`
in front of a certain close. When part of `P` has been read the rest of it is awaited, because
what was read is a front that goes before other texts too (`Awaits.advance`). A place is viable if
some text provides what is awaited there (`Awaits.viable`); most phrases may begin with a line
feed, which stands in for whatever comes next in the text at hand.

There is one lemma for each scanner of the grammar. It says what has to be awaited where the
scanner is used, and follows its parts.
-/

namespace IrOptimizer.Generic

open Text Phrase Scanner

/-- What is in front of a place of a text, given by how many characters remain behind it, is the
front of a good text. -/
def Viable (Good : List Char → Prop) (source : List Char) (k : Nat) : Prop :=
  ∃ x r y, source = x ++ r ∧ r.length = k ∧ Good (x ++ y)

/-- What is in front of `s` makes a good text together with any text that stands in for `s` and is
a phrase `P` in front of a certain close. -/
def Awaits (Good : List Char → Prop) (source : List Char) (P : List Char → List Char → Prop)
    (s : List Char) : Prop :=
  ∃ x z, source = x ++ s ∧ ∀ s', StandsIn s' s → P s' z → Good (x ++ s')

section

variable {Good : List Char → Prop} {source : List Char}

/-- A phrase that makes good texts is awaited at the start. -/
theorem awaits_start {P : List Char → List Char → Prop} (h : ∀ s, P s [] → Good s) :
    Awaits Good source P source :=
  ⟨[], [], rfl, fun s' _ => h s'⟩

namespace Awaits

variable {P Q A : List Char → List Char → Prop} {s t : List Char}

/-- A place in front of which a line may end. -/
theorem viable (h : Awaits Good source P s) (hP : ∀ z, ∃ y, P ('\n' :: y) z) :
    Viable Good source s.length := by
  obtain ⟨x, z, hsource, hgood⟩ := h
  obtain ⟨y, hy⟩ := hP z
  exact ⟨x, s, '\n' :: y, hsource, rfl, hgood _ (.lineFeed y s) hy⟩

/-- The place behind the next character, if a text with that character provides what is awaited. -/
theorem viable_behind {c : Char} (h : Awaits Good source P (c :: s))
    (hP : ∀ z, ∃ y, P (c :: y) z) : Viable Good source s.length := by
  obtain ⟨x, z, hsource, hgood⟩ := h
  obtain ⟨y, hy⟩ := hP z
  refine ⟨x ++ [c], s, y, by simp [hsource], rfl, ?_⟩
  have hwhole := hgood (c :: y) (.same_char c y s) hy
  simpa using hwhole

/-- Behind a front of what is awaited the rest of it is awaited, which may have a close of its
own. -/
theorem advance (h : Awaits Good source P s) (hA : Takes A s t) (close : List Char → List Char)
    (hPQ : ∀ {s t z}, A s t → Q t (close z) → P s z) : Awaits Good source Q t := by
  obtain ⟨x, z, hsource, hgood⟩ := h
  obtain ⟨y, rfl, hy⟩ := hA
  refine ⟨x ++ y, close z, by simp [hsource], fun t' ht' hQ => ?_⟩
  rw [List.append_assoc]
  exact hgood (y ++ t') (ht'.append y) (hPQ (hy t' ht') hQ)

/-- What is awaited with a gap in front is awaited behind any part of the gap. -/
theorem gap (h : Awaits Good source (Spaced P) s) (hgap : Gap s t) :
    Awaits Good source (Spaced P) t :=
  h.advance hgap.takes id fun hgap hP => by
    obtain ⟨u, hgap', hP⟩ := hP
    exact ⟨u, hgap.trans hgap', hP⟩

end Awaits

/-- The gap that a scanner passes over in front of a character. -/
theorem gap_of_afterGap_eq {s r : List Char} (h : afterGap s = r) : Gap s r :=
  h ▸ gap_afterGap s

/-! ## Attributes -/

section

variable {s : List Char} {V : Nat → Prop}

theorem notes_name (hs : V s.length) : name.Notes V s :=
  notes_orElse (notes_rule notes_run hs) fun _ => notes_rule notes_run hs

/-- A value notes its own place only, whatever kinds are tried. -/
theorem notes_value (hs : V s.length) : value.Notes V s := by
  refine notes_orElse (notes_map (notes_rule notes_run hs)) fun _ => ?_
  refine notes_orElse (notes_map (notes_rule notes_run hs)) fun _ => ?_
  exact notes_map (notes_rule notes_run hs)

end

/-- The shortest name and the shortest value are an empty string. -/
theorem quoted_empty (r : List Char) : Phrase.Quoted ('"' :: '"' :: r) r "" := .mk .nil

/-- There is an entry that can be written in front of any text. -/
theorem entry_empty (r : List Char) : Any Entry ('"' :: '"' :: '=' :: '"' :: '"' :: r) r :=
  ⟨_, .mk (.quoted (quoted_empty _)) .nil .nil (.str (quoted_empty r))⟩

theorem spaced_lineFeed {P : List Char → List Char → Prop} {s r : List Char} (h : P s r) :
    Spaced P ('\n' :: s) r :=
  ⟨s, .blank rfl .nil, h⟩

variable {s : List Char}

/-- Where an entry is awaited, reading one notes viable places. -/
theorem notes_entry (h : Awaits Good source (Spaced (Any Entry)) s) :
    entry.Notes (Viable Good source) s := by
  have hplace : Viable Good source s.length :=
    h.viable fun z => ⟨_, spaced_lineFeed (entry_empty z)⟩
  refine notes_rule (notes_here_bind ?_) hplace
  refine notes_bind (notes_name hplace) fun key s₁ hread => ?_
  refine notes_gap_bind (notes_char_bind fun s₂ hequals => notes_gap_bind (notes_here_bind ?_))
  have hkey : Key s (afterGap s₂) :=
    ⟨s₁, s₂, key, reads_name_iff.mp hread, gap_of_afterGap_eq hequals, gap_afterGap s₂⟩
  have hvalue : Awaits Good source (Spaced (Any Value)) (afterGap s₂) := by
    refine h.advance hkey.takes id fun hkey hvalue => ?_
    obtain ⟨t, hgap, v, hvalue⟩ := hvalue
    exact ⟨_, .nil, (hkey.gap hgap).entry hvalue⟩
  refine notes_bind (notes_value ?_) fun _ _ _ => notes_pure _
  exact hvalue.viable fun z => ⟨_, spaced_lineFeed ⟨_, .str (quoted_empty z)⟩⟩

/-- What may stand behind an entry in its list: nothing, or a comma and more entries. -/
def LaterEntries (s r : List Char) : Prop :=
  Gap s r ∨ ∃ s₁, Gap s (',' :: s₁) ∧ Spaced (Any Entries) s₁ r

theorem LaterEntries.of_gap {s t r : List Char} (hgap : Gap s t) (h : LaterEntries t r) :
    LaterEntries s r := by
  rcases h with hend | ⟨t₁, hcomma, hmore⟩
  · exact .inl (hgap.trans hend)
  · exact .inr ⟨t₁, hgap.trans hcomma, hmore⟩

/-- Behind an entry further ones make a list. -/
theorem LaterEntries.entries {s t r : List Char} (hentry : Any Entry s t)
    (h : LaterEntries t r) : Any Entries s r := by
  obtain ⟨a, hentry⟩ := hentry
  rcases h with hend | ⟨t₁, hcomma, t₂, hgap, more, hmore⟩
  · exact ⟨[a], .last hentry hend⟩
  · exact ⟨a :: more, .cons hentry hcomma hgap hmore⟩

/-- Behind each step of the repetition there may be more entries. -/
theorem awaits_laterEntries {s r : List Char} {a : WrittenAttribute}
    (h : Awaits Good source LaterEntries s) (hread : laterEntry.reads s = some (a, r)) :
    Awaits Good source LaterEntries r := by
  obtain ⟨s₁, s₂, r', rfl, hgap, hentry, hgap'⟩ := laterEntry_sound hread
  refine h.advance (NextEntry.takes hgap hentry hgap') id fun hnext hlater => ?_
  obtain ⟨t, ⟨s₁, rfl, hgap⟩, u, hentry, hgap'⟩ := hnext
  exact .inr ⟨s₁, .nil, t, hgap, (hlater.of_gap hgap').entries hentry⟩

/-- Where further entries are awaited, reading one notes viable places. -/
theorem notes_laterEntry (h : Awaits Good source LaterEntries s) :
    laterEntry.Notes (Viable Good source) s := by
  refine notes_char_bind fun s₁ hcomma => notes_gap_bind ?_
  subst hcomma
  have hentry : Awaits Good source (Spaced (Any Entry)) (afterGap s₁) := by
    refine h.advance (Mark.takes (gap_afterGap s₁)) id fun hcomma hentry => ?_
    obtain ⟨s₁, rfl, hgap⟩ := hcomma
    obtain ⟨t, hgap', a, hentry⟩ := hentry
    exact .inr ⟨s₁, .nil, t, hgap.trans hgap', [a], .last hentry .nil⟩
  exact notes_bind (notes_entry hentry) fun _ _ _ => notes_gap_bind (notes_pure _)

/-- Where entries are awaited, reading them notes viable places. -/
theorem notes_entries (h : Awaits Good source (Spaced (Any Entries)) s) :
    entries.Notes (Viable Good source) s := by
  have hfirst : Awaits Good source (Spaced (Any Entry)) s := by
    refine h.advance (.nil fun _ => rfl) id fun heq hentry => ?_
    obtain ⟨t, hgap, a, hentry⟩ := hentry
    exact heq ▸ ⟨t, hgap, [a], .last hentry .nil⟩
  refine notes_bind (notes_entry hfirst) fun a s₁ hread => notes_gap_bind ?_
  have hmore : Awaits Good source LaterEntries (afterGap s₁) := by
    have hfront := (entry_sound hread).takes.trailed (gap_afterGap s₁)
    refine h.advance hfront id fun hentry hlater => ?_
    obtain ⟨s₁, hentry, hgap⟩ := hentry
    exact ⟨_, .nil, (hlater.of_gap hgap).entries hentry⟩
  refine notes_bind ?_ fun _ _ _ => notes_pure _
  exact notes_many (p := laterEntry) (fun s => notes_laterEntry)
    (fun s a r => awaits_laterEntries) hmore

/-- Where attributes are awaited, reading them notes viable places. -/
theorem notes_dictionary (hplace : Viable Good source s.length)
    (h : Awaits Good source (Any Braces) s) : dictionary.Notes (Viable Good source) s := by
  refine notes_rule (notes_char_bind fun s₁ hopen => notes_gap_bind ?_) hplace
  subst hopen
  have hlisted : Awaits Good source (Spaced (Any Entries)) (afterGap s₁) := by
    refine h.advance (Mark.takes (gap_afterGap s₁)) ('\x7d' :: ·) fun hopen hentries => ?_
    obtain ⟨s₁, rfl, hgap⟩ := hopen
    obtain ⟨t, hgap', as, hentries⟩ := hentries
    exact ⟨as, .listed (hgap.trans hgap') hentries⟩
  refine notes_bind (notes_optional (notes_entries hlisted)) fun _ _ _ => ?_
  exact notes_gap_bind (notes_char_bind fun _ _ => notes_pure _)

/-! ## Operations -/

section

variable {n : Nat}

/-- Behind an operation, or a part of one that is an operation, others may follow. -/
theorem awaits_behind_operations {t r : List Char} {ops : List WrittenOperation}
    (h : Awaits Good source (Spaced (Any (Operations n))) s) (hops : Operations n s t ops)
    (hgap : Gap t r) : Awaits Good source (Spaced (Any (Operations n))) r := by
  refine h.advance (hops.takes.trailed hgap) id fun hfront hmore => ?_
  obtain ⟨t, ⟨ops, hops⟩, hgap⟩ := hfront
  obtain ⟨u, hgap', more, hmore⟩ := hmore
  obtain ⟨s', hbefore, hops'⟩ := hops.absorb (hgap.trans hgap')
  exact ⟨s', hbefore, _, hops'.append hmore⟩

/-- A place at which operations are awaited is viable, as there may be none. -/
theorem viable_of_awaits_operations (h : Awaits Good source (Spaced (Any (Operations n))) s) :
    Viable Good source s.length :=
  h.viable fun z => ⟨z, spaced_lineFeed ⟨[], .nil⟩⟩

/-- Behind an operation further ones are awaited. -/
theorem awaits_spacedOperation {r : List Char} {op : WrittenOperation}
    (h : Awaits Good source (Spaced (Any (Operations n))) s)
    (hread : (spacedOperation (region n)).reads s = some (op, r)) :
    Awaits Good source (Spaced (Any (Operations n))) r :=
  awaits_behind_operations h ((spacedOperation_sound region_sound hread).2 .nil) .nil

section

variable (hregion : ∀ s, Viable Good source s.length → Awaits Good source (Any (Region n)) s →
  (region n).Notes (Viable Good source) s)
include hregion

/-- What an operation notes, given what its region does. -/
theorem notes_operation (h : Awaits Good source (Spaced (Any (Operations n))) s) :
    (operation (region n)).Notes (Viable Good source) s := by
  have hplace := viable_of_awaits_operations h
  refine notes_rule (notes_bind (notes_rule notes_run hplace) fun name s₁ hread =>
    notes_gap_bind ?_) hplace
  -- with its name the operation may end, or go on with a dictionary
  have hname := reads_identifier_iff.mp hread
  have hbare : Operations n s s₁ [_] := .leaf (.mk hname .nil .absent) .nil .nil
  have hbraces : Awaits Good source (Any Braces) (afterGap s₁) := by
    refine h.advance (hname.takes.trailed (gap_afterGap s₁)) id fun hfront hbraces => ?_
    obtain ⟨s₁, hname, hgap⟩ := hfront
    obtain ⟨as, hbraces⟩ := hbraces
    exact ⟨_, .nil, _, .leaf (.mk hname hgap (.braces hbraces)) .nil .nil⟩
  refine notes_bind (notes_optional (notes_dictionary ?_ hbraces)) fun as s₂ hread =>
    notes_gap_bind ?_
  · exact viable_of_awaits_operations (awaits_behind_operations h hbare (gap_afterGap s₁))
  -- behind its dictionary it may end too, or go on with a region
  have hhead : Head s s₂ name (as.getD []) :=
    .mk hname (gap_afterGap s₁) (optional_dictionary_sound hread)
  have hparens : Awaits Good source (Any (Region n)) (afterGap s₂) := by
    refine h.advance (hhead.takes.trailed (gap_afterGap s₂)) id fun hfront hregion => ?_
    obtain ⟨s₂, ⟨as, hhead⟩, hgap⟩ := hfront
    obtain ⟨children, hregion⟩ := hregion
    exact ⟨_, .nil, _, .region hhead hgap hregion .nil .nil⟩
  refine notes_bind (notes_optional (hregion _ ?_ hparens)) fun _ _ _ => notes_pure _
  exact viable_of_awaits_operations
    (awaits_behind_operations h (.leaf hhead .nil .nil) (gap_afterGap s₂))

/-- If regions note viable places, so do operations in a row. -/
theorem notes_operations_of_region
    (h : Awaits Good source (Spaced (Any (Operations n))) s) :
    (operations (region n)).Notes (Viable Good source) s := by
  rw [operations_eq]
  refine notes_many (fun s hs => ?_) (fun s op r => awaits_spacedOperation) h
  exact notes_bind (notes_operation hregion hs) fun _ _ _ => notes_gap_bind (notes_pure _)

end

end

/-- By induction on the level. A region that refuses all levels notes only its own place. -/
theorem notes_region (n : Nat) (hplace : Viable Good source s.length)
    (h : Awaits Good source (Any (Region n)) s) : (region n).Notes (Viable Good source) s := by
  induction n generalizing s with
  | zero => exact notes_rule notes_run hplace
  | succ n ih =>
    refine notes_rule (notes_char_bind fun s₁ hopen => notes_gap_bind ?_) hplace
    subst hopen
    have hinside : Awaits Good source (Spaced (Any (Operations n))) (afterGap s₁) := by
      refine h.advance (Mark.takes (gap_afterGap s₁)) (')' :: ·) fun hopen hops => ?_
      obtain ⟨s₁, rfl, hgap⟩ := hopen
      obtain ⟨t, hgap', ops, hops⟩ := hops
      exact ⟨ops, .mk (hgap.trans hgap') hops⟩
    refine notes_bind (notes_operations_of_region (fun s => ih) hinside) fun _ _ _ => ?_
    exact notes_char_bind fun _ _ => notes_pure _

/-- Where operations are awaited, reading them notes viable places. -/
theorem notes_operations {n : Nat} (h : Awaits Good source (Spaced (Any (Operations n))) s) :
    (operations (region n)).Notes (Viable Good source) s :=
  notes_operations_of_region (fun _ => notes_region n) h

/-! ## Modules -/

/-- The shortest block has no name and no operations. -/
theorem block_empty (n : Nat) (r : List Char) : Block n ('\x7b' :: '\x7d' :: r) r :=
  ⟨_, ⟨_, _, _, none, .nil, .absent, .nil, .nil⟩, [], .nil⟩

/-- Where a block is awaited, reading a name before it notes viable places. -/
theorem notes_symbol {n : Nat} (hplace : Viable Good source s.length)
    (h : Awaits Good source (Block n) s) : symbol.Notes (Viable Good source) s := by
  refine notes_rule (notes_char_bind fun s₁ hat => notes_name ?_) hplace
  subst hat
  refine h.viable_behind fun z => ⟨'"' :: '"' :: '\x7b' :: '\x7d' :: z, _, ?_, [], .nil⟩
  exact ⟨_, _, _, _, .nil, .named (.quoted (quoted_empty _)), .nil, .nil⟩

theorem viable_of_awaits_declaration {n : Nat}
    (h : Awaits Good source (Spaced (Any (Declaration n))) s) : Viable Good source s.length := by
  refine h.viable fun z => ⟨"module".toList ++ '\x7b' :: '\x7d' :: z, spaced_lineFeed ?_⟩
  exact (block_empty n z).declaration (.mk rfl)

/-- Where a declaration is awaited, reading it notes viable places. -/
theorem notes_moduleDeclaration {n : Nat}
    (h : Awaits Good source (Spaced (Any (Declaration n))) s) :
    (moduleDeclaration n).Notes (Viable Good source) s := by
  have hplace := viable_of_awaits_declaration h
  refine notes_rule (notes_bind (notes_rule notes_run hplace) fun _ s₁ hread =>
    notes_gap_bind ?_) hplace
  have hblock : Awaits Good source (Block n) (afterGap s₁) := by
    have hkey := reads_moduleKeyword_iff.mp hread
    refine h.advance (hkey.takes.trailed (gap_afterGap s₁)) id fun hfront hblock => ?_
    obtain ⟨s₁, hkey, hgap⟩ := hfront
    exact ⟨_, .nil, (hblock.of_gap hgap).declaration hkey⟩
  refine notes_bind (notes_optional (notes_symbol ?_ hblock)) fun name s₂ hread =>
    notes_gap_bind (notes_char_bind fun s₃ hopen => notes_gap_bind ?_)
  · exact hblock.viable fun z => ⟨_, (block_empty n z).of_gap (.blank rfl .nil)⟩
  have hops : Awaits Good source (Spaced (Any (Operations n))) (afterGap s₃) := by
    have htitle : Title (afterGap s₁) (afterGap s₃) :=
      ⟨_, s₂, s₃, name, .nil, optional_symbol_sound hread, gap_of_afterGap_eq hopen,
        gap_afterGap s₃⟩
    refine hblock.advance htitle.takes ('\x7d' :: ·) fun htitle hops => ?_
    obtain ⟨t, hgap, hops⟩ := hops
    exact ⟨t, htitle.gap hgap, hops⟩
  exact notes_bind (notes_operations hops) fun _ _ _ => notes_char_bind fun _ _ => notes_pure _

end

end IrOptimizer.Generic
