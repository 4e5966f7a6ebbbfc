import IrOptimizer.Proofs.Generic.RoundTrip

/-!
# String literals delimit themselves

Three parts have to agree on a string: the form it is written in, the rule that finds where a
literal ends, and the decoding of what stands between its quotes. `literal` is the rule, piece by
piece and without decoding; the scanner of strings is this rule with the decoding behind it
(`reads_string_iff_literal`).

The rule accepts the bodies of the language and no others, whatever stands behind the literal
(`reads_literal_iff`). Every body has a value, so decoding always comes to the end of one; and
the written form of a text is the body that the rule takes back as a whole.
-/

namespace IrOptimizer.Generic

open Text Phrase
open Scanner

/-! ## The rule -/

/-- Reads one character that passes a test. -/
def oneOf (test : Char → Bool) : Scanner Char :=
  run fun
    | [] => none
    | c :: _ => if test c then some ([c], c) else none

/-- A backslash and what it escapes. -/
def escapeSequence : Scanner (List Char) := do
  char '\\'
  let c ← oneOf Quoted.isEscapable
  pure ['\\', c]

def plainCharacter : Scanner (List Char) := do
  let c ← oneOf fun c => !(c = '"' || c = '\\')
  pure [c]

def piece : Scanner (List Char) := orElse escapeSequence plainCharacter

/-- What stands between the quotes, as it is written. -/
def literalBody : Scanner (List Char) := do
  let pieces ← many piece
  pure pieces.flatten

/-- A string as it is written, without its quotes. -/
def literal : Scanner (List Char) := do
  char '"'
  let body ← literalBody
  char '"'
  pure body

/-! ## What the rule reads -/

theorem reads_oneOf_nil (test : Char → Bool) : (oneOf test).reads [] = none := rfl

theorem reads_oneOf_cons (test : Char → Bool) (c : Char) (cs : List Char) :
    (oneOf test).reads (c :: cs) = if test c then some (c, cs) else none := by
  rw [oneOf, reads_run]
  dsimp only
  split <;> rfl

/-- A backslash is read with the character behind it, if that may be escaped. -/
theorem reads_escapeSequence_cons (c : Char) (cs : List Char) :
    escapeSequence.reads ('\\' :: c :: cs) =
      if Quoted.isEscapable c then some (['\\', c], cs) else none := by
  rw [escapeSequence, reads_bind_of_some (reads_char_cons ..), reads_bind, reads_oneOf_cons]
  split <;> rfl

/-- A backslash in front of nothing begins no escape, and no other character does. -/
theorem reads_escapeSequence_eq_none {c : Char} {cs : List Char}
    (h : ∀ d ds, c = '\\' → cs ≠ d :: ds) : escapeSequence.reads (c :: cs) = none := by
  by_cases hc : c = '\\'
  · subst hc
    cases cs with
    | nil =>
      rw [escapeSequence, reads_bind_of_some (reads_char_cons ..)]
      exact reads_bind_of_none (reads_oneOf_nil _)
    | cons d ds => exact absurd rfl (h d ds rfl)
  · have hhead : (c :: cs).head? ≠ some '\\' := fun heq => hc (Option.some.inj heq)
    exact reads_bind_of_none (reads_char_eq_none hhead)

/-- Every character but the quote and the backslash stands for itself. -/
theorem reads_plainCharacter_cons (c : Char) (cs : List Char) :
    plainCharacter.reads (c :: cs) = if c = '"' || c = '\\' then none else some ([c], cs) := by
  rw [plainCharacter, reads_bind, reads_oneOf_cons]
  cases (c = '"' || c = '\\' : Bool) <;> rfl

theorem reads_piece_backslash (c : Char) (cs : List Char) :
    piece.reads ('\\' :: c :: cs) =
      if Quoted.isEscapable c then some (['\\', c], cs) else none := by
  rw [piece, reads_orElse, reads_escapeSequence_cons, reads_plainCharacter_cons]
  split <;> rfl

/-- A piece that begins with no escape is one plain character. -/
theorem reads_piece_cons {c : Char} {cs : List Char} (h : ∀ d ds, c = '\\' → cs ≠ d :: ds) :
    piece.reads (c :: cs) = if c = '"' || c = '\\' then none else some ([c], cs) := by
  rw [piece, reads_orElse, reads_escapeSequence_eq_none h, Option.none_or,
    reads_plainCharacter_cons]

/-- The pieces, put together, are the run in front of a quote or of a backslash that escapes
nothing. -/
theorem exists_reads_pieces (s : List Char) :
    ∃ pieces, (many piece).reads s = some (pieces, s.drop (Quoted.body s).length) ∧
      pieces.flatten = Quoted.body s := by
  fun_induction Quoted.body s with
  | case1 => exact ⟨[], reads_many_nil rfl, rfl⟩
  | case2 c cs hc ih =>
    obtain ⟨pieces, hread, hflatten⟩ := ih
    have hstep : piece.reads ('\\' :: c :: cs) = some (['\\', c], cs) := by
      rw [reads_piece_backslash, if_pos hc]
    have hlt : cs.length < ('\\' :: c :: cs).length :=
      Nat.lt_of_lt_of_le (Nat.lt_succ_self _) (Nat.le_succ _)
    refine ⟨['\\', c] :: pieces, reads_many_cons hstep hlt hread, ?_⟩
    rw [List.flatten_cons, hflatten]
    rfl
  | case3 c cs hc =>
    have hstop : piece.reads ('\\' :: c :: cs) = none := by
      rw [reads_piece_backslash, if_neg hc]
    exact ⟨[], reads_many_nil hstop, rfl⟩
  | case4 c cs hslash hc =>
    have hstop : piece.reads (c :: cs) = none := by
      rw [reads_piece_cons hslash, if_pos hc]
    exact ⟨[], reads_many_nil hstop, rfl⟩
  | case5 c cs hslash hc ih =>
    obtain ⟨pieces, hread, hflatten⟩ := ih
    have hstep : piece.reads (c :: cs) = some ([c], cs) := by
      rw [reads_piece_cons hslash, if_neg hc]
    refine ⟨[c] :: pieces, reads_many_cons hstep (Nat.lt_succ_self _) hread, ?_⟩
    rw [List.flatten_cons, hflatten]
    rfl

/-- The rule reads the longest body. -/
theorem reads_literalBody (s : List Char) :
    literalBody.reads s = some (Quoted.body s, s.drop (Quoted.body s).length) := by
  obtain ⟨pieces, hread, hflatten⟩ := exists_reads_pieces s
  rw [literalBody, reads_bind_of_some hread, reads_pure, hflatten]

/-- The rule accepts the bodies of the language between quotes, whatever follows. -/
theorem reads_literal_iff {s raw r : List Char} :
    literal.reads s = some (raw, r) ↔ s = '"' :: (raw ++ '"' :: r) ∧ ∃ v, Body raw v := by
  constructor
  · intro h
    rw [literal, reads_bind] at h
    obtain ⟨⟨_, cs⟩, hopen, h⟩ := Option.bind_eq_some_iff.mp h
    dsimp only at h
    rw [reads_bind_of_some (reads_literalBody cs), reads_bind] at h
    obtain ⟨⟨_, tail⟩, hclose, h⟩ := Option.bind_eq_some_iff.mp h
    obtain ⟨rfl, rfl⟩ : Quoted.body cs = raw ∧ tail = r := by simpa using h
    refine ⟨?_, exists_body cs⟩
    rw [reads_char_eq_some_iff.mp hopen, ← reads_char_eq_some_iff.mp hclose, body_append_drop]
  · intro h
    obtain ⟨rfl, v, hv⟩ := h
    have hbody := reads_literalBody (raw ++ '"' :: r)
    rw [hv.body_append, List.drop_left] at hbody
    rw [literal, reads_bind_of_some (reads_char_cons ..), reads_bind_of_some hbody,
      reads_bind_of_some (reads_char_cons ..), reads_pure]

/-! ## The rule and the decoding -/

/-- A string is read by the rule, and what stands between its quotes is decoded. -/
theorem reads_string_iff_literal {s r : List Char} {value : String} :
    string.reads s = some (value, r) ↔
      ∃ raw, literal.reads s = some (raw, r) ∧ Quoted.decode raw = some value.toList := by
  rw [reads_string_iff]
  constructor
  · intro h
    obtain @⟨raw, v, _, hv⟩ := h
    refine ⟨raw, reads_literal_iff.mpr ⟨rfl, v, hv⟩, ?_⟩
    rw [String.toList_ofList]
    exact hv.decode
  · intro h
    obtain ⟨raw, hread, hdecode⟩ := h
    obtain ⟨rfl, v, hv⟩ := reads_literal_iff.mp hread
    have hvalue : v = value.toList := Option.some.inj (hv.decode.symm.trans hdecode)
    have hmk := Phrase.Quoted.mk (r := r) hv
    rwa [hvalue, String.ofList_toList] at hmk

/-- The written form of a text, with anything behind it, is taken by the rule as a whole and no
further, and stands for that text. Every body that the rule accepts is decoded to its end,
piece by piece, and its value, written and decoded, is the same value again. -/
theorem string_literals_exact :
    (∀ (v : String) (t : List Char),
      literal.reads ((Quoted.quote v).toList ++ t) = some (Quoted.encode v.toList, t) ∧
        string.reads ((Quoted.quote v).toList ++ t) = some (v, t)) ∧
    ∀ s raw r : List Char, literal.reads s = some (raw, r) →
      ∃ v : String, Quoted.decode raw = some v.toList ∧ Body raw v.toList ∧
        string.reads s = some (v, r) ∧
        Quoted.decode (Quoted.encode v.toList) = some v.toList := by
  constructor
  · intro v t
    have hquote : (Quoted.quote v).toList ++ t = '"' :: (Quoted.encode v.toList ++ '"' :: t) := by
      simp [Quoted.quote]
    exact ⟨reads_literal_iff.mpr ⟨hquote, v.toList, body_encode v.toList⟩,
      reads_string_iff.mpr (quoted_quote v t)⟩
  · intro s raw r hread
    obtain ⟨_, v, hv⟩ := reads_literal_iff.mp hread
    have hvalue : v = (String.ofList v).toList := String.toList_ofList.symm
    rw [hvalue] at hv
    have hstring := reads_string_iff_literal.mpr ⟨raw, hread, hv.decode⟩
    exact ⟨String.ofList v, hv.decode, hv, hstring, Quoted.decode_encode _⟩

/-- A body of a letter, a backslash and a quote that are escaped, a line feed as it is, and an
escape in front of the closing quote. -/
theorem string_literals_exact_raw_line :
    literal.reads "\"a\\\\\\\"\n\\t\" x".toList = some ("a\\\\\\\"\n\\t".toList, " x".toList) ∧
      string.reads "\"a\\\\\\\"\n\\t\" x".toList = some ("a\\\"\n\t", " x".toList) := by
  have hbody : Quoted.body "a\\\\\\\"\n\\t".toList = "a\\\\\\\"\n\\t".toList := rfl
  have hread : literal.reads "\"a\\\\\\\"\n\\t\" x".toList =
      some ("a\\\\\\\"\n\\t".toList, " x".toList) :=
    reads_literal_iff.mpr ⟨rfl, hbody ▸ exists_body _⟩
  obtain ⟨v, hdecode, _, hstring, _⟩ := string_literals_exact.2 _ _ _ hread
  have hvalue : "a\\\"\n\t".toList = v.toList := Option.some.inj hdecode
  rw [String.toList_inj.mp hvalue]
  exact ⟨hread, hstring⟩

end IrOptimizer.Generic
