import IrOptimizer.Proofs.Generic.Phrase
import IrOptimizer.Proofs.Generic.Scanner

/-!
# Gaps, words and string literals: scanner and language

The leaves of the grammar, in both directions. The language lets a gap end
anywhere in a run of blanks and comments, the scanner passes over the whole run.
`afterGap` is where the scanner comes to; every gap of the language that begins
at the same text leads to it (`afterGap_eq_of_gap`), so a gap that ends at the
start of another phrase is the one the scanner finds (`Gap.afterGap`).

For words and strings the language leaves no choice, and scanner and language
agree outright (`reads_identifier_iff`, `reads_string_iff`, …).
-/

namespace IrOptimizer.Generic

open Text Phrase

/-! ## Gaps -/

/-- What is left of a text behind the blanks and comments it starts with, or
behind the rest of a comment and what follows it. -/
def afterGapFrom (inComment : Bool) (s : List Char) : List Char :=
  s.drop (gapRun inComment s).length

/-- What is left of a text behind the blanks and comments it starts with. -/
def afterGap (s : List Char) : List Char := afterGapFrom false s

/-- A gap is read as far as it goes. -/
@[simp] theorem reads_gap (s : List Char) : gap.reads s = some ((), afterGap s) := by
  rw [gap, Scanner.reads_run]
  rfl

/-- Two slashes begin a comment. -/
theorem afterGapFrom_slashes (inComment : Bool) (s : List Char) :
    afterGapFrom inComment ('/' :: '/' :: s) = afterGapFrom true s := by
  simp [afterGapFrom, gapRun]

/-- Inside a comment a character is passed over, and a line feed ends the comment. -/
private theorem gapRun_comment (c : Char) (s : List Char) :
    gapRun true (c :: s) = c :: gapRun (c != '\n') s := by
  induction s generalizing c with
  | nil => simp [gapRun]
  | cons d ds ih =>
    by_cases h : c = '/' ∧ d = '/'
    · -- the second slash is as much inside the comment as the first
      obtain ⟨rfl, rfl⟩ := h
      have hslash := ih '/'
      rw [gapRun]
      rw [show ('/' != '\n') = true from rfl] at hslash ⊢
      rw [hslash]
    · rw [gapRun]
      · rfl
      · rintro cs rfl hcs
        injection hcs with hd _
        exact h ⟨rfl, hd⟩

/-- A comment goes on to the end of its line. -/
theorem afterGapFrom_comment (c : Char) (s : List Char) :
    afterGapFrom true (c :: s) = afterGapFrom (c != '\n') s := by
  rw [afterGapFrom, gapRun_comment]
  rfl

/-- A blank belongs to the gap. -/
theorem afterGapFrom_blank {c : Char} (hc : isPlainBlank c = true) (s : List Char) :
    afterGapFrom false (c :: s) = afterGapFrom false s := by
  rw [afterGapFrom, gapRun]
  · simp [hc, afterGapFrom]
  · rintro cs rfl _
    exact absurd hc (by decide)

/-- A character that begins neither a blank nor a comment stays. -/
theorem afterGapFrom_stop {c : Char} {s : List Char} (hc : isPlainBlank c = false)
    (hs : c = '/' → s.head? ≠ some '/') : afterGapFrom false (c :: s) = c :: s := by
  rw [afterGapFrom, gapRun]
  · simp [hc]
  · rintro cs rfl rfl
    exact hs rfl rfl

/-- A comment reaches to the end of its line, and the gap goes on behind it. -/
theorem afterGapFrom_body {body s : List Char} (hbody : '\n' ∉ body)
    (hs : s.head?.all (· = '\n') = true) :
    afterGapFrom true (body ++ s) = afterGapFrom false s := by
  induction body with
  | nil =>
    cases s with
    | nil => rfl
    | cons c cs =>
      have hc : c = '\n' := by simpa using hs
      subst hc
      rw [List.nil_append, afterGapFrom_comment, afterGapFrom_blank rfl]
      rfl
  | cons c cs ih =>
    have hc : c ≠ '\n' := fun h => hbody (h ▸ List.mem_cons_self ..)
    rw [List.cons_append, afterGapFrom_comment, bne_iff_ne.mpr hc]
    exact ih fun h => hbody (List.mem_cons_of_mem _ h)

/-- What the scanner passes over is a gap; inside a comment, the rest of the
comment and then a gap. -/
private theorem gap_afterGapFrom (s : List Char) :
    ∀ inComment : Bool,
      if inComment then
        ∃ body s', s = body ++ s' ∧ '\n' ∉ body ∧ s'.head?.all (· = '\n') = true ∧
          Gap s' (afterGapFrom true s)
      else Gap s (afterGapFrom false s) := by
  intro inComment
  fun_induction gapRun inComment s with
  | case1 inComment =>
    cases inComment with
    | false => exact .nil
    | true => exact ⟨[], [], rfl, by simp, rfl, .nil⟩
  | case2 inComment cs ih =>
    obtain ⟨body, s', rfl, hbody, hs', hgap⟩ := ih
    cases inComment with
    | false =>
      simp only [Bool.false_eq_true, if_false]
      rw [afterGapFrom_slashes]
      exact .comment hbody hs' hgap
    | true =>
      simp only [if_true]
      rw [afterGapFrom_slashes]
      exact ⟨'/' :: '/' :: body, s', rfl, by simpa using hbody, hs', hgap⟩
  | case3 c cs _ ih =>
    simp only [if_true]
    rw [afterGapFrom_comment]
    by_cases hc : c = '\n'
    · subst hc
      simp only [bne_self_eq_false, Bool.false_eq_true, if_false] at ih ⊢
      exact ⟨[], '\n' :: cs, rfl, by simp, by simp, .blank rfl ih⟩
    · rw [bne_iff_ne.mpr hc] at ih ⊢
      obtain ⟨body, s', rfl, hbody, hs', hgap⟩ := ih
      refine ⟨c :: body, s', rfl, ?_, hs', hgap⟩
      simp only [List.mem_cons, not_or]
      exact ⟨fun h => hc h.symm, hbody⟩
  | case4 inComment c cs _ hin hc ih =>
    cases inComment with
    | true => exact absurd rfl hin
    | false =>
      simp only [Bool.false_eq_true, if_false] at ih ⊢
      rw [afterGapFrom_blank hc]
      exact .blank hc ih
  | case5 inComment c cs hslash hin hc =>
    cases inComment with
    | true => exact absurd rfl hin
    | false =>
      simp only [Bool.false_eq_true, if_false]
      rw [afterGapFrom_stop (by simpa using hc)]
      · exact .nil
      · rintro rfl hs
        cases cs with
        | nil => simp at hs
        | cons d ds =>
          simp only [List.head?_cons, Option.some.injEq] at hs
          exact hslash ds rfl (by rw [hs])

/-- What is left out is a gap. -/
theorem gap_afterGap (s : List Char) : Gap s (afterGap s) :=
  gap_afterGapFrom s false

/-- All gaps that begin at a text lead to the same place. -/
theorem afterGap_eq_of_gap {s r : List Char} (h : Gap s r) : afterGap s = afterGap r := by
  induction h with
  | nil => rfl
  | blank hc _ ih =>
    rw [← ih]
    exact afterGapFrom_blank hc _
  | comment hbody hs _ ih =>
    rw [← ih]
    show afterGapFrom false _ = afterGapFrom false _
    rw [afterGapFrom_slashes, afterGapFrom_body hbody hs]

/-- A text that begins with neither a blank nor a comment. -/
def GapStops (s : List Char) : Prop := afterGap s = s

theorem gapStops_nil : GapStops [] := rfl

theorem gapStops_cons {c : Char} (s : List Char) (hc : isPlainBlank c = false) (hs : c ≠ '/') :
    GapStops (c :: s) :=
  afterGapFrom_stop hc fun h => absurd h hs

/-- A gap that leads to the start of another phrase is the whole run of blanks
and comments. -/
theorem Phrase.Gap.afterGap {s r : List Char} (h : Gap s r) (hr : GapStops r) :
    Generic.afterGap s = r :=
  (afterGap_eq_of_gap h).trans hr

/-! ## Words -/

/-- A word is read to its end. -/
theorem wordStops_drop (s : List Char) : WordStops (s.drop (word s).length) := by
  induction s with
  | nil => rfl
  | cons c cs ih =>
    by_cases hc : isIdentifierChar c = true
    · have hword : word (c :: cs) = c :: word cs := by simp [word, hc]
      rw [hword]
      exact ih
    · have hword : word (c :: cs) = [] := by simp [word, hc]
      rw [hword]
      simpa [WordStops] using hc

/-- The scanner's identifier is the language's. -/
theorem reads_identifier_iff {s r : List Char} {name : String} :
    identifier.reads s = some (name, r) ↔ Identifier s r name := by
  rw [identifier, Scanner.reads_rule, Scanner.reads_run]
  constructor
  · intro h
    by_cases hw : isIdentifier (word s) = true
    · rw [if_pos hw] at h
      simp only [Option.map_some, Option.some.injEq, Prod.mk.injEq] at h
      obtain ⟨rfl, rfl⟩ := h
      have hmk := Identifier.mk hw (wordStops_drop s)
      rwa [word_append_drop] at hmk
    · rw [if_neg hw] at h
      cases h
  · intro h
    obtain ⟨hw, hr⟩ := h
    -- the word cannot be longer, because what follows it stops it
    rw [word_append (fun _ => isIdentifierChar_of_mem hw) hr, if_pos hw]
    simp

/-- No identifier begins with a character that begins none. -/
theorem reads_identifier_eq_none {c : Char} (cs : List Char) (hc : isIdentifierStart c = false) :
    identifier.reads (c :: cs) = none := by
  cases hread : identifier.reads (c :: cs) with
  | none => rfl
  | some found =>
    obtain ⟨d, ds, hs, hd⟩ := (reads_identifier_iff.mp hread).head
    injection hs with heq _
    rw [heq, hd] at hc
    cases hc

/-- The keyword is read where it is a word of its own. -/
theorem reads_moduleKeyword_iff {s r : List Char} :
    moduleKeyword.reads s = some ((), r) ↔ Keyword s r := by
  rw [moduleKeyword, Scanner.reads_rule, Scanner.reads_run]
  constructor
  · intro h
    by_cases hw : word s = "module".toList
    · rw [if_pos hw] at h
      simp only [Option.map_some, Option.some.injEq, Prod.mk.injEq, true_and] at h
      subst h
      have hmk := Keyword.mk (wordStops_drop s)
      rwa [← hw, word_append_drop] at hmk
    · rw [if_neg hw] at h
      cases h
  · intro h
    obtain ⟨hr⟩ := h
    rw [word_append (fun _ => isIdentifierChar_of_mem rfl) hr, if_pos rfl]
    simp

/-- Behind a minus the number is negated. -/
theorem integer?_minus (digits : List Char) :
    integer? ('-' :: digits) = (natural? digits).map fun n : Nat => -(n : Int) := by
  rw [integer?]
  cases natural? digits <;> rfl

/-- Without a minus the number is as it stands. -/
theorem integer?_digits {digits : List Char} (h : digits.head? ≠ some '-') :
    integer? digits = (natural? digits).map fun n : Nat => (n : Int) := by
  unfold integer?
  split
  · simp at h
  · cases natural? digits <;> rfl

theorem isDigit_of_natural? {digits : List Char} {n : Nat} (h : natural? digits = some n) :
    ∀ c ∈ digits, isDigit c = true :=
  (natural?_eq_some_iff.mp h).2.1

/-- Integers are made of identifier characters. -/
theorem isIdentifierChar_of_integer? {w : List Char} {n : Int} (h : integer? w = some n) :
    ∀ c ∈ w, isIdentifierChar c = true := by
  intro c hc
  by_cases hminus : w.head? = some '-'
  · obtain ⟨digits, rfl⟩ := List.head?_eq_some_iff.mp hminus
    rw [integer?_minus] at h
    obtain ⟨k, hk, _⟩ := Option.map_eq_some_iff.mp h
    rcases List.mem_cons.mp hc with rfl | hc
    · decide
    · simp [isIdentifierChar, isDigit_of_natural? hk c hc]
  · rw [integer?_digits hminus] at h
    obtain ⟨k, hk, _⟩ := Option.map_eq_some_iff.mp h
    simp [isIdentifierChar, isDigit_of_natural? hk c hc]

/-- An integer is read where it is a word of its own. -/
theorem reads_integer_iff {s r : List Char} {n : Int} :
    integer.reads s = some (n, r) ↔ ∃ w, s = w ++ r ∧ integer? w = some n ∧ WordStops r := by
  rw [integer, Scanner.reads_rule, Scanner.reads_run]
  constructor
  · intro h
    cases hn : integer? (word s) with
    | none => rw [hn] at h; cases h
    | some k =>
      rw [hn] at h
      simp only [Option.map_some, Option.some.injEq, Prod.mk.injEq] at h
      obtain ⟨rfl, rfl⟩ := h
      exact ⟨word s, (word_append_drop s).symm, hn, wordStops_drop s⟩
  · intro h
    obtain ⟨w, rfl, hn, hr⟩ := h
    rw [word_append (isIdentifierChar_of_integer? hn) hr, hn]
    simp

/-- A truth value is read where it is a word of its own. -/
theorem reads_boolean_iff {s r : List Char} {b : Bool} :
    boolean.reads s = some (b, r) ↔
      s = (if b then "true" else "false").toList ++ r ∧ WordStops r := by
  rw [boolean, Scanner.reads_rule, Scanner.reads_run]
  constructor
  · intro h
    have hs := word_append_drop s
    have hr := wordStops_drop s
    split at h
    · next hw =>
      simp only [Option.map_some, Option.some.injEq, Prod.mk.injEq] at h
      obtain ⟨rfl, rfl⟩ := h
      exact ⟨by rw [if_pos rfl, ← hw, hs], hr⟩
    · split at h
      · next hw =>
        simp only [Option.map_some, Option.some.injEq, Prod.mk.injEq] at h
        obtain ⟨rfl, rfl⟩ := h
        exact ⟨by rw [if_neg (by decide), ← hw, hs], hr⟩
      · cases h
  · intro h
    obtain ⟨rfl, hr⟩ := h
    cases b with
    | true =>
      rw [if_pos rfl, word_append (fun _ => isIdentifierChar_of_mem rfl) hr, if_pos rfl]
      simp
    | false =>
      rw [if_neg (by decide), word_append (fun _ => isIdentifierChar_of_mem rfl) hr, if_neg (by decide),
        if_pos rfl]
      simp

/-! ## Strings -/

/-- Of the characters that may be escaped, two stand for others. -/
theorem escape_iff {c d : Char} :
    Escape c d ↔
      Quoted.isEscapable c = true ∧ d = if c = 'n' then '\n' else if c = 't' then '\t' else c := by
  constructor
  · rintro (_ | _ | _ | _) <;> decide
  · intro h
    obtain ⟨hc, rfl⟩ := h
    simp only [Quoted.isEscapable, Bool.or_eq_true, decide_eq_true_eq] at hc
    rcases hc with ((rfl | rfl) | rfl) | rfl
    · exact .quote
    · exact .backslash
    · exact .lineFeed
    · exact .tab

/-- A body in front of the closing quote is what the scanner finds there. -/
theorem Phrase.Body.body_append {b v : List Char} (h : Body b v) (r : List Char) :
    Quoted.body (b ++ '"' :: r) = b := by
  induction h with
  | nil => simp [Quoted.body]
  | plain hq hb _ ih =>
    rw [List.cons_append, Quoted.body]
    · simp [hq, hb, ih]
    · rintro c cs rfl _
      exact hb rfl
  | escape he _ ih => simp [Quoted.body, (escape_iff.mp he).1, ih]

/-- Decoding answers what a body stands for. -/
theorem Phrase.Body.decode {b v : List Char} (h : Body b v) : Quoted.decode b = some v := by
  induction h with
  | nil => rfl
  | plain hq hb _ ih =>
    rw [Quoted.decode]
    · simp [ih]
    · rintro rfl _
      exact hb rfl
    · rintro c cs rfl _
      exact hb rfl
  | escape he _ ih => simp [Quoted.decode, ih, (escape_iff.mp he).2]

/-- The run that the scanner takes for a body is one; in particular no backslash
ends it. -/
theorem exists_body (s : List Char) : ∃ v, Body (Quoted.body s) v := by
  fun_induction Quoted.body s with
  | case1 => exact ⟨[], .nil⟩
  | case2 c cs hc ih =>
    obtain ⟨v, hv⟩ := ih
    exact ⟨_, .escape (escape_iff.mpr ⟨hc, rfl⟩) hv⟩
  | case3 c cs hc => exact ⟨[], .nil⟩
  | case4 c cs hslash hc => exact ⟨[], .nil⟩
  | case5 c cs hslash hc ih =>
    obtain ⟨v, hv⟩ := ih
    simp only [Bool.or_eq_true, decide_eq_true_eq, not_or] at hc
    exact ⟨c :: v, .plain hc.1 hc.2 hv⟩

/-- The longest body is at the front of a text. -/
theorem body_append_drop (s : List Char) :
    Quoted.body s ++ s.drop (Quoted.body s).length = s := by
  fun_induction Quoted.body s with
  | case1 => rfl
  | case2 c cs hc ih => simpa using ih
  | case3 c cs hc => rfl
  | case4 c cs hslash hc => rfl
  | case5 c cs hslash hc ih => simpa using ih

/-- A quoted body is found whatever follows. -/
theorem literal?_quoted {b v : List Char} (h : Body b v) (r : List Char) :
    Quoted.literal? ('"' :: (b ++ '"' :: r)) = some ('"' :: b ++ ['"'], v) := by
  simp only [Quoted.literal?]
  rw [h.body_append, List.drop_left, h.decode]
  rfl

/-- Quoted texts are read as they are written. -/
theorem reads_string_iff {s r : List Char} {value : String} :
    string.reads s = some (value, r) ↔ Phrase.Quoted s r value := by
  rw [string, Scanner.reads_rule, Scanner.reads_run]
  constructor
  · intro h
    simp only [Option.map_map, Option.map_eq_some_iff, Function.comp_apply, Prod.mk.injEq] at h
    obtain ⟨⟨taken, v⟩, hlit, rfl, rfl⟩ := h
    unfold Quoted.literal? at hlit
    split at hlit
    · next cs =>
      dsimp only at hlit
      split at hlit
      · next tail value hdrop hdecode =>
        simp only [Option.some.injEq, Prod.mk.injEq] at hlit
        obtain ⟨rfl, rfl⟩ := hlit
        -- the body that was found is one of the language, with the value it decodes to
        obtain ⟨v, hv⟩ := exists_body cs
        have hvalue : v = value := Option.some.inj (hv.decode.symm.trans hdecode)
        have hcs : cs = Quoted.body cs ++ '"' :: tail := by
          rw [← hdrop]
          exact (body_append_drop cs).symm
        have hsplit : '"' :: cs = ('"' :: Quoted.body cs ++ ['"']) ++ tail := by simpa using hcs
        have hrest : ('"' :: cs).drop ('"' :: Quoted.body cs ++ ['"']).length = tail :=
          (congrArg (List.drop _) hsplit).trans List.drop_left
        have hmk : Phrase.Quoted ('"' :: (Quoted.body cs ++ '"' :: tail)) tail (String.ofList v) :=
          .mk hv
        rwa [← hcs, hvalue, ← hrest] at hmk
      · cases hlit
    · cases hlit
  · intro h
    obtain ⟨hb⟩ := h
    rw [literal?_quoted hb]
    simp

/-! ## Names and values -/

/-- Names are read as they are written, with quotes or without. -/
theorem reads_name_iff {s r : List Char} {n : String} :
    name.reads s = some (n, r) ↔ Name s r n := by
  rw [name, Scanner.reads_orElse]
  constructor
  · intro h
    rcases Option.or_eq_some_iff.mp h with h | ⟨_, h⟩
    · exact .bare (reads_identifier_iff.mp h)
    · exact .quoted (reads_string_iff.mp h)
  · intro h
    cases h with
    | bare h => rw [reads_identifier_iff.mpr h, Option.some_or]
    | quoted h =>
      have hread := reads_string_iff.mpr h
      cases h
      rw [reads_identifier_eq_none _ (by decide), Option.none_or, hread]

/-- A word that is no integer is not read as one, not even in part. -/
theorem reads_integer_of_word {w r : List Char} (hw : ∀ c ∈ w, isIdentifierChar c = true)
    (hr : WordStops r) (hnone : integer? w = none) : integer.reads (w ++ r) = none := by
  rw [integer, Scanner.reads_rule, Scanner.reads_run, word_append hw hr, hnone]
  rfl

theorem reads_integer_quote (s : List Char) : integer.reads ('"' :: s) = none := by
  rw [integer, Scanner.reads_rule, Scanner.reads_run]
  rfl

theorem reads_boolean_quote (s : List Char) : boolean.reads ('"' :: s) = none := by
  rw [boolean, Scanner.reads_rule, Scanner.reads_run]
  rfl

/-- Values are read as they are written, and as one kind only. -/
theorem reads_value_iff {s r : List Char} {v : WrittenValue} :
    value.reads s = some (v, r) ↔ Value s r v := by
  simp only [value, Scanner.reads_orElse, Scanner.reads_map]
  constructor
  · intro h
    simp only [Option.or_eq_some_iff, Option.map_eq_some_iff, Prod.mk.injEq] at h
    obtain ⟨⟨n, _⟩, h, rfl, rfl⟩ | ⟨-, ⟨⟨b, _⟩, h, rfl, rfl⟩ | ⟨-, ⟨t, _⟩, h, rfl, rfl⟩⟩ := h
    · obtain ⟨w, rfl, hn, hr⟩ := reads_integer_iff.mp h
      exact .int hn hr
    · obtain ⟨rfl, hr⟩ := reads_boolean_iff.mp h
      cases b with
      | true => exact .true hr
      | false => exact .false hr
    · exact .str (reads_string_iff.mp h)
  · intro h
    cases h with
    | int hn hr => simp [reads_integer_iff.mpr ⟨_, rfl, hn, hr⟩]
    -- an integer is tried first, and neither keyword is one
    | true hr =>
      have hread : boolean.reads ("true".toList ++ r) = some (true, r) :=
        reads_boolean_iff.mpr ⟨rfl, hr⟩
      rw [reads_integer_of_word (fun _ => isIdentifierChar_of_mem rfl) hr (by decide), hread]
      rfl
    | false hr =>
      have hread : boolean.reads ("false".toList ++ r) = some (false, r) :=
        reads_boolean_iff.mpr ⟨rfl, hr⟩
      rw [reads_integer_of_word (fun _ => isIdentifierChar_of_mem rfl) hr (by decide), hread]
      rfl
    | str h =>
      have hread := reads_string_iff.mpr h
      cases h
      rw [reads_integer_quote, reads_boolean_quote, hread]
      rfl

end IrOptimizer.Generic
