import IrOptimizer.Json.Document
import IrOptimizer.Proofs.Generic.RoundTrip
import IrOptimizer.Proofs.Json.Reader

/-!
# Strings, numbers and keywords that were printed

What the printer makes of a string, an integer or a boolean is read back in front of any
text that may follow it. A string ends with its quote, whatever comes behind. A number ends
where no more digits, point or exponent follow, so of what comes behind a value something
has to be said (`EndsValue`); and its digits have to fit the significand that they are
gathered in, which those of every 64-bit integer do.
-/

namespace IrOptimizer.Json

open Text

/-! ## Strings -/

/-- The digits of a control character are read as its number. -/
theorem hexFour_control {n : Nat} (hn : n < 0x20) (rest : List Char) :
    hexFour ('0' :: '0' :: hexDigit (n / 16) :: hexDigit (n % 16) :: rest) = .ok n := by
  have hdigits : ∀ n < 0x20,
      utf8Size ['0', '0', hexDigit (n / 16), hexDigit (n % 16)] = 4 ∧
        hexNumber? ['0', '0', hexDigit (n / 16), hexDigit (n % 16)] = some n := by
    decide
  obtain ⟨hsize, hvalue⟩ := hdigits n hn
  unfold hexFour
  rw [List.take_succ_cons, List.take_succ_cons, List.take_succ_cons, List.take_succ_cons,
    List.take_zero, hsize, hvalue]
  rfl

/-- A control character is read from its escape. -/
theorem escapeRest_control {c : Char} (hc : c.toNat < 0x20) (text : List Char) :
    escapeRest
      ('u' :: '0' :: '0' :: hexDigit (c.toNat / 16) :: hexDigit (c.toNat % 16) :: text) =
        .ok (c, 5) := by
  have htrailing : isTrailingSurrogate c.toNat = false := by
    unfold isTrailingSurrogate
    rw [Bool.and_eq_false_iff]
    exact .inl (decide_eq_false (by omega))
  have hleading : isLeadingSurrogate c.toNat = false := by
    unfold isLeadingSurrogate
    rw [Bool.and_eq_false_iff]
    exact .inl (decide_eq_false (by omega))
  have hunicode : unicodeEscape
      ('0' :: '0' :: hexDigit (c.toNat / 16) :: hexDigit (c.toNat % 16) :: text) = .ok (c, 4) := by
    unfold unicodeEscape
    rw [hexFour_control hc]
    show (if isTrailingSurrogate c.toNat = true then _ else
      if isLeadingSurrogate c.toNat = true then _ else Except.ok (Char.ofNat c.toNat, 4)) = _
    rw [htrailing, hleading, if_neg Bool.false_ne_true, if_neg Bool.false_ne_true,
      Char.ofNat_toNat]
  show (unicodeEscape _).map _ = _
  rw [hunicode]
  rfl

/-- A character with an escape of its own is read from that. -/
theorem escapeRest_simple {d c : Char} (hu : d ≠ 'u') (hd : simpleEscape? d = some c)
    (text : List Char) : escapeRest (d :: text) = .ok (c, 1) := by
  unfold escapeRest
  split
  · next h => cases h
  · next h =>
    cases h
    exact absurd rfl hu
  · next h =>
    cases h
    rw [hd]

/-- What stands behind a backslash is read as an escape. -/
theorem stringRest_backslash {c d : Char} {n : Nat} {text : List Char}
    (h : escapeRest (d :: text) = .ok (c, n)) :
    stringRest ('\\' :: d :: text) =
      (stringRest ((d :: text).drop n)).map fun (cs, k) => (c :: cs, k + n + 1) := by
  rw [stringRest, h]
  show (stringRest _).bind _ = _
  cases stringRest ((d :: text).drop n) <;> rfl

/-- A character that is not escaped stands for itself. -/
theorem stringRest_plain {c : Char} (hquote : c ≠ '"') (hslash : c ≠ '\\')
    (hc : ¬ c.toNat < 0x20) (text : List Char) :
    stringRest (c :: text) = (stringRest text).map fun (cs, n) => (c :: cs, n + 1) := by
  rw [stringRest.eq_def]
  split
  · next h => cases h
  · next h =>
    cases h
    exact absurd rfl hquote
  · next h =>
    cases h
    exact absurd rfl hslash
  · next h =>
    cases h
    rw [if_neg hc]
    cases stringRest text <;> rfl

/-- A character is read back from what it is escaped as, and no more is taken. -/
theorem stringRest_escape (c : Char) (text : List Char) :
    stringRest (escape c ++ text) =
      (stringRest text).map fun (cs, n) => (c :: cs, n + (escape c).length) := by
  -- of the escapes all but the last have a letter of their own
  have hsimple : ∀ {c d : Char}, d ≠ 'u' → simpleEscape? d = some c →
      stringRest (['\\', d] ++ text) =
        (stringRest text).map fun (cs, n) => (c :: cs, n + ['\\', d].length) :=
    fun hu hd => stringRest_backslash (escapeRest_simple hu hd text)
  unfold escape
  split
  · next h =>
    subst h
    exact hsimple (by decide) (by decide)
  split
  · next h =>
    subst h
    exact hsimple (by decide) (by decide)
  split
  · next h =>
    subst h
    exact hsimple (by decide) (by decide)
  split
  · next h =>
    subst h
    exact hsimple (by decide) (by decide)
  split
  · next h =>
    subst h
    exact hsimple (by decide) (by decide)
  split
  · next h =>
    have hc : c = '\x08' := by rw [← Char.ofNat_toNat c, h]
    subst hc
    exact hsimple (by decide) (by decide)
  split
  · next h =>
    have hc : c = '\x0c' := by rw [← Char.ofNat_toNat c, h]
    subst hc
    exact hsimple (by decide) (by decide)
  split
  · next hc => exact stringRest_backslash (escapeRest_control hc text)
  · next hquote hslash _ _ _ _ _ hc => exact stringRest_plain hquote hslash hc text

theorem exists_toList_quote (s : String) : ∃ cs, (quote s).toList = '"' :: cs :=
  ⟨_, String.toList_ofList⟩

/-- A quoted text is read back in front of whatever follows it. -/
theorem reads_stringHere_quote (s : String) (rest : List Char) :
    Reader.reads Reader.stringHere ((quote s).toList ++ rest) = .ok (s, rest) := by
  have hinside : ∀ cs : List Char, stringRest (cs.flatMap escape ++ '"' :: rest) =
      .ok (cs, (cs.flatMap escape).length + 1) := by
    intro cs
    induction cs with
    | nil => rw [List.flatMap_nil, List.nil_append, stringRest]; rfl
    | cons c cs ih =>
      rw [List.flatMap_cons, List.append_assoc, stringRest_escape, ih, List.length_append]
      exact congrArg (fun n => Except.ok (c :: cs, n)) (by omega)
  have hquote : (quote s).toList ++ rest = '"' :: (s.toList.flatMap escape ++ '"' :: rest) := by
    simp [quote]
  rw [hquote, Reader.reads_stringHere, hinside]
  have hdrop : (s.toList.flatMap escape ++ '"' :: rest).drop
      ((s.toList.flatMap escape).length + 1) = rest := by
    rw [← List.drop_drop, List.drop_left]
    rfl
  show Except.ok (String.ofList s.toList, _) = _
  rw [hdrop, String.ofList_toList]

/-! ## Numbers -/

/-- The decimal form of a number other than zero does not begin with a zero. -/
theorem head?_toDigits_ne {n : Nat} (hn : n ≠ 0) : (Nat.toDigits 10 n).head? ≠ some '0' := by
  induction n using Nat.strongRecOn with
  | ind n ih =>
    rw [Nat.toDigits_eq_if (by decide)]
    split
    · next hsmall =>
      have hdigit : ∀ n < 10, n ≠ 0 → n.digitChar ≠ '0' := by decide
      exact fun h => hdigit n hsmall hn (Option.some.inj h)
    · next hlarge =>
      -- the decimal form begins like that of the tenth part
      have hhead := ih (n / 10) (by omega) (by omega)
      cases hdigits : Nat.toDigits 10 (n / 10) with
      | nil => exact absurd hdigits Nat.toDigits_ne_nil
      | cons d ds =>
        rw [hdigits] at hhead
        exact hhead

/-- A number grows with its digits. -/
theorem le_foldl_digits (n : Nat) (digits : List Char) :
    n ≤ digits.foldl (fun n c => 10 * n + (c.toNat - '0'.toNat)) n := by
  induction digits generalizing n with
  | nil => exact Nat.le_refl n
  | cons c cs ih =>
    have hnext := ih (10 * n + (c.toNat - '0'.toNat))
    rw [List.foldl_cons]
    omega

/-- If the whole number is in range, all of its digits are gathered. -/
theorem gather_eq {digits : List Char} {n : Nat}
    (h : digits.foldl (fun n c => 10 * n + (c.toNat - '0'.toNat)) n ≤ maxSignificand)
    (taken : Nat) :
    gather n taken digits =
      (digits.foldl (fun n c => 10 * n + (c.toNat - '0'.toNat)) n, taken + digits.length) := by
  induction digits generalizing n taken with
  | nil => rfl
  | cons c cs ih =>
    have hnext := Nat.le_trans (le_foldl_digits _ cs) h
    rw [gather, if_pos hnext, ih h, List.length_cons, List.foldl_cons]
    exact congrArg (Prod.mk _) (by omega)

/-- What may follow a value in a document: a blank, a comma or a closing bracket. -/
def EndsValue (rest : List Char) : Prop :=
  ∃ c more, rest = c :: more ∧ c ∈ [' ', '\t', '\r', '\n', ',', ']', '\x7d']

/-- Blanks behind a value do not hide its end. -/
theorem endsValue_append {b : List Char} (hb : Reader.Blanks b) {rest : List Char}
    (hrest : EndsValue rest) : EndsValue (b ++ rest) := by
  cases b with
  | nil => exact hrest
  | cons c cs =>
    have hblank := hb c (List.mem_cons_self ..)
    refine ⟨c, cs ++ rest, rfl, ?_⟩
    simp only [isPlainBlank, Bool.or_eq_true, decide_eq_true_eq] at hblank
    rcases hblank with ((rfl | rfl) | rfl) | rfl <;> decide

/-- What ends a value goes on with no number. -/
theorem EndsValue.exists_cons {rest : List Char} (h : EndsValue rest) :
    ∃ c more, rest = c :: more ∧ isDigit c = false ∧ c ≠ '.' ∧ c ≠ 'e' ∧ c ≠ 'E' := by
  obtain ⟨c, more, rfl, hc⟩ := h
  refine ⟨c, more, rfl, ?_⟩
  simp only [List.mem_cons, List.not_mem_nil, or_false] at hc
  rcases hc with rfl | rfl | rfl | rfl | rfl | rfl | rfl <;> decide

/-- The digits of a number are read as this number, to the last. -/
theorem unsignedNumber_toDigits {negative : Bool} {n : Nat} {rest : List Char}
    (hn : n ≤ maxSignificand) (hnegative : negative = true → n ≠ 0) (hrest : EndsValue rest) :
    unsignedNumber negative (Nat.toDigits 10 n ++ rest) =
      .ok (.int (if negative then -n else n), (Nat.toDigits 10 n).length) := by
  have hdigit : ∀ c ∈ Nat.toDigits 10 n, isDigit c = true :=
    fun c hc => Nat.isDigit_of_mem_toDigits (by decide) (by decide) hc
  have hvalue : (Nat.toDigits 10 n).foldl (fun n c => 10 * n + (c.toNat - '0'.toNat)) 0 = n :=
    Nat.ofDigitChars_ten_toDigits
  have hgather : gather 0 0 (Nat.toDigits 10 n) = (n, (Nat.toDigits 10 n).length) := by
    rw [gather_eq (by rw [hvalue]; exact hn), hvalue, Nat.zero_add]
  have htake : (Nat.toDigits 10 n ++ rest).takeWhile isDigit = Nat.toDigits 10 n := by
    obtain ⟨c, more, rfl, hc, _⟩ := hrest.exists_cons
    rw [List.takeWhile_append_of_pos hdigit, List.takeWhile_cons_of_neg (by simp [hc]),
      List.append_nil]
  have hnonempty : (Nat.toDigits 10 n).isEmpty = false := by
    rw [List.isEmpty_eq_false_iff]
    exact Nat.toDigits_ne_nil
  have hzero :
      ((Nat.toDigits 10 n).head? = some '0' && 1 < (Nat.toDigits 10 n).length) = false := by
    by_cases hn : n = 0
    · subst hn
      rfl
    · rw [decide_eq_false (head?_toDigits_ne hn), Bool.false_and]
  have hsigned : (negative && decide (n = 0)) = false := by
    cases negative with
    | false => rfl
    | true => exact decide_eq_false (hnegative rfl)
  unfold unsignedNumber
  simp only [htake, hnonempty, hzero, hgather, hsigned, List.drop_left, Nat.lt_irrefl,
    Bool.false_eq_true, if_false]
  -- neither a point nor an exponent follows, so it stays an integer
  obtain ⟨c, more, rfl, _, hpoint, he, hE⟩ := hrest.exists_cons
  split
  · next h =>
    cases h
    exact absurd rfl hpoint
  · split
    · next h =>
      cases h
      exact absurd rfl he
    · next h =>
      cases h
      exact absurd rfl hE
    · rfl

theorem minus_not_mem_toDigits (n : Nat) : '-' ∉ Nat.toDigits 10 n := by
  intro h
  exact absurd (Nat.isDigit_of_mem_toDigits (by decide) (by decide) h) (by decide)

theorem number_of_not_minus {text : List Char} (h : text.head? ≠ some '-') :
    number text = unsignedNumber false text := by
  unfold number
  split
  · exact absurd rfl h
  · rfl

/-- An integer whose size fits a significand is read back. -/
theorem number_toString {n : Int} {rest : List Char} (hn : n.natAbs ≤ maxSignificand)
    (hrest : EndsValue rest) :
    number ((toString n).toList ++ rest) = .ok (.int n, (toString n).toList.length) := by
  rw [Int.toString_eq_repr, Int.repr_eq_if]
  split
  · next hsign =>
    have hread : unsignedNumber false (Nat.toDigits 10 n.toNat ++ rest) =
        .ok (.int n.toNat, (Nat.toDigits 10 n.toNat).length) :=
      unsignedNumber_toDigits (by omega) (fun h => nomatch h) hrest
    have hhead : (Nat.toDigits 10 n.toNat ++ rest).head? ≠ some '-' := by
      cases hdigits : Nat.toDigits 10 n.toNat with
      | nil => exact absurd hdigits Nat.toDigits_ne_nil
      | cons d ds =>
        rintro ⟨⟩
        exact minus_not_mem_toDigits n.toNat (hdigits ▸ List.mem_cons_self ..)
    rw [Nat.toList_repr, number_of_not_minus hhead, hread, Int.toNat_of_nonneg hsign]
  · next hsign =>
    have hread : unsignedNumber true (Nat.toDigits 10 (-n).toNat ++ rest) =
        .ok (.int (-(-n).toNat), (Nat.toDigits 10 (-n).toNat).length) :=
      unsignedNumber_toDigits (by omega) (fun _ => by omega) hrest
    have hvalue : -((-n).toNat : Int) = n := by omega
    rw [String.toList_append, Nat.toList_repr, show "-".toList = ['-'] from rfl,
      List.singleton_append, List.cons_append, List.length_cons]
    show (unsignedNumber true _).map _ = _
    rw [hread, hvalue]
    rfl

/-- The size of a 64-bit integer fits a significand. -/
theorem reads_number (n : Int64) {rest : List Char} (hrest : EndsValue rest) :
    Reader.reads (Reader.lexical number) ((toString n.toInt).toList ++ rest) =
      .ok (.int n.toInt, rest) := by
  have hsize : n.toInt.natAbs ≤ maxSignificand := by
    have hlow := Int64.le_toInt n
    have hhigh := Int64.toInt_lt n
    have hmax : 9223372036854775808 ≤ maxSignificand := by decide
    omega
  rw [Reader.reads_lexical, number_toString hsize hrest]
  show Except.ok (_, _) = _
  rw [List.drop_left]

/-- What a number begins with is no other character. -/
theorem ne_of_beginsNumber {c d : Char} (hc : (c = '-' || isDigit c) = true)
    (hd : (d = '-' || isDigit d) = false) : c ≠ d := by
  rintro rfl
  rw [hc] at hd
  cases hd

theorem isPlainBlank_of_beginsNumber {c : Char} (hc : (c = '-' || isDigit c) = true) :
    isPlainBlank c = false := by
  have hnot : ∀ d, (d = '-' || isDigit d) = false → c ≠ d := fun _ => ne_of_beginsNumber hc
  simp only [isPlainBlank, Bool.or_eq_false_iff, decide_eq_false_iff_not]
  exact ⟨⟨⟨hnot _ (by decide), hnot _ (by decide)⟩, hnot _ (by decide)⟩, hnot _ (by decide)⟩

/-- A number begins with a minus or a digit. -/
theorem exists_head_toString (n : Int) :
    ∃ c cs, (toString n).toList = c :: cs ∧ (c = '-' || isDigit c) = true := by
  rw [Int.toString_eq_repr, Int.repr_eq_if]
  split
  · rw [Nat.toList_repr]
    cases hdigits : Nat.toDigits 10 n.toNat with
    | nil => exact absurd hdigits Nat.toDigits_ne_nil
    | cons c cs =>
      have hc : isDigit c = true :=
        Nat.isDigit_of_mem_toDigits (by decide) (by decide) (hdigits ▸ List.mem_cons_self ..)
      exact ⟨c, cs, rfl, by rw [hc, Bool.or_true]⟩
  · rw [String.toList_append]
    exact ⟨'-', _, rfl, rfl⟩

/-! ## Keywords -/

/-- A keyword is read from its second character on, the first having told which it is. -/
theorem reads_keywordHere (c : Char) (keyword : String) (rest : List Char) :
    Reader.reads (Reader.keywordHere keyword) (c :: (keyword.toList ++ rest)) = .ok ((), rest) := by
  have htaken : ∀ ks : List Char, keywordRest ks (ks ++ rest) = .ok ks.length := by
    intro ks
    induction ks with
    | nil => rfl
    | cons k ks ih =>
      rw [List.cons_append, keywordRest, if_pos rfl, ih]
      rfl
  unfold Reader.keywordHere Reader.lexicalSkip
  rw [Reader.reads_bind_of_ok (Reader.reads_skip c _), Reader.reads_lexical, htaken]
  show Except.ok ((), _) = _
  rw [List.drop_left]

end IrOptimizer.Json
