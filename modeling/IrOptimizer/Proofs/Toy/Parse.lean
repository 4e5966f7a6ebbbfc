import IrOptimizer.Proofs.Except
import IrOptimizer.Proofs.Toy.Words
import Mathlib.Data.List.Forall2

/-!
# Reading a list of literals

Each word of a list of literals stands for an integer (`IsLiteral`) or is complained about.
A text is read as the literals of its words if all of them are integers, and refused because
of the first that is none, at the place where it begins (`parse_reference`).
-/

namespace IrOptimizer.Toy

open Text

/-! ## Integers -/

/-- What may stand before the digits of an integer, and the factor it stands for. -/
inductive Sign : List Char → Int → Prop where
  | none : Sign [] 1
  | plus : Sign ['+'] 1
  | minus : Sign ['-'] (-1)

/-- A word is an integer of 64 bits, written with digits behind one sign at most. -/
def IsLiteral (word : List Char) (n : Int64) : Prop :=
  ∃ sign factor digits, Sign sign factor ∧ word = sign ++ digits ∧ digits ≠ [] ∧
    (∀ c ∈ digits, isDigit c = true) ∧ n.toInt = factor * Nat.ofDigitChars 10 digits 0

section

variable {digits word : List Char} {n : Int64}

/-- Digits are accepted if there are some and what is made of the number they come to is in
range. -/
theorem bind_natural?_eq_some_iff {f : Nat → Int} :
    ((natural? digits).bind fun k => int64? (f k)) = some n ↔
      digits ≠ [] ∧ (∀ c ∈ digits, isDigit c = true) ∧
        n.toInt = f (Nat.ofDigitChars 10 digits 0) := by
  rw [Option.bind_eq_some_iff]
  constructor
  · intro h
    obtain ⟨k, hk, hn⟩ := h
    obtain ⟨hne, hdigits, rfl⟩ := natural?_eq_some_iff.mp hk
    exact ⟨hne, hdigits, int64?_eq_some_iff.mp hn⟩
  · intro h
    obtain ⟨hne, hdigits, hn⟩ := h
    exact ⟨_, natural?_eq_some_iff.mpr ⟨hne, hdigits, rfl⟩, int64?_eq_some_iff.mpr hn⟩

/-- Behind a minus the number is negated. -/
theorem literal?_minus (digits : List Char) :
    literal? ('-' :: digits) = (natural? digits).bind fun k => int64? (-(k : Int)) := by
  show (integer? ('-' :: digits)).bind int64? = _
  rw [Generic.integer?_minus, Option.bind_map, Function.comp_def]

/-- A word without a sign is a number as it stands. -/
theorem literal?_of_unsigned (hplus : word.head? ≠ some '+') (hminus : word.head? ≠ some '-') :
    literal? word = (natural? word).bind fun k => int64? k := by
  unfold literal?
  split
  · exact absurd rfl hplus
  · rw [Generic.integer?_digits hminus, Option.bind_map, Function.comp_def]

/-- What is accepted as a literal has one sign at most, then digits, and is in the range. -/
theorem isLiteral_of_literal? (h : literal? word = some n) : IsLiteral word n := by
  by_cases hplus : word.head? = some '+'
  · obtain ⟨digits, rfl⟩ := List.head?_eq_some_iff.mp hplus
    obtain ⟨hne, hdigits, hn⟩ := bind_natural?_eq_some_iff.mp h
    exact ⟨['+'], 1, digits, .plus, rfl, hne, hdigits, hn.trans (Int.one_mul _).symm⟩
  by_cases hminus : word.head? = some '-'
  · obtain ⟨digits, rfl⟩ := List.head?_eq_some_iff.mp hminus
    rw [literal?_minus] at h
    obtain ⟨hne, hdigits, hn⟩ := bind_natural?_eq_some_iff.mp h
    exact ⟨['-'], -1, digits, .minus, rfl, hne, hdigits, hn.trans (Int.neg_one_mul _).symm⟩
  · rw [literal?_of_unsigned hplus hminus] at h
    obtain ⟨hne, hdigits, hn⟩ := bind_natural?_eq_some_iff.mp h
    exact ⟨[], 1, word, .none, rfl, hne, hdigits, hn.trans (Int.one_mul _).symm⟩

/-- A word of that form is accepted, with its value. -/
theorem literal?_of_isLiteral (h : IsLiteral word n) : literal? word = some n := by
  obtain ⟨sign, factor, digits, hsign, rfl, hne, hdigits, hn⟩ := h
  cases hsign with
  | none =>
    -- a digit is no sign
    have hhead : ∀ c, isDigit c = false → digits.head? ≠ some c := by
      intro c hc hmem
      rw [hdigits c (List.mem_of_mem_head? hmem)] at hc
      cases hc
    rw [List.nil_append, literal?_of_unsigned (hhead _ (by decide)) (hhead _ (by decide))]
    exact bind_natural?_eq_some_iff.mpr ⟨hne, hdigits, hn.trans (Int.one_mul _)⟩
  | plus => exact bind_natural?_eq_some_iff.mpr ⟨hne, hdigits, hn.trans (Int.one_mul _)⟩
  | minus =>
    rw [List.singleton_append, literal?_minus]
    exact bind_natural?_eq_some_iff.mpr ⟨hne, hdigits, hn.trans (Int.neg_one_mul _)⟩

/-- The words that are accepted are the literals, and each is read as its value. -/
theorem literal?_eq_some_iff : literal? word = some n ↔ IsLiteral word n :=
  ⟨isLiteral_of_literal?, literal?_of_isLiteral⟩

end

/-! ## Words -/

section

variable {w : Position × List Char}

/-- A literal becomes the operation that stands for it. -/
theorem readWord_eq_ok_iff {op : Operation} :
    readWord w = .ok op ↔ ∃ n, IsLiteral w.2 n ∧ op = literal n := by
  unfold readWord
  split
  · next n hn =>
    constructor
    · intro h
      exact ⟨n, literal?_eq_some_iff.mp hn, (Except.ok.inj h).symm⟩
    · intro h
      obtain ⟨k, hk, rfl⟩ := h
      obtain rfl := Option.some.inj (hn.symm.trans (literal?_eq_some_iff.mpr hk))
      rfl
  · next hn =>
    constructor
    · intro h
      cases h
    · intro h
      obtain ⟨k, hk, rfl⟩ := h
      cases hn.symm.trans (literal?_eq_some_iff.mpr hk)

/-- A word is refused only if it is no literal. -/
theorem exists_readWord_eq_ok_iff : (∃ op, readWord w = .ok op) ↔ ∃ n, IsLiteral w.2 n := by
  constructor
  · intro h
    obtain ⟨op, hop⟩ := h
    obtain ⟨n, hn, -⟩ := readWord_eq_ok_iff.mp hop
    exact ⟨n, hn⟩
  · intro h
    obtain ⟨n, hn⟩ := h
    exact ⟨literal n, readWord_eq_ok_iff.mpr ⟨n, hn, rfl⟩⟩

/-- The complaint about a word is at its place and quotes all of it. -/
theorem readWord_eq_error_iff {e : SyntaxError} :
    readWord w = .error e ↔
      (∀ n, ¬ IsLiteral w.2 n) ∧ e = ⟨w.1, .notAnInteger (String.ofList w.2)⟩ := by
  unfold readWord
  split
  · next n hn =>
    constructor
    · intro h
      cases h
    · intro h
      exact absurd (literal?_eq_some_iff.mp hn) (h.1 n)
  · next hn =>
    constructor
    · intro h
      refine ⟨fun n hliteral => ?_, (Except.error.inj h).symm⟩
      cases hn.symm.trans (literal?_eq_some_iff.mpr hliteral)
    · intro h
      rw [h.2]

end

/-- All words are read if each is a literal, in the order in which they stand. -/
theorem mapM_readWord_eq_ok_iff {ws : List (Position × List Char)} {ops : List Operation} :
    ws.mapM readWord = .ok ops ↔
      ∃ ns, List.Forall₂ (fun w n => IsLiteral w.2 n) ws ns ∧ ops = ns.map literal := by
  induction ws generalizing ops with
  | nil =>
    constructor
    · intro h
      cases h
      exact ⟨[], .nil, rfl⟩
    · intro h
      obtain ⟨ns, hns, rfl⟩ := h
      cases hns
      rfl
  | cons w ws ih =>
    rw [List.mapM_cons]
    constructor
    · intro h
      obtain ⟨op, hop, h⟩ := except_bind_eq_ok.mp h
      obtain ⟨ops', hops, h⟩ := except_bind_eq_ok.mp h
      cases h
      obtain ⟨n, hn, rfl⟩ := readWord_eq_ok_iff.mp hop
      obtain ⟨ns, hns, rfl⟩ := ih.mp hops
      exact ⟨n :: ns, .cons hn hns, rfl⟩
    · intro h
      obtain ⟨ns, hns, rfl⟩ := h
      cases hns with
      | @cons _ n _ ns hn hns =>
        rw [readWord_eq_ok_iff.mpr ⟨n, hn, rfl⟩, ih.mpr ⟨ns, hns, rfl⟩]
        rfl

/-! ## Texts -/

/-- The grammar and the reader find the words of a text. -/
theorem exists_reads_wordsOf (text : List Char) :
    ∃ found, program.reads text = some (found, []) ∧ found.map (located text) = wordsOf text ∧
      words .start false text = wordsOf text := by
  obtain ⟨found, hread, hlexes⟩ := exists_reads_program text
  exact ⟨found, hread, hlexes.wordsOf_eq.symm, (hlexes.words_eq []).trans hlexes.wordsOf_eq.symm⟩

/-- Parsing is reading the words of the reference, one after the other. -/
theorem parse_eq (source : String) :
    parse source = (wordsOf source.toList).mapM readWord >>= fun ops => pure ⟨none, ops⟩ := by
  obtain ⟨found, -, -, hwords⟩ := exists_reads_wordsOf source.toList
  rw [parse, hwords]

/-- A source is accepted just if all its words are literals, and it stands for these. -/
theorem parse_eq_ok_iff {source : String} {m : Module} :
    parse source = .ok m ↔
      ∃ ns, List.Forall₂ (fun w n => IsLiteral w.2 n) (wordsOf source.toList) ns ∧
        m = ⟨none, ns.map literal⟩ := by
  rw [parse_eq, except_bind_eq_ok]
  constructor
  · intro h
    obtain ⟨ops, hops, h⟩ := h
    cases h
    obtain ⟨ns, hns, rfl⟩ := mapM_readWord_eq_ok_iff.mp hops
    exact ⟨ns, hns, rfl⟩
  · intro h
    obtain ⟨ns, hns, rfl⟩ := h
    exact ⟨_, mapM_readWord_eq_ok_iff.mpr ⟨ns, hns, rfl⟩, rfl⟩

/-- A source is refused for its first word that is no literal. -/
theorem parse_eq_error_iff {source : String} {e : SyntaxError} :
    parse source = .error e ↔
      ∃ before w later, wordsOf source.toList = before ++ w :: later ∧
        (∀ v ∈ before, ∃ n, IsLiteral v.2 n) ∧ (∀ n, ¬ IsLiteral w.2 n) ∧
        e = ⟨w.1, .notAnInteger (String.ofList w.2)⟩ := by
  have hread : parse source = .error e ↔ (wordsOf source.toList).mapM readWord = .error e := by
    rw [parse_eq, except_bind_eq_error]
    refine or_iff_left ?_
    intro h
    obtain ⟨ops, -, h⟩ := h
    cases h
  rw [hread, mapM_eq_error_iff]
  simp only [exists_readWord_eq_ok_iff, readWord_eq_error_iff]

/-- The grammar reads every text and finds its words, and reading goes through these. The text
is read as the literals of its words, or refused because of the first word that is no
integer. -/
theorem parse_reference (source : String) :
    (∃ found, program.reads source.toList = some (found, []) ∧
      found.map (located source.toList) = wordsOf source.toList ∧
      parse source =
        (found.map (located source.toList)).mapM readWord >>= fun ops => pure ⟨none, ops⟩) ∧
    (∀ m, parse source = .ok m ↔
      ∃ ns, List.Forall₂ (fun w n => IsLiteral w.2 n) (wordsOf source.toList) ns ∧
        m = ⟨none, ns.map literal⟩) ∧
    (∀ e, parse source = .error e ↔
      ∃ before w later, wordsOf source.toList = before ++ w :: later ∧
        (∀ v ∈ before, ∃ n, IsLiteral v.2 n) ∧ (∀ n, ¬ IsLiteral w.2 n) ∧
        e = ⟨w.1, .notAnInteger (String.ofList w.2)⟩ ∧
        e.detail = "expected integer literal, found `" ++ String.ofList w.2 ++ "`") := by
  refine ⟨?_, ?_, ?_⟩
  · obtain ⟨found, hread, hfound, -⟩ := exists_reads_wordsOf source.toList
    exact ⟨found, hread, hfound, hfound.symm ▸ parse_eq source⟩
  · exact fun m => parse_eq_ok_iff
  · intro e
    rw [parse_eq_error_iff]
    constructor
    · intro h
      obtain ⟨before, w, later, hwords, hbefore, hw, rfl⟩ := h
      exact ⟨before, w, later, hwords, hbefore, hw, rfl, rfl⟩
    · intro h
      obtain ⟨before, w, later, hwords, hbefore, hw, he, -⟩ := h
      exact ⟨before, w, later, hwords, hbefore, hw, he⟩

end IrOptimizer.Toy
