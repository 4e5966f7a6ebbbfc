import IrOptimizer.Proofs.Pass.Name

/-!
# The letters of a name

The letters of a label are its characters that are no separators. Its name spells them, each in
lower case and in their order, and all it has besides is hyphens (`withoutHyphens_nameFrom`);
these stand neither at an end nor beside each other, which the shape of names says.

Where they stand is seen from two letters with nothing but separators between them. Whatever the
label begins with, the name comes to the first of the two (`exists_nameFrom_letter`), and what it
writes from there to the second is a hyphen exactly if the two are `Divided`
(`nameFrom_next_letter`).
-/

namespace IrOptimizer.Pass

open Text

/-! ## Hyphens in the shape of names -/

theorem Lasting.ne_hyphen {c : Char} (h : Lasting c) : c ≠ '-' := by
  intro heq
  have hnot := h.not_isSeparator
  rw [heq] at hnot
  exact absurd hnot (by decide)

/-- Hyphens stand neither at an end nor beside each other. -/
structure SingleHyphens (name : List Char) : Prop where
  not_first : name.head? ≠ some '-'
  not_last : name.getLast? ≠ some '-'
  not_double : ¬ ['-', '-'] <:+: name

theorem singleHyphens_nil : SingleHyphens [] :=
  ⟨nofun, nofun, fun hdouble => nomatch List.infix_nil.mp hdouble⟩

/-- No hyphen comes first. -/
theorem Hyphenated.head?_ne {t : List Char} (h : Hyphenated t) : t.head? ≠ some '-' := by
  obtain ⟨c, cs, rfl, hc, _⟩ := h.exists_cons
  intro hhead
  exact hc.ne_hyphen (Option.some.inj hhead)

/-- No hyphen comes last. -/
theorem Hyphenated.getLast?_ne {t : List Char} (h : Hyphenated t) : t.getLast? ≠ some '-' := by
  induction h with
  | single hc =>
    intro hlast
    exact hc.ne_hyphen (Option.some.inj hlast)
  | cons _ ht ih =>
    obtain ⟨d, ds, rfl, _, _⟩ := ht.exists_cons
    rw [List.getLast?_cons_cons]
    exact ih
  | hyphen _ ht ih =>
    obtain ⟨d, ds, rfl, _, _⟩ := ht.exists_cons
    rw [List.getLast?_cons_cons, List.getLast?_cons_cons]
    exact ih

/-- Two hyphens in a row do not come from a character in front, unless it and the next one are
hyphens. -/
theorem not_double_cons {c : Char} {t : List Char} (hc : c ≠ '-' ∨ t.head? ≠ some '-')
    (ht : ¬ ['-', '-'] <:+: t) : ¬ ['-', '-'] <:+: c :: t := by
  intro hdouble
  rcases List.infix_cons_iff.mp hdouble with ⟨rest, hfirst⟩ | hlater
  · injection hfirst with hhyphen hnext
    rcases hc with hc | hc
    · exact hc hhyphen.symm
    · rw [← hnext] at hc
      exact hc rfl
  · exact ht hlater

/-- No two hyphens are next to each other. -/
theorem Hyphenated.not_double {t : List Char} (h : Hyphenated t) : ¬ ['-', '-'] <:+: t := by
  induction h with
  | single hc =>
    exact not_double_cons (.inl hc.ne_hyphen) singleHyphens_nil.not_double
  | cons hc _ ih => exact not_double_cons (.inl hc.ne_hyphen) ih
  | hyphen hc ht ih =>
    -- a character of a word stands on either side
    apply not_double_cons (.inl hc.ne_hyphen)
    exact not_double_cons (.inr ht.head?_ne) ih

/-- Hyphens of a name stand alone, inside it. -/
theorem singleHyphens_nameFrom (label : List Char) :
    SingleHyphens (nameFrom none false false label) := by
  rcases nameFrom_eq_nil_or_hyphenated label none false with hnil | hname
  · rw [hnil]
    exact singleHyphens_nil
  · exact ⟨hname.head?_ne, hname.getLast?_ne, hname.not_double⟩

/-! ## Spelling -/

/-- The letters of a label, each in lower case. -/
def spelled (label : List Char) : List Char :=
  (label.filter fun c => !isSeparator c).flatMap lowercase

def withoutHyphens (name : List Char) : List Char := name.filter fun c => c ≠ '-'

/-- Separators are not spelled. -/
theorem spelled_separator {c : Char} (hc : isSeparator c = true) (cs : List Char) :
    spelled (c :: cs) = spelled cs := by
  rw [spelled, List.filter_cons_of_neg (by simp [hc])]
  rfl

/-- Letters are spelled in lower case. -/
theorem spelled_letter {c : Char} (hc : isSeparator c = false) (cs : List Char) :
    spelled (c :: cs) = lowercase c ++ spelled cs := by
  rw [spelled, List.filter_cons_of_pos (by simp [hc]), List.flatMap_cons]
  rfl

theorem withoutHyphens_append (s t : List Char) :
    withoutHyphens (s ++ t) = withoutHyphens s ++ withoutHyphens t := List.filter_append ..

/-- Lower case of a letter has no hyphens. -/
theorem withoutHyphens_lowercase {c : Char} (hc : isSeparator c = false) :
    withoutHyphens (lowercase c) = lowercase c := by
  refine List.filter_eq_self.mpr fun d hd => ?_
  exact decide_eq_true (lasting_of_mem_lowercase hc hd).ne_hyphen

theorem withoutHyphens_hyphen (p : Prop) [Decidable p] :
    withoutHyphens (if p then ['-'] else []) = [] := by
  split <;> rfl

/-- A letter, whether or not a hyphen stands before it, and what is written behind it. -/
theorem withoutHyphens_letter {c : Char} (hc : isSeparator c = false) (p : Prop) [Decidable p]
    (t : List Char) :
    withoutHyphens ((if p then ['-'] else []) ++ (lowercase c ++ t)) =
      lowercase c ++ withoutHyphens t := by
  rw [withoutHyphens_append, withoutHyphens_append, withoutHyphens_hyphen,
    withoutHyphens_lowercase hc, List.nil_append]

/-- Without its hyphens a name is the letters of its label. -/
theorem withoutHyphens_nameFrom (cs : List Char) :
    ∀ (before? : Option Char) (separated started : Bool),
      withoutHyphens (nameFrom before? separated started cs) = spelled cs := by
  induction cs with
  | nil =>
    intro before? separated started
    rfl
  | cons c cs ih =>
    intro before? separated started
    cases hc : isSeparator c with
    | true => rw [nameFrom_separator hc, spelled_separator hc, ih]
    | false => rw [nameFrom_letter hc, spelled_letter hc, withoutHyphens_letter hc, ih]

/-! ## The way to a letter -/

/-- Whatever a label begins with, its name comes to the next letter, and up to there it spells
what the label begins with. -/
theorem exists_nameFrom_letter {b : Char} (hb : isSeparator b = false) (front rest : List Char) :
    ∀ (before? : Option Char) (separated started : Bool), ∃ written,
      nameFrom before? separated started (front ++ b :: rest) =
        written ++ (lowercase b ++ nameFrom (some b) false true rest) ∧
      withoutHyphens written = spelled front := by
  induction front with
  | nil =>
    intro before? separated started
    exact ⟨_, nameFrom_letter hb before? separated started rest, withoutHyphens_hyphen _⟩
  | cons a front ih =>
    intro before? separated started
    rw [List.cons_append]
    cases ha : isSeparator a with
    | true =>
      rw [nameFrom_separator ha, spelled_separator ha]
      exact ih (some a) true started
    | false =>
      obtain ⟨written, hname, hspelled⟩ := ih (some a) false true
      rw [nameFrom_letter ha, hname, spelled_letter ha, ← hspelled]
      generalize ((separated || isCamelBoundary before? a (front ++ b :: rest).head?) && started) =
        hyphen
      refine ⟨_, ?_, withoutHyphens_letter ha (hyphen = true) written⟩
      simp only [List.append_assoc]

/-! ## From a letter to the next one -/

/-- Whether the second of two letters begins a word of its own, given what stands between them
and behind them: it is separated, or a capital behind a lowercase letter or a digit, or the last
capital of several if a lowercase letter follows it. -/
def Divided (b : Char) (between : List Char) (c : Char) (after? : Option Char) : Prop :=
  between ≠ [] ∨
    isUppercase c = true ∧ (isLowercase b = true ∨ isDigit b = true) ∨
    isUppercase c = true ∧ isUppercase b = true ∧ after?.any isLowercase = true

instance (b : Char) (between : List Char) (c : Char) (after? : Option Char) :
    Decidable (Divided b between c after?) := inferInstanceAs (Decidable (_ ∨ _))

/-- Without separators between them, letters are divided where a word of the label begins. -/
theorem divided_nil_iff {b c : Char} {after? : Option Char} :
    Divided b [] c after? ↔ isCamelBoundary (some b) c after? = true := by
  rw [isCamelBoundary_some, Divided]
  simp only [Bool.and_eq_true, Bool.or_eq_true, ne_eq, not_true_eq_false, false_or, and_or_left]

/-- Separators come to one hyphen before the next letter. -/
theorem nameFrom_separators {c : Char} (hc : isSeparator c = false) {between : List Char}
    (hbetween : ∀ d ∈ between, isSeparator d = true) (back : List Char) :
    ∀ before?, nameFrom before? true true (between ++ c :: back) =
      '-' :: (lowercase c ++ nameFrom (some c) false true back) := by
  induction between with
  | nil =>
    intro before?
    exact nameFrom_letter hc before? true true back
  | cons d between ih =>
    intro before?
    obtain ⟨hd, hlater⟩ := List.forall_mem_cons.mp hbetween
    rw [List.cons_append, nameFrom_separator hd]
    exact ih hlater (some d)

/-- Between a letter and the next one stands a hyphen if they are divided, and nothing else. -/
theorem nameFrom_next_letter {c : Char} (hc : isSeparator c = false) {between : List Char}
    (hbetween : ∀ d ∈ between, isSeparator d = true) (b : Char) (back : List Char) :
    nameFrom (some b) false true (between ++ c :: back) =
      (if Divided b between c back.head? then ['-'] else []) ++
        (lowercase c ++ nameFrom (some c) false true back) := by
  cases between with
  | nil =>
    rw [List.nil_append, nameFrom_letter hc, Bool.false_or, Bool.and_true]
    simp only [divided_nil_iff]
  | cons d between =>
    obtain ⟨hd, hlater⟩ := List.forall_mem_cons.mp hbetween
    have hdivided : Divided b (d :: between) c back.head? := .inl (List.cons_ne_nil d between)
    rw [List.cons_append, nameFrom_separator hd, nameFrom_separators hc hlater, if_pos hdivided]
    rfl

/-! ## Places in a name -/

/-- What has only hyphens is empty where no hyphen may begin. -/
theorem eq_nil_of_withoutHyphens {s t : List Char} (hs : withoutHyphens s = [])
    (ht : (s ++ t).head? ≠ some '-') : s = [] := by
  cases s with
  | nil => rfl
  | cons c cs =>
    have hc : c = '-' := by simpa using List.filter_eq_nil_iff.mp hs c (List.mem_cons_self ..)
    exact absurd (congrArg some hc) ht

/-- A place that no hyphen follows is known from what stands before it, hyphens left out. -/
theorem eq_of_withoutHyphens_eq {s s' t t' : List Char} (h : s ++ t = s' ++ t')
    (hs : withoutHyphens s = withoutHyphens s') (ht : t.head? ≠ some '-')
    (ht' : t'.head? ≠ some '-') : s = s' := by
  rcases List.append_eq_append_iff.mp h with ⟨more, rfl, rfl⟩ | ⟨more, rfl, rfl⟩
  · rw [withoutHyphens_append, List.self_eq_append_right] at hs
    rw [eq_nil_of_withoutHyphens hs ht, List.append_nil]
  · rw [withoutHyphens_append, List.append_right_eq_self] at hs
    rw [eq_nil_of_withoutHyphens hs ht', List.append_nil]

theorem head?_lowercase_append_ne {c : Char} (hc : isSeparator c = false) (t : List Char) :
    (lowercase c ++ t).head? ≠ some '-' := by
  have hall : ∀ d ∈ lowercase c, Lasting d := fun d hd => lasting_of_mem_lowercase hc hd
  obtain ⟨d, ds, hform⟩ := List.exists_cons_of_ne_nil (lowercase_ne_nil c)
  rw [hform] at hall ⊢
  intro hhead
  exact (hall d (List.mem_cons_self ..)).ne_hyphen (Option.some.inj hhead)

/-- The text that a name has between two letters of its label: what is written before the first
spells what the label has before it, and what is written behind the second spells what the label
has behind it. -/
def HasBetween (name front : List Char) (b : Char) (gap : List Char) (c : Char)
    (back : List Char) : Prop :=
  ∃ written later, name = written ++ (lowercase b ++ (gap ++ (lowercase c ++ later))) ∧
    withoutHyphens written = spelled front ∧ withoutHyphens later = spelled back

/-- There is at most one such text, since no letter is written with a hyphen. -/
theorem HasBetween.unique {name front : List Char} {b : Char} {gap gap' : List Char} {c : Char}
    {back : List Char} (hb : isSeparator b = false) (hc : isSeparator c = false)
    (h : HasBetween name front b gap c back) (h' : HasBetween name front b gap' c back) :
    gap = gap' := by
  obtain ⟨written, later, hname, hwritten, hlater⟩ := h
  obtain ⟨written', later', hname', hwritten', hlater'⟩ := h'
  have heq := hname.symm.trans hname'
  have hfront : written = written' :=
    eq_of_withoutHyphens_eq heq (hwritten.trans hwritten'.symm)
      (head?_lowercase_append_ne hb _) (head?_lowercase_append_ne hb _)
  rw [hfront, List.append_cancel_left_eq, List.append_cancel_left_eq] at heq
  -- both texts have the same characters besides hyphens, for what follows them has
  have hgap : withoutHyphens gap = withoutHyphens gap' := by
    have hbehind := congrArg withoutHyphens heq
    simp only [withoutHyphens_append, hlater, hlater'] at hbehind
    exact List.append_cancel_right hbehind
  exact eq_of_withoutHyphens_eq heq hgap (head?_lowercase_append_ne hc _)
    (head?_lowercase_append_ne hc _)

/-! ## Names as texts -/

/-- Two letters of a label with nothing but separators between them. -/
structure Consecutive (label front : List Char) (b : Char) (between : List Char) (c : Char)
    (back : List Char) : Prop where
  label_eq : label = front ++ b :: (between ++ c :: back)
  first : isSeparator b = false
  separators : ∀ d ∈ between, isSeparator d = true
  second : isSeparator c = false

/-- Between the forms of consecutive letters stands a hyphen if they are divided, and nothing
else. -/
theorem Consecutive.hasBetween {label front : List Char} {b : Char} {between : List Char} {c : Char}
    {back : List Char} (h : Consecutive label front b between c back) :
    HasBetween (nameFrom none false false label) front b
      (if Divided b between c back.head? then ['-'] else []) c back := by
  obtain ⟨written, hname, hwritten⟩ :=
    exists_nameFrom_letter h.first front (between ++ c :: back) none false false
  rw [nameFrom_next_letter h.second h.separators, ← h.label_eq] at hname
  exact ⟨written, _, hname, hwritten, withoutHyphens_nameFrom back (some c) false true⟩

/-- A name that spells a label out: its hyphens are single and stand inside, besides them it has
the letters of the label, each as a whole, and between two that follow each other stands a hyphen
exactly if they are divided. -/
structure SpellsOut (label name : List Char) : Prop extends SingleHyphens name where
  letters_eq : withoutHyphens name = spelled label
  whole : ∀ {front c back}, label = front ++ c :: back → isSeparator c = false →
    ∃ written later, name = written ++ (lowercase c ++ later) ∧
      withoutHyphens written = spelled front ∧ withoutHyphens later = spelled back
  hasBetween_iff : ∀ {front b between c back}, Consecutive label front b between c back →
    ∀ gap, HasBetween name front b gap c back ↔
      gap = if Divided b between c back.head? then ['-'] else []

/-- Every label is spelled out by its name. -/
theorem nameOf_spellsOut (label : String) : SpellsOut label.toList (nameOf label).toList := by
  rw [toList_nameOf]
  generalize label.toList = label
  refine ⟨singleHyphens_nameFrom label, withoutHyphens_nameFrom label none false false, ?_, ?_⟩
  · intro front c back hlabel hc
    obtain ⟨written, hname, hwritten⟩ := exists_nameFrom_letter hc front back none false false
    rw [← hlabel] at hname
    exact ⟨written, _, hname, hwritten, withoutHyphens_nameFrom back (some c) false true⟩
  · intro front b between c back h gap
    constructor
    · intro hgap
      exact hgap.unique h.first h.second h.hasBetween
    · intro hgap
      rw [hgap]
      exact h.hasBetween

/-- The last capital of several begins a word with the lowercase letter behind it. -/
theorem nameOf_spellsOut_acronym :
    Consecutive "XMLTo2\u0130-_d".toList "XM".toList 'L' [] 'T' "o2\u0130-_d".toList ∧
      HasBetween (nameOf "XMLTo2\u0130-_d").toList "XM".toList 'L' ['-'] 'T'
        "o2\u0130-_d".toList := by
  have hletters :
      Consecutive "XMLTo2\u0130-_d".toList "XM".toList 'L' [] 'T' "o2\u0130-_d".toList :=
    ⟨rfl, by decide, nofun, by decide⟩
  refine ⟨hletters, ((nameOf_spellsOut "XMLTo2\u0130-_d").hasBetween_iff hletters ['-']).mpr ?_⟩
  decide +kernel

/-- A digit in front of a capital, a capital that becomes two characters, and several separators. -/
example : nameOf "XMLTo2\u0130-_d" = "xml-to2-i\u0307-d" := by decide +kernel

end IrOptimizer.Pass
