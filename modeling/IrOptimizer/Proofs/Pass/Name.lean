import IrOptimizer.Pass.Name
import IrOptimizer.Proofs.Text.LetterCase

/-!
# Names of names

A name is made of words with single hyphens between them (`Hyphenated`), in which every
character stays under lowering. When a name is taken for a label again, its words may still be
cut, for a capital without a lowercase form is a capital in the name too; there its neighbours
are the lowered ones, so a boundary of camel case may be where the label had none (`Cuts`).

The name of a name is the name exactly if nothing is cut (`nameOf_nameOf_iff`). Where something
is, some character of the label is a capital that is its own lowercase form; and cutting once is
enough, since a hyphen in front of a capital makes no new boundary.
-/

namespace IrOptimizer.Pass

open Text

/-! ## The shape of names -/

/-- A character of a word that stays as it is. -/
structure Lasting (c : Char) : Prop where
  not_isSeparator : isSeparator c = false
  lowercase_eq : lowercase c = [c]

/-- Words of lasting characters with single hyphens between them. -/
inductive Hyphenated : List Char → Prop where
  | single {c} : Lasting c → Hyphenated [c]
  | cons {c t} : Lasting c → Hyphenated t → Hyphenated (c :: t)
  | hyphen {c t} : Lasting c → Hyphenated t → Hyphenated (c :: '-' :: t)

theorem lasting_of_mem_lowercase {c d : Char} (hc : isSeparator c = false) (hd : d ∈ lowercase c) :
    Lasting d := by
  refine ⟨?_, lowercase_of_mem_lowercase hd⟩
  rcases mem_lowercase hd with ⟨rfl, _⟩ | hlowered
  · exact hc
  · simp [isSeparator, hlowered.not_isBlank, hlowered.not_hyphen, hlowered.not_underscore]

/-- What may be written behind a character of a name. -/
inductive Rest : List Char → Prop where
  | nil : Rest []
  | word {t} : Hyphenated t → Rest t
  | hyphen {t} : Hyphenated t → Rest ('-' :: t)

theorem Rest.hyphenated {c : Char} {t : List Char} (hc : Lasting c) (ht : Rest t) :
    Hyphenated (c :: t) := by
  cases ht with
  | nil => exact .single hc
  | word ht => exact .cons hc ht
  | hyphen ht => exact .hyphen hc ht

/-- A lowered character in front of the rest of a name. -/
theorem Rest.lowercase_append {c : Char} {t : List Char} (hc : isSeparator c = false)
    (ht : Rest t) : Hyphenated (lowercase c ++ t) := by
  have hall : ∀ d ∈ lowercase c, Lasting d := fun d hd => lasting_of_mem_lowercase hc hd
  have hne := lowercase_ne_nil c
  generalize lowercase c = form at hall hne
  induction form with
  | nil => exact absurd rfl hne
  | cons d form ih =>
    obtain ⟨hd, hform⟩ := List.forall_mem_cons.mp hall
    by_cases hnil : form = []
    · rw [hnil]
      exact ht.hyphenated hd
    · exact .cons hd (ih hform hnil)

theorem nameFrom_separator {c : Char} (hc : isSeparator c = true) (before? : Option Char)
    (separated started : Bool) (cs : List Char) :
    nameFrom before? separated started (c :: cs) = nameFrom (some c) true started cs := by
  rw [nameFrom, if_pos hc]

theorem nameFrom_letter {c : Char} (hc : isSeparator c = false) (before? : Option Char)
    (separated started : Bool) (cs : List Char) :
    nameFrom before? separated started (c :: cs) =
      (if (separated || isCamelBoundary before? c cs.head?) && started then ['-'] else []) ++
        (lowercase c ++ nameFrom (some c) false true cs) := by
  rw [nameFrom, if_neg (by simp [hc]), List.append_assoc]

theorem rest_nameFrom (cs : List Char) :
    ∀ (before? : Option Char) (separated : Bool), Rest (nameFrom before? separated true cs) := by
  induction cs with
  | nil =>
    intro before? separated
    exact .nil
  | cons c cs ih =>
    intro before? separated
    cases hc : isSeparator c with
    | true =>
      rw [nameFrom_separator hc]
      exact ih (some c) true
    | false =>
      have hword := (ih (some c) false).lowercase_append hc
      rw [nameFrom_letter hc]
      split
      · exact .hyphen hword
      · exact .word hword

/-- A name is empty, or made of words and hyphens. -/
theorem nameFrom_eq_nil_or_hyphenated (cs : List Char) :
    ∀ (before? : Option Char) (separated : Bool),
      nameFrom before? separated false cs = [] ∨ Hyphenated (nameFrom before? separated false cs) := by
  induction cs with
  | nil =>
    intro before? separated
    exact .inl rfl
  | cons c cs ih =>
    intro before? separated
    cases hc : isSeparator c with
    | true =>
      rw [nameFrom_separator hc]
      exact ih (some c) true
    | false =>
      rw [nameFrom_letter hc, Bool.and_false, if_neg Bool.false_ne_true, List.nil_append]
      exact .inr ((rest_nameFrom cs (some c) false).lowercase_append hc)

theorem Lasting.not_isBlank {c : Char} (h : Lasting c) : isBlank c = false := by
  have hnot := h.not_isSeparator
  rw [isSeparator, Bool.or_eq_false_iff] at hnot
  exact hnot.2

theorem Hyphenated.not_isBlank {t : List Char} (h : Hyphenated t) : ∀ c ∈ t, isBlank c = false := by
  have hhyphen : isBlank '-' = false := by decide
  induction h with
  | single hc => simp [hc.not_isBlank]
  | cons hc _ ih => exact List.forall_mem_cons.mpr ⟨hc.not_isBlank, ih⟩
  | hyphen hc _ ih =>
    exact List.forall_mem_cons.mpr ⟨hc.not_isBlank, List.forall_mem_cons.mpr ⟨hhyphen, ih⟩⟩

/-! ## Cutting a name again -/

/-- Somewhere inside the text a word begins that no hyphen precedes. -/
def Cuts (t : List Char) : Prop :=
  ∃ front b c back, t = front ++ b :: c :: back ∧ isCamelBoundary (some b) c back.head? = true

theorem not_cuts_singleton (c : Char) : ¬ Cuts [c] := by
  intro hcuts
  obtain ⟨front, b, d, back, h, _⟩ := hcuts
  have hlength := congrArg List.length h
  simp only [List.length_cons, List.length_append, List.length_nil] at hlength
  omega

theorem cuts_cons_iff {b c : Char} {t : List Char} :
    Cuts (b :: c :: t) ↔ isCamelBoundary (some b) c t.head? = true ∨ Cuts (c :: t) := by
  constructor
  · intro hcuts
    obtain ⟨front, d, e, back, h, hcut⟩ := hcuts
    cases front with
    | nil =>
      obtain ⟨rfl, rfl, rfl⟩ : b = d ∧ c = e ∧ t = back := by simpa using h
      exact .inl hcut
    | cons f front =>
      injection h with _ htail
      exact .inr ⟨front, d, e, back, htail, hcut⟩
  · intro hcuts
    rcases hcuts with hcut | ⟨front, d, e, back, h, hcut⟩
    · exact ⟨[], b, c, t, rfl, hcut⟩
    · exact ⟨b :: front, d, e, back, by rw [h]; rfl, hcut⟩

theorem isCamelBoundary_some (b c : Char) (after? : Option Char) :
    isCamelBoundary (some b) c after? =
      (isUppercase c && (isLowercase b || isDigit b || (isUppercase b && after?.any isLowercase))) := by
  unfold isCamelBoundary
  dsimp only
  by_cases hlower : (isLowercase b || isDigit b) = true
  · rw [if_pos hlower, hlower, Bool.true_or]
  · rw [if_neg hlower, Bool.eq_false_iff.mpr hlower, Bool.false_or]
    cases isUppercase b <;> rfl

/-- No word begins with a hyphen. -/
theorem isCamelBoundary_hyphen (b : Char) (after? : Option Char) :
    isCamelBoundary (some b) '-' after? = false := by
  have hupper : isUppercase '-' = false := by decide +kernel
  rw [isCamelBoundary_some, hupper, Bool.false_and]

/-- Behind a hyphen a word begins anyway. -/
theorem isCamelBoundary_behind_hyphen (c : Char) (after? : Option Char) :
    isCamelBoundary (some '-') c after? = false := by
  have hclass : isLowercase '-' = false ∧ isDigit '-' = false ∧ isUppercase '-' = false := by
    decide +kernel
  simp [isCamelBoundary_some, hclass]

/-- Where no word begins, none begins when a hyphen comes next. -/
theorem isCamelBoundary_before_hyphen {b c : Char} {after? : Option Char}
    (h : isCamelBoundary (some b) c after? = false) :
    isCamelBoundary (some b) c (some '-') = false := by
  have hlower : isLowercase '-' = false := by decide +kernel
  rw [isCamelBoundary_some] at h ⊢
  rw [Option.any_some, hlower, Bool.and_false, Bool.or_false]
  cases hc : isUppercase c with
  | false => rfl
  | true =>
    rw [hc, Bool.true_and] at h
    exact (Bool.or_eq_false_iff.mp h).1

theorem cuts_cons_hyphen_iff (b : Char) (t : List Char) : Cuts (b :: '-' :: t) ↔ Cuts ('-' :: t) := by
  rw [cuts_cons_iff, isCamelBoundary_hyphen]
  simp

theorem cuts_hyphen_cons_iff (c : Char) (t : List Char) : Cuts ('-' :: c :: t) ↔ Cuts (c :: t) := by
  rw [cuts_cons_iff, isCamelBoundary_behind_hyphen]
  simp

/-! ## The name of a name -/

theorem Hyphenated.exists_cons {t : List Char} (h : Hyphenated t) :
    ∃ c cs, t = c :: cs ∧ Lasting c ∧ Rest cs := by
  cases h with
  | single hc => exact ⟨_, _, rfl, hc, .nil⟩
  | cons hc ht => exact ⟨_, _, rfl, hc, .word ht⟩
  | hyphen hc ht => exact ⟨_, _, rfl, hc, .hyphen ht⟩

/-- A lasting character is written as it is. -/
theorem nameFrom_lasting {c : Char} (hc : Lasting c) (b : Char) (cs : List Char) :
    nameFrom (some b) false true (c :: cs) =
      if isCamelBoundary (some b) c cs.head? = true then '-' :: c :: nameFrom (some c) false true cs
      else c :: nameFrom (some c) false true cs := by
  rw [nameFrom_letter hc.not_isSeparator, hc.lowercase_eq]
  cases isCamelBoundary (some b) c cs.head? <;> rfl

/-- A hyphen between words is written as it is. -/
theorem nameFrom_hyphen {t : List Char} (ht : Hyphenated t) (b : Char) :
    nameFrom (some b) false true ('-' :: t) = '-' :: nameFrom (some '-') false true t := by
  obtain ⟨c, cs, rfl, hc, _⟩ := ht.exists_cons
  rw [nameFrom_separator (by decide), nameFrom_letter hc.not_isSeparator, hc.lowercase_eq,
    nameFrom_lasting hc, isCamelBoundary_behind_hyphen, if_neg Bool.false_ne_true]
  rfl

/-- The first character of a name is written as it is, and the rest behind it. -/
theorem nameFrom_first {c : Char} (hc : Lasting c) (cs : List Char) :
    nameFrom none false false (c :: cs) = c :: nameFrom (some c) false true cs := by
  rw [nameFrom_letter hc.not_isSeparator, hc.lowercase_eq, Bool.and_false,
    if_neg Bool.false_ne_true]
  rfl

/-- Words behind a character stay exactly if nothing is cut. -/
theorem Hyphenated.nameFrom_eq_self_iff {t : List Char} (ht : Hyphenated t) :
    ∀ b, nameFrom (some b) false true t = t ↔ ¬ Cuts (b :: t) := by
  -- where a word is cut a hyphen is written, and no word begins with one
  have hchanged : ∀ {c cs out}, Lasting c → '-' :: c :: out ≠ c :: cs := by
    intro c cs out hc h
    injection h with hhyphen _
    subst hhyphen
    exact absurd hc.not_isSeparator (by decide)
  induction ht with
  | @single c hc =>
    intro b
    rw [nameFrom_lasting hc, cuts_cons_iff]
    split
    · next hcut => exact iff_of_false (hchanged hc) (fun h => h (.inl hcut))
    · next hcut => exact iff_of_true rfl (fun h => h.elim hcut (not_cuts_singleton c))
  | @cons c t hc _ ih =>
    intro b
    rw [nameFrom_lasting hc, cuts_cons_iff]
    split
    · next hcut => exact iff_of_false (hchanged hc) (fun h => h (.inl hcut))
    · next hcut =>
      rw [List.cons_inj_right, ih c, not_or]
      exact (and_iff_right hcut).symm
  | @hyphen c t hc ht ih =>
    intro b
    rw [nameFrom_lasting hc, nameFrom_hyphen ht, cuts_cons_iff, cuts_cons_hyphen_iff]
    split
    · next hcut => exact iff_of_false (hchanged hc) (fun h => h (.inl hcut))
    · next hcut =>
      rw [List.cons_inj_right, List.cons_inj_right, ih '-', not_or]
      exact (and_iff_right hcut).symm

theorem Rest.nameFrom_eq_self_iff {t : List Char} (ht : Rest t) (b : Char) :
    nameFrom (some b) false true t = t ↔ ¬ Cuts (b :: t) := by
  cases ht with
  | nil => exact iff_of_true rfl (not_cuts_singleton b)
  | word ht => exact ht.nameFrom_eq_self_iff b
  | hyphen ht =>
    rw [nameFrom_hyphen ht, List.cons_inj_right, cuts_cons_hyphen_iff]
    exact ht.nameFrom_eq_self_iff '-'

/-- What follows a character may be cut off from it, and is not changed otherwise. -/
theorem Rest.head?_nameFrom {t : List Char} (ht : Rest t) (b : Char) :
    (nameFrom (some b) false true t).head? = t.head? ∨
      (nameFrom (some b) false true t).head? = some '-' := by
  cases ht with
  | nil => exact .inl rfl
  | word ht =>
    obtain ⟨c, cs, rfl, hc, _⟩ := ht.exists_cons
    rw [nameFrom_lasting hc]
    split
    · exact .inr rfl
    · exact .inl rfl
  | hyphen ht =>
    rw [nameFrom_hyphen ht]
    exact .inl rfl

/-- A word that is not cut off from what stands before it is not cut off the next time either,
whether or not what follows has been. -/
theorem not_cuts_step {b c : Char} {t : List Char} (ht : Rest t)
    (hlater : ¬ Cuts (c :: nameFrom (some c) false true t)) :
    ¬ Cuts (b :: if isCamelBoundary (some b) c t.head? = true
      then '-' :: c :: nameFrom (some c) false true t else c :: nameFrom (some c) false true t) := by
  split
  · rw [cuts_cons_hyphen_iff, cuts_hyphen_cons_iff]
    exact hlater
  · next hcut =>
    have hkeep : isCamelBoundary (some b) c (nameFrom (some c) false true t).head? = false := by
      rcases ht.head?_nameFrom c with hhead | hhead
      · rw [hhead]
        exact Bool.eq_false_iff.mpr hcut
      · rw [hhead]
        exact isCamelBoundary_before_hyphen (Bool.eq_false_iff.mpr hcut)
    rw [cuts_cons_iff, hkeep]
    intro hcuts
    rcases hcuts with hfirst | hmore
    · cases hfirst
    · exact hlater hmore

theorem Hyphenated.not_cuts_nameFrom {t : List Char} (ht : Hyphenated t) :
    ∀ b, ¬ Cuts (b :: nameFrom (some b) false true t) := by
  induction ht with
  | @single c hc =>
    intro b
    rw [nameFrom_lasting hc]
    exact not_cuts_step .nil (not_cuts_singleton c)
  | @cons c t hc ht ih =>
    intro b
    rw [nameFrom_lasting hc]
    exact not_cuts_step (.word ht) (ih c)
  | @hyphen c t hc ht ih =>
    intro b
    rw [nameFrom_lasting hc]
    refine not_cuts_step (.hyphen ht) ?_
    rw [nameFrom_hyphen ht, cuts_cons_hyphen_iff]
    exact ih '-'

theorem Rest.not_cuts_nameFrom {t : List Char} (ht : Rest t) (b : Char) :
    ¬ Cuts (b :: nameFrom (some b) false true t) := by
  cases ht with
  | nil => exact not_cuts_singleton b
  | word ht => exact ht.not_cuts_nameFrom b
  | hyphen ht =>
    rw [nameFrom_hyphen ht, cuts_cons_hyphen_iff]
    exact ht.not_cuts_nameFrom '-'

theorem not_cuts_nil : ¬ Cuts [] := by
  intro hcuts
  obtain ⟨front, b, c, back, h, _⟩ := hcuts
  cases front <;> cases h

/-- A name is its own name exactly if nothing in it is cut. -/
theorem nameFrom_name_eq_self_iff (cs : List Char) :
    nameFrom none false false (nameFrom none false false cs) = nameFrom none false false cs ↔
      ¬ Cuts (nameFrom none false false cs) := by
  rcases nameFrom_eq_nil_or_hyphenated cs none false with hnil | hname
  · rw [hnil]
    exact iff_of_true rfl not_cuts_nil
  · obtain ⟨c, t, heq, hc, ht⟩ := hname.exists_cons
    rw [heq, nameFrom_first hc, List.cons_inj_right]
    exact ht.nameFrom_eq_self_iff c

/-- In the name of a name nothing is cut. -/
theorem not_cuts_name_name (cs : List Char) :
    ¬ Cuts (nameFrom none false false (nameFrom none false false cs)) := by
  rcases nameFrom_eq_nil_or_hyphenated cs none false with hnil | hname
  · rw [hnil]
    exact not_cuts_nil
  · obtain ⟨c, t, heq, hc, ht⟩ := hname.exists_cons
    rw [heq, nameFrom_first hc]
    exact ht.not_cuts_nameFrom c

/-! ## Capitals in names -/

/-- A capital in a name stands in the label, and is its own lowercase form. -/
theorem capital_of_mem_nameFrom {d : Char} (hd : isUppercase d = true) (cs : List Char) :
    ∀ (before? : Option Char) (separated started : Bool),
      d ∈ nameFrom before? separated started cs → d ∈ cs ∧ lowercase d = [d] := by
  induction cs with
  | nil =>
    intro before? separated started h
    cases h
  | cons c cs ih =>
    intro before? separated started h
    cases hc : isSeparator c with
    | true =>
      rw [nameFrom_separator hc] at h
      obtain ⟨hmem, hself⟩ := ih _ _ _ h
      exact ⟨List.mem_cons_of_mem c hmem, hself⟩
    | false =>
      rw [nameFrom_letter hc, List.mem_append, List.mem_append] at h
      rcases h with hhyphen | hform | hrest
      · -- a hyphen is no capital
        have heq : d = '-' := by
          split at hhyphen
          · exact List.mem_singleton.mp hhyphen
          · cases hhyphen
        subst heq
        exact absurd hd (by decide +kernel)
      · rcases mem_lowercase hform with ⟨rfl, hself⟩ | hlowered
        · exact ⟨List.mem_cons_self .., hself⟩
        · rw [hlowered.not_isUppercase] at hd
          cases hd
      · obtain ⟨hmem, hself⟩ := ih _ _ _ hrest
        exact ⟨List.mem_cons_of_mem c hmem, hself⟩

theorem Cuts.exists_capital {t : List Char} (h : Cuts t) : ∃ c ∈ t, isUppercase c = true := by
  obtain ⟨front, b, c, back, rfl, hcut⟩ := h
  rw [isCamelBoundary_some, Bool.and_eq_true] at hcut
  exact ⟨c, by simp, hcut.1⟩

/-! ## Names as texts -/

theorem toList_nameOf (label : String) :
    (nameOf label).toList = nameFrom none false false label.toList := String.toList_ofList

theorem not_isBlank_of_mem_nameOf {label : String} : ∀ c ∈ (nameOf label).toList, isBlank c = false := by
  rw [toList_nameOf]
  rcases nameFrom_eq_nil_or_hyphenated label.toList none false with hnil | hname
  · rw [hnil]
    exact nofun
  · exact hname.not_isBlank

/-- A name is its own name exactly if no word in it would be cut. A word is cut only if the label
has a capital that is its own lowercase form. After one more time nothing changes any more. -/
theorem nameOf_nameOf_iff (label : String) :
    (nameOf (nameOf label) = nameOf label ↔ ¬ Cuts (nameOf label).toList) ∧
    (Cuts (nameOf label).toList →
      ∃ c ∈ label.toList, isUppercase c = true ∧ lowercase c = [c]) ∧
    nameOf (nameOf (nameOf label)) = nameOf (nameOf label) := by
  have htext : ∀ l : String, nameOf (nameOf l) = nameOf l ↔ ¬ Cuts (nameOf l).toList := by
    intro l
    rw [← String.toList_inj, toList_nameOf, toList_nameOf]
    exact nameFrom_name_eq_self_iff l.toList
  refine ⟨htext label, fun hcuts => ?_, (htext (nameOf label)).mpr ?_⟩
  · obtain ⟨c, hmem, hupper⟩ := hcuts.exists_capital
    rw [toList_nameOf] at hmem
    obtain ⟨hlabel, hself⟩ := capital_of_mem_nameFrom hupper _ _ _ _ hmem
    exact ⟨c, hlabel, hupper, hself⟩
  · rw [toList_nameOf, toList_nameOf]
    exact not_cuts_name_name label.toList

/-- A mathematical letter stays a capital, which the letter before it, once lowered, cuts off. -/
theorem nameOf_nameOf_ne : ¬ ∀ label, nameOf (nameOf label) = nameOf label := by
  intro h
  have hname := h "A𝐀"
  revert hname
  decide +kernel

end IrOptimizer.Pass
