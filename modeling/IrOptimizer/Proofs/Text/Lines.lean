import IrOptimizer.Text.Lines

/-!
# Lines and line feeds

What `lines` makes of a text that is put together. A text that ends with a line feed has
as many lines as line feeds (`length_lines_concat`), and what stands behind it begins a
line of its own (`lines_append`).
-/

namespace IrOptimizer.Text

theorem lines_newline_cons (text : List Char) : lines ('\n' :: text) = ['\n'] :: lines text := by
  rw [lines, if_pos rfl]

/-- A character that ends no line stands at the start of the first line of the rest. -/
theorem lines_cons {c : Char} (hc : c ≠ '\n') {text line : List Char} {more : List (List Char)}
    (h : lines text = line :: more) : lines (c :: text) = (c :: line) :: more := by
  rw [lines, if_neg hc, h]

/-- The first line of the rest, if there is one, gets the character in front. -/
theorem exists_lines_cons {c : Char} (hc : c ≠ '\n') (text : List Char) :
    ∃ line, lines (c :: text) = (c :: line) :: (lines text).tail ∧
      (line = [] ∨ line ∈ lines text) := by
  cases hlines : lines text with
  | nil =>
    refine ⟨[], ?_, .inl rfl⟩
    rw [lines, if_neg hc, hlines]
    rfl
  | cons line more => exact ⟨line, lines_cons hc hlines, .inr (List.mem_cons_self ..)⟩

theorem lines_concat_ne_nil (body : List Char) : lines (body ++ ['\n']) ≠ [] := by
  intro h
  have hflatten := flatten_lines (body ++ ['\n'])
  rw [h] at hflatten
  exact List.append_ne_nil_of_right_ne_nil body (List.cons_ne_nil '\n' []) hflatten.symm

/-- Behind a line feed a new line begins. -/
theorem lines_append (body rest : List Char) :
    lines (body ++ '\n' :: rest) = lines (body ++ ['\n']) ++ lines rest := by
  induction body with
  | nil =>
    show lines ('\n' :: rest) = lines ['\n'] ++ lines rest
    rw [lines_newline_cons, lines_newline_cons]
    rfl
  | cons c cs ih =>
    by_cases hc : c = '\n'
    · subst hc
      rw [List.cons_append, List.cons_append, lines_newline_cons, lines_newline_cons, ih]
      rfl
    · cases hlines : lines (cs ++ ['\n']) with
      | nil => exact absurd hlines (lines_concat_ne_nil cs)
      | cons line more =>
        rw [hlines] at ih
        rw [List.cons_append, List.cons_append, lines_cons hc ih, lines_cons hc hlines]
        rfl

/-- What stands behind a text whose last line is ended begins a line of its own. -/
theorem lines_append_of_concat {text body : List Char} (h : text = body ++ ['\n'])
    (rest : List Char) : lines (text ++ rest) = lines text ++ lines rest := by
  subst h
  rw [List.append_assoc]
  exact lines_append body rest

/-- In a text that ends with a line feed every line feed ends a line. -/
theorem length_lines_concat (body : List Char) :
    (lines (body ++ ['\n'])).length = body.count '\n' + 1 := by
  induction body with
  | nil => rfl
  | cons c cs ih =>
    by_cases hc : c = '\n'
    · subst hc
      rw [List.cons_append, lines_newline_cons, List.length_cons, ih, List.count_cons_self]
    · cases hlines : lines (cs ++ ['\n']) with
      | nil => exact absurd hlines (lines_concat_ne_nil cs)
      | cons line more =>
        rw [hlines] at ih
        rw [List.cons_append, lines_cons hc hlines, List.count_cons_of_ne hc, ← ih]
        rfl

/-- A text that ends with a line feed is one line if it has no other. -/
theorem length_lines_concat_eq_one_iff {body : List Char} :
    (lines (body ++ ['\n'])).length = 1 ↔ '\n' ∉ body := by
  rw [length_lines_concat, ← List.count_eq_zero]
  omega

/-! ## Texts in one line -/

/-- A text with a line feed in it. -/
def Breaks (text : String) : Prop := '\n' ∈ text.toList

theorem breaks_append {first second : String} :
    Breaks (first ++ second) ↔ Breaks first ∨ Breaks second := by
  unfold Breaks
  rw [String.toList_append, List.mem_append]

theorem not_breaks {text : String} (h : text.toList.contains '\n' = false) : ¬ Breaks text := by
  intro hbreaks
  rw [List.contains_iff_mem.mpr hbreaks] at h
  cases h

/-- Around a text that breaks, or does not, may stand what does not break. -/
theorem breaks_between {before after : String} (hbefore : before.toList.contains '\n' = false)
    (hafter : after.toList.contains '\n' = false) (text : String) :
    Breaks (before ++ text ++ after) ↔ Breaks text := by
  rw [breaks_append, breaks_append, or_iff_left (not_breaks hafter),
    or_iff_right (not_breaks hbefore)]

theorem breaks_behind {before : String} (hbefore : before.toList.contains '\n' = false)
    (text : String) : Breaks (before ++ text) ↔ Breaks text := by
  rw [breaks_append, or_iff_right (not_breaks hbefore)]

theorem not_breaks_toString (n : Nat) : ¬ Breaks (toString n) := by
  intro h
  unfold Breaks at h
  rw [show toString n = n.repr from rfl, Nat.toList_repr] at h
  exact absurd (Nat.isDigit_of_mem_toDigits (by decide) (by decide) h) (by decide)

/-- What numbers a text does not break it. -/
theorem not_breaks_numbered {before after : String} (hbefore : ¬ Breaks before)
    (hafter : ¬ Breaks after) (n : Nat) : ¬ Breaks (before ++ toString n ++ after) := by
  rw [breaks_append, breaks_append]
  exact not_or.mpr ⟨not_or.mpr ⟨hbefore, not_breaks_toString n⟩, hafter⟩

theorem not_breaks_intercalate {separator : String} (hseparator : ¬ Breaks separator)
    {items : List String} (hitems : ∀ item ∈ items, ¬ Breaks item) :
    ¬ Breaks (String.intercalate separator items) := by
  induction items with
  | nil => exact List.not_mem_nil
  | cons item items ih =>
    obtain ⟨hitem, hmore⟩ := List.forall_mem_cons.mp hitems
    cases items with
    | nil =>
      rw [String.intercalate_singleton]
      exact hitem
    | cons next items =>
      rw [String.intercalate_cons_cons, breaks_append, breaks_append]
      exact not_or.mpr ⟨not_or.mpr ⟨hitem, hseparator⟩, ih hmore⟩

end IrOptimizer.Text
