import IrOptimizer.Proofs.Text.Lines
import IrOptimizer.Text.Position

/-!
# Places and lines

Two ways to count lines meet here. A place counts the line feeds that were read;
`lines` counts the pieces that line feeds end, and the last piece may lack one. They
agree behind lines that are all ended (`Position.after_flatten_of_ended`), so in a
text that continues behind such lines every place is as many lines further down
(`Position.after_append_of_ended`). Only the last line of a text can be no ended one.
-/

namespace IrOptimizer.Text

namespace Position

/-! ## Reading on -/

/-- The place behind a text is found by reading on from where its first part ends. -/
theorem after_append (text more : List Char) :
    after (text ++ more) = more.foldl advance (after text) := by
  rw [after, List.foldl_append, ← after]

/-- A place so many lines further down moves on alike. -/
theorem advance_down (p : Position) (n : Nat) (c : Char) :
    (p.down n).advance c = (p.advance c).down n := by
  unfold advance
  split
  · exact congrArg (Position.mk · 1) (Nat.add_right_comm p.line n 1)
  · rfl

/-- Reading on from a place further down ends as many lines further down. -/
theorem foldl_advance_down (p : Position) (n : Nat) (text : List Char) :
    text.foldl advance (p.down n) = (text.foldl advance p).down n := by
  induction text generalizing p with
  | nil => rfl
  | cons c cs ih => rw [List.foldl_cons, List.foldl_cons, advance_down, ih]

/-- Behind the beginning of a line, places are those of a text of its own. -/
theorem after_append_of_down {text : List Char} {n : Nat} (h : after text = start.down n)
    (more : List Char) : after (text ++ more) = (after more).down n := by
  rw [after_append, h, foldl_advance_down, after]

/-- A text without line feeds stays on its line. -/
theorem line_foldl_advance {text : List Char} (h : '\n' ∉ text) (p : Position) :
    (text.foldl advance p).line = p.line := by
  induction text generalizing p with
  | nil => rfl
  | cons c cs ih =>
    have hc : c ≠ '\n' := (List.ne_of_not_mem_cons h).symm
    rw [List.foldl_cons, ih (List.not_mem_of_not_mem_cons h), advance, if_neg hc]

/-! ## Places of a text -/

/-- A place that is reached by reading a part of a text that begins at a place: that
of a character or of the end. -/
def Reaches (p : Position) (text : List Char) (q : Position) : Prop :=
  ∃ read unread, text = read ++ unread ∧ q = read.foldl advance p

theorem Reaches.refl (p : Position) (text : List Char) : p.Reaches text p :=
  ⟨[], text, rfl, rfl⟩

theorem Reaches.cons {p q : Position} {c : Char} {text : List Char}
    (h : (p.advance c).Reaches text q) : p.Reaches (c :: text) q := by
  obtain ⟨read, unread, rfl, rfl⟩ := h
  exact ⟨c :: read, unread, rfl, rfl⟩

/-- The place behind any front of a text is reached in it. -/
theorem reaches_after_take (text : List Char) (n : Nat) :
    start.Reaches text (after (text.take n)) :=
  ⟨text.take n, text.drop n, (List.take_append_drop n text).symm, rfl⟩

end Position

/-! ## Ended lines -/

/-- A line feed ends the line and stands nowhere else in it. -/
def Ended (line : List Char) : Prop :=
  ∃ body, line = body ++ ['\n'] ∧ '\n' ∉ body

theorem ended_newline : Ended ['\n'] := ⟨[], rfl, List.not_mem_nil⟩

/-- What stands in front of the rest of a line belongs to it. -/
theorem Ended.cons {line : List Char} (h : Ended line) {c : Char} (hc : c ≠ '\n') :
    Ended (c :: line) := by
  obtain ⟨body, rfl, hbody⟩ := h
  exact ⟨c :: body, rfl, List.not_mem_cons_of_ne_of_not_mem hc.symm hbody⟩

/-- Every line of a text that has another one behind it is ended. -/
theorem ended_of_lines_eq {text line : List Char} {before after : List (List Char)}
    (h : lines text = before ++ line :: after) : ∀ l ∈ before, Ended l := by
  induction text generalizing before line with
  | nil => cases before <;> cases h
  | cons c cs ih =>
    unfold lines at h
    split at h
    · cases before with
      | nil => exact List.forall_mem_nil _
      | cons first before =>
        obtain ⟨rfl, hlines⟩ := List.cons.inj h
        exact List.forall_mem_cons.mpr ⟨ended_newline, ih hlines⟩
    · next hc =>
      split at h
      · cases before with
        | nil => exact List.forall_mem_nil _
        | cons first before => cases before <;> cases (List.cons.inj h).2
      · next first' more hlines =>
        cases before with
        | nil => exact List.forall_mem_nil _
        | cons first before =>
          obtain ⟨rfl, rfl⟩ := List.cons.inj h
          -- without its first character, the first line is the first line of the rest
          have hrest : ∀ l ∈ first' :: before, Ended l := ih hlines
          obtain ⟨hfirst, hbefore⟩ := List.forall_mem_cons.mp hrest
          exact List.forall_mem_cons.mpr ⟨hfirst.cons hc, hbefore⟩

/-- A line that is ended is a single line. -/
theorem lines_of_ended {line : List Char} (h : Ended line) : lines line = [line] := by
  obtain ⟨body, rfl, hbody⟩ := h
  obtain ⟨only, honly⟩ := List.length_eq_one_iff.mp (length_lines_concat_eq_one_iff.mpr hbody)
  have hflatten := flatten_lines (body ++ ['\n'])
  rw [honly, List.flatten_singleton] at hflatten
  rw [honly, hflatten]

/-- Behind lines that are ended the next one begins. -/
theorem lines_append_of_ended {ls : List (List Char)} (h : ∀ l ∈ ls, Ended l) (more : List Char) :
    lines (ls.flatten ++ more) = ls ++ lines more := by
  induction ls with
  | nil => rfl
  | cons l ls ih =>
    obtain ⟨hl, hls⟩ := List.forall_mem_cons.mp h
    have hline := lines_of_ended hl
    obtain ⟨body, hbody, -⟩ := hl
    rw [List.flatten_cons, List.append_assoc, lines_append_of_concat hbody, hline, ih hls]
    rfl

/-- The last lines of a text, put together, have no other lines. -/
theorem lines_flatten_of_suffix {text : List Char} {before part : List (List Char)}
    (h : lines text = before ++ part) : lines part.flatten = part := by
  cases part with
  | nil => rfl
  | cons first part =>
    have hlines := lines_append_of_ended (ended_of_lines_eq h) (first :: part).flatten
    rw [← List.flatten_append, ← h, flatten_lines] at hlines
    exact (List.append_cancel_left (h.symm.trans hlines)).symm

/-- Successive lines of a text, put together, have no other lines. -/
theorem lines_flatten_of_lines_eq {text : List Char} {before part behind : List (List Char)}
    (h : lines text = before ++ (part ++ behind)) : lines part.flatten = part := by
  have hsuffix := lines_flatten_of_suffix h
  cases behind with
  | nil =>
    rw [List.append_nil] at hsuffix
    exact hsuffix
  | cons next behind =>
    have hlines := lines_append_of_ended (ended_of_lines_eq hsuffix) []
    rw [List.append_nil] at hlines
    exact hlines.trans (List.append_nil part)

namespace Position

/-- Behind a line that is ended the next one begins at its first column. -/
theorem after_of_ended {line : List Char} (h : Ended line) : after line = start.down 1 := by
  obtain ⟨body, rfl, hbody⟩ := h
  have hline : (after body).line = 1 := line_foldl_advance hbody start
  rw [after_append_singleton, advance, if_pos rfl, hline]
  rfl

/-- So many ended lines lead so many lines down. -/
theorem after_flatten_of_ended {ls : List (List Char)} (h : ∀ l ∈ ls, Ended l) :
    after ls.flatten = start.down ls.length := by
  induction ls with
  | nil => rfl
  | cons l ls ih =>
    obtain ⟨hl, hls⟩ := List.forall_mem_cons.mp h
    rw [List.flatten_cons, after_append_of_down (after_of_ended hl), ih hls, List.length_cons]
    exact congrArg (Position.mk · 1) (Nat.add_assoc 1 ls.length 1)

/-- Behind ended lines every place is as many lines further down. -/
theorem after_append_of_ended {ls : List (List Char)} (h : ∀ l ∈ ls, Ended l) (more : List Char) :
    after (ls.flatten ++ more) = (after more).down ls.length :=
  after_append_of_down (after_flatten_of_ended h) more

end Position

end IrOptimizer.Text
