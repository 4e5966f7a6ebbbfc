import IrOptimizer.Chunk
import IrOptimizer.Proofs.Text.Places

/-!
# Where chunks stand

`Cut` says how lines are cut: a chunk is the lines up to the next marker or the end,
and the lines before it are counted with the markers among them. Splitting cuts
(`cut_split`), and every chunk of a cut stands between its markers (`Cut.between`), so
the lines before it are known without following the cutting.

The lines before a chunk are all ended, unless the chunk is the empty one behind a
marker that ends the text without a line feed (`Between.ended_or_empty`): there the
count of lines and the count of line feeds differ.
-/

namespace IrOptimizer.Chunk

open Text

/-- So many lines stand before some others, which markers cut into chunks. -/
inductive Cut : Nat → List (List Char) → List Chunk → Prop where
  | last {n : Nat} {body : List (List Char)} (hbody : ∀ line ∈ body, isMarker line = false) :
      Cut n body [⟨n, body.flatten⟩]
  | next {n : Nat} (body : List (List Char)) {lines : List (List Char)} {marker : List Char}
      {chunks : List Chunk} (hbody : ∀ line ∈ body, isMarker line = false)
      (hmarker : isMarker marker = true) (later : Cut (n + (body.length + 1)) lines chunks) :
      Cut n (body ++ marker :: lines) (⟨n, body.flatten⟩ :: chunks)

/-- A line that is no marker goes to the first chunk. -/
theorem Cut.cons {n m : Nat} {lines : List (List Char)} {line : List Char} {text : List Char}
    {chunks : List Chunk} (hline : isMarker line = false)
    (h : Cut (n + 1) lines (⟨m, text⟩ :: chunks)) :
    Cut n (line :: lines) (⟨n, line ++ text⟩ :: chunks) := by
  cases h with
  | last hbody => exact .last (List.forall_mem_cons.mpr ⟨hline, hbody⟩)
  | @next _ body lines marker _ hbody hmarker later =>
    refine .next (line :: body) (List.forall_mem_cons.mpr ⟨hline, hbody⟩) hmarker ?_
    have hcount : n + 1 + (body.length + 1) = n + ((line :: body).length + 1) := by
      rw [List.length_cons]
      omega
    exact hcount ▸ later

theorem cut_ofLines (n : Nat) (lines : List (List Char)) : Cut n lines (ofLines n lines) := by
  induction lines generalizing n with
  | nil => exact .last nofun
  | cons line lines ih =>
    unfold ofLines
    split
    · next hmarker => exact .next [] nofun hmarker (ih (n + 1))
    · next hline =>
      have hcut := ih (n + 1)
      split
      · next hnil => rw [hnil] at hcut; cases hcut
      · next first more hfirst =>
        rw [hfirst] at hcut
        exact hcut.cons (Bool.eq_false_iff.mpr hline)

theorem cut_split (source : List Char) : Cut 0 (lines source) (split source) :=
  cut_ofLines 0 _

theorem ofLines_of_no_marker {body : List (List Char)}
    (hbody : ∀ line ∈ body, isMarker line = false) (n : Nat) :
    ofLines n body = [⟨n, body.flatten⟩] := by
  induction body generalizing n with
  | nil => rfl
  | cons line body ih =>
    obtain ⟨hline, hbody⟩ := List.forall_mem_cons.mp hbody
    rw [ofLines, hline, if_neg Bool.false_ne_true, ih hbody]
    rfl

/-- A marker ends the first chunk. -/
theorem ofLines_append_marker {body : List (List Char)} {marker : List Char}
    (hbody : ∀ line ∈ body, isMarker line = false) (hmarker : isMarker marker = true)
    (more : List (List Char)) (n : Nat) :
    ofLines n (body ++ marker :: more) =
      ⟨n, body.flatten⟩ :: ofLines (n + (body.length + 1)) more := by
  induction body generalizing n with
  | nil =>
    rw [List.nil_append, ofLines, if_pos hmarker]
    rfl
  | cons line body ih =>
    obtain ⟨hline, hbody⟩ := List.forall_mem_cons.mp hbody
    have hcount : n + 1 + (body.length + 1) = n + ((line :: body).length + 1) := by
      rw [List.length_cons]
      omega
    rw [List.cons_append, ofLines, hline, if_neg Bool.false_ne_true, ih hbody, hcount]
    rfl

/-- Without markers there is one chunk. -/
theorem split_of_no_marker {source : List Char}
    (h : ∀ line ∈ lines source, isMarker line = false) : split source = [⟨0, source⟩] := by
  unfold split
  rw [ofLines_of_no_marker h, flatten_lines]

/-- A chunk stands behind so many markers of some lines: the lines before it end with
the last of them, and the chunk goes on to the next marker or to the end. -/
structure Between (ls : List (List Char)) (markers : Nat) (chunk : Chunk)
    (leading body trailing : List (List Char)) : Prop where
  lines_eq : ls = leading ++ body ++ trailing
  leading_markers : leading.countP isMarker = markers
  leading_last : ∀ line ∈ leading.getLast?, isMarker line = true
  body_markers : ∀ line ∈ body, isMarker line = false
  trailing_first : ∀ line ∈ trailing.head?, isMarker line = true
  text_eq : chunk.text = body.flatten

namespace Between

variable {ls body trailing : List (List Char)} {markers : Nat} {chunk : Chunk}
  {leading : List (List Char)}

/-- One marker more, and the lines up to it, before the lines. -/
theorem behind {others : List (List Char)} {marker : List Char}
    (hothers : ∀ line ∈ others, isMarker line = false) (hmarker : isMarker marker = true)
    (h : Between ls markers chunk leading body trailing) :
    Between (others ++ marker :: ls) (markers + 1) chunk (others ++ marker :: leading) body
      trailing where
  lines_eq := by simp [h.lines_eq]
  leading_markers := by
    have hnone : others.countP isMarker = 0 :=
      List.countP_eq_zero.mpr fun line hline => by simp [hothers line hline]
    rw [List.countP_append, List.countP_cons_of_pos hmarker, hnone, h.leading_markers, Nat.zero_add]
  leading_last := by
    intro line hline
    rw [List.getLast?_append, List.getLast?_cons, Option.some_or] at hline
    cases hlast : leading.getLast? with
    | none =>
      rw [hlast] at hline
      exact Option.mem_some.mp hline ▸ hmarker
    | some last =>
      rw [hlast] at hline
      exact h.leading_last line (hlast ▸ hline)
  body_markers := h.body_markers
  trailing_first := h.trailing_first
  text_eq := h.text_eq

end Between

/-- Every chunk of a cut stands behind as many markers as there are chunks before it,
and knows how many lines stand before it. -/
theorem Cut.between {n : Nat} {ls : List (List Char)} {chunks : List Chunk}
    (h : Cut n ls chunks) {before later : List Chunk} {chunk : Chunk}
    (hchunks : chunks = before ++ chunk :: later) :
    ∃ leading body trailing, Between ls before.length chunk leading body trailing ∧
      chunk.linesBefore = n + leading.length := by
  -- along the cut; the chunk is the first one or stands behind the first marker
  induction h generalizing before with
  | @last n body hbody =>
    cases before with
    | nil =>
      obtain ⟨rfl, rfl⟩ := List.cons.inj hchunks
      exact ⟨[], body, [], ⟨by simp, rfl, nofun, hbody, nofun, rfl⟩, rfl⟩
    | cons first before => cases before <;> cases (List.cons.inj hchunks).2
  | @next n others lines marker chunks hothers hmarker _ ih =>
    cases before with
    | nil =>
      obtain ⟨rfl, rfl⟩ := List.cons.inj hchunks
      have hfirst : ∀ line ∈ (marker :: lines).head?, isMarker line = true := by
        intro line hline
        exact Option.mem_some.mp hline ▸ hmarker
      exact ⟨[], others, marker :: lines, ⟨rfl, rfl, nofun, hothers, hfirst, rfl⟩, rfl⟩
    | cons first before =>
      obtain ⟨leading, body, trailing, hbetween, hcount⟩ := ih (List.cons.inj hchunks).2
      refine ⟨_, body, trailing, hbetween.behind hothers hmarker, ?_⟩
      rw [hcount, List.length_append, List.length_cons]
      omega

theorem between_of_split_eq {source : List Char} {before later : List Chunk} {chunk : Chunk}
    (h : split source = before ++ chunk :: later) :
    ∃ leading body trailing,
      Between (lines source) before.length chunk leading body trailing ∧
        chunk.linesBefore = leading.length := by
  obtain ⟨leading, body, trailing, hbetween, hcount⟩ := (cut_split source).between h
  exact ⟨leading, body, trailing, hbetween, hcount.trans (Nat.zero_add _)⟩

namespace Between

variable {source : List Char} {markers : Nat} {chunk : Chunk}
  {leading body trailing : List (List Char)}

theorem source_eq (h : Between (lines source) markers chunk leading body trailing) :
    source = leading.flatten ++ chunk.text ++ trailing.flatten := by
  rw [h.text_eq, ← List.flatten_append, ← List.flatten_append, ← h.lines_eq, flatten_lines]

/-- Only a chunk without lines can stand behind a line that lacks its line feed. -/
theorem ended_or_empty (h : Between (lines source) markers chunk leading body trailing) :
    (∀ line ∈ leading, Ended line) ∨ chunk.text = [] := by
  cases body with
  | nil => exact .inr h.text_eq
  | cons first body =>
    have hlines : lines source = leading ++ first :: (body ++ trailing) := by simp [h.lines_eq]
    exact .inl (ended_of_lines_eq hlines)

end Between

end IrOptimizer.Chunk
