import IrOptimizer.Proofs.Generic.Acceptance
import IrOptimizer.Toy.Grammar

/-!
# What the grammar of literal lists reads

`Lexes` says how blanks, comments and words follow each other in a text. Whatever the text
is, the grammar reads all of it, and the words it finds stand in such an order
(`exists_reads_program`): what is passed over before a word has no word in it (`Passes`).
-/

namespace IrOptimizer.Toy

open Text
open Generic (Scanner endOfInput)
open Generic.Scanner

/-! ## Blanks, comments and words in order -/

/-- The words of a text with how many characters remain from each on. A comment reaches to
the end of its line, a word to the next blank or comment. -/
inductive Lexes : List Char → List (Nat × List Char) → Prop where
  | done : Lexes [] []
  | blank {c : Char} {cs : List Char} {ws : List (Nat × List Char)}
      (hc : isPlainBlank c = true) (later : Lexes cs ws) : Lexes (c :: cs) ws
  | comment {body rest : List Char} {ws : List (Nat × List Char)} (hbody : '\n' ∉ body)
      (hrest : ∀ c ∈ rest.head?, c = '\n') (later : Lexes rest ws) :
      Lexes ('#' :: (body ++ rest)) ws
  | word {letters rest : List Char} {ws : List (Nat × List Char)} (hne : letters ≠ [])
      (hletters : ∀ c ∈ letters, isWordChar c = true)
      (hrest : ∀ c ∈ rest.head?, isWordChar c = false) (later : Lexes rest ws) :
      Lexes (letters ++ rest) (((letters ++ rest).length, letters) :: ws)

/-- Words are made of all but blanks and the sign that begins a comment. -/
theorem isWordChar_eq_true_iff {c : Char} :
    isWordChar c = true ↔ isPlainBlank c = false ∧ c ≠ '#' := by
  simp [isWordChar]

/-! ## What the grammar reads -/

section

variable {α : Type} {p : α → Bool}

theorem forall_mem_takeWhile (s : List α) : ∀ a ∈ s.takeWhile p, p a = true :=
  List.all_eq_true.mp List.all_takeWhile

theorem forall_mem_head?_dropWhile (s : List α) : ∀ a ∈ (s.dropWhile p).head?, p a = false := by
  intro a ha
  have hhead := List.head?_dropWhile_not p s
  rw [Option.mem_def.mp ha] at hhead
  exact hhead

theorem length_dropWhile_le (s : List α) : (s.dropWhile p).length ≤ s.length :=
  (List.dropWhile_sublist p).length_le

theorem drop_length_takeWhile (s : List α) : s.drop (s.takeWhile p).length = s.dropWhile p := by
  have h : (s.takeWhile p ++ s.dropWhile p).drop (s.takeWhile p).length = s.dropWhile p :=
    List.drop_left
  rwa [List.takeWhile_append_dropWhile] at h

end

/-- Reading goes on at a later place, and no word stands before that. -/
structure Passes (s r : List Char) : Prop where
  length_le : r.length ≤ s.length
  lexes : ∀ {ws : List (Nat × List Char)}, Lexes r ws → Lexes s ws

theorem Passes.refl (s : List Char) : Passes s s := ⟨Nat.le_refl _, id⟩

theorem Passes.trans {s r t : List Char} (h : Passes s r) (h' : Passes r t) : Passes s t :=
  ⟨Nat.le_trans h'.length_le h.length_le, fun ht => h.lexes (h'.lexes ht)⟩

/-- No word stands in blanks. -/
theorem passes_blanks (s : List Char) : Passes s (s.dropWhile isPlainBlank) where
  length_le := length_dropWhile_le s
  lexes := by
    induction s with
    | nil => exact id
    | cons c cs ih =>
      intro ws h
      by_cases hc : isPlainBlank c = true
      · rw [List.dropWhile_cons_of_pos hc] at h
        exact .blank hc (ih h)
      · rw [List.dropWhile_cons_of_neg hc] at h
        exact h

/-- No word stands in a comment. -/
theorem passes_comment (cs : List Char) : Passes ('#' :: cs) (cs.dropWhile (· ≠ '\n')) where
  length_le := Nat.le_succ_of_le (length_dropWhile_le cs)
  lexes := by
    intro ws h
    have hbody : '\n' ∉ cs.takeWhile (· ≠ '\n') := by
      intro hmem
      exact absurd (forall_mem_takeWhile cs _ hmem) (by decide)
    have hrest : ∀ c ∈ (cs.dropWhile (· ≠ '\n')).head?, c = '\n' := by
      intro c hc
      simpa using forall_mem_head?_dropWhile cs c hc
    have hcomment := Lexes.comment hbody hrest h
    rwa [List.takeWhile_append_dropWhile] at hcomment

/-- A blank is read where one comes next. -/
theorem reads_blank_cons {c : Char} (hc : isPlainBlank c = true) (cs : List Char) :
    blank.reads (c :: cs) = some ((), cs) := by
  rw [blank, reads_run, List.head?_cons, Option.any_some, if_pos hc]
  rfl

/-- Blanks are read as far as they go. -/
theorem reads_blanks (s : List Char) : blanks.reads s = some ((), s.dropWhile isPlainBlank) := by
  have hmany : ∃ us, (many blank).reads s = some (us, s.dropWhile isPlainBlank) := by
    induction s with
    | nil => exact ⟨[], reads_many_nil rfl⟩
    | cons c cs ih =>
      by_cases hc : isPlainBlank c = true
      · obtain ⟨us, hus⟩ := ih
        rw [List.dropWhile_cons_of_pos hc]
        exact ⟨() :: us, reads_many_cons (reads_blank_cons hc cs) (Nat.lt_succ_self _) hus⟩
      · have hnone : blank.reads (c :: cs) = none := by
          rw [blank, reads_run, List.head?_cons, Option.any_some, if_neg hc]
          rfl
        rw [List.dropWhile_cons_of_neg hc]
        exact ⟨[], reads_many_nil hnone⟩
  obtain ⟨us, hus⟩ := hmany
  rw [blanks, reads_bind_of_some hus, reads_pure]

/-- A comment is read to the end of its line, which stays. -/
theorem reads_comment (cs : List Char) :
    comment.reads ('#' :: cs) = some ((), cs.dropWhile (· ≠ '\n')) := by
  rw [comment, reads_bind_of_some (reads_char_cons '#' cs), reads_run_of_some rfl,
    drop_length_takeWhile]

/-- Where no blank stands, comments with blanks behind them are passed over. -/
theorem exists_reads_comments {s : List Char} (hs : ∀ c ∈ s.head?, isPlainBlank c = false) :
    ∃ us r, (many do comment; blanks).reads s = some (us, r) ∧ Passes s r ∧
      ∀ c ∈ r.head?, isWordChar c = true := by
  -- the induction is on how much of the text is left
  induction hn : s.length using Nat.strongRecOn generalizing s with
  | ind n ih =>
    cases s with
    | nil => exact ⟨[], [], reads_many_nil rfl, .refl _, nofun⟩
    | cons c cs =>
      by_cases hc : c = '#'
      · subst hc
        have hstep : (do comment; blanks : Scanner Unit).reads ('#' :: cs) =
            some ((), (cs.dropWhile (· ≠ '\n')).dropWhile isPlainBlank) := by
          rw [reads_bind_of_some (reads_comment cs), reads_blanks]
        have hpass := (passes_comment cs).trans (passes_blanks _)
        have hlt : ((cs.dropWhile (· ≠ '\n')).dropWhile isPlainBlank).length <
            ('#' :: cs).length :=
          Nat.lt_succ_of_le (Nat.le_trans (length_dropWhile_le _) (length_dropWhile_le cs))
        obtain ⟨us, r, hread, hpass', hr⟩ :=
          ih _ (hn ▸ hlt) (forall_mem_head?_dropWhile _) rfl
        exact ⟨() :: us, r, reads_many_cons hstep hlt hread, hpass.trans hpass', hr⟩
      · have hhead : (c :: cs).head? ≠ some '#' := fun h => hc (Option.some.inj h)
        have hnone : (do comment; blanks : Scanner Unit).reads (c :: cs) = none :=
          reads_bind_of_none (reads_bind_of_none (reads_char_eq_none hhead))
        refine ⟨[], c :: cs, reads_many_nil hnone, .refl _, ?_⟩
        intro d hd
        obtain rfl := Option.mem_some.mp hd
        exact isWordChar_eq_true_iff.mpr ⟨hs c rfl, hc⟩

/-- A gap reads up to the next word or the end, and passes none. -/
theorem exists_reads_gap (s : List Char) :
    ∃ r, gap.reads s = some ((), r) ∧ Passes s r ∧ ∀ c ∈ r.head?, isWordChar c = true := by
  obtain ⟨us, r, hread, hpass, hr⟩ :=
    exists_reads_comments (forall_mem_head?_dropWhile (p := isPlainBlank) s)
  refine ⟨r, ?_, (passes_blanks s).trans hpass, hr⟩
  rw [gap, reads_bind_of_some (reads_blanks s), reads_bind_of_some hread, reads_pure]

/-- Where no blank and no comment begins, a word does, or nothing is left. -/
theorem eq_nil_or_word {s : List Char} (hs : ∀ c ∈ s.head?, isWordChar c = true) :
    s = [] ∨ ∃ letters rest, word.reads s = some ((s.length, letters), rest) ∧
      rest.length < s.length ∧
      ∀ {ws : List (Nat × List Char)}, Lexes rest ws → Lexes s ((s.length, letters) :: ws) := by
  cases s with
  | nil => exact .inl rfl
  | cons c cs =>
    have hletters : (c :: cs).takeWhile isWordChar = c :: cs.takeWhile isWordChar :=
      List.takeWhile_cons_of_pos (hs c rfl)
    have hsome : (if ((c :: cs).takeWhile isWordChar).isEmpty then none
        else some ((c :: cs).takeWhile isWordChar, (c :: cs).takeWhile isWordChar)) =
        some ((c :: cs).takeWhile isWordChar, (c :: cs).takeWhile isWordChar) := by
      rw [hletters]
      rfl
    refine .inr ⟨(c :: cs).takeWhile isWordChar, (c :: cs).dropWhile isWordChar, ?_, ?_, ?_⟩
    · rw [word, reads_bind_of_some (reads_here _), reads_bind_of_some (reads_run_of_some hsome),
        reads_pure, drop_length_takeWhile]
    · rw [List.dropWhile_cons_of_pos (hs c rfl)]
      exact Nat.lt_succ_of_le (length_dropWhile_le cs)
    · intro ws h
      have hword := Lexes.word (hletters ▸ List.cons_ne_nil _ _) (forall_mem_takeWhile (c :: cs))
        (forall_mem_head?_dropWhile _) h
      rwa [List.takeWhile_append_dropWhile] at hword

/-- Words are read as long as there are any, and behind the last only a gap is left. -/
theorem exists_reads_words (s : List Char) :
    ∃ ws r, (many do gap; word).reads s = some (ws, r) ∧ Lexes s ws ∧
      gap.reads r = some ((), []) := by
  -- the induction is on how much of the text is left
  induction hn : s.length using Nat.strongRecOn generalizing s with
  | ind n ih =>
    obtain ⟨t, hgap, hpass, ht⟩ := exists_reads_gap s
    rcases eq_nil_or_word ht with rfl | ⟨letters, rest, hword, hlt, hlexes⟩
    · have hnone : (do gap; word : Scanner (Nat × List Char)).reads s = none := by
        rw [reads_bind_of_some hgap]
        rfl
      exact ⟨[], s, reads_many_nil hnone, hpass.lexes .done, hgap⟩
    · have hstep : (do gap; word : Scanner (Nat × List Char)).reads s =
          some ((t.length, letters), rest) := by
        rw [reads_bind_of_some hgap, hword]
      have hrest : rest.length < s.length := Nat.lt_of_lt_of_le hlt hpass.length_le
      obtain ⟨ws, r, hread, hws, hr⟩ := ih rest.length (hn ▸ hrest) rest rfl
      exact ⟨_, r, reads_many_cons hstep hrest hread, hpass.lexes (hlexes hws), hr⟩

theorem reads_gap_nil : gap.reads [] = some ((), []) := by
  obtain ⟨r, hgap, hpass, -⟩ := exists_reads_gap []
  obtain rfl := List.eq_nil_of_length_eq_zero (Nat.le_zero.mp hpass.length_le)
  exact hgap

/-- Every text follows the grammar. -/
theorem exists_reads_program (s : List Char) :
    ∃ ws, program.reads s = some (ws, []) ∧ Lexes s ws := by
  obtain ⟨t, hgap, hpass, ht⟩ := exists_reads_gap s
  have hend : endOfInput.reads [] = some ((), []) := Generic.reads_endOfInput_iff.mpr ⟨rfl, rfl⟩
  unfold program
  rw [reads_bind_of_some hgap]
  rcases eq_nil_or_word ht with rfl | ⟨letters, rest, hword, -, hlexes⟩
  · have hfound : (optional wordList).reads [] = some (none, []) := by
      rw [reads_optional]
      rfl
    refine ⟨[], ?_, hpass.lexes .done⟩
    rw [reads_bind_of_some hfound, reads_bind_of_some reads_gap_nil, reads_bind_of_some hend]
    rfl
  · obtain ⟨ws, r, hread, hws, hr⟩ := exists_reads_words rest
    have hfound : (optional wordList).reads t = some (some ((t.length, letters) :: ws), r) := by
      rw [reads_optional, wordList, reads_bind_of_some hword, reads_bind_of_some hread]
      rfl
    refine ⟨(t.length, letters) :: ws, ?_, hpass.lexes (hlexes hws)⟩
    rw [reads_bind_of_some hfound, reads_bind_of_some hr, reads_bind_of_some hend]
    rfl

end IrOptimizer.Toy
