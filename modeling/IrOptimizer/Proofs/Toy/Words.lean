import IrOptimizer.Proofs.Text.Places
import IrOptimizer.Proofs.Toy.Grammar
import IrOptimizer.Toy
import Mathlib.Data.List.Induction

/-!
# The words of a list of literals

Words are found in three ways: `wordsOf` deletes the comments and cuts what is left at
blanks, `program` follows a grammar, and `words` reads character by character. Where blanks,
comments and words follow each other as `Lexes` says, all three find the same
(`Lexes.words_eq`, `Lexes.wordsOf_eq`).
-/

namespace IrOptimizer.Toy

open Text

/-! ## What is left without comments -/

/-- Numbered characters without the stretches from a `#` up to the next line feed. -/
def withoutComments : List (Char × Nat) → List (Char × Nat)
  | [] => []
  | c :: cs =>
    if c.1 = '#' then withoutComments (cs.dropWhile (·.1 ≠ '\n')) else c :: withoutComments cs
termination_by text => text.length
decreasing_by
  · exact Nat.lt_succ_of_le (List.dropWhile_sublist _).length_le
  · exact Nat.lt_succ_self _

/-- The line and the column of a character, given how many characters stand before it. -/
def positionOf (text : List Char) (index : Nat) : Position where
  line := (text.take index).count '\n' + 1
  column := ((text.take index).reverse.takeWhile (· ≠ '\n')).length + 1

/-- A piece of a text as a word, with the place of its first character; nothing if there is
none. -/
def wordOf? (text : List Char) (piece : List (Char × Nat)) : Option (Position × List Char) :=
  piece.head?.map fun first => (positionOf text first.2, piece.map Prod.fst)

/-- What is left of numbered characters between blanks, empty pieces included. -/
def pieces (text : List (Char × Nat)) : List (List (Char × Nat)) :=
  (withoutComments text).splitOnP fun c => isPlainBlank c.1

/-- The words of a text: it is cut at blanks when its comments are deleted. -/
def wordsOf (text : List Char) : List (Position × List Char) :=
  (pieces text.zipIdx).filterMap (wordOf? text)

/-! ## What the characters give -/

/-- A blank moves on the place of the next word. -/
theorem words_blank {c : Char} (hc : isPlainBlank c = true) (place : Position) (cs : List Char) :
    words place false (c :: cs) = words (place.advance c) false cs := by
  have hhash : c ≠ '#' := by
    intro h
    subst h
    cases hc
  rw [words, if_neg Bool.false_ne_true, if_neg hhash]
  exact if_pos hc

/-- A comment is read up to the end of its line. -/
theorem words_comment {body rest : List Char} (hbody : '\n' ∉ body)
    (hrest : ∀ c ∈ rest.head?, c = '\n') (place : Position) :
    words place true (body ++ rest) = words (body.foldl Position.advance place) false rest := by
  induction body generalizing place with
  | nil =>
    cases rest with
    | nil => rfl
    | cons c rest =>
      obtain rfl := hrest c rfl
      rw [List.nil_append, List.foldl_nil, words_blank (by decide), words, if_pos rfl]
      rfl
  | cons c body ih =>
    have hc : (c != '\n') = true := bne_iff_ne.mpr (List.ne_of_not_mem_cons hbody).symm
    rw [List.cons_append, words, if_pos rfl, hc, ih (List.not_mem_of_not_mem_cons hbody)]
    rfl

/-- A word goes on up to the next blank or comment. -/
theorem words_letters {letters rest : List Char} (hne : letters ≠ [])
    (hletters : ∀ c ∈ letters, isWordChar c = true)
    (hrest : ∀ c ∈ rest.head?, isWordChar c = false) (place : Position) :
    words place false (letters ++ rest) =
      (place, letters) :: words (letters.foldl Position.advance place) false rest := by
  induction letters generalizing place with
  | nil => exact absurd rfl hne
  | cons c letters ih =>
    obtain ⟨hc, hletters⟩ := List.forall_mem_cons.mp hletters
    obtain ⟨hblank, hhash⟩ := isWordChar_eq_true_iff.mp hc
    rw [List.cons_append, words, if_neg Bool.false_ne_true, if_neg hhash, hblank]
    dsimp only
    rw [if_neg Bool.false_ne_true]
    cases letters with
    | nil =>
      -- the last letter; the next character, if there is one, begins no word
      cases rest with
      | nil => rfl
      | cons d rest =>
        have hd := hrest d rfl
        rw [isWordChar, Bool.not_eq_false'] at hd
        dsimp only [List.nil_append, List.foldl_cons, List.foldl_nil]
        cases words (place.advance c) false (d :: rest) with
        | nil => rfl
        | cons w ws => exact if_pos hd
    | cons d letters =>
      have hd := hletters d (List.mem_cons_self ..)
      rw [isWordChar, Bool.not_eq_true'] at hd
      rw [ih (List.cons_ne_nil _ _) hletters]
      exact if_neg (Bool.eq_false_iff.mp hd)

/-- A word that the grammar reads, with its place as line and column. -/
def located (text : List Char) (w : Nat × List Char) : Position × List Char :=
  (Generic.place text w.1, w.2)

/-- The reader finds the words that stand in the text, each at its place. -/
theorem Lexes.words_eq {s : List Char} {ws : List (Nat × List Char)} (h : Lexes s ws)
    (before : List Char) :
    words (.after before) false s = ws.map (located (before ++ s)) := by
  -- along the order of blanks, comments and words; `before` is what has been read
  induction h generalizing before with
  | done => rfl
  | @blank c cs ws hc _ ih =>
    rw [words_blank hc, ← Position.after_append_singleton, ih, List.append_assoc]
    rfl
  | @comment body rest ws hbody hrest _ ih =>
    have hplace : body.foldl Position.advance ((Position.after before).advance '#') =
        .after (before ++ '#' :: body) := (Position.after_append before ('#' :: body)).symm
    rw [words, if_neg Bool.false_ne_true, if_pos rfl, words_comment hbody hrest, hplace, ih,
      List.append_assoc]
    rfl
  | @word letters rest ws hne hletters hrest _ ih =>
    rw [words_letters hne hletters hrest, ← Position.after_append, ih, List.map_cons, located,
      Generic.place_append, List.append_assoc]

/-! ## What cutting gives -/

/-- The place of a word is that behind the text before it. -/
theorem positionOf_length (before s : List Char) :
    positionOf (before ++ s) before.length = .after before := by
  rw [positionOf, List.take_left]
  induction before using List.reverseRecOn with
  | nil => rfl
  | append_singleton before c ih =>
    rw [Position.after_append_singleton, ← ih, Position.advance, List.count_append,
      List.reverse_append, List.reverse_singleton, List.singleton_append]
    by_cases hc : c = '\n'
    · subst hc
      rw [if_pos rfl, List.takeWhile_cons_of_neg (by decide)]
      rfl
    · rw [if_neg hc, List.takeWhile_cons_of_pos (p := (· ≠ '\n')) (decide_eq_true hc),
        List.count_singleton, beq_false_of_ne hc]
      rfl

section

variable {c : Char × Nat} {letters body rest : List (Char × Nat)}

/-- Blanks stay. -/
theorem withoutComments_blank (hc : isPlainBlank c.1 = true) (cs : List (Char × Nat)) :
    withoutComments (c :: cs) = c :: withoutComments cs := by
  have hhash : c.1 ≠ '#' := by
    intro h
    rw [h] at hc
    cases hc
  rw [withoutComments, if_neg hhash]

/-- Words stay. -/
theorem withoutComments_letters (hletters : ∀ c ∈ letters, isWordChar c.1 = true)
    (rest : List (Char × Nat)) :
    withoutComments (letters ++ rest) = letters ++ withoutComments rest := by
  induction letters with
  | nil => rfl
  | cons c letters ih =>
    obtain ⟨hc, hletters⟩ := List.forall_mem_cons.mp hletters
    rw [List.cons_append, withoutComments, if_neg (isWordChar_eq_true_iff.mp hc).2, ih hletters]
    rfl

/-- Behind a comment the end of its line is left, if it has one. -/
theorem withoutComments_comment (hc : c.1 = '#') (hbody : ∀ d ∈ body, d.1 ≠ '\n')
    (hrest : ∀ d ∈ rest.head?, d.1 = '\n') :
    withoutComments (c :: (body ++ rest)) = withoutComments rest := by
  have hdrop : (body ++ rest).dropWhile (·.1 ≠ '\n') = rest := by
    rw [List.dropWhile_append_of_pos fun d hd => decide_eq_true (hbody d hd)]
    cases rest with
    | nil => rfl
    | cons d rest => exact List.dropWhile_cons_of_neg (by simpa using hrest d rfl)
  rw [withoutComments, if_pos hc, hdrop]

/-- Where no word goes on, a blank is left, or nothing. -/
theorem withoutComments_eq_nil_or (hrest : ∀ d ∈ rest.head?, isWordChar d.1 = false) :
    withoutComments rest = [] ∨
      ∃ b more, withoutComments rest = b :: more ∧ isPlainBlank b.1 = true := by
  cases rest with
  | nil =>
    left
    rw [withoutComments]
  | cons d rest =>
    by_cases hd : isPlainBlank d.1 = true
    · exact .inr ⟨d, _, withoutComments_blank hd rest, hd⟩
    · have hhash : d.1 = '#' := by
        have hword := hrest d rfl
        rw [isWordChar, Bool.eq_false_iff.mpr hd] at hword
        simpa using hword
      rw [withoutComments, if_pos hhash]
      cases hline : rest.dropWhile (·.1 ≠ '\n') with
      | nil =>
        left
        rw [withoutComments]
      | cons feed rest' =>
        have hfeed : feed.1 = '\n' := by
          have hhead := forall_mem_head?_dropWhile (p := (·.1 ≠ '\n')) rest feed
          rw [hline] at hhead
          simpa using hhead rfl
        have hblank : isPlainBlank feed.1 = true := hfeed ▸ by decide
        exact .inr ⟨feed, _, withoutComments_blank hblank rest', hblank⟩

/-- A comment makes no piece. -/
theorem pieces_comment (hc : c.1 = '#') (hbody : ∀ d ∈ body, d.1 ≠ '\n')
    (hrest : ∀ d ∈ rest.head?, d.1 = '\n') : pieces (c :: (body ++ rest)) = pieces rest := by
  rw [pieces, withoutComments_comment hc hbody hrest, pieces]

theorem pieces_nil : pieces [] = [[]] := by
  rw [pieces, withoutComments, List.splitOnP_nil]

/-- A blank ends a piece. -/
theorem pieces_blank (hc : isPlainBlank c.1 = true) (cs : List (Char × Nat)) :
    pieces (c :: cs) = [] :: pieces cs := by
  rw [pieces, withoutComments_blank hc, List.splitOnP_cons_eq_if_modifyHead, if_pos hc, pieces]

/-- Word characters are the first piece when no word goes on behind them. -/
theorem exists_pieces_letters (hletters : ∀ c ∈ letters, isWordChar c.1 = true)
    (hrest : ∀ d ∈ rest.head?, isWordChar d.1 = false) :
    ∃ more, pieces (letters ++ rest) = letters :: more ∧ pieces rest = [] :: more := by
  have hnone : ∀ c ∈ letters, isPlainBlank c.1 = false :=
    fun c hc => (isWordChar_eq_true_iff.mp (hletters c hc)).1
  unfold pieces
  rw [withoutComments_letters hletters]
  rcases withoutComments_eq_nil_or hrest with hend | ⟨b, more, hmore, hb⟩
  · rw [hend, List.append_nil, List.splitOnP_eq_singleton hnone, List.splitOnP_nil]
    exact ⟨[], rfl, rfl⟩
  · rw [hmore, List.splitOnP_append_cons_of_forall_mem hnone b hb,
      List.splitOnP_cons_eq_if_modifyHead, if_pos hb]
    exact ⟨_, rfl, rfl⟩

end

section

variable {P : Char → Prop} {l : List Char}

theorem forall_mem_zipIdx (h : ∀ c ∈ l, P c) (n : Nat) : ∀ c ∈ l.zipIdx n, P c.1 :=
  fun c hc => h c.1 (List.fst_mem_of_mem_zipIdx hc)

theorem forall_mem_head?_zipIdx (h : ∀ c ∈ l.head?, P c) (n : Nat) :
    ∀ d ∈ (l.zipIdx n).head?, P d.1 := by
  cases l with
  | nil => nofun
  | cons c l =>
    intro d hd
    obtain rfl := Option.mem_some.mp hd
    exact h c rfl

end

/-- A piece that is not empty is the word of its characters, at the place of the first. -/
theorem wordOf?_zipIdx (before : List Char) {letters : List Char} (hne : letters ≠ [])
    (rest : List Char) :
    wordOf? (before ++ (letters ++ rest)) (letters.zipIdx before.length) =
      some (.after before, letters) := by
  cases letters with
  | nil => exact absurd rfl hne
  | cons c cs =>
    rw [wordOf?, List.zipIdx_map_fst, List.head?_zipIdx]
    show some (positionOf _ before.length, _) = _
    rw [positionOf_length]

/-- The pieces that are not empty are the words that stand in the text. -/
theorem Lexes.filterMap_pieces {s : List Char} {ws : List (Nat × List Char)} (h : Lexes s ws)
    (before : List Char) :
    (pieces (s.zipIdx before.length)).filterMap (wordOf? (before ++ s)) =
      ws.map (located (before ++ s)) := by
  -- as above; the characters are numbered from the length of what has been read
  induction h generalizing before with
  | done =>
    rw [List.zipIdx_nil, pieces_nil]
    rfl
  | @blank c cs ws hc _ ih =>
    have hrest := ih (before ++ [c])
    rw [List.append_assoc, List.length_append] at hrest
    rw [List.zipIdx_cons, pieces_blank hc, List.filterMap_cons]
    exact hrest
  | @comment body rest ws hbody hrest _ ih =>
    have hbody' : ∀ c ∈ body, c ≠ '\n' := fun c hc => ne_of_mem_of_not_mem hc hbody
    have hlater := ih (before ++ '#' :: body)
    have hlength : (before ++ '#' :: body).length = before.length + 1 + body.length := by
      rw [List.length_append, List.length_cons]
      omega
    rw [hlength, List.append_assoc] at hlater
    rw [List.zipIdx_cons, List.zipIdx_append,
      pieces_comment rfl (forall_mem_zipIdx hbody' _) (forall_mem_head?_zipIdx hrest _)]
    exact hlater
  | @word letters rest ws hne hletters hrest _ ih =>
    obtain ⟨more, hpieces, hmore⟩ := exists_pieces_letters
      (forall_mem_zipIdx hletters before.length)
      (forall_mem_head?_zipIdx hrest (before.length + letters.length))
    have hlater := ih (before ++ letters)
    rw [List.length_append, hmore, List.append_assoc] at hlater
    rw [List.zipIdx_append, hpieces, List.filterMap_cons, wordOf?_zipIdx before hne, List.map_cons,
      located, Generic.place_append]
    exact congrArg _ hlater

/-- The words of the reference are those that stand in the text, each at its place. -/
theorem Lexes.wordsOf_eq {s : List Char} {ws : List (Nat × List Char)} (h : Lexes s ws) :
    wordsOf s = ws.map (located s) :=
  h.filterMap_pieces []

/-- A comment ends a word, and other blanks than the four are part of one. -/
example : wordsOf "1#2\r\n# 3\n\u00a04\t-5#".toList =
    [(⟨1, 1⟩, ['1']), (⟨3, 1⟩, ['\u00a0', '4']), (⟨3, 4⟩, ['-', '5'])] := by
  decide +kernel

end IrOptimizer.Toy
