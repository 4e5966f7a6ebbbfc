import IrOptimizer.Chunk
import IrOptimizer.Text.Word
import IrOptimizer.Proofs.Text.Lines

/-!
# How lines begin

A marker line begins with a slash, blanks apart. So a text has no marker line if none of
its lines begins like that, and this can be seen by reading it once from left to right,
whatever it is put together from: `Leads begun text begun'` says that reading `text` meets
no slash at the beginning of a line, where `begun` tells whether something that is no blank
stands before `text` on its first line, and `begun'` the same of what comes behind it.

The relation composes (`Leads.append`), and from the start of a line it excludes markers
(`not_isMarker_of_leads`).
-/

namespace IrOptimizer.Text

/-- Reads one more character of a line that has begun, or has not. A slash may not begin it. -/
def beginLine (begun : Bool) (c : Char) : Option Bool :=
  if c = '\n' then some false
  else if begun then some true
  else if isBlank c then some false
  else if c = '/' then none
  else some true

/-- No line of the text begins with a slash, if the first one has begun as told; where the
text ends its last line has begun, or has not. -/
def Leads (begun : Bool) (text : String) (begun' : Bool) : Prop :=
  text.toList.foldlM beginLine begun = some begun'

section

variable {b₁ b₂ b₃ : Bool}

theorem Leads.append {first second : String} (hfirst : Leads b₁ first b₂)
    (hsecond : Leads b₂ second b₃) : Leads b₁ (first ++ second) b₃ := by
  unfold Leads at *
  rw [String.toList_append, List.foldlM_append, hfirst]
  exact hsecond

/-- On a line that has begun anything may stand. -/
theorem foldlM_beginLine_of_begun {text : List Char} (h : '\n' ∉ text) :
    text.foldlM beginLine true = some true := by
  induction text with
  | nil => rfl
  | cons c cs ih =>
    have hc : c ≠ '\n' := (List.ne_of_not_mem_cons h).symm
    rw [List.foldlM_cons, beginLine, if_neg hc]
    exact ih (List.not_mem_of_not_mem_cons h)

theorem leads_of_not_breaks {text : String} (h : ¬ Breaks text) : Leads true text true :=
  foldlM_beginLine_of_begun h

/-- A text begins a line, or goes on with it, if its first character does and it breaks none. -/
theorem leads_of_head {c : Char} {cs : List Char} (hc : beginLine false c = some true)
    (hcs : '\n' ∉ cs) (begun : Bool) : Leads begun (String.ofList (c :: cs)) true := by
  have hbegun : beginLine begun c = some true := by
    cases begun with
    | false => exact hc
    | true =>
      unfold beginLine at hc ⊢
      split at hc
      · cases hc
      · next hfeed => rw [if_neg hfeed, if_pos rfl]
  unfold Leads
  rw [String.toList_ofList, List.foldlM_cons, hbegun]
  exact foldlM_beginLine_of_begun hcs

theorem isBlank_of_identifierChar {c : Char} (hc : isIdentifierChar c = true) :
    isBlank c = false := by
  have hrange : 0x21 ≤ c.toNat ∧ c.toNat ≤ 0x7A := by
    have hbetween : ∀ a z : Char, 0x21 ≤ a.toNat → z.toNat ≤ 0x7A → a ≤ c → c ≤ z →
        0x21 ≤ c.toNat ∧ c.toNat ≤ 0x7A :=
      fun a z ha hz hac hcz => ⟨Nat.le_trans ha hac, Nat.le_trans hcz hz⟩
    simp only [isIdentifierChar, isLetter, isDigit, Bool.or_eq_true, Bool.and_eq_true,
      decide_eq_true_eq] at hc
    rcases hc with (((((h | h) | h) | rfl) | rfl) | rfl) | rfl
    · exact hbetween _ _ (by decide) (by decide) h.1 h.2
    · exact hbetween _ _ (by decide) (by decide) h.1 h.2
    · exact hbetween _ _ (by decide) (by decide) h.1 h.2
    all_goals decide
  simp only [isBlank, Bool.or_eq_false_iff, Bool.and_eq_false_iff, decide_eq_false_iff_not]
  omega

theorem leads_of_identifierChars {text : List Char} (hne : text ≠ [])
    (h : ∀ c ∈ text, isIdentifierChar c = true) (begun : Bool) :
    Leads begun (String.ofList text) true := by
  have hnot : ∀ d, isIdentifierChar d = false → d ∉ text := by
    intro d hd hmem
    rw [h d hmem] at hd
    cases hd
  have hslash : '/' ∉ text := hnot _ (by decide)
  have hfeed : '\n' ∉ text := hnot _ (by decide)
  cases text with
  | nil => exact absurd rfl hne
  | cons c cs =>
    have hblank := isBlank_of_identifierChar (h c (List.mem_cons_self ..))
    have hc : beginLine false c = some true := by
      rw [beginLine, if_neg (List.ne_of_not_mem_cons hfeed).symm, if_neg Bool.false_ne_true, hblank,
        if_neg Bool.false_ne_true, if_neg (List.ne_of_not_mem_cons hslash).symm]
    exact leads_of_head hc (List.not_mem_of_not_mem_cons hfeed) begun

/-- Blanks begin no line. -/
theorem leads_replicate (n : Nat) : Leads false (String.ofList (List.replicate n ' ')) false := by
  unfold Leads
  rw [String.toList_ofList]
  induction n with
  | zero => rfl
  | succ n ih =>
    rw [List.replicate_succ, List.foldlM_cons]
    exact ih

end

/-! ## Markers -/

theorem trimStart_cons_of_blank {c : Char} (hc : isBlank c = true) (line : List Char) :
    trimStart (c :: line) = trimStart line :=
  List.dropWhile_cons_of_pos hc

/-- A character that is no blank stops the taking away of blanks at the latest. -/
theorem exists_trimStart_concat {c : Char} (hc : isBlank c = false) (text : List Char) :
    ∃ kept, trimStart (text ++ [c]) = kept ++ [c] := by
  have hstop : ∀ {d : Char} {ds : List Char}, isBlank d = false →
      trimStart (d :: ds) = d :: ds :=
    fun hd => List.dropWhile_cons_of_neg (Bool.eq_false_iff.mp hd)
  induction text with
  | nil => exact ⟨[], hstop hc⟩
  | cons d ds ih =>
    cases hd : isBlank d with
    | true =>
      rw [List.cons_append, trimStart_cons_of_blank hd]
      exact ih
    | false =>
      rw [List.cons_append, hstop hd]
      exact ⟨d :: ds, rfl⟩

/-- A line that begins with a character stays one that does without the blanks around it. -/
theorem head?_trim {c : Char} (hc : isBlank c = false) (line : List Char) :
    (trim (c :: line)).head? = some c := by
  have hkeep : trimStart (c :: line) = c :: line :=
    List.dropWhile_cons_of_neg (Bool.eq_false_iff.mp hc)
  obtain ⟨kept, hend⟩ := exists_trimStart_concat hc line.reverse
  rw [trim, hkeep, List.reverse_cons, hend, List.reverse_append]
  rfl

theorem not_isMarker_of_not_slash {c : Char} (hblank : isBlank c = false) (hslash : c ≠ '/')
    (line : List Char) : Chunk.isMarker (c :: line) = false := by
  refine decide_eq_false fun hmarker => hslash ?_
  have hhead := head?_trim hblank line
  rw [hmarker] at hhead
  exact (Option.some.inj hhead).symm

/-- A blank before a line does not make it a marker. -/
theorem isMarker_cons_of_blank {c : Char} (hc : isBlank c = true) (line : List Char) :
    Chunk.isMarker (c :: line) = Chunk.isMarker line := by
  unfold Chunk.isMarker trim
  rw [trimStart_cons_of_blank hc]

/-- Where no line begins with a slash, there is no marker: on a line that has begun already
its rest does not count. -/
theorem not_isMarker_of_beginLine {text : List Char} {begun begun' : Bool}
    (h : text.foldlM beginLine begun = some begun') :
    ∀ line ∈ (if begun then (lines text).tail else lines text), Chunk.isMarker line = false := by
  -- along the text, for both states of its first line
  induction text generalizing begun with
  | nil => cases begun <;> exact List.forall_mem_nil _
  | cons c cs ih =>
    rw [List.foldlM_cons] at h
    by_cases hc : c = '\n'
    · subst hc
      have hcs := @ih false h
      have hline : Chunk.isMarker ['\n'] = false := by decide
      rw [lines_newline_cons]
      cases begun with
      | true => exact hcs
      | false => exact List.forall_mem_cons.mpr ⟨hline, hcs⟩
    · obtain ⟨line, hlines, hfirst⟩ := exists_lines_cons hc cs
      rw [hlines]
      unfold beginLine at h
      rw [if_neg hc] at h
      cases begun with
      | true => exact @ih true h
      | false =>
        rw [if_neg Bool.false_ne_true] at h
        cases hblank : isBlank c with
        | true =>
          rw [hblank, if_pos rfl] at h
          -- a line of blanks up to here is a marker if its rest is
          have hcs := @ih false h
          refine List.forall_mem_cons.mpr ⟨?_, fun l hl => hcs l (List.mem_of_mem_tail hl)⟩
          rw [isMarker_cons_of_blank hblank]
          rcases hfirst with rfl | hmem
          · decide
          · exact hcs line hmem
        | false =>
          rw [hblank, if_neg Bool.false_ne_true] at h
          by_cases hslash : c = '/'
          · rw [if_pos hslash] at h
            cases h
          · rw [if_neg hslash] at h
            have hcs := @ih true h
            exact List.forall_mem_cons.mpr ⟨not_isMarker_of_not_slash hblank hslash line, hcs⟩

/-- A text of which no line begins with a slash has no marker lines. -/
theorem not_isMarker_of_leads {text : String} {begun : Bool} (h : Leads false text begun) :
    ∀ line ∈ lines text.toList, Chunk.isMarker line = false :=
  not_isMarker_of_beginLine h

end IrOptimizer.Text
