import IrOptimizer.Json.Reader

/-!
# What readers read

A reader goes from cursor to cursor, but what it answers depends on the unread text only.
`reads r s` is what `r` makes of the text `s`, with the text it leaves, or the first problem
it meets. Each reader has one equation in these terms for a text of the form that is of
interest: blanks, and then a bracket, a comma, a key. With them nothing below opens a
cursor, or a loop over items and fields.
-/

namespace IrOptimizer.Json.Reader

open Text

variable {α β σ : Type}

/-- What a reader makes of a text, and what it leaves of it. -/
def reads (r : Reader α) (s : List Char) : Except Problem (α × List Char) :=
  (r (.ofList s)).map fun (a, c) => (a, c.rest)

/-! ## Steps -/

/-- What a reader reads is what it does at a cursor. -/
theorem reads_rest (r : Reader α) (c : Cursor) :
    reads r c.rest = (r c).map fun (a, d) => (a, d.rest) := by
  have hcursor : Cursor.ofList c.rest = c := Cursor.ext rfl
  rw [reads, hcursor]

theorem reads_pure (a : α) (s : List Char) : reads (pure a) s = .ok (a, s) := rfl

theorem reads_skip (c : Char) (s : List Char) : reads (skip 1) (c :: s) = .ok ((), s) := rfl

/-- Readers in a row read one behind the other. -/
theorem reads_bind (r : Reader α) (f : α → Reader β) (s : List Char) :
    reads (r >>= f) s = (reads r s).bind fun (a, s') => reads (f a) s' := by
  show (((r (.ofList s)).bind fun (a, c) => f a c).map _) = _
  rw [reads]
  cases r (.ofList s) with
  | error e => rfl
  | ok found => exact (reads_rest (f found.1) found.2).symm

/-- A step that answers hands over to the next one. -/
theorem reads_bind_of_ok {r : Reader α} {s s' : List Char} {a : α} (h : reads r s = .ok (a, s'))
    (f : α → Reader β) : reads (r >>= f) s = reads (f a) s' := by
  rw [reads_bind, h]
  rfl

/-- A lexical reader reads as many characters as it says. -/
theorem reads_lexical (read : List Char → Except Problem (α × Nat)) (s : List Char) :
    reads (lexical read) s = (read s).map fun (a, n) => (a, s.drop n) := by
  have hcursor : lexical read (.ofList s) =
      (read s).map fun (a, n) => (a, (Cursor.ofList s).skip n) := by
    show (((read s).map _).bind _) = _
    cases read s <;> rfl
  rw [reads, hcursor]
  cases read s <;> rfl

/-! ## Blanks -/

/-- Blanks, which may stand between the parts of a text. -/
def Blanks (b : List Char) : Prop := ∀ c ∈ b, isPlainBlank c = true

theorem blanks_nil : Blanks [] := List.forall_mem_nil _

theorem blanks_singleton {c : Char} (hc : isPlainBlank c = true) : Blanks [c] :=
  List.forall_mem_singleton.mpr hc

/-- Behind blanks the next character is seen. -/
theorem reads_peek {b : List Char} (hb : Blanks b) {c : Char} (hc : isPlainBlank c = false)
    (s : List Char) : reads peek (b ++ c :: s) = .ok (some c, c :: s) := by
  have htake : (b ++ c :: s).takeWhile isPlainBlank = b := by
    rw [List.takeWhile_append_of_pos hb, List.takeWhile_cons_of_neg (by simp [hc]),
      List.append_nil]
  show Except.ok (((b ++ c :: s).drop ((b ++ c :: s).takeWhile isPlainBlank).length).head?,
    (b ++ c :: s).drop ((b ++ c :: s).takeWhile isPlainBlank).length) = _
  -- just the blanks are dropped
  rw [htake, List.drop_left]
  rfl

/-- Looking ahead takes nothing. -/
theorem reads_peek_cons {c : Char} (hc : isPlainBlank c = false) (s : List Char) :
    reads peek (c :: s) = .ok (some c, c :: s) :=
  reads_peek blanks_nil hc s

/-- Behind blanks the end is seen. -/
theorem reads_peek_end {b : List Char} (hb : Blanks b) : reads peek b = .ok (none, []) := by
  have htake : b.takeWhile isPlainBlank = b := by
    have happend : (b ++ []).takeWhile isPlainBlank = b ++ [].takeWhile isPlainBlank :=
      List.takeWhile_append_of_pos hb
    rwa [List.takeWhile_nil, List.append_nil] at happend
  show Except.ok ((b.drop (b.takeWhile isPlainBlank).length).head?,
    b.drop (b.takeWhile isPlainBlank).length) = _
  rw [htake, List.drop_length]
  rfl

/-- What stands before an item or a key: nothing before the first, and else a comma. -/
def lead (first : Bool) : List Char := if first then [] else [',']

/-! ## Arrays -/

section

variable {b : List Char} (hb : Blanks b)
include hb

/-- Before its bracket an array has no further item. -/
theorem reads_hasItem_close (first : Bool) (s : List Char) :
    reads (hasItem first) (b ++ ']' :: s) = .ok (false, ']' :: s) := by
  unfold hasItem
  rw [reads_bind_of_ok (reads_peek hb rfl s)]
  rfl

/-- Before anything but its bracket an array has a further item, behind the comma. -/
theorem reads_hasItem (first : Bool) {c : Char} (hc : isPlainBlank c = false) (hclose : c ≠ ']')
    (s : List Char) : reads (hasItem first) (lead first ++ (b ++ c :: s)) = .ok (true, c :: s) := by
  unfold hasItem
  cases first with
  | true =>
    show reads _ (b ++ c :: s) = _
    rw [reads_bind_of_ok (reads_peek hb hc s)]
    dsimp only
    rw [if_neg hclose, if_pos rfl]
    rfl
  | false =>
    show reads _ (',' :: (b ++ c :: s)) = _
    rw [reads_bind_of_ok (reads_peek_cons rfl _)]
    dsimp only
    rw [if_neg (by decide), if_neg Bool.false_ne_true, if_pos rfl,
      reads_bind_of_ok (reads_skip ',' _), reads_bind_of_ok (reads_peek hb hc s)]
    dsimp only
    rw [if_neg hclose]
    rfl

end

theorem reads_endArray (s : List Char) : reads endArray (']' :: s) = .ok ((), s) := by
  unfold endArray
  rw [reads_bind_of_ok (reads_peek_cons rfl s)]
  rfl

/-- The items of an array are read one by one; each has to take something from the text. -/
theorem reads_itemsFrom (item : Reader α) (first : Bool) (s : List Char) :
    reads (itemsFrom item first) s =
      (reads (hasItem first) s).bind fun (more, s₁) =>
        if more then
          (reads item s₁).bind fun (a, s₂) =>
            if s₂.length < s.length then
              (reads (itemsFrom item false) s₂).map fun (as, s₃) => (a :: as, s₃)
            else .error .malformed
        else .ok ([], s₁) := by
  rw [reads, itemsFrom, reads]
  cases hmore : hasItem first (.ofList s) with
  | error e => rfl
  | ok found =>
    obtain ⟨more, c⟩ := found
    cases more with
    | false => rfl
    | true =>
      show Except.map _ ((item c).bind _) = (reads item c.rest).bind _
      rw [reads_rest]
      cases hitem : item c with
      | error e => rfl
      | ok found =>
        obtain ⟨a, d⟩ := found
        -- the cursor counts what is left, and the text is as long as that
        show Except.map _ (if d.remaining < s.length then _ else _) =
          if d.rest.length < s.length then _ else _
        rw [d.remaining_eq, reads_rest]
        split
        · cases itemsFrom item false d <;> rfl
        · rfl

section

variable {b : List Char} (hb : Blanks b)
include hb

/-- An array ends at its bracket. -/
theorem reads_itemsFrom_close (item : Reader α) (first : Bool) (s : List Char) :
    reads (itemsFrom item first) (b ++ ']' :: s) = .ok ([], ']' :: s) := by
  rw [reads_itemsFrom, reads_hasItem_close hb]
  rfl

/-- An item that is read is the first of those that are answered. -/
theorem reads_itemsFrom_of_ok {item : Reader α} (first : Bool) {c : Char}
    (hc : isPlainBlank c = false) (hclose : c ≠ ']') {a : α} {s rest : List Char}
    (h : reads item (c :: (s ++ rest)) = .ok (a, rest)) :
    reads (itemsFrom item first) (lead first ++ (b ++ c :: (s ++ rest))) =
      (reads (itemsFrom item false) rest).map fun (as, s') => (a :: as, s') := by
  have hlength : rest.length < (lead first ++ (b ++ c :: (s ++ rest))).length := by
    simp only [List.length_append, List.length_cons]
    omega
  rw [reads_itemsFrom, reads_hasItem hb first hc hclose]
  show (reads item _).bind _ = _
  rw [h]
  exact if_pos hlength

/-- The first item that cannot be read decides. -/
theorem reads_itemsFrom_of_error {item : Reader α} (first : Bool) {c : Char}
    (hc : isPlainBlank c = false) (hclose : c ≠ ']') {e : Problem} {s : List Char}
    (h : reads item (c :: s) = .error e) :
    reads (itemsFrom item first) (lead first ++ (b ++ c :: s)) = .error e := by
  rw [reads_itemsFrom, reads_hasItem hb first hc hclose]
  show (reads item _).bind _ = _
  rw [h]
  rfl

end

/-! ## Objects -/

section

variable {b : List Char} (hb : Blanks b)
include hb

/-- Before its brace an object has no further field. -/
theorem reads_hasKey_close (first : Bool) (s : List Char) :
    reads (hasKey first) (b ++ '\x7d' :: s) = .ok (false, '\x7d' :: s) := by
  unfold hasKey
  rw [reads_bind_of_ok (reads_peek hb rfl s)]
  rfl

/-- A quote begins the key of a further field. -/
theorem reads_hasKey (first : Bool) (s : List Char) :
    reads (hasKey first) (lead first ++ (b ++ '"' :: s)) = .ok (true, '"' :: s) := by
  unfold hasKey
  cases first with
  | true =>
    show reads _ (b ++ '"' :: s) = _
    rw [reads_bind_of_ok (reads_peek hb rfl s)]
    rfl
  | false =>
    show reads _ (',' :: (b ++ '"' :: s)) = _
    rw [reads_bind_of_ok (reads_peek_cons rfl _)]
    dsimp only
    rw [if_neg (by decide), if_neg Bool.false_ne_true, if_pos rfl,
      reads_bind_of_ok (reads_skip ',' _), reads_bind_of_ok (reads_peek hb rfl s)]
    rfl

theorem reads_string (s : List Char) :
    reads string (b ++ '"' :: s) = reads stringHere ('"' :: s) := by
  unfold string
  rw [reads_bind_of_ok (reads_peek hb rfl s), if_pos rfl]

end

theorem reads_colon (s : List Char) : reads colon (':' :: s) = .ok ((), s) := by
  unfold colon
  rw [reads_bind_of_ok (reads_peek_cons rfl s)]
  rfl

theorem reads_stringHere (s : List Char) :
    reads stringHere ('"' :: s) =
      (stringRest s).map fun (cs, n) => (String.ofList cs, s.drop n) := by
  unfold stringHere
  rw [reads_bind_of_ok (reads_skip '"' s), reads_bind, reads_lexical]
  cases stringRest s <;> rfl

/-- The fields of an object are read one by one; each has to take something from the text. -/
theorem reads_fieldsFrom (step : σ → String → Reader σ) (first : Bool) (known : σ)
    (s : List Char) :
    reads (fieldsFrom step first known) s =
      (reads (hasKey first) s).bind fun (more, s₁) =>
        if more then
          (reads stringHere s₁).bind fun (key, s₂) =>
            (reads (step known key) s₂).bind fun (known, s₃) =>
              if s₃.length < s.length then reads (fieldsFrom step false known) s₃
              else .error .malformed
        else .ok (known, s₁) := by
  rw [reads, fieldsFrom, reads]
  cases hmore : hasKey first (.ofList s) with
  | error e => rfl
  | ok found =>
    obtain ⟨more, c⟩ := found
    cases more with
    | false => rfl
    | true =>
      show Except.map _ ((stringHere c).bind _) = (reads stringHere c.rest).bind _
      rw [reads_rest]
      cases hkey : stringHere c with
      | error e => rfl
      | ok found =>
        obtain ⟨key, d⟩ := found
        show Except.map _ ((step known key d).bind _) = (reads (step known key) d.rest).bind _
        rw [reads_rest]
        cases hstep : step known key d with
        | error e => rfl
        | ok found =>
          obtain ⟨known, d⟩ := found
          show Except.map _ (if d.remaining < s.length then _ else _) =
            if d.rest.length < s.length then _ else _
          rw [d.remaining_eq, reads_rest]
          split <;> rfl

section

variable {b : List Char} (hb : Blanks b) {step : σ → String → Reader σ} {known known' : σ}
  {key : String} {s s' rest : List Char}
include hb

/-- An object ends at its brace, with what is known by then. -/
theorem reads_fieldsFrom_close (step : σ → String → Reader σ) (first : Bool) (known : σ)
    (s : List Char) :
    reads (fieldsFrom step first known) (b ++ '\x7d' :: s) = .ok (known, '\x7d' :: s) := by
  rw [reads_fieldsFrom, reads_hasKey_close hb]
  rfl

/-- Behind a field that is read the others are read. -/
theorem reads_fieldsFrom_of_ok (first : Bool)
    (hkey : reads stringHere ('"' :: (s ++ (s' ++ rest))) = .ok (key, s' ++ rest))
    (h : reads (step known key) (s' ++ rest) = .ok (known', rest)) :
    reads (fieldsFrom step first known) (lead first ++ (b ++ '"' :: (s ++ (s' ++ rest)))) =
      reads (fieldsFrom step false known') rest := by
  have hlength : rest.length < (lead first ++ (b ++ '"' :: (s ++ (s' ++ rest)))).length := by
    simp only [List.length_append, List.length_cons]
    omega
  rw [reads_fieldsFrom, reads_hasKey hb first]
  show (reads stringHere _).bind _ = _
  rw [hkey]
  show (reads (step known key) _).bind _ = _
  rw [h]
  exact if_pos hlength

/-- The first field that cannot be read decides. -/
theorem reads_fieldsFrom_of_error (first : Bool) {e : Problem}
    (hkey : reads stringHere ('"' :: s) = .ok (key, s'))
    (h : reads (step known key) s' = .error e) :
    reads (fieldsFrom step first known) (lead first ++ (b ++ '"' :: s)) = .error e := by
  rw [reads_fieldsFrom, reads_hasKey hb first]
  show (reads stringHere _).bind _ = _
  rw [hkey]
  show (reads (step known key) _).bind _ = _
  rw [h]
  rfl

end

end IrOptimizer.Json.Reader
