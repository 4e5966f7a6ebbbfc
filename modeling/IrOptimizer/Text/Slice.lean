/-!
# Slices

A text is stored in UTF-8, and a slice of it is told by two byte offsets. There is such a
slice only if the offsets are in order and in range and none of them stands within a
character.
-/

namespace IrOptimizer.Text

/-- The bytes that a text takes up. -/
def byteLength (text : List Char) : Nat := (String.ofList text).utf8ByteSize

/-- Lengths in bytes add up. -/
theorem byteLength_append (text more : List Char) :
    byteLength (text ++ more) = byteLength text + byteLength more := by
  rw [byteLength, String.ofList_append, String.utf8ByteSize_append]
  rfl

theorem byteLength_cons (c : Char) (cs : List Char) :
    byteLength (c :: cs) = c.utf8Size + byteLength cs := by
  rw [← List.singleton_append, byteLength_append, byteLength, ← String.singleton_eq_ofList,
    String.utf8ByteSize_singleton]

/-- The two parts of a text that meet at a byte offset. -/
def splitAtByte? : List Char → Nat → Option (List Char × List Char)
  | text, 0 => some ([], text)
  | [], _ + 1 => none
  | c :: cs, n + 1 =>
    if c.utf8Size ≤ n + 1 then
      (splitAtByte? cs (n + 1 - c.utf8Size)).map (Prod.map (c :: ·) id)
    else none

/-- The part of a text between two byte offsets. -/
def slice? (text : List Char) (start stop : Nat) : Option (List Char) :=
  if start ≤ stop then do
    let (_, behind) ← splitAtByte? text start
    let (part, _) ← splitAtByte? behind (stop - start)
    some part
  else none

theorem splitAtByte?_zero (text : List Char) : splitAtByte? text 0 = some ([], text) := by
  cases text <;> rfl

/-- A text can be split behind any prefix. -/
theorem splitAtByte?_append (left right : List Char) :
    splitAtByte? (left ++ right) (byteLength left) = some (left, right) := by
  induction left with
  | nil => exact splitAtByte?_zero right
  | cons c left ih =>
    obtain ⟨n, hn⟩ : ∃ n, c.utf8Size + byteLength left = n + 1 :=
      Nat.exists_eq_add_one.mpr (Nat.add_pos_left (Char.utf8Size_pos c) _)
    have hrest : n + 1 - c.utf8Size = byteLength left := by omega
    rw [byteLength_cons, hn, List.cons_append, splitAtByte?, if_pos (by omega), hrest, ih]
    rfl

/-- The parts of a split make up the text, and the first has the bytes asked for. -/
theorem eq_append_of_splitAtByte? {text left right : List Char} {n : Nat}
    (h : splitAtByte? text n = some (left, right)) : text = left ++ right ∧ byteLength left = n := by
  induction text, n using splitAtByte?.induct generalizing left with
  | case1 text =>
    rw [splitAtByte?_zero] at h
    cases h
    exact ⟨rfl, rfl⟩
  | case2 => cases h
  | case3 n c cs hfits ih =>
    rw [splitAtByte?, if_pos hfits] at h
    obtain ⟨⟨front, back⟩, hcs, hpair⟩ := Option.map_eq_some_iff.mp h
    cases hpair
    obtain ⟨rfl, hlen⟩ := ih hcs
    refine ⟨rfl, ?_⟩
    rw [byteLength_cons]
    omega
  | case4 n c cs hacross =>
    rw [splitAtByte?, if_neg hacross] at h
    cases h

/-- A text is split at the length of any part that it begins with, and nowhere else. -/
theorem splitAtByte?_eq_some_iff {text left right : List Char} {n : Nat} :
    splitAtByte? text n = some (left, right) ↔ text = left ++ right ∧ byteLength left = n := by
  constructor
  · exact eq_append_of_splitAtByte?
  · intro h
    obtain ⟨rfl, rfl⟩ := h
    exact splitAtByte?_append left right

/-- A slice is a part of the text, and its offsets are the bytes before and behind it. -/
theorem slice?_eq_some_iff {text part : List Char} {start stop : Nat} :
    slice? text start stop = some part ↔
      ∃ before behind, text = before ++ part ++ behind ∧ byteLength before = start ∧
        byteLength (before ++ part) = stop := by
  unfold slice?
  constructor
  · intro h
    split at h
    · next horder =>
      obtain ⟨⟨before, rest⟩, hstart, h⟩ := Option.bind_eq_some_iff.mp h
      obtain ⟨⟨part', behind⟩, hstop, h⟩ := Option.bind_eq_some_iff.mp h
      cases h
      obtain ⟨rfl, hbefore⟩ := splitAtByte?_eq_some_iff.mp hstart
      obtain ⟨rfl, hpart⟩ := splitAtByte?_eq_some_iff.mp hstop
      refine ⟨before, behind, (List.append_assoc ..).symm, hbefore, ?_⟩
      rw [byteLength_append]
      omega
    · cases h
  · intro h
    obtain ⟨before, behind, rfl, hbefore, hpart⟩ := h
    rw [byteLength_append] at hpart
    have hstart : splitAtByte? (before ++ part ++ behind) start = some (before, part ++ behind) :=
      splitAtByte?_eq_some_iff.mpr ⟨List.append_assoc .., hbefore⟩
    have hstop : splitAtByte? (part ++ behind) (stop - start) = some (part, behind) :=
      splitAtByte?_eq_some_iff.mpr ⟨rfl, by omega⟩
    rw [if_pos (by omega), hstart]
    show (splitAtByte? (part ++ behind) (stop - start)).bind _ = _
    rw [hstop]
    rfl

end IrOptimizer.Text
