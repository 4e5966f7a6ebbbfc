import IrOptimizer.Proofs.Chunk

/-!
# Splitting is a partition

The slices that are cut out of an input are in range, go through no character, and are the
chunks of its lines (`slices?_eq`). The one pass over the lines keeps `Cutting.At`: the
counts are those of the lines read so far, and the chunks closed so far are the first ones
of the input.

The chunks and the marker lines of an input, by turns, are the input (`Cut.rejoin_eq`).
From any chunk on they are the lines from there on (`Cut.resume`), so a chunk stands where
the ones before it and their markers end.
-/

namespace IrOptimizer.Chunk

open Text

/-! ## Slices -/

/-- The lines of an input that are read are those of the closed chunks with their markers,
and those of the open chunk. If the others went on with the open chunk, all chunks would be
those of the input. -/
structure Cutting.At (source : List Char) (c : Cutting) (closed body rest : List (List Char)) :
    Prop where
  lines_eq : lines source = closed ++ body ++ rest
  start_eq : c.start = byteLength closed.flatten
  offset_eq : c.offset = byteLength (closed ++ body).flatten
  lineNo_eq : c.lineNo = c.startLine + body.length
  body_markers : ∀ line ∈ body, isMarker line = false
  split_eq : c.chunks ++ ofLines c.startLine (body ++ rest) = split source

namespace Cutting.At

variable {source : List Char} {c : Cutting} {closed body rest : List (List Char)}

/-- The slice of the lines that are open is the text of these. -/
theorem slice?_eq (h : c.At source closed body rest) :
    slice? source c.start c.offset = some body.flatten := by
  refine slice?_eq_some_iff.mpr ⟨closed.flatten, rest.flatten, ?_, h.start_eq.symm, ?_⟩
  · rw [← List.flatten_append, ← List.flatten_append, ← h.lines_eq, flatten_lines]
  · rw [← List.flatten_append, h.offset_eq]

section

variable {line : List Char}

theorem read_eq (h : c.At source closed body (line :: rest)) :
    lines source = closed ++ body ++ [line] ++ rest := by
  rw [h.lines_eq, List.append_assoc _ [line]]
  rfl

/-- The offset is behind the line that was read. -/
theorem offset_add (h : c.At source closed body (line :: rest)) :
    c.offset + byteLength line = byteLength (closed ++ body ++ [line]).flatten := by
  rw [List.flatten_append, byteLength_append, ← h.offset_eq, List.flatten_singleton]

/-- Behind a marker a chunk without lines is open. -/
theorem close (h : c.At source closed body (line :: rest)) (hline : isMarker line = true) :
    Cutting.At source
      ⟨c.offset + byteLength line, c.offset + byteLength line, c.lineNo + 1, c.lineNo + 1,
        c.chunks ++ [⟨c.startLine, body.flatten⟩]⟩
      (closed ++ body ++ [line]) [] rest where
  lines_eq := by
    rw [List.append_nil]
    exact h.read_eq
  start_eq := h.offset_add
  offset_eq := by
    rw [List.append_nil]
    exact h.offset_add
  lineNo_eq := rfl
  body_markers := List.forall_mem_nil _
  split_eq := by
    have hsplit := h.split_eq
    rw [ofLines_append_marker h.body_markers hline, ← Nat.add_assoc, ← h.lineNo_eq] at hsplit
    rw [← hsplit, List.append_assoc]
    rfl

/-- Any other line belongs to the open chunk. -/
theorem grow (h : c.At source closed body (line :: rest)) (hline : isMarker line = false) :
    Cutting.At source { c with offset := c.offset + byteLength line, lineNo := c.lineNo + 1 }
      closed (body ++ [line]) rest where
  lines_eq := by
    rw [← List.append_assoc]
    exact h.read_eq
  start_eq := h.start_eq
  offset_eq := by
    rw [← List.append_assoc]
    exact h.offset_add
  lineNo_eq := by
    show c.lineNo + 1 = c.startLine + (body ++ [line]).length
    rw [h.lineNo_eq, List.length_append]
    rfl
  body_markers :=
    List.forall_mem_append.mpr ⟨h.body_markers, List.forall_mem_singleton.mpr hline⟩
  split_eq := by
    rw [List.append_assoc]
    exact h.split_eq

/-- Every line can be read, and what is known is known behind it. -/
theorem exists_readLine? (h : c.At source closed body (line :: rest)) :
    ∃ c' closed' body', c.readLine? source line = some c' ∧ c'.At source closed' body' rest := by
  unfold Cutting.readLine?
  by_cases hline : isMarker line = true
  · rw [if_pos hline, h.slice?_eq]
    exact ⟨_, _, _, rfl, h.close hline⟩
  · rw [if_neg hline]
    exact ⟨_, _, _, rfl, h.grow (Bool.eq_false_iff.mpr hline)⟩

end

/-- All lines can be read. -/
theorem exists_foldlM_readLine? (h : c.At source closed body rest) :
    ∃ c' closed' body', rest.foldlM (Cutting.readLine? source) c = some c' ∧
      c'.At source closed' body' [] := by
  -- along the unread lines; what is closed and what is open changes with each of them
  induction rest generalizing c closed body with
  | nil => exact ⟨c, closed, body, rfl, h⟩
  | cons line rest ih =>
    obtain ⟨c', closed', body', hline, hc'⟩ := h.exists_readLine?
    rw [List.foldlM_cons, hline]
    exact ih hc'

end Cutting.At

/-- Every slice can be taken, and the slices are the chunks. -/
theorem slices?_eq (source : List Char) : slices? source = some (split source) := by
  have hstart : Cutting.At source ⟨0, 0, 0, 0, []⟩ [] [] (lines source) :=
    ⟨rfl, rfl, rfl, rfl, List.forall_mem_nil _, rfl⟩
  obtain ⟨c, closed, body, hread, hc⟩ := hstart.exists_foldlM_readLine?
  have hend : c.offset = byteLength source := by
    rw [hc.offset_eq, ← List.append_nil (closed ++ body), ← hc.lines_eq, flatten_lines]
  have hsplit := hc.split_eq
  rw [List.append_nil, ofLines_of_no_marker hc.body_markers] at hsplit
  unfold slices?
  rw [hread, ← hend, ← hsplit]
  show (slice? source c.start c.offset).bind _ = _
  rw [hc.slice?_eq]
  rfl

/-! ## Chunks and markers by turns -/

def markerLines (source : List Char) : List (List Char) := (lines source).filter isMarker

/-- Chunks with a marker line behind each, as long as there are any. -/
def rejoin : List Chunk → List (List Char) → List Char
  | [], _ => []
  | chunk :: chunks, [] => chunk.text ++ rejoin chunks []
  | chunk :: chunks, marker :: markers => chunk.text ++ marker ++ rejoin chunks markers

theorem filter_isMarker_eq_nil {body : List (List Char)}
    (hbody : ∀ line ∈ body, isMarker line = false) : body.filter isMarker = [] :=
  List.filter_eq_nil_iff.mpr fun line hline => Bool.eq_false_iff.mp (hbody line hline)

/-- The first marker is the one behind the lines that are none. -/
theorem filter_isMarker_append_marker {body : List (List Char)} {marker : List Char}
    (hbody : ∀ line ∈ body, isMarker line = false) (hmarker : isMarker marker = true)
    (ls : List (List Char)) :
    (body ++ marker :: ls).filter isMarker = marker :: ls.filter isMarker := by
  rw [List.filter_append, filter_isMarker_eq_nil hbody, List.nil_append,
    List.filter_cons_of_pos hmarker]

namespace Cut

variable {n : Nat} {ls : List (List Char)} {chunks : List Chunk}

/-- Chunks and marker lines make up the lines they were cut from. -/
theorem rejoin_eq (h : Cut n ls chunks) : rejoin chunks (ls.filter isMarker) = ls.flatten := by
  induction h with
  | last hbody =>
    rw [filter_isMarker_eq_nil hbody]
    exact List.append_nil _
  | next body hbody hmarker _ ih =>
    rw [filter_isMarker_append_marker hbody hmarker, List.flatten_append, List.flatten_cons, ← ih,
      ← List.append_assoc]
    rfl

/-- There is one chunk more than there are markers. -/
theorem length_eq (h : Cut n ls chunks) : chunks.length = (ls.filter isMarker).length + 1 := by
  induction h with
  | last hbody =>
    rw [filter_isMarker_eq_nil hbody]
    rfl
  | next body hbody hmarker _ ih =>
    rw [filter_isMarker_append_marker hbody hmarker, List.length_cons, ih, List.length_cons]

/-- The first chunk is the lines before the first marker. -/
theorem exists_body (h : Cut n ls chunks) {chunk : Chunk} {later : List Chunk}
    (hchunks : chunks = chunk :: later) :
    ∃ body behind, ls = body ++ behind ∧ chunk = ⟨n, body.flatten⟩ ∧
      ∀ line ∈ body, isMarker line = false := by
  cases h with
  | last hbody => exact ⟨ls, [], (List.append_nil ls).symm, (List.cons.inj hchunks).1.symm, hbody⟩
  | next body hbody _ _ => exact ⟨body, _, rfl, (List.cons.inj hchunks).1.symm, hbody⟩

/-- The lines from a chunk on are cut into the chunks from there on. -/
theorem resume (h : Cut n ls chunks) {before later : List Chunk} {chunk : Chunk}
    (hchunks : chunks = before ++ chunk :: later) :
    ∃ leading following, ls = leading ++ following ∧
      (leading.filter isMarker).length = before.length ∧
      rejoin before (leading.filter isMarker) = leading.flatten ∧
      Cut (n + leading.length) following (chunk :: later) := by
  induction before generalizing n ls chunks with
  | nil =>
    subst hchunks
    exact ⟨[], ls, rfl, rfl, rfl, h⟩
  | cons first before ih =>
    cases h with
    | last hbody => cases before <;> cases (List.cons.inj hchunks).2
    | @next _ body lines marker _ hbody hmarker hlater =>
      obtain ⟨hfirst, hrest⟩ := List.cons.inj hchunks
      obtain ⟨leading, following, rfl, hcount, hleading, hfollowing⟩ := ih hlater hrest
      have hmarkers := filter_isMarker_append_marker hbody hmarker leading
      refine ⟨body ++ marker :: leading, following, ?_, ?_, ?_, ?_⟩
      · rw [List.append_assoc]
        rfl
      · rw [hmarkers, List.length_cons, hcount, List.length_cons]
      · rw [hmarkers, List.flatten_append, List.flatten_cons, ← hleading, ← List.append_assoc,
          ← hfirst]
        rfl
      · have hlines : n + (body ++ marker :: leading).length =
            n + (body.length + 1) + leading.length := by
          rw [List.length_append, List.length_cons]
          omega
        rw [hlines]
        exact hfollowing

end Cut

/-- A chunk stands in an input behind others: the input is the chunks before it with their
markers and what begins with it, the former are as many lines as it says, and its own lines
are no markers. -/
structure InPlace (source : List Char) (before : List Chunk) (chunk : Chunk)
    (later : List Chunk) : Prop where
  source_eq : source =
    rejoin before ((markerLines source).take before.length) ++
      rejoin (chunk :: later) ((markerLines source).drop before.length)
  linesBefore_eq : chunk.linesBefore =
    (lines (rejoin before ((markerLines source).take before.length))).length
  no_marker : ∀ line ∈ lines chunk.text, isMarker line = false

/-- Every chunk is where its number of lines says. -/
theorem inPlace_of_split_eq {source : List Char} {before later : List Chunk} {chunk : Chunk}
    (h : split source = before ++ chunk :: later) : InPlace source before chunk later := by
  obtain ⟨leading, following, hlines, hcount, hleading, hfollowing⟩ :=
    (cut_split source).resume h
  obtain ⟨body, behind, rfl, rfl, hbody⟩ := hfollowing.exists_body rfl
  have hmarkers : markerLines source =
      leading.filter isMarker ++ (body ++ behind).filter isMarker := by
    rw [markerLines, hlines, List.filter_append]
  have hbefore : (markerLines source).take before.length = leading.filter isMarker := by
    rw [hmarkers, ← hcount, List.take_left]
  have hafter : (markerLines source).drop before.length = (body ++ behind).filter isMarker := by
    rw [hmarkers, ← hcount, List.drop_left]
  exact {
    source_eq := by
      rw [hbefore, hafter, hleading, hfollowing.rejoin_eq, ← List.flatten_append, ← hlines,
        flatten_lines]
    linesBefore_eq := by
      have hbegin : lines source = [] ++ (leading ++ (body ++ behind)) := hlines
      rw [hbefore, hleading, lines_flatten_of_lines_eq hbegin]
      exact Nat.zero_add leading.length
    no_marker := by
      intro line hline
      rw [lines_flatten_of_lines_eq hlines] at hline
      exact hbody line hline }

/-- Splitting is a partition of the input: no slice fails, chunks and marker lines by turns
are the input, and every chunk is in its place between markers. -/
theorem split_partition (source : List Char) :
    slices? source = some (split source) ∧
      rejoin (split source) (markerLines source) = source ∧
      (split source).length = (markerLines source).length + 1 ∧
      ∀ before chunk later, split source = before ++ chunk :: later →
        InPlace source before chunk later := by
  have hcut := cut_split source
  refine ⟨slices?_eq source, ?_, hcut.length_eq, ?_⟩
  · exact hcut.rejoin_eq.trans (flatten_lines source)
  · intro before chunk later h
    exact inPlace_of_split_eq h

/-- A marker first, one among wide blanks, and one that ends the input. -/
example : slices? "// -----\n1\r\n\u2003// -----\u00a0\r\n// -----".toList =
    some [⟨0, []⟩, ⟨1, "1\r\n".toList⟩, ⟨3, []⟩, ⟨4, []⟩] := by
  decide +kernel

end IrOptimizer.Chunk
