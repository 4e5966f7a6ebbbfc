import IrOptimizer.Proofs.Chunk
import IrOptimizer.Proofs.Optimizer

/-!
# A split input is its chunks

Splitting an input and processing every chunk alone come to the same
(`process_chunkwise`). What is left to see is that errors are told alike. A complaint
about a chunk stands at a place of the chunk, and the lines before the chunk are ended,
so as many lines further down is the same place of the whole input. The exception, a
chunk behind a last line without line feed, is empty, and no standard reader complains
about the empty text.
-/

namespace IrOptimizer

open Text

/-- The same error in a text with so many more lines before it. -/
def OptimizerError.down (lines : Nat) : OptimizerError → OptimizerError
  | frontend e => frontend (e.down lines)
  | e => e

/-- An error that comes of a chunk alone, and what it is called in an input that has
the chunk behind other text: a complaint about the source is moved to the same place
of the input, any other error stays as it is. -/
structure Relocated (leading : List Char) (chunk : Chunk) (e e' : OptimizerError) : Prop where
  down_eq : e' = e.down chunk.linesBefore
  same_place : ∀ complaint, e = .frontend (.badSource complaint) →
    ∃ read unread, chunk.text = read ++ unread ∧ complaint.position = .after read ∧
      (complaint.down chunk.linesBefore).position = .after (leading ++ read)

namespace Optimizer

variable {o : Optimizer} {s : Settings} {p : Plan}

/-- What comes of a chunk that is an input of its own and is not split. -/
def alone (o : Optimizer) (s : Settings) (chunk : Chunk) : Except OptimizerError String :=
  (o.process { s with splitInput := false } (.ofText (String.ofList chunk.text))).1.result

theorem alone_eq (hplan : o.plan s = .ok p) (chunk : Chunk) :
    o.alone s chunk = (o.processText s p (String.ofList chunk.text)).result := by
  have hplan' : o.plan { s with splitInput := false } = .ok p := hplan
  rw [alone, process_of_text hplan' (Stream.text_ofText _)]
  rfl

/-! ## One chunk -/

/-- In the whole input, a chunk comes to what it comes to alone, its errors moved. -/
theorem processChunk_result (o : Optimizer) (s : Settings) (p : Plan) (chunk : Chunk) :
    (o.processChunk s p chunk).result =
      (o.processText s p (String.ofList chunk.text)).result.mapError
        (·.down chunk.linesBefore) := by
  unfold processChunk processText processModule
  dsimp only
  cases p.frontend.load o.context (String.ofList chunk.text) with
  | error e => rfl
  | ok m =>
    unfold transform
    dsimp only [Except.mapError]
    split <;> rfl

/-- A complaint about the source is one of the reader, and stands at a place of it. -/
theorem reaches_of_processText {source : String} {complaint : SyntaxError}
    (hfrontend : p.frontend = Generic.parse ∨ p.frontend = Toy.parse)
    (h : (o.processText s p source).result = .error (.frontend (.badSource complaint))) :
    p.frontend source = .error complaint ∧
      Position.start.Reaches source.toList complaint.position := by
  have hread : p.frontend source = .error complaint :=
    Frontend.load_eq_badSource_iff.mp (processModule_eq_frontend_iff.mp h)
  exact ⟨hread, Frontend.reaches_of_eq_error hfrontend hread⟩

/-- Behind the text that stands before the chunk, its errors are moved to the same place. -/
theorem relocated_of_between {source : List Char} {markers : Nat} {chunk : Chunk}
    {leading body trailing : List (List Char)} {e : OptimizerError}
    (hfrontend : p.frontend = Generic.parse ∨ p.frontend = Toy.parse)
    (hbetween : Chunk.Between (lines source) markers chunk leading body trailing)
    (hcount : chunk.linesBefore = leading.length)
    (h : (o.processText s p (String.ofList chunk.text)).result = .error e) :
    Relocated leading.flatten chunk e (e.down chunk.linesBefore) := by
  refine ⟨rfl, ?_⟩
  rintro complaint rfl
  obtain ⟨hread, read, unread, htext, hplace⟩ := reaches_of_processText hfrontend h
  rw [String.toList_ofList] at htext
  refine ⟨read, unread, htext, hplace, ?_⟩
  -- lines and line feeds are equally many before the chunk, unless nothing is left to read
  rcases hbetween.ended_or_empty with hended | hempty
  · rw [Position.after_append_of_ended hended, ← hcount]
    exact congrArg (Position.down · chunk.linesBefore) hplace
  · rw [hempty] at hread
    rw [show String.ofList [] = "" from rfl, Frontend.reads_empty hfrontend] at hread
    cases hread

/-! ## All chunks -/

theorem processChunks_result (o : Optimizer) (s : Settings) (p : Plan) (chunks : List Chunk) :
    (o.processChunks s p chunks).1 =
      chunks.mapM fun chunk => (o.processChunk s p chunk).result := by
  induction chunks with
  | nil => rfl
  | cons chunk chunks ih =>
    rw [List.mapM_cons, ← ih]
    -- both stop at an error of the chunk, and only there
    cases hchunk : (o.processChunk s p chunk).result with
    | error e =>
      rw [processChunks_cons_of_error hchunk]
      rfl
    | ok text =>
      rw [processChunks_cons_of_ok hchunk]
      cases (o.processChunks s p chunks).1 <;> rfl

/-- A chunk that is the whole input, without lines before it. -/
theorem processChunk_whole (o : Optimizer) (s : Settings) (p : Plan) (source : String) :
    o.processChunk s p ⟨0, source.toList⟩ = o.processText s p source := by
  unfold processChunk processText
  rw [String.ofList_toList]
  cases p.frontend.load o.context source with
  | error e => cases e <;> rfl
  | ok m => rfl

theorem processChunks_whole (o : Optimizer) (s : Settings) (p : Plan) (source : String) :
    ⟨(o.processChunks s p [⟨0, source.toList⟩]).1.map (String.intercalate separator),
      (o.processChunks s p [⟨0, source.toList⟩]).2⟩ = o.processText s p source := by
  rw [← processChunk_whole]
  cases hchunk : (o.processChunk s p ⟨0, source.toList⟩).result with
  | error e =>
    rw [processChunks_cons_of_error hchunk]
    exact congrArg (Report.mk · _) hchunk.symm
  | ok text =>
    rw [processChunks_cons_of_ok hchunk, processChunks]
    dsimp only [Except.map]
    rw [List.append_nil, String.intercalate_singleton, ← hchunk]

/-- The chunks of an input; one that is not split is a single chunk. -/
def chunks (s : Settings) (source : String) : List Chunk :=
  if s.splitInput then Chunk.split source.toList else [⟨0, source.toList⟩]

theorem processSource_eq (o : Optimizer) (s : Settings) (p : Plan) (source : String) :
    o.processSource s p source =
      ⟨(o.processChunks s p (chunks s source)).1.map (String.intercalate separator),
        (o.processChunks s p (chunks s source)).2⟩ := by
  unfold processSource chunks
  split
  · rfl
  · exact (processChunks_whole o s p source).symm

theorem processSource_of_no_marker {source : String}
    (h : ∀ line ∈ lines source.toList, Chunk.isMarker line = false) :
    o.processSource s p source = o.processText s p source := by
  have hchunks : chunks s source = [⟨0, source.toList⟩] := by
    rw [chunks, Chunk.split_of_no_marker h, ite_self]
  rw [processSource_eq, hchunks, processChunks_whole]

/-- For every optimizer, settings with a built-in frontend and passes that resolve, and
input that is a text: if the input is split, there is a result exactly if every chunk
alone has one, and it is theirs with a marker line between them. Otherwise the error is
that of the first chunk that has one, moved to its place in the input. An input
without marker lines is processed as if it were not split. -/
theorem process_chunkwise (o : Optimizer) (s : Settings) (input : Stream) (source : String)
    (frontend : Frontend) (pipeline : Pipeline)
    (hfrontend : o.frontends.resolve s.frontendTag = .ok frontend)
    (hbuiltIn : frontend = Generic.parse ∨ frontend = Toy.parse)
    (hpasses : Pipeline.build o.passes s.passes = .ok pipeline)
    (hsource : input.text = .ok source) :
    (∀ t, (o.process { s with splitInput := true } input).1.result = .ok t ↔
      ∃ texts, (Chunk.split source.toList).map (o.alone s) = texts.map .ok ∧
        t = String.intercalate "// -----\n" texts) ∧
    (∀ e, (o.process { s with splitInput := true } input).1.result = .error e →
      ∃ before chunk later e' leading body trailing,
        Chunk.split source.toList = before ++ chunk :: later ∧
        (∀ earlier ∈ before, ∃ t, o.alone s earlier = .ok t) ∧
        o.alone s chunk = .error e' ∧
        Chunk.Between (lines source.toList) before.length chunk leading body trailing ∧
        source.toList = leading.flatten ++ chunk.text ++ trailing.flatten ∧
        Relocated leading.flatten chunk e' e) ∧
    ((∀ line ∈ lines source.toList, Chunk.isMarker line = false) →
      o.process { s with splitInput := true } input =
        o.process { s with splitInput := false } input) := by
  have hplan : o.plan s = .ok ⟨frontend, pipeline⟩ := plan_eq_ok_iff.mpr ⟨hfrontend, hpasses⟩
  -- the plan does not depend on splitting
  have hprocess (split : Bool) : o.process { s with splitInput := split } input =
      ⟨o.processSource { s with splitInput := split } ⟨frontend, pipeline⟩ source,
        input.bytes.size⟩ :=
    process_of_text hplan hsource
  have hsplit : (o.process { s with splitInput := true } input).1.result =
      ((Chunk.split source.toList).mapM fun chunk =>
        (o.alone s chunk).mapError (·.down chunk.linesBefore)).map
          (String.intercalate separator) := by
    rw [hprocess, processSource_eq, processChunks_result]
    simp only [processChunk_result, alone_eq hplan]
    rfl
  rw [hsplit]
  refine ⟨fun t => ?_, fun e he => ?_, fun hnone => ?_⟩
  · rw [except_map_eq_ok]
    refine exists_congr fun texts => and_congr ?_ Iff.rfl
    exact mapM_mapError_eq_ok_iff.trans mapM_eq_ok_iff
  · rw [except_map_eq_error] at he
    obtain ⟨before, chunk, later, hchunks, hbefore, hchunk⟩ := exists_of_mapM_eq_error he
    obtain ⟨e', he', rfl⟩ := except_mapError_eq_error.mp hchunk
    obtain ⟨leading, body, trailing, hbetween, hcount⟩ := Chunk.between_of_split_eq hchunks
    refine ⟨before, chunk, later, e', leading, body, trailing, hchunks, ?_, he', hbetween,
      hbetween.source_eq, ?_⟩
    · intro earlier hearlier
      obtain ⟨t, ht⟩ := hbefore earlier hearlier
      exact ⟨t, except_mapError_eq_ok.mp ht⟩
    · exact relocated_of_between (p := ⟨frontend, pipeline⟩) hbuiltIn hbetween hcount
        (alone_eq hplan chunk ▸ he')
  · rw [hprocess, hprocess, processSource_of_no_marker hnone, processSource_of_no_marker hnone]
    rfl

/-- A complaint about the second chunk, whose first line is the third of the input. -/
theorem process_chunkwise_moved :
    ((standard false).process { frontend := some "toy", splitInput := true }
      (.ofText "1\n// -----\n2 x\n")).1.result =
        .error (.frontend (.badSource ⟨⟨3, 3⟩, .notAnInteger "x"⟩)) ∧
    ∃ chunk ∈ Chunk.split "1\n// -----\n2 x\n".toList, ∃ e leading,
      (standard false).alone { frontend := some "toy" } chunk = .error e ∧
      Relocated leading chunk e (.frontend (.badSource ⟨⟨3, 3⟩, .notAnInteger "x"⟩)) := by
  have hwhole : ((standard false).process { frontend := some "toy", splitInput := true }
      (.ofText "1\n// -----\n2 x\n")).1.result =
        .error (.frontend (.badSource ⟨⟨3, 3⟩, .notAnInteger "x"⟩)) := rfl
  obtain ⟨before, chunk, later, e, leading, _, _, hchunks, _, halone, _, _, hmoved⟩ :=
    (process_chunkwise (standard false) { frontend := some "toy" } (.ofText "1\n// -----\n2 x\n")
      "1\n// -----\n2 x\n" Toy.parse .empty rfl (.inr rfl) (Pipeline.build_nil _)
      (Stream.text_ofText _)).2.1 _ hwhole
  refine ⟨hwhole, chunk, ?_, e, leading.flatten, halone, hmoved⟩
  rw [hchunks]
  exact List.mem_append_right before (List.mem_cons_self ..)

end Optimizer

end IrOptimizer
