import IrOptimizer.Proofs.SplitInput

/-!
# Which error is told, and what is read

Several things can be wrong with a run at once. An unknown frontend wins over unknown passes,
and either is told before anything is taken from the input. Otherwise the whole input is taken,
and if it is no text, nothing else is told. A text is worked on chunk by chunk, where an input
that is not split is a single chunk. A chunk is refused if the reader complains or an operation
is not legal (`Chunk.Refused`), and only if it is not are the passes started (`ChunkReport`).
The first chunk whose report is an error decides, and without one the results of all chunks are
put together (`Gathers`). `process_precedence` is all of this.
-/

namespace IrOptimizer

/-! ## Streams that are no text -/

/-- Why a stream cannot be read as a text: it breaks off, or it ends and is not UTF-8. -/
inductive Stream.Unreadable (input : Stream) : String → Prop where
  | broken {reason : String} (hfailure : input.failure = some reason) : Unreadable input reason
  | notText (hended : input.failure = none) (hbytes : ¬ input.bytes.IsValidUTF8) :
      Unreadable input notTextReason

/-- A stream that ends and is the UTF-8 form of a text. -/
structure Stream.Holds (input : Stream) (source : String) : Prop where
  ended : input.failure = none
  bytes_eq : input.bytes = source.toUTF8

/-- A stream that cannot be read has no text, for the reason told. -/
theorem Stream.Unreadable.text_eq {input : Stream} {reason : String}
    (h : input.Unreadable reason) : input.text = .error reason := by
  unfold text
  cases h with
  | broken hfailure => rw [hfailure]
  | notText hended hbytes => rw [hended, String.fromUTF8?, dif_neg hbytes]

/-- A stream that holds a text has it. -/
theorem Stream.Holds.text_eq {input : Stream} {source : String} (h : input.Holds source) :
    input.text = .ok source := by
  obtain ⟨bytes, failure⟩ := input
  obtain ⟨rfl, rfl⟩ := h
  exact text_ofText source

/-! ## One chunk -/

/-- A chunk of which no module comes that could be given to a pass: the reader complains, or the
first operation that is not legal is told. No pipeline has a say in this. -/
inductive Chunk.Refused (c : Context) (frontend : Frontend) (chunk : Chunk) :
    FrontendError → Prop where
  | unread {e : SyntaxError} (hread : frontend (String.ofList chunk.text) = .error e) :
      Refused c frontend chunk (.badSource (e.down chunk.linesBefore))
  | illegal {m : Module} {op : Operation} (hread : frontend (String.ofList chunk.text) = .ok m)
      (hop : c.FirstIllegal m op) : Refused c frontend chunk (.invalid (.unknownOperation op.name))

/-- A chunk that is read as a valid module. -/
structure Chunk.Accepted (c : Context) (frontend : Frontend) (chunk : Chunk) (m : Module) :
    Prop where
  read : frontend (String.ofList chunk.text) = .ok m
  valid : EveryName c.Admits m.ops

namespace Optimizer

/-- What can come of a chunk. The passes are started on a module that was accepted, and only
then. -/
inductive ChunkReport (o : Optimizer) (s : Settings) (p : Plan) (chunk : Chunk) :
    Report → Prop where
  | refused {e : FrontendError} (h : chunk.Refused o.context p.frontend e) :
      ChunkReport o s p chunk ⟨.error (.frontend e), []⟩
  | stopped {m : Module} {e : PipelineError} (hm : chunk.Accepted o.context p.frontend m)
      (hrun : (p.pipeline.execute o.context s.verifyEach m).result = .error e) :
      ChunkReport o s p chunk
        ⟨.error (.pipeline e), (p.pipeline.execute o.context s.verifyEach m).events⟩
  | rendered {m : Module} (hm : chunk.Accepted o.context p.frontend m)
      (hrun : (p.pipeline.execute o.context s.verifyEach m).result = .ok ()) :
      ChunkReport o s p chunk
        ⟨.ok (s.target.render (p.pipeline.execute o.context s.verifyEach m).module),
          (p.pipeline.execute o.context s.verifyEach m).events⟩

variable {o : Optimizer} {s : Settings} {p : Plan}

/-- What comes of a chunk is one of the reports there can be. -/
theorem processChunk_report (o : Optimizer) (s : Settings) (p : Plan) (chunk : Chunk) :
    ChunkReport o s p chunk (o.processChunk s p chunk) := by
  unfold processChunk Frontend.load
  cases hread : p.frontend (String.ofList chunk.text) with
  | error e => exact .refused (.unread hread)
  | ok m =>
    dsimp only
    cases hvalid : o.context.validate m with
    | error e =>
      obtain ⟨op, hop, rfl⟩ := Context.validate_eq_error_iff.mp hvalid
      exact .refused (.illegal hread hop)
    | ok u =>
      have hm : chunk.Accepted o.context p.frontend m :=
        ⟨hread, Context.validate_eq_ok_iff.mp hvalid⟩
      dsimp only [Except.mapError, processModule, transform]
      split
      · next hrun => exact .rendered hm hrun
      · next e hrun => exact .stopped hm hrun

/-! ## Chunks in order -/

/-- What is made of the reports of chunks: either all of them have results, and they are put
together with marker lines between them, or the first error stands for all. Of what is told
on the way, nothing comes of a chunk behind the first error. -/
structure Gathers (report : Chunk → Report) (chunks : List Chunk) (r : Report) : Prop where
  ok_iff : ∀ t, r.result = .ok t ↔
    ∃ texts, chunks.map (fun chunk => (report chunk).result) = texts.map .ok ∧
      t = String.intercalate "// -----\n" texts
  error_iff : ∀ e, r.result = .error e ↔
    ∃ before chunk later, chunks = before ++ chunk :: later ∧
      (∀ earlier ∈ before, ∃ text, (report earlier).result = .ok text) ∧
      (report chunk).result = .error e
  events_of_ok : (∀ chunk ∈ chunks, ∃ text, (report chunk).result = .ok text) →
    r.events = chunks.flatMap fun chunk => (report chunk).events
  events_of_error : ∀ before chunk later e, chunks = before ++ chunk :: later →
    (∀ earlier ∈ before, ∃ text, (report earlier).result = .ok text) →
    (report chunk).result = .error e →
      r.events = (before ++ [chunk]).flatMap fun chunk => (report chunk).events

/-- Behind chunks that have results, the run goes on with the next. -/
theorem processChunks_append_events {before : List Chunk}
    (hbefore : ∀ chunk ∈ before, ∃ text, (o.processChunk s p chunk).result = .ok text)
    (later : List Chunk) :
    (o.processChunks s p (before ++ later)).2 =
      (before.flatMap fun chunk => (o.processChunk s p chunk).events) ++
        (o.processChunks s p later).2 := by
  induction before with
  | nil => rfl
  | cons chunk before ih =>
    obtain ⟨⟨text, htext⟩, hbefore⟩ := List.forall_mem_cons.mp hbefore
    rw [List.cons_append, processChunks_cons_of_ok htext, ih hbefore, List.flatMap_cons,
      List.append_assoc]

/-- What comes of a source is gathered from the reports of its chunks. -/
theorem processSource_gathers (o : Optimizer) (s : Settings) (p : Plan) (source : String) :
    Gathers (o.processChunk s p) (chunks s source) (o.processSource s p source) := by
  rw [processSource_eq, processChunks_result]
  constructor
  · intro t
    rw [except_map_eq_ok]
    simp only [mapM_eq_ok_iff]
    rfl
  · intro e
    rw [except_map_eq_error]
    constructor
    · exact exists_of_mapM_eq_error
    · rintro ⟨before, chunk, later, hchunks, hbefore, hchunk⟩
      rw [hchunks]
      exact mapM_eq_error_of_first hbefore hchunk
  · intro hall
    have hevents := processChunks_append_events hall []
    rw [List.append_nil, processChunks, List.append_nil] at hevents
    exact hevents
  · intro before chunk later e hchunks hbefore hchunk
    show (o.processChunks s p (chunks s source)).2 = _
    rw [hchunks, processChunks_append_events hbefore, processChunks_cons_of_error hchunk,
      List.flatMap_append, List.flatMap_singleton]

/-! ## All inputs -/

/-- What cannot be read is told before anything is parsed. -/
theorem process_of_unreadable {input : Stream} {reason : String} (hplan : o.plan s = .ok p)
    (hinput : input.Unreadable reason) :
    (o.process s input).1 =
      ⟨.error (if s.splitInput then .unreadable reason
        else .frontend (.unreadable reason)), []⟩ := by
  rw [process_of_plan hplan, hinput.text_eq, processInput_error]

/-- With a plan all bytes are taken, whatever comes of them. -/
theorem taken_of_plan (hplan : o.plan s = .ok p) (input : Stream) :
    (o.process s input).2 = input.bytes.size := by
  rw [process_of_plan hplan]
  rfl

/-- Which error is told, and what is read, for every optimizer, settings and input.

An unknown frontend is told whatever the passes are, else the first request for an unknown
pass; either way nothing is taken from the input. Otherwise all of the input is taken, and if
it breaks off or is not UTF-8, this is told whatever the frontend would say. Otherwise every
chunk has a report in which a complaint of the reader wins over an operation that is not
legal, which is the first in pre-order, and with both no pass is started. The first report
that is an error is told, and there is a text only if none is. -/
theorem process_precedence (o : Optimizer) (s : Settings) (input : Stream) :
    (o.frontends.find? s.frontendTag = none →
      o.process s input = ⟨⟨.error (.frontend (.unknownFrontend s.frontendTag)), []⟩, 0⟩) ∧
    ∀ frontend, o.frontends.find? s.frontendTag = some frontend →
      (∀ name, Pipeline.FirstUnresolved o.passes s.passes name →
        o.process s input = ⟨⟨.error (.pipeline (.unknownPass name)), []⟩, 0⟩) ∧
      ((∀ request ∈ s.passes, ¬ Pipeline.Unresolved o.passes request) →
        (o.process s input).2 = input.bytes.size ∧
        (∀ reason, input.Unreadable reason →
          (o.process s input).1 =
            ⟨.error (if s.splitInput then .unreadable reason
              else .frontend (.unreadable reason)), []⟩) ∧
        ∃ pipeline, Pipeline.build o.passes s.passes = .ok pipeline ∧
          ∀ source, input.Holds source →
            ∃ report : Chunk → Report,
              (∀ chunk, ChunkReport o s ⟨frontend, pipeline⟩ chunk (report chunk)) ∧
              Gathers report (chunks s source) (o.process s input).1) := by
  refine ⟨fun hfind => ?_, fun frontend hfind => ⟨fun name hname => ?_, fun hpasses => ?_⟩⟩
  · have htag : o.frontends.resolve s.frontendTag = .error (.unknownFrontend s.frontendTag) := by
      rw [FrontendRegistry.resolve, hfind]
    exact process_of_plan_error (plan_of_resolve_error htag) input
  · have htag : o.frontends.resolve s.frontendTag = .ok frontend := by
      rw [FrontendRegistry.resolve, hfind]
    have hbuild := Pipeline.build_of_firstUnresolved hname
    exact process_of_plan_error (plan_of_build_error htag hbuild) input
  · have htag : o.frontends.resolve s.frontendTag = .ok frontend := by
      rw [FrontendRegistry.resolve, hfind]
    obtain ⟨pipeline, hbuild⟩ := Pipeline.build_of_resolved hpasses
    have hplan : o.plan s = .ok ⟨frontend, pipeline⟩ := plan_eq_ok_iff.mpr ⟨htag, hbuild⟩
    refine ⟨taken_of_plan hplan input, fun reason => process_of_unreadable hplan, pipeline, hbuild,
      fun source hsource => ⟨o.processChunk s ⟨frontend, pipeline⟩, ?_, ?_⟩⟩
    · exact processChunk_report o s ⟨frontend, pipeline⟩
    · rw [process_of_text hplan hsource.text_eq]
      exact processSource_gathers o s ⟨frontend, pipeline⟩ source

end Optimizer

end IrOptimizer
