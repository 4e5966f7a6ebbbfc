import IrOptimizer.Optimizer
import IrOptimizer.Proofs.Frontend
import IrOptimizer.Proofs.Generic.RoundTrip
import IrOptimizer.Proofs.Transform.Standard

/-!
# Results of the optimizer can be worked on again

`Module.Loadable` is what a module needs so that its generic form can be loaded in a
context: some text could stand for it, and the context admits its names. Every
standard frontend answers such modules, rewriting keeps them such, and so does a
run of standard passes of any length. A result in generic form is therefore the
text of a module that is loaded from it, and without passes the same text comes out
again (`process_result_stable`).
-/

namespace IrOptimizer

/-- A text is read from the stream of its bytes. -/
theorem Stream.text_ofText (source : String) : (ofText source).text = .ok source := by
  have hvalid : source.toUTF8.IsValidUTF8 := source.isValidUTF8
  rw [text, ofText]
  dsimp only
  rw [String.fromUTF8?, dif_pos hvalid]
  rfl

/-! ## Modules that can be loaded from their generic form -/

/-- The generic form expresses the module, and the context admits it. -/
structure Module.Loadable (context : Context) (m : Module) : Prop where
  readable : m.Readable
  admitted : EveryName context.Admits m.ops

namespace Module.Loadable

variable {context : Context} {m m' : Module}

/-- A loadable module is loaded from its generic form. -/
theorem load_print (h : m.Loadable context) :
    Frontend.load Generic.parse context m.print = .ok m :=
  Frontend.load_eq_ok_iff.mpr
    ⟨Generic.parse_print_of_readable h.readable, Context.validate_eq_ok_iff.mpr h.admitted⟩

/-- Rewriting keeps a module loadable. -/
theorem rewrites (h : m.Loadable context) (hrewrites : Rewrites m.ops m'.ops) :
    m'.Loadable context := by
  obtain ⟨⟨hnames, hnesting⟩, hadmitted⟩ := h
  refine ⟨⟨hrewrites.everyName hnames, ?_⟩, hrewrites.everyName hadmitted⟩
  exact Nat.le_trans hrewrites.nestingList_le hnesting

end Module.Loadable

/-- What the standard readers answer can be loaded from its generic form. -/
theorem loadable_of_load {context : Context} {source : String} {frontend : Frontend}
    {m : Module} (hbuiltIn : frontend = Generic.parse ∨ frontend = Toy.parse)
    (hload : frontend.load context source = .ok m) : m.Loadable context := by
  obtain ⟨hread, hvalid⟩ := Frontend.load_eq_ok_iff.mp hload
  exact ⟨Frontend.readable_of_eq_ok hbuiltIn hread, Context.validate_eq_ok_iff.mp hvalid⟩

/-- A run of standard passes keeps a module loadable, wherever it stops. -/
theorem Pipeline.loadable_execute {context : Context} {requests : List String} {p : Pipeline}
    (hbuild : build .standard requests = .ok p) {m : Module} (hm : m.Loadable context)
    (verifyEach : Bool) : (p.execute context verifyEach m).module.Loadable context := by
  refine (execute_induction (fun stage hstage m hm => ?_) hm).1
  have hmem := mem_entries_of_build hbuild stage hstage
  exact hm.rewrites (PassRegistry.rewrites_leaves hmem context m)

/-! ## Processing -/

namespace Optimizer

theorem frontends_standard (allow : Bool) : (standard allow).frontends = .standard := by
  simp only [standard]

theorem passes_standard (allow : Bool) : (standard allow).passes = .standard := by
  simp only [standard]

/-- There is a plan if the frontend is known and the pipeline is built. -/
theorem plan_eq_ok_iff {o : Optimizer} {s : Settings} {p : Plan} :
    o.plan s = .ok p ↔
      o.frontends.resolve s.frontendTag = .ok p.frontend ∧
        Pipeline.build o.passes s.passes = .ok p.pipeline := by
  unfold plan
  simp only [except_bind_eq_ok, except_mapError_eq_ok]
  constructor
  · intro h
    obtain ⟨frontend, hfrontend, pipeline, hpipeline, h⟩ := h
    cases h
    exact ⟨hfrontend, hpipeline⟩
  · intro h
    obtain ⟨hfrontend, hpipeline⟩ := h
    exact ⟨_, hfrontend, _, hpipeline, rfl⟩

/-- A frontend that is unknown wins over passes that are. -/
theorem plan_of_resolve_error {o : Optimizer} {s : Settings} {e : FrontendError}
    (hfrontend : o.frontends.resolve s.frontendTag = .error e) :
    o.plan s = .error (.frontend e) := by
  rw [plan, hfrontend]
  rfl

/-- Passes that are unknown are told if the frontend is known. -/
theorem plan_of_build_error {o : Optimizer} {s : Settings} {frontend : Frontend}
    {e : PipelineError} (hfrontend : o.frontends.resolve s.frontendTag = .ok frontend)
    (hpasses : Pipeline.build o.passes s.passes = .error e) :
    o.plan s = .error (.pipeline e) := by
  rw [plan, hfrontend, hpasses]
  rfl

/-- There is no plan only if the frontend or a pass is unknown. -/
theorem exists_of_plan_eq_error {o : Optimizer} {s : Settings} {e : OptimizerError}
    (h : o.plan s = .error e) :
    (∃ tag, e = .frontend (.unknownFrontend tag)) ∨ ∃ name, e = .pipeline (.unknownPass name) := by
  cases hfrontend : o.frontends.resolve s.frontendTag with
  | error e' =>
    rw [plan_of_resolve_error hfrontend] at h
    cases h
    unfold FrontendRegistry.resolve at hfrontend
    split at hfrontend
    · cases hfrontend
    · cases hfrontend
      exact .inl ⟨_, rfl⟩
  | ok frontend =>
    cases hpasses : Pipeline.build o.passes s.passes with
    | error e' =>
      rw [plan_of_build_error hfrontend hpasses] at h
      cases h
      obtain ⟨name, rfl⟩ := Pipeline.exists_of_build_eq_error hpasses
      exact .inr ⟨name, rfl⟩
    | ok pipeline =>
      have hplan : o.plan s = .ok ⟨frontend, pipeline⟩ := plan_eq_ok_iff.mpr ⟨hfrontend, hpasses⟩
      cases hplan.symm.trans h

/-- Without a plan the input is not read, so nothing is taken from it. -/
theorem process_of_plan_error {o : Optimizer} {s : Settings} {e : OptimizerError}
    (hplan : o.plan s = .error e) (input : Stream) :
    o.process s input = ⟨⟨.error e, []⟩, 0⟩ := by
  rw [process, hplan]
  rfl

/-- With a plan the input is read once, and by that all of it is taken. -/
theorem process_of_plan {o : Optimizer} {s : Settings} {p : Plan} (hplan : o.plan s = .ok p)
    (input : Stream) :
    o.process s input = ⟨o.processInput s p input.text, input.read.taken⟩ := by
  rw [process, hplan]
  rfl

/-- With a plan a text is worked on as a source. -/
theorem process_of_text {o : Optimizer} {s : Settings} {p : Plan} {input : Stream}
    {source : String} (hplan : o.plan s = .ok p) (hsource : input.text = .ok source) :
    o.process s input = ⟨o.processSource s p source, input.bytes.size⟩ := by
  rw [process_of_plan hplan, hsource]
  rfl

/-- There is a result if the run succeeds, and it is what the last module is rendered to. -/
theorem transform_eq_ok_iff {o : Optimizer} {pipeline : Pipeline} {verifyEach : Bool}
    {target : Target} {m : Module} {t : String} :
    (o.transform pipeline verifyEach target m).result = .ok t ↔
      (pipeline.execute o.context verifyEach m).result = .ok () ∧
        target.render (pipeline.execute o.context verifyEach m).module = t := by
  unfold transform
  dsimp only
  split
  · next hrun => simp [hrun]
  · next e hrun => simp [hrun]

theorem processModule_eq_ok_iff {o : Optimizer} {s : Settings} {p : Plan}
    {loaded : Except FrontendError Module} {t : String} :
    (o.processModule s p loaded).result = .ok t ↔
      ∃ m, loaded = .ok m ∧ (o.transform p.pipeline s.verifyEach s.target m).result = .ok t := by
  cases loaded with
  | error e => exact ⟨nofun, fun ⟨_, h, _⟩ => nomatch h⟩
  | ok m => exact ⟨fun h => ⟨m, rfl, h⟩, fun ⟨_, h, ht⟩ => Except.ok.inj h ▸ ht⟩

/-- The frontend is to blame only if there is nothing to run the pipeline on. -/
theorem processModule_eq_frontend_iff {o : Optimizer} {s : Settings} {p : Plan}
    {loaded : Except FrontendError Module} {e : FrontendError} :
    (o.processModule s p loaded).result = .error (.frontend e) ↔ loaded = .error e := by
  cases loaded with
  | error e' => exact ⟨fun h => by cases h; rfl, fun h => by cases h; rfl⟩
  | ok m =>
    refine ⟨fun h => ?_, nofun⟩
    unfold processModule transform at h
    dsimp only at h
    split at h <;> cases h

/-- Behind a chunk with a result the others are looked at. -/
theorem processChunks_cons_of_ok {o : Optimizer} {s : Settings} {p : Plan} {chunk : Chunk}
    {text : String} (h : (o.processChunk s p chunk).result = .ok text) (chunks : List Chunk) :
    o.processChunks s p (chunk :: chunks) =
      ((o.processChunks s p chunks).1.map (text :: ·),
        (o.processChunk s p chunk).events ++ (o.processChunks s p chunks).2) := by
  rw [processChunks]
  generalize o.processChunk s p chunk = report at h ⊢
  obtain ⟨result, events⟩ := report
  cases h
  rfl

/-- Behind a chunk that fails no other is looked at. -/
theorem processChunks_cons_of_error {o : Optimizer} {s : Settings} {p : Plan} {chunk : Chunk}
    {e : OptimizerError} (h : (o.processChunk s p chunk).result = .error e)
    (chunks : List Chunk) :
    o.processChunks s p (chunk :: chunks) = (.error e, (o.processChunk s p chunk).events) := by
  rw [processChunks]
  generalize o.processChunk s p chunk = report at h ⊢
  obtain ⟨result, events⟩ := report
  cases h
  rfl

/-- An input that cannot be read is told by whoever was to read it: the splitter or the frontend. -/
theorem processInput_error (o : Optimizer) (s : Settings) (p : Plan) (reason : String) :
    o.processInput s p (.error reason) =
      ⟨.error (if s.splitInput then .unreadable reason else .frontend (.unreadable reason)),
        []⟩ := by
  unfold processInput
  dsimp only
  split
  · rfl
  · rfl

/-- There is a result only of an input that is a text. -/
theorem processInput_eq_ok_iff {o : Optimizer} {s : Settings} {p : Plan}
    {text : Except String String} {t : String} :
    (o.processInput s p text).result = .ok t ↔
      ∃ source, text = .ok source ∧ (o.processSource s p source).result = .ok t := by
  cases text with
  | error reason =>
    rw [processInput_error]
    exact ⟨nofun, fun ⟨_, h, _⟩ => nomatch h⟩
  | ok source => exact ⟨fun h => ⟨source, rfl, h⟩, fun ⟨_, h, ht⟩ => Except.ok.inj h ▸ ht⟩

/-- There is a result only with a plan, and only of a text. -/
theorem process_eq_ok_iff_source {o : Optimizer} {s : Settings} {input : Stream} {t : String} :
    (o.process s input).1.result = .ok t ↔
      ∃ p source, o.plan s = .ok p ∧ input.text = .ok source ∧
        (o.processSource s p source).result = .ok t := by
  cases hplan : o.plan s with
  | error e =>
    rw [process_of_plan_error hplan]
    exact ⟨nofun, fun ⟨_, _, h, _⟩ => nomatch h⟩
  | ok p =>
    rw [process_of_plan hplan, processInput_eq_ok_iff]
    constructor
    · intro h
      obtain ⟨source, hsource, h⟩ := h
      exact ⟨p, source, rfl, hsource, h⟩
    · intro h
      obtain ⟨_, source, hp, hsource, h⟩ := h
      cases hp
      exact ⟨source, hsource, h⟩

/-- How a result comes about when the input is not split. -/
theorem process_eq_ok_iff {o : Optimizer} {s : Settings} {input : Stream} {t : String}
    (hsplit : s.splitInput = false) :
    (o.process s input).1.result = .ok t ↔
      ∃ frontend pipeline source m,
        o.frontends.resolve s.frontendTag = .ok frontend ∧
        Pipeline.build o.passes s.passes = .ok pipeline ∧
        input.text = .ok source ∧
        frontend.load o.context source = .ok m ∧
        (pipeline.execute o.context s.verifyEach m).result = .ok () ∧
        s.target.render (pipeline.execute o.context s.verifyEach m).module = t := by
  have hwhole (p : Plan) (source : String) :
      o.processSource s p source = o.processText s p source := by
    rw [processSource, hsplit]
    rfl
  rw [process_eq_ok_iff_source]
  constructor
  · intro h
    obtain ⟨p, source, hplan, hsource, h⟩ := h
    obtain ⟨hfrontend, hpipeline⟩ := plan_eq_ok_iff.mp hplan
    rw [hwhole] at h
    obtain ⟨m, hload, h⟩ := processModule_eq_ok_iff.mp h
    obtain ⟨hrun, ht⟩ := transform_eq_ok_iff.mp h
    exact ⟨p.frontend, p.pipeline, source, m, hfrontend, hpipeline, hsource, hload, hrun, ht⟩
  · intro h
    obtain ⟨frontend, pipeline, source, m, hfrontend, hpipeline, hsource, hload, hrun, ht⟩ := h
    have hplan : o.plan s = .ok ⟨frontend, pipeline⟩ := plan_eq_ok_iff.mpr ⟨hfrontend, hpipeline⟩
    refine ⟨⟨frontend, pipeline⟩, source, hplan, hsource, ?_⟩
    rw [hwhole]
    exact processModule_eq_ok_iff.mpr ⟨m, hload, transform_eq_ok_iff.mpr ⟨hrun, ht⟩⟩

/-- A result in generic form is read as the module that the pipeline ended with,
and comes out again if it is processed without passes. This holds for every source
text, tag, list of requests and context of the standard optimizer. -/
theorem process_result_stable (allow : Bool) (s : Settings) (source t : String)
    (hsplit : s.splitInput = false) (htarget : s.target = .ir)
    (h : ((standard allow).process s (.ofText source)).1.result = .ok t) :
    (∃ frontend pipeline m,
      FrontendRegistry.standard.resolve s.frontendTag = .ok frontend ∧
      Pipeline.build .standard s.passes = .ok pipeline ∧
      frontend.load (standard allow).context source = .ok m ∧
      (pipeline.execute (standard allow).context s.verifyEach m).result = .ok () ∧
      Generic.parse t = .ok (pipeline.execute (standard allow).context s.verifyEach m).module) ∧
    ∀ again : Settings, again.frontendTag = "ir" → again.passes = [] →
      again.splitInput = false → again.target = .ir →
        ((standard allow).process again (.ofText t)).1.result = .ok t := by
  obtain ⟨frontend, pipeline, source', m, hfrontend, hbuild, hsource, hload, hrun, rfl⟩ :=
    (process_eq_ok_iff hsplit).mp h
  rw [Stream.text_ofText] at hsource
  cases hsource
  rw [htarget, Target.render]
  have hbuiltIn := FrontendRegistry.eq_or_eq_of_resolve_standard hfrontend
  have hloadable : (pipeline.execute (standard allow).context s.verifyEach m).module.Loadable
      (standard allow).context :=
    pipeline.loadable_execute hbuild (loadable_of_load hbuiltIn hload) s.verifyEach
  generalize hend : (pipeline.execute (standard allow).context s.verifyEach m).module = result
    at hloadable
  refine ⟨⟨frontend, pipeline, m, hfrontend, hbuild, hload, hrun, ?_⟩, ?_⟩
  · rw [hend]
    exact Generic.parse_print_of_readable hloadable.readable
  · intro again htag hpasses hwhole hir
    refine (process_eq_ok_iff hwhole).mpr
      ⟨Generic.parse, .empty, result.print, result, ?_, ?_, Stream.text_ofText _,
        hloadable.load_print, rfl, ?_⟩
    · rw [htag]
      exact FrontendRegistry.resolve_standard_ir
    · rw [hpasses]
      exact Pipeline.build_nil _
    · rw [hir]
      rfl

/-- Two literals that are doubled, and their text processed again. -/
theorem process_result_stable_doubled :
    ((standard false).process { frontend := some "toy", passes := ["double-literal"] }
      (.ofText "1 -2")).1.result =
        .ok "module \x7b\n  toy.lit \x7bvalue = 2\x7d\n  toy.lit \x7bvalue = -4\x7d\n\x7d\n" ∧
    ((standard false).process {}
      (.ofText "module \x7b\n  toy.lit \x7bvalue = 2\x7d\n  toy.lit \x7bvalue = -4\x7d\n\x7d\n")
        ).1.result =
        .ok "module \x7b\n  toy.lit \x7bvalue = 2\x7d\n  toy.lit \x7bvalue = -4\x7d\n\x7d\n" := by
  have hfirst : ((standard false).process
      { frontend := some "toy", passes := ["double-literal"] } (.ofText "1 -2")).1.result =
        .ok "module \x7b\n  toy.lit \x7bvalue = 2\x7d\n  toy.lit \x7bvalue = -4\x7d\n\x7d\n" :=
    eq_ok_of_toOption (by decide +kernel)
  exact ⟨hfirst, (process_result_stable false _ _ _ rfl rfl hfirst).2 {} rfl rfl rfl rfl⟩

end Optimizer

end IrOptimizer
