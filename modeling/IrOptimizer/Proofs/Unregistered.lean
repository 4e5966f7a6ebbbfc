import IrOptimizer.Proofs.SplitInput

/-!
# Allowing unregistered dialects

Whether unregistered dialects are allowed is asked only where a module is checked, and where
they are allowed every check succeeds. So a run in which no check fails is the same when they
are allowed: reading does not ask, and on a valid module neither does a standard pass, which
leaves the module valid for the next one (`executeFrom_allowing`). What differs is what
happens behind a check that fails. Chunk by chunk, therefore, an optimizer either blames an
operation for being outside the registered dialects or does the same when they are allowed
(`processChunks_allowing`). `process_allowing` says so of whole inputs. And where they are
allowed, no operation is blamed by anyone (`not_blamesOperation_process`).
-/

namespace IrOptimizer

/-! ## Contexts that allow -/

/-- The same context with unregistered dialects allowed. -/
def Context.allowing (c : Context) : Context := { c with allowsUnregistered := true }

/-- A context that allows unregistered dialects accepts every module. -/
theorem Context.validate_allowing (c : Context) (m : Module) : c.allowing.validate m = .ok () :=
  if_pos rfl

/-- An error that blames an operation that was read for being outside the registered dialects.
The check among the passes and verification blame none, as what they are given is valid. -/
def OptimizerError.BlamesOperation (e : OptimizerError) : Prop :=
  ∃ name, e = .frontend (.invalid (.unknownOperation name))

/-! ## Reading -/

namespace Frontend

variable {frontend : Frontend} {c : Context} {source : String}

/-- What is loaded, or cannot be read, is so without regard to the dialects. -/
theorem load_allowing
    (h : ∀ name, frontend.load c source ≠ .error (.invalid (.unknownOperation name))) :
    frontend.load c.allowing source = frontend.load c source := by
  unfold load at h ⊢
  cases hread : frontend source with
  | error e => rfl
  | ok m =>
    rw [hread] at h
    dsimp only at h ⊢
    rw [c.validate_allowing]
    cases hvalid : c.validate m with
    | ok u => rfl
    | error e =>
      obtain ⟨op, _, rfl⟩ := Context.validate_eq_error_iff.mp hvalid
      rw [hvalid] at h
      exact absurd rfl (h op.name)

end Frontend

/-! ## Runs -/

section

variable {c : Context} {m : Module} {verifyEach : Bool}

/-- On a valid module no standard pass learns what is allowed. -/
theorem run_allowing {stage : RegisteredPass} (hstage : stage ∈ PassRegistry.standard.entries)
    (hm : c.validate m = .ok ()) : stage.pass.run c.allowing m = stage.pass.run c m := by
  rw [PassRegistry.standard_eq] at hstage
  simp only [List.mem_cons, List.not_mem_nil, or_false] at hstage
  rcases hstage with rfl | rfl | rfl | rfl | rfl | rfl
  · rfl
  · rfl
  · show (m, (c.allowing.validate m).mapError PassError.invalid) = (m, (c.validate m).mapError _)
    rw [c.validate_allowing, hm]
  · rfl
  · rfl
  · rfl

/-- A run on a valid module is the same, stage by stage: each stage is given a valid module
and leaves one. -/
theorem Pipeline.executeFrom_allowing {stages : List RegisteredPass}
    (hstages : ∀ stage ∈ stages, stage ∈ PassRegistry.standard.entries)
    (hm : c.validate m = .ok ()) (index : Nat) :
    executeFrom c.allowing verifyEach index stages m = executeFrom c verifyEach index stages m := by
  induction stages generalizing index m with
  | nil => rfl
  | cons stage stages ih =>
    obtain ⟨hstage, hlater⟩ := List.forall_mem_cons.mp hstages
    have hrun := run_allowing hstage hm
    have hleaves : stage.leaves c.allowing m = stage.leaves c m := congrArg Prod.fst hrun
    have hvalid := validate_leaves hstage hm
    rcases stage.passes_or_stops c verifyEach index m with hpasses | ⟨e, hstops⟩
    · have hallowing : stage.Passes c.allowing verifyEach m :=
        ⟨hrun ▸ hpasses.succeeds, fun _ => c.validate_allowing _⟩
      rw [executeFrom_of_passes hpasses, executeFrom_of_passes hallowing, hleaves,
        ih hlater hvalid]
    · cases hstops with
      | @failed cause hfails =>
        have hallowing : (stage.pass.run c.allowing m).2 = .error cause := hrun ▸ hfails
        rw [executeFrom_of_stops (.failed hfails), executeFrom_of_stops (.failed hallowing),
          hleaves]
      | invalid _ _ hinvalid => cases hvalid.symm.trans hinvalid

end

/-! ## Processing -/

/-- A plan with no passes but standard ones. -/
def Plan.Standard (p : Plan) : Prop :=
  ∀ stage ∈ p.pipeline.stages, stage ∈ PassRegistry.standard.entries

/-- A report that blames an operation for being outside the registered dialects. -/
def Report.BlamesOperation (r : Report) : Prop := ∃ e, r.result = .error e ∧ e.BlamesOperation

namespace Optimizer

/-- The same optimizer with unregistered dialects allowed. -/
def allowing (o : Optimizer) : Optimizer := { o with context := o.context.allowing }

/-- The standard optimizer that allows unregistered dialects is the other with them allowed. -/
theorem allowing_standard : (standard false).allowing = standard true := by
  simp only [allowing, Context.allowing, standard]

variable {o : Optimizer} {s : Settings} {p : Plan}

/-- A chunk blames an operation, or comes to the same. -/
theorem processChunk_allowing (hp : p.Standard) (chunk : Chunk) :
    (o.processChunk s p chunk).BlamesOperation ∨
      o.allowing.processChunk s p chunk = o.processChunk s p chunk := by
  by_cases hread : ∃ name, p.frontend.load o.context (String.ofList chunk.text) =
      .error (.invalid (.unknownOperation name))
  · obtain ⟨name, hread⟩ := hread
    refine .inl ⟨_, ?_, name, rfl⟩
    rw [processChunk, hread]
    rfl
  · have hload : p.frontend.load o.context.allowing (String.ofList chunk.text) =
        p.frontend.load o.context (String.ofList chunk.text) :=
      Frontend.load_allowing fun name h => hread ⟨name, h⟩
    refine .inr ?_
    show o.allowing.processModule s p ((p.frontend.load o.context.allowing _).mapError _) = _
    rw [hload]
    unfold processChunk
    cases hm : p.frontend.load o.context (String.ofList chunk.text) with
    | error e => rfl
    | ok m =>
      have hvalid := (Frontend.load_eq_ok_iff.mp hm).2
      show o.allowing.transform p.pipeline s.verifyEach s.target m = o.transform _ _ _ m
      have hrun : p.pipeline.execute o.allowing.context s.verifyEach m =
          p.pipeline.execute o.context s.verifyEach m :=
        Pipeline.executeFrom_allowing hp hvalid 0
      rw [transform, transform, hrun]

/-- Chunk by chunk, up to the first that fails: it fails for an operation, or everything is
the same. -/
theorem processChunks_allowing (hp : p.Standard) (chunks : List Chunk) :
    (∃ e, (o.processChunks s p chunks).1 = .error e ∧ e.BlamesOperation) ∨
      o.allowing.processChunks s p chunks = o.processChunks s p chunks := by
  induction chunks with
  | nil => exact .inr rfl
  | cons chunk chunks ih =>
    rcases processChunk_allowing (o := o) (s := s) hp chunk with ⟨e, he, hblames⟩ | hsame
    · exact .inl ⟨e, congrArg Prod.fst (processChunks_cons_of_error he chunks), hblames⟩
    · cases hchunk : (o.processChunk s p chunk).result with
      | error e =>
        have hallowing : (o.allowing.processChunk s p chunk).result = .error e := hsame ▸ hchunk
        rw [processChunks_cons_of_error hchunk, processChunks_cons_of_error hallowing, hsame]
        exact .inr rfl
      | ok text =>
        have hallowing : (o.allowing.processChunk s p chunk).result = .ok text := hsame ▸ hchunk
        rw [processChunks_cons_of_ok hchunk, processChunks_cons_of_ok hallowing, hsame]
        rcases ih with ⟨e, he, hblames⟩ | hrest
        · exact .inl ⟨e, except_map_eq_error.mpr he, hblames⟩
        · exact .inr (by rw [hrest])

/-- A source blames an operation, or comes to the same. -/
theorem processSource_allowing (hp : p.Standard) (source : String) :
    (o.processSource s p source).BlamesOperation ∨
      o.allowing.processSource s p source = o.processSource s p source := by
  rw [processSource_eq, processSource_eq]
  rcases processChunks_allowing (o := o) (s := s) hp (chunks s source) with
    ⟨e, he, hblames⟩ | hsame
  · exact .inl ⟨e, except_map_eq_error.mpr he, hblames⟩
  · exact .inr (by rw [hsame])

theorem processInput_allowing (hp : p.Standard) (text : Except String String) :
    (o.processInput s p text).BlamesOperation ∨
      o.allowing.processInput s p text = o.processInput s p text := by
  cases text with
  | error reason => exact .inr rfl
  | ok source => exact processSource_allowing hp source

/-- With the standard passes, a run on an input blames an operation, or is the same. -/
theorem process_allowing_of_standard (hpasses : o.passes = .standard) (input : Stream) :
    (o.process s input).1.BlamesOperation ∨ o.allowing.process s input = o.process s input := by
  -- the plan does not ask what is allowed
  have hplan : o.allowing.plan s = o.plan s := rfl
  cases hp : o.plan s with
  | error e =>
    rw [process_of_plan_error hp, process_of_plan_error (hplan.trans hp)]
    exact .inr rfl
  | ok p =>
    rw [process_of_plan hp, process_of_plan (hplan.trans hp)]
    have hbuild : Pipeline.build .standard s.passes = .ok p.pipeline :=
      hpasses ▸ (plan_eq_ok_iff.mp hp).2
    have hstandard : p.Standard := Pipeline.mem_entries_of_build hbuild
    exact (processInput_allowing hstandard input.text).imp_right fun hsame =>
      congrArg (Taking.mk · input.read.taken) hsame

/-! The setting is read when an optimizer is made, and has no part in what it does then. -/

theorem processChunks_setting (allow : Bool) (chunks : List Chunk) :
    o.processChunks { s with allowUnregistered := allow } p chunks =
      o.processChunks s p chunks := by
  induction chunks with
  | nil => rfl
  | cons chunk chunks ih =>
    rw [processChunks, processChunks, ih]
    rfl

/-- Once an optimizer is made, the setting has no part in what it does. -/
theorem process_setting (allow : Bool) (input : Stream) :
    o.process { s with allowUnregistered := allow } input = o.process s input := by
  have hinput : ∀ p text, o.processInput { s with allowUnregistered := allow } p text =
      o.processInput s p text := by
    intro p text
    cases text with
    | error reason => rfl
    | ok source =>
      show o.processSource _ p source = o.processSource s p source
      unfold processSource
      rw [processChunks_setting]
      rfl
  have hplan : o.plan { s with allowUnregistered := allow } = o.plan s := rfl
  cases hp : o.plan s with
  | error e => rw [process_of_plan_error hp, process_of_plan_error (hplan.trans hp)]
  | ok p => rw [process_of_plan hp, process_of_plan (hplan.trans hp), hinput]

/-- What the standard optimizer makes of an input, by whether unregistered dialects are
allowed; all other settings are given. -/
def processUnder (allow : Bool) (s : Settings) (input : Stream) : Taking Report :=
  (standard allow).process { s with allowUnregistered := allow } input

/-- Allowing unregistered dialects only adds results, for every settings and input: what is a
result without is the same result with, and an error that does not blame an operation for its
dialect is the same error. If no operation is blamed, all is the same: what is told on the way
as well, and how much is taken from the input. -/
theorem process_allowing (s : Settings) (input : Stream) :
    (∀ t, (processUnder false s input).1.result = .ok t →
      (processUnder true s input).1.result = .ok t) ∧
    (∀ e, (processUnder false s input).1.result = .error e → ¬ e.BlamesOperation →
      (processUnder true s input).1.result = .error e) ∧
    (¬ (processUnder false s input).1.BlamesOperation →
      processUnder true s input = processUnder false s input) := by
  have hsame : ¬ (processUnder false s input).1.BlamesOperation →
      processUnder true s input = processUnder false s input := by
    intro hnot
    unfold processUnder at hnot ⊢
    rw [process_setting false] at hnot
    rw [process_setting true, process_setting false, ← allowing_standard]
    exact (process_allowing_of_standard (passes_standard false) input).resolve_left hnot
  refine ⟨fun t ht => ?_, fun e he hnot => ?_, hsame⟩
  · have hnot : ¬ (processUnder false s input).1.BlamesOperation := by
      rintro ⟨e, he, _⟩
      cases ht.symm.trans he
    rw [hsame hnot, ht]
  · have hnot' : ¬ (processUnder false s input).1.BlamesOperation := by
      rintro ⟨e', he', hblames⟩
      cases he.symm.trans he'
      exact hnot hblames
    rw [hsame hnot', he]

/-! ## Where they are allowed -/

/-- Where unregistered dialects are allowed nothing that is read is refused for its dialects.
-/
theorem load_allowing_ne_invalid (frontend : Frontend) (c : Context) (source : String)
    (e : DialectError) : frontend.load c.allowing source ≠ .error (.invalid e) := by
  unfold Frontend.load
  cases frontend source with
  | error e' => exact nofun
  | ok m =>
    dsimp only
    rw [c.validate_allowing]
    exact nofun

theorem not_blamesOperation_processChunk (o : Optimizer) (s : Settings) (p : Plan)
    (chunk : Chunk) : ¬ (o.allowing.processChunk s p chunk).BlamesOperation := by
  rintro ⟨_, he, name, rfl⟩
  obtain ⟨e, hload, hdown⟩ := except_mapError_eq_error.mp (processModule_eq_frontend_iff.mp he)
  -- moving an error to its place in the input makes no other kind of it
  cases e with
  | invalid e => exact load_allowing_ne_invalid p.frontend o.context _ e hload
  | unknownFrontend tag => cases hdown
  | unreadable reason => cases hdown
  | badSource e => cases hdown

/-- What is taken from an input blames no operation, split or not. -/
theorem not_blamesOperation_processInput (o : Optimizer) (s : Settings) (p : Plan)
    (text : Except String String) : ¬ (o.allowing.processInput s p text).BlamesOperation := by
  rintro ⟨e, he, hblames⟩
  cases text with
  | error reason =>
    obtain ⟨name, rfl⟩ := hblames
    rw [processInput_error] at he
    dsimp only at he
    split at he
    · cases he
    · cases he
  | ok source =>
    have hsource : (o.allowing.processSource s p source).result = .error e := he
    rw [processSource_eq, processChunks_result, except_map_eq_error] at hsource
    obtain ⟨_, chunk, _, _, _, hchunk⟩ := exists_of_mapM_eq_error hsource
    exact not_blamesOperation_processChunk o s p chunk ⟨e, hchunk, hblames⟩

/-- Where unregistered dialects are allowed no operation is blamed for its dialect, by no
optimizer and for no settings and input. -/
theorem not_blamesOperation_process (o : Optimizer) (s : Settings) (input : Stream) :
    ¬ (o.allowing.process s input).1.BlamesOperation := by
  cases hplan : o.allowing.plan s with
  | error e =>
    rw [process_of_plan_error hplan]
    rintro ⟨_, he, name, rfl⟩
    cases he
    rcases exists_of_plan_eq_error hplan with ⟨tag, h⟩ | ⟨pass, h⟩
    · cases h
    · cases h
  | ok p =>
    rw [process_of_plan hplan]
    exact not_blamesOperation_processInput o s p input.text

/-- So an operation that is blamed is so for want of the setting. -/
theorem not_blamesOperation_processUnder (s : Settings) (input : Stream) :
    ¬ (processUnder true s input).1.BlamesOperation := by
  unfold processUnder
  rw [← allowing_standard]
  exact not_blamesOperation_process _ _ input

/-- An operation of a dialect that nobody has registered. -/
example :
    (processUnder false {} (.ofText "a.b")).1.result =
      .error (.frontend (.invalid (.unknownOperation "a.b"))) ∧
    (processUnder true {} (.ofText "a.b")).1.result = .ok "module \x7b\n  a.b\n\x7d\n" := by
  constructor
  · exact eq_error_of_error? (by decide +kernel)
  · exact eq_ok_of_toOption (by decide +kernel)

end Optimizer

end IrOptimizer
