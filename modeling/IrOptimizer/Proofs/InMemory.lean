import IrOptimizer.Proofs.Optimizer

/-!
# Optimizing a text in memory

`optimizeSource` and `process` resolve the same two things, the frontend and the
pipeline, but not in the same order. If one of the two resolves, the order is of no
importance and both come to the same, whatever happens to the text afterwards. If
neither does, each complains about the one it asks for first. So they agree exactly if
the frontend or the pipeline resolves (`optimizeSource_eq_iff`).
-/

namespace IrOptimizer

/-- What the standard optimizer makes of a text if it is given a tag, passes and a target,
all other settings being at their defaults. -/
def processInMemory (tag source : String) (passes : List String) (target : Target) :
    Except OptimizerError String :=
  ((Optimizer.standard false).process { frontend := some tag, passes := passes, target := target }
    (.ofText source)).1.result

variable {tag : String} {passes : List String} {frontend : Frontend} {pipeline : Pipeline}
  {e : FrontendError} {e' : PipelineError}

/-! ## In memory -/

/-- In memory, passes that are unknown are told whatever the tag is. -/
theorem optimizeSource_of_build_error
    (hpasses : Pipeline.build (Optimizer.standard false).passes passes = .error e')
    (tag source : String) (target : Target) :
    optimizeSource tag source passes target = .error (.pipeline e') := by
  rw [optimizeSource, hpasses]
  rfl

/-- In memory, an unknown tag is told only if all passes are known. -/
theorem optimizeSource_of_resolve_error
    (hpasses : Pipeline.build (Optimizer.standard false).passes passes = .ok pipeline)
    (htag : (Optimizer.standard false).frontends.resolve tag = .error e) (source : String)
    (target : Target) : optimizeSource tag source passes target = .error (.frontend e) := by
  rw [optimizeSource, hpasses, FrontendRegistry.parse, htag]
  rfl

/-- With all known, the source is read and worked on with that plan. -/
theorem optimizeSource_of_ok
    (hpasses : Pipeline.build (Optimizer.standard false).passes passes = .ok pipeline)
    (htag : (Optimizer.standard false).frontends.resolve tag = .ok frontend) (source : String)
    (target : Target) :
    optimizeSource tag source passes target =
      ((Optimizer.standard false).processModule { target := target } ⟨frontend, pipeline⟩
        (frontend.load (Optimizer.standard false).context source)).result := by
  rw [optimizeSource, hpasses, FrontendRegistry.parse, htag]
  dsimp only [Except.mapError, bind, Except.bind]
  cases frontend.load (Optimizer.standard false).context source with
  | error e => rfl
  | ok m => rfl

/-! ## With settings -/

/-- On a stream, an unknown tag is told whatever the passes are. -/
theorem processInMemory_of_resolve_error
    (htag : (Optimizer.standard false).frontends.resolve tag = .error e) (source : String)
    (passes : List String) (target : Target) :
    processInMemory tag source passes target = .error (.frontend e) := by
  rw [processInMemory, Optimizer.process_of_plan_error (Optimizer.plan_of_resolve_error htag)]

/-- On a stream, unknown passes are told only if the tag is known. -/
theorem processInMemory_of_build_error
    (htag : (Optimizer.standard false).frontends.resolve tag = .ok frontend)
    (hpasses : Pipeline.build (Optimizer.standard false).passes passes = .error e')
    (source : String) (target : Target) :
    processInMemory tag source passes target = .error (.pipeline e') := by
  rw [processInMemory, Optimizer.process_of_plan_error (Optimizer.plan_of_build_error htag hpasses)]

theorem processInMemory_of_ok
    (htag : (Optimizer.standard false).frontends.resolve tag = .ok frontend)
    (hpasses : Pipeline.build (Optimizer.standard false).passes passes = .ok pipeline)
    (source : String) (target : Target) :
    processInMemory tag source passes target =
      ((Optimizer.standard false).processModule { target := target } ⟨frontend, pipeline⟩
        (frontend.load (Optimizer.standard false).context source)).result := by
  have hplan : (Optimizer.standard false).plan
      { frontend := some tag, passes := passes, target := target } = .ok ⟨frontend, pipeline⟩ :=
    Optimizer.plan_eq_ok_iff.mpr ⟨htag, hpasses⟩
  rw [processInMemory, Optimizer.process_of_text hplan (Stream.text_ofText source)]
  rfl

/-! ## Both -/

/-- The two agree, on a text as well as on an error, exactly if the tag or the passes
resolve. Otherwise `optimizeSource` blames the passes and `process` the tag. This holds
for every tag, source text, list of requests and target. -/
theorem optimizeSource_eq_iff (tag source : String) (passes : List String) (target : Target) :
    (optimizeSource tag source passes target = processInMemory tag source passes target ↔
      (∃ frontend, FrontendRegistry.standard.resolve tag = .ok frontend) ∨
        ∃ pipeline, Pipeline.build .standard passes = .ok pipeline) ∧
    ∀ e e', FrontendRegistry.standard.resolve tag = .error e →
      Pipeline.build .standard passes = .error e' →
        optimizeSource tag source passes target = .error (.pipeline e') ∧
          processInMemory tag source passes target = .error (.frontend e) := by
  rw [← Optimizer.frontends_standard false, ← Optimizer.passes_standard false]
  cases htag : (Optimizer.standard false).frontends.resolve tag with
  | ok frontend =>
    refine ⟨⟨fun _ => .inl ⟨frontend, rfl⟩, fun _ => ?_⟩, fun _ _ h => nomatch h⟩
    cases hpasses : Pipeline.build (Optimizer.standard false).passes passes with
    | ok pipeline =>
      rw [optimizeSource_of_ok hpasses htag, processInMemory_of_ok htag hpasses]
    | error e' =>
      rw [optimizeSource_of_build_error hpasses, processInMemory_of_build_error htag hpasses]
  | error e =>
    have hdriver := processInMemory_of_resolve_error htag source passes target
    cases hpasses : Pipeline.build (Optimizer.standard false).passes passes with
    | ok pipeline =>
      refine ⟨⟨fun _ => .inr ⟨pipeline, rfl⟩, fun _ => ?_⟩, fun _ _ _ h => nomatch h⟩
      rw [optimizeSource_of_resolve_error hpasses htag, hdriver]
    | error e' =>
      have hmemory := optimizeSource_of_build_error hpasses tag source target
      refine ⟨⟨fun h => ?_, ?_⟩, ?_⟩
      · rw [hmemory, hdriver] at h
        cases h
      · rintro (⟨_, h⟩ | ⟨_, h⟩) <;> cases h
      · rintro _ _ ⟨⟩ ⟨⟩
        exact ⟨hmemory, hdriver⟩

/-- They do not agree always: here neither the tag nor the pass is known. -/
theorem optimizeSource_ne_processInMemory :
    optimizeSource "cobol" "" ["bogus"] .ir = .error (.pipeline (.unknownPass "bogus")) ∧
      processInMemory "cobol" "" ["bogus"] .ir = .error (.frontend (.unknownFrontend "cobol")) ∧
      optimizeSource "cobol" "" ["bogus"] .ir ≠ processInMemory "cobol" "" ["bogus"] .ir := by
  have hpasses : Pipeline.build (Optimizer.standard false).passes ["bogus"] =
      .error (.unknownPass "bogus") := by
    rw [Optimizer.passes_standard, PassRegistry.standard_eq]
    rfl
  have hmemory := optimizeSource_of_build_error hpasses "cobol" "" .ir
  have hdriver : processInMemory "cobol" "" ["bogus"] .ir =
      .error (.frontend (.unknownFrontend "cobol")) :=
    processInMemory_of_resolve_error rfl "" ["bogus"] .ir
  refine ⟨hmemory, hdriver, ?_⟩
  rw [hmemory, hdriver]
  nofun

end IrOptimizer
