import IrOptimizer.Proofs.Dialect
import IrOptimizer.Proofs.Pass.Execution
import IrOptimizer.Proofs.Pass.Pipeline
import IrOptimizer.Proofs.Transform.Rewrites

/-!
# Standard pipelines keep modules valid

Validity is a property of names, and a rewriting brings in no new ones, so each standard
pass leaves a valid module valid: in every context, and also where it gives up in the
middle (`validate_leaves`). On valid modules the one standard pass that can fail is the
doubling of literals (`name_of_fails`), and verification never finds anything
(`executeFrom_verify`). `standard_pipeline_keeps_valid` says what that means for a run.
-/

namespace IrOptimizer

/-! ## The standard registry -/

namespace PassRegistry

theorem standard_eq : standard =
    ⟨[⟨"nop", .native, .nop⟩, ⟨"strip-location", .native, .stripLocation⟩,
      ⟨"verify", .native, .verify⟩, ⟨"double-literal", .integrated, .doubleLiteral⟩,
      ⟨"fold-constants", .integrated, .foldConstants⟩,
      ⟨"dead-code", .integrated, .deadCode⟩], _, indexes_ofList (by decide)⟩ :=
  ext_entries rfl

/-- What a stage of the standard registry leaves is a rewriting, also if its pass fails. -/
theorem rewrites_leaves {stage : RegisteredPass} (h : stage ∈ standard.entries)
    (context : Context) (m : Module) : Rewrites m.ops (stage.leaves context m).ops := by
  refine rewrites_of_mem_standard ?_ context m
  have hpass : stage.pass ∈ standard.entries.map (·.pass) := List.mem_map.mpr ⟨stage, h, rfl⟩
  rw [standard_eq] at hpass
  exact hpass

end PassRegistry

/-! ## One standard pass on a valid module -/

section

variable {context : Context} {m : Module} {stage : RegisteredPass}

/-- A valid module stays valid, also if the pass fails. -/
theorem validate_leaves (hstage : stage ∈ PassRegistry.standard.entries)
    (hm : context.validate m = .ok ()) : context.validate (stage.leaves context m) = .ok () := by
  rw [Context.validate_eq_ok_iff] at hm ⊢
  exact (PassRegistry.rewrites_leaves hstage context m).everyName hm

/-- The check finds nothing, so the only pass that fails is the doubling of literals. -/
theorem name_of_fails (hstage : stage ∈ PassRegistry.standard.entries)
    (hm : context.validate m = .ok ()) {cause : PassError}
    (hfails : (stage.pass.run context m).2 = .error cause) : stage.name = "double-literal" := by
  rw [PassRegistry.standard_eq] at hstage
  simp only [List.mem_cons, List.not_mem_nil, or_false] at hstage
  rcases hstage with rfl | rfl | rfl | rfl | rfl | rfl
  · cases hfails
  · cases hfails
  · have hcheck : (context.validate m).mapError PassError.invalid = .error cause := hfails
    rw [hm] at hcheck
    cases hcheck
  · rfl
  · cases hfails
  · cases hfails

end

/-! ## Runs -/

namespace Pipeline

variable {context : Context} {m : Module}

/-- Verification makes no difference where every pass keeps modules valid. -/
theorem executeFrom_verify {stages : List RegisteredPass}
    (hkeeps : ∀ stage ∈ stages, ∀ m, context.validate m = .ok () →
      context.validate (stage.leaves context m) = .ok ())
    (hm : context.validate m = .ok ()) (index : Nat) :
    executeFrom context true index stages m = executeFrom context false index stages m := by
  induction stages generalizing index m with
  | nil => rfl
  | cons stage stages ih =>
    obtain ⟨hfirst, hlater⟩ := List.forall_mem_cons.mp hkeeps
    have hleaves := hfirst m hm
    rcases stage.passes_or_stops context false index m with hpasses | ⟨e, hstops⟩
    · have hverified : stage.Passes context true m := ⟨hpasses.succeeds, fun _ => hleaves⟩
      rw [executeFrom_of_passes hpasses, executeFrom_of_passes hverified, ih hlater hleaves]
    · cases hstops with
      | failed hfails =>
        rw [executeFrom_of_stops (.failed hfails), executeFrom_of_stops (.failed hfails)]
      | invalid _ hverify _ => cases hverify

/-- Where a standard pipeline stops on a valid module, it stops in the doubling of literals. -/
theorem StopsAt.eq_doubleLiteral {p : Pipeline} {verifyEach : Bool} {index : Nat}
    {e : PipelineError} (h : p.StopsAt context verifyEach m index e)
    (hstages : ∀ stage ∈ p.stages, stage ∈ PassRegistry.standard.entries)
    (hm : context.validate m = .ok ()) :
    ∃ cause, e = .passFailed "double-literal" index cause := by
  obtain ⟨_, stage, hstage, hstops⟩ := h
  have hmem := hstages stage (List.mem_of_getElem? hstage)
  have hgiven : context.validate (left context (p.stages.take index) m) = .ok () := by
    have hkeeps : ∀ earlier ∈ p.stages.take index, ∀ m, context.validate m = .ok () →
        context.validate (earlier.leaves context m) = .ok () :=
      fun earlier hearlier m => validate_leaves (hstages earlier (List.mem_of_mem_take hearlier))
    exact left_induction hkeeps hm
  cases hstops with
  | @failed cause hfails =>
    refine ⟨cause, ?_⟩
    rw [name_of_fails hmem hgiven hfails]
  | invalid _ _ hinvalid => cases (validate_leaves hmem hgiven).symm.trans hinvalid

/-- A pipeline of standard passes on a valid module, in any context. The module is valid
after any number of its passes, also if the last of them has failed, and so are the
snapshots. No verification and no check ever fails, and the run is the same with and
without verification. -/
theorem standard_pipeline_keeps_valid {requests : List String} {p : Pipeline}
    (hbuild : build .standard requests = .ok p) (hm : context.validate m = .ok ())
    (verifyEach : Bool) :
    let run := p.execute context verifyEach m
    context.validate run.module = .ok () ∧
    (∀ k, context.validate
      ((Pipeline.mk (p.stages.take k)).execute context verifyEach m).module = .ok ()) ∧
    (∀ shot ∈ run.snapshots, context.validate shot.module = .ok ()) ∧
    (∀ name index cause, run.result ≠ .error (.invalidAfter name index cause)) ∧
    (∀ index cause, run.result ≠ .error (.passFailed "verify" index cause)) ∧
    p.execute context (!verifyEach) m = run := by
  intro run
  have hstages := mem_entries_of_build hbuild
  have hkeeps : ∀ stage ∈ p.stages, ∀ m, context.validate m = .ok () →
      context.validate (stage.leaves context m) = .ok () :=
    fun stage hstage m => validate_leaves (hstages stage hstage)
  have herror : ∀ e, run.result = .error e →
      ∃ index cause, e = .passFailed "double-literal" index cause := by
    intro e he
    rcases allPass_or_stopsAt p context verifyEach m with hall | ⟨index, e', hstops⟩
    · rw [show run = _ from execute_of_allPass hall] at he
      cases he
    · rw [show run = _ from hstops.execute_self] at he
      cases he
      exact ⟨index, hstops.eq_doubleLiteral hstages hm⟩
  obtain ⟨hend, hshots⟩ : context.validate run.module = .ok () ∧
      ∀ shot ∈ run.snapshots, context.validate shot.module = .ok () :=
    execute_induction hkeeps hm
  refine ⟨hend, fun k => ?_, hshots, fun name index cause he => ?_, fun index cause he => ?_, ?_⟩
  · have hfewer : ∀ stage ∈ (Pipeline.mk (p.stages.take k)).stages, ∀ m,
        context.validate m = .ok () → context.validate (stage.leaves context m) = .ok () :=
      fun stage hstage => hkeeps stage (List.mem_of_mem_take hstage)
    exact (execute_induction hfewer hm).1
  · obtain ⟨_, _, h⟩ := herror _ he
    cases h
  · obtain ⟨_, _, h⟩ := herror _ he
    injection h with hname
    exact absurd hname (by decide)
  · have hverify := executeFrom_verify hkeeps hm 0
    cases verifyEach with
    | false => exact hverify
    | true => exact hverify.symm

/-- In a context that knows sums and literals only, a sum is folded and its literal doubled,
and then the doubling of the second literal fails. The module is valid all the same. -/
theorem standard_pipeline_keeps_valid_overflow :
    let context : Context := ⟨⟨.ofList [("toy", .ofList "toy" ["lit", "add"])]⟩, false⟩
    let m : Module := ⟨none, [⟨Toy.addName, .empty, [Toy.literal 1, Toy.literal 2]⟩,
      Toy.literal 9223372036854775807]⟩
    ∃ p, build .standard ["fold-constants", "double-literal", "verify"] = .ok p ∧
      context.validate m = .ok () ∧
      (p.execute context false m).result =
        .error (.passFailed "double-literal" 1 (doublingOverflow 9223372036854775807)) ∧
      context.validate (p.execute context false m).module = .ok () ∧
      p.execute context true m = p.execute context false m := by
  intro context m
  have hbuild : build .standard ["fold-constants", "double-literal", "verify"] =
      .ok ⟨[⟨"fold-constants", .integrated, .foldConstants⟩,
        ⟨"double-literal", .integrated, .doubleLiteral⟩, ⟨"verify", .native, .verify⟩]⟩ := by
    rw [PassRegistry.standard_eq]
    rfl
  have hm : context.validate m = .ok () := rfl
  obtain ⟨hvalid, _, _, _, _, hverify⟩ := standard_pipeline_keeps_valid hbuild hm false
  exact ⟨_, hbuild, hm, rfl, hvalid, hverify⟩

end Pipeline

end IrOptimizer
