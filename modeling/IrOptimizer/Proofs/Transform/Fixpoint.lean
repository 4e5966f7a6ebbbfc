import IrOptimizer.Proofs.Transform.DeadCode
import IrOptimizer.Proofs.Transform.Standard
import IrOptimizer.Proofs.Transform.Unfolded

/-!
# Dead code first, then constants

After dead code elimination and constant folding, in this order, there is nothing left to do
for either: folding neither brings in dead code nor empties a block (`swept_foldList`), so the
result is swept as well as folded, and both passes leave it as it is. Then any pipeline of the
two does.

In the other order this does not hold: a sum with a nop among its operands cannot be folded,
and once the nop is gone it can.
-/

namespace IrOptimizer

/-- Folding does not bring in dead code. -/
theorem swept_foldList : ∀ {ops : List Operation}, Swept ops → Swept (foldList ops)
  | [], h => h
  | ⟨name, attributes, region⟩ :: ops, h => by
    obtain ⟨hlive, hregion, hops⟩ := swept_cons.mp h
    have hregion := swept_foldList hregion
    have hops := swept_foldList hops
    rw [foldList]
    cases hvalue : foldedValue? name (foldList region) with
    | none =>
      have hkept : (Operation.mk name attributes (foldList region)).isDead = false := by
        rw [← hlive, Operation.isDead, Operation.isDead, isEmpty_foldList]
      rw [fold_of_none hvalue]
      exact swept_cons.mpr ⟨hkept, hregion, hops⟩
    | some n =>
      rw [fold_of_some hvalue]
      exact swept_cons.mpr ⟨rfl, swept_nil, hops⟩

/-- Nothing is left to do, neither for dead code elimination nor for constant folding. -/
structure Module.Settled (m : Module) : Prop where
  swept : Swept m.ops
  folded : FoldedThrough m.ops

namespace Module

/-- Sweeping and then folding settles a module. -/
theorem settled_foldConstants_sweep (m : Module) : m.sweep.foldConstants.Settled :=
  ⟨swept_foldList (swept_sweepList m.ops), foldedThrough_foldList (sweepList m.ops)⟩

/-- A settled module has nothing to sweep. -/
theorem Settled.sweep_eq {m : Module} (h : m.Settled) : m.sweep = m := by
  rw [sweep, h.swept.sweepList_eq]

/-- A settled module has nothing to fold. -/
theorem Settled.foldConstants_eq {m : Module} (h : m.Settled) : m.foldConstants = m := by
  rw [foldConstants, h.folded.foldList_eq]

end Module

/-- Neither of the two passes changes a settled module. -/
theorem run_eq_of_settled {pass : Pass} (hpass : pass = .deadCode ∨ pass = .foldConstants)
    (context : Context) {m : Module} (hm : m.Settled) : pass.run context m = (m, .ok ()) := by
  rcases hpass with rfl | rfl
  · exact congrArg (·, _) hm.sweep_eq
  · exact congrArg (·, _) hm.foldConstants_eq

namespace Pipeline

variable {context : Context} {verifyEach : Bool} {m : Module}

/-- Passes that leave a module as it is come to their end on it, unless verification finds that
it is not valid. -/
theorem allPass_of_run_eq {stages : List RegisteredPass}
    (hstages : ∀ stage ∈ stages, stage.pass.run context m = (m, .ok ()))
    (hvalid : verifyEach = true → context.validate m = .ok ()) :
    AllPass context verifyEach stages m := by
  induction stages with
  | nil => exact allPass_nil
  | cons stage stages ih =>
    obtain ⟨hrun, hlater⟩ := List.forall_mem_cons.mp hstages
    have hleaves : stage.leaves context m = m := congrArg Prod.fst hrun
    rw [allPass_cons, hleaves]
    exact ⟨⟨congrArg Prod.snd hrun, hleaves.symm ▸ hvalid⟩, ih hlater⟩

/-- Passes that leave a module as it is make a pipeline that does. -/
theorem module_execute_of_run_eq {p : Pipeline}
    (hstages : ∀ stage ∈ p.stages, stage.pass.run context m = (m, .ok ())) :
    (p.execute context verifyEach m).module = m := by
  have hstep : ∀ stage ∈ p.stages, ∀ m', m' = m → stage.leaves context m' = m := by
    rintro stage hstage m' rfl
    exact congrArg Prod.fst (hstages stage hstage)
  exact (execute_induction hstep rfl).1

/-- What dead code elimination and then constant folding make of a module has no nops and no
empty blocks, at any depth. Both passes leave it as it is, and so does any pipeline of the two,
which comes to its end unless verification finds that the module is not valid. -/
theorem deadCode_foldConstants_settle (context : Context) (m : Module) {p : Pipeline}
    (hp : ∀ stage ∈ p.stages, stage.pass = .deadCode ∨ stage.pass = .foldConstants)
    (verifyEach : Bool) :
    let swept := (Pass.deadCode.run context m).1
    let r := (Pass.foldConstants.run context swept).1
    (∀ op ∈ r.preorder, op.name ≠ Toy.nopName ∧ (op.name = Toy.blockName → op.region ≠ [])) ∧
    Pass.deadCode.run context r = (r, .ok ()) ∧
    Pass.foldConstants.run context r = (r, .ok ()) ∧
    (p.execute context verifyEach r).module = r ∧
    ((verifyEach = true → context.validate r = .ok ()) →
      (p.execute context verifyEach r).result = .ok ()) := by
  intro swept r
  have hr : r.Settled := m.settled_foldConstants_sweep
  have hruns : ∀ stage ∈ p.stages, stage.pass.run context r = (r, .ok ()) :=
    fun stage hstage => run_eq_of_settled (hp stage hstage) context hr
  refine ⟨fun op hop => ?_, run_eq_of_settled (.inl rfl) context hr,
    run_eq_of_settled (.inr rfl) context hr, module_execute_of_run_eq hruns, fun hvalid => ?_⟩
  · exact Operation.isDead_eq_false_iff.mp (hr.swept op hop)
  · rw [execute_of_allPass (allPass_of_run_eq hruns hvalid)]

/-- A sum of two literals with a nop and an emptied block between them becomes a literal. -/
theorem deadCode_foldConstants_settle_sum :
    let m : Module := ⟨none, [⟨Toy.addName, .empty, [Toy.literal 1, .ofName Toy.nopName,
      ⟨Toy.blockName, .empty, [.ofName Toy.nopName]⟩, Toy.literal 2]⟩]⟩
    let r : Module := ⟨none, [Toy.literal 3]⟩
    let p : Pipeline := ⟨[⟨"fold-constants", .integrated, .foldConstants⟩,
      ⟨"dead-code", .integrated, .deadCode⟩]⟩
    (∀ stage ∈ p.stages, stage.pass = .deadCode ∨ stage.pass = .foldConstants) ∧
      m.sweep.foldConstants = r ∧ (p.execute ⟨.empty, false⟩ false r).module = r := by
  intro m r p
  have hp : ∀ stage ∈ p.stages, stage.pass = .deadCode ∨ stage.pass = .foldConstants := by
    intro stage hstage
    simp only [p, List.mem_cons, List.not_mem_nil, or_false] at hstage
    rcases hstage with rfl | rfl
    · exact .inr rfl
    · exact .inl rfl
  have hr : m.sweep.foldConstants = r := rfl
  obtain ⟨_, _, _, hmodule, _⟩ := deadCode_foldConstants_settle ⟨.empty, false⟩ m hp false
  exact ⟨hp, hr, hmodule⟩

/-- In the other order folding is not done: the nop among the operands goes too late. -/
example :
    let m : Module := ⟨none, [⟨Toy.addName, .empty, [Toy.literal 1, .ofName Toy.nopName]⟩]⟩
    m.foldConstants.sweep.foldConstants ≠ m.foldConstants.sweep := by
  decide

end Pipeline

end IrOptimizer
