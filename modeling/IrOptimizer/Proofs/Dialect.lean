import IrOptimizer.Dialect
import IrOptimizer.Proofs.Operation

/-!
# Validity is a property of names

A module is valid if the context admits the names of all its operations; otherwise the check
blames the first operation, in pre-order, that the context does not admit.
-/

namespace IrOptimizer.Context

/-- A context admits operations of that name. -/
def Admits (c : Context) (name : String) : Prop :=
  c.allowsUnregistered = true ∨ c.dialects.isLegal name = true

/-- A module is valid exactly if the context admits the names of all its operations. -/
theorem validate_eq_ok_iff {c : Context} {m : Module} :
    c.validate m = .ok () ↔ EveryName c.Admits m.ops := by
  unfold validate
  split
  · next hallow => exact ⟨fun _ op _ => .inl hallow, fun _ => rfl⟩
  · next hallow =>
    split
    · next op hfind =>
      refine ⟨nofun, fun h => ?_⟩
      have hillegal : c.dialects.isLegal op.name = false := by simpa using List.find?_some hfind
      rcases h op (List.mem_of_find?_eq_some hfind) with hlegal | hlegal
      · exact absurd hlegal hallow
      · rw [hillegal] at hlegal
        cases hlegal
    · next hfind =>
      refine ⟨fun _ op hop => .inr ?_, fun _ => rfl⟩
      simpa using List.find?_eq_none.mp hfind op hop

/-- In a context that allows no others, the first operation of a module, in pre-order, that
belongs to no registered dialect. -/
def FirstIllegal (c : Context) (m : Module) (op : Operation) : Prop :=
  c.allowsUnregistered = false ∧
    ∃ before later, m.preorder = before ++ op :: later ∧
      (∀ earlier ∈ before, c.dialects.isLegal earlier.name = true) ∧
      c.dialects.isLegal op.name = false

/-- The check blames the first operation that is not legal. -/
theorem validate_eq_error_iff {c : Context} {m : Module} {e : DialectError} :
    c.validate m = .error e ↔ ∃ op, c.FirstIllegal m op ∧ e = .unknownOperation op.name := by
  unfold validate FirstIllegal
  cases c.allowsUnregistered with
  | true =>
    rw [if_pos rfl]
    exact ⟨nofun, fun ⟨_, ⟨hallow, _⟩, _⟩ => nomatch hallow⟩
  | false =>
    rw [if_neg Bool.false_ne_true]
    have hfind : ∀ op, m.preorder.find? (fun op => !c.dialects.isLegal op.name) = some op ↔
        ∃ before later, m.preorder = before ++ op :: later ∧
          (∀ earlier ∈ before, c.dialects.isLegal earlier.name = true) ∧
          c.dialects.isLegal op.name = false := by
      intro op
      rw [List.find?_eq_some_iff_append]
      simp only [Bool.not_eq_true', Bool.not_not]
      constructor
      · rintro ⟨hillegal, before, later, hops, hbefore⟩
        exact ⟨before, later, hops, hbefore, hillegal⟩
      · rintro ⟨before, later, hops, hbefore, hillegal⟩
        exact ⟨hillegal, before, later, hops, hbefore⟩
    constructor
    · intro h
      split at h
      · next op hsome => exact ⟨op, ⟨rfl, (hfind op).mp hsome⟩, (Except.error.inj h).symm⟩
      · cases h
    · rintro ⟨op, ⟨_, hfirst⟩, rfl⟩
      rw [(hfind op).mpr hfirst]

end IrOptimizer.Context
