import IrOptimizer.Module

/-!
# Names and nesting in trees of operations

Two things are asked of trees of operations time and again: what holds of every
operation or every name in them, and how deep they go. Both are given for lists of
operations, along which the inductions go, and have one equation for the list in
front of which an operation stands.
-/

namespace IrOptimizer

/-- What holds of every operation in a list, at every depth, holds of the first one, inside it
and of the others. -/
theorem forall_mem_preorderList_cons {P : Operation → Prop} {op : Operation}
    {ops : List Operation} :
    (∀ x ∈ Operation.preorderList (op :: ops), P x) ↔
      P op ∧ (∀ x ∈ Operation.preorderList op.region, P x) ∧
        ∀ x ∈ Operation.preorderList ops, P x := by
  rw [Operation.preorderList, Operation.preorder_eq, List.cons_append, List.forall_mem_cons,
    List.forall_mem_append]

/-! ## Names -/

/-- Something holds of the name of every operation, at every depth. -/
def EveryName (P : String → Prop) (ops : List Operation) : Prop :=
  ∀ op ∈ Operation.preorderList ops, P op.name

section

variable {P : String → Prop}

theorem everyName_nil : EveryName P [] := by
  intro op hop
  cases hop

/-- A property of all names is one of the first operation, of those inside it and of those
behind it. -/
theorem everyName_cons {op : Operation} {ops : List Operation} :
    EveryName P (op :: ops) ↔ P op.name ∧ EveryName P op.region ∧ EveryName P ops :=
  forall_mem_preorderList_cons

/-- A property of all names is one of every operation at the top. -/
theorem everyName_of_mem {ops : List Operation} (h : EveryName P ops) {op : Operation}
    (hop : op ∈ ops) : P op.name := by
  have hself : op ∈ op.preorder := by
    rw [Operation.preorder_eq]
    exact List.mem_cons_self ..
  refine h op ?_
  rw [Operation.preorderList_eq_flatMap]
  exact List.mem_flatMap.mpr ⟨op, hop, hself⟩

end

/-! ## Nesting -/

mutual

/-- How many regions that are not empty lie inside one another in an operation. -/
def Operation.nesting : Operation → Nat
  | ⟨_, _, region⟩ => if region.isEmpty then 0 else nestingList region + 1

/-- The deepest nesting of several operations. -/
def nestingList : List Operation → Nat
  | [] => 0
  | op :: ops => max op.nesting (nestingList ops)

end

/-- How many regions that are not empty lie inside one another in a module. -/
def Module.nesting (m : Module) : Nat := nestingList m.ops

/-- An operation without a region is not nested. -/
@[simp] theorem Operation.nesting_leaf (name : String) (attributes : Attributes) :
    (Operation.mk name attributes []).nesting = 0 := by
  simp [Operation.nesting]

/-- A region that is not empty is one level more than what is in it. -/
theorem Operation.nesting_of_ne_nil {name : String} {attributes : Attributes}
    {region : List Operation} (h : region ≠ []) :
    (Operation.mk name attributes region).nesting = nestingList region + 1 := by
  have hregion : ¬ region.isEmpty = true := by simpa using h
  rw [Operation.nesting, if_neg hregion]

theorem Operation.nesting_le (name : String) (attributes : Attributes) (region : List Operation) :
    (Operation.mk name attributes region).nesting ≤ nestingList region + 1 := by
  by_cases h : region = []
  · rw [h, Operation.nesting_leaf]
    exact Nat.zero_le _
  · exact Nat.le_of_eq (Operation.nesting_of_ne_nil h)

end IrOptimizer
