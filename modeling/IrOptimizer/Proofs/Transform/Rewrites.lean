import IrOptimizer.Proofs.Operation
import IrOptimizer.Transform.Standard

/-!
# What the standard passes can do to a tree

Whatever a standard pass does to operations is one of three things: it keeps an
operation and may change its attributes and what is inside it, it drops the
operation, or it puts a literal in the place of one that has literals inside.
`Rewrites` says so of two lists of operations, and holds before and after each of
the passes, whether it succeeds or gives up in the middle
(`rewrites_of_mem_standard`). What is to be known of all passes follows from it: no
name comes in that was not there, and no tree gets deeper.
-/

namespace IrOptimizer

/-- From a list of operations to what passes may make of it. -/
inductive Rewrites : List Operation → List Operation → Prop where
  | nil : Rewrites [] []
  | keep {name attributes attributes' region region' ops ops'} : Rewrites region region' →
      Rewrites ops ops' →
      Rewrites (⟨name, attributes, region⟩ :: ops) (⟨name, attributes', region'⟩ :: ops')
  | drop {op ops ops'} : Rewrites ops ops' → Rewrites (op :: ops) ops'
  | replace {op n ops ops'} : (∃ inner ∈ Operation.preorderList op.region,
      inner.name = Toy.literalName) → Rewrites ops ops' →
      Rewrites (op :: ops) (Toy.literal n :: ops')

namespace Rewrites

/-! ## What holds of every rewriting -/

/-- No name comes in that was not there. -/
theorem everyName {P : String → Prop} {ops ops' : List Operation} (h : Rewrites ops ops')
    (hops : EveryName P ops) : EveryName P ops' := by
  induction h with
  | nil => exact hops
  | keep _ _ ihregion ih =>
    obtain ⟨hname, hregion, hops⟩ := everyName_cons.mp hops
    exact everyName_cons.mpr ⟨hname, ihregion hregion, ih hops⟩
  | drop _ ih =>
    obtain ⟨_, _, hops⟩ := everyName_cons.mp hops
    exact ih hops
  | replace hinner _ ih =>
    obtain ⟨_, hregion, hops⟩ := everyName_cons.mp hops
    -- the name of the literal was the name of an operation inside
    obtain ⟨inner, hmem, hname⟩ := hinner
    have hliteral : P Toy.literalName := hname ▸ hregion inner hmem
    exact everyName_cons.mpr ⟨hliteral, everyName_nil, ih hops⟩

theorem eq_nil {ops : List Operation} (h : Rewrites [] ops) : ops = [] := by
  cases h
  rfl

/-- No tree gets deeper. -/
theorem nestingList_le {ops ops' : List Operation} (h : Rewrites ops ops') :
    nestingList ops' ≤ nestingList ops := by
  induction h with
  | nil => exact Nat.le_refl _
  | @keep name attributes attributes' region region' ops ops' hregion _ ihregion ih =>
    have hop : (Operation.mk name attributes' region').nesting ≤
        (Operation.mk name attributes region).nesting := by
      -- a region may have become empty, but not the other way round
      by_cases hregion' : region' = []
      · rw [hregion', Operation.nesting_leaf]
        omega
      · have hne : region ≠ [] := by
          rintro rfl
          exact hregion' hregion.eq_nil
        rw [Operation.nesting_of_ne_nil hregion', Operation.nesting_of_ne_nil hne]
        omega
    rw [nestingList, nestingList]
    omega
  | drop _ ih =>
    rw [nestingList]
    omega
  | @replace op n ops ops' _ _ ih =>
    have hliteral : (Toy.literal n).nesting = 0 := Operation.nesting_leaf ..
    rw [nestingList, nestingList, hliteral]
    omega

end Rewrites

/-! ## The passes -/

/-- To change nothing is to rewrite. -/
theorem rewrites_refl : ∀ ops : List Operation, Rewrites ops ops
  | [] => .nil
  | ⟨_, _, region⟩ :: ops => .keep (rewrites_refl region) (rewrites_refl ops)

/-- To change attributes is to rewrite. -/
theorem rewrites_mapAttributesList (f : Attributes → Attributes) :
    ∀ ops : List Operation, Rewrites ops (Operation.mapAttributesList f ops)
  | [] => .nil
  | ⟨_, _, region⟩ :: ops =>
    .keep (rewrites_mapAttributesList f region) (rewrites_mapAttributesList f ops)

/-- Edits that keep names, also where they stop half-way. -/
theorem rewrites_editHeads {ε : Type} {step : Operation.Head → Except ε Operation.Head}
    (hstep : ∀ head head', step head = .ok head' → head'.name = head.name) :
    ∀ ops : List Operation, Rewrites ops (Operation.editHeads step ops).1
  | [] => .nil
  | ⟨name, attributes, region⟩ :: ops => by
    have hregion := rewrites_editHeads hstep region
    have hops := rewrites_editHeads hstep ops
    rw [Operation.editHeads, Operation.editHead]
    cases h : step ⟨name, attributes⟩ with
    | error e => exact rewrites_refl _ -- the edit stops here and all the rest stays
    | ok head =>
      obtain rfl : head.name = name := hstep _ _ h
      rcases hedit : Operation.editHeads step region with ⟨region', outcome⟩
      rw [hedit] at hregion
      cases outcome with
      | error e => exact .keep hregion (rewrites_refl ops)
      | ok u => exact .keep hregion hops

/-- What folds to a number has a literal for its first operand. -/
theorem exists_literal_of_foldedValue? {name : String} {region : List Operation} {n : Int64}
    (h : foldedValue? name region = some n) :
    ∃ operand ∈ region, operand.name = Toy.literalName := by
  obtain ⟨combine, _, h⟩ := Option.bind_eq_some_iff.mp h
  obtain ⟨ns, hns, hn⟩ := Option.bind_eq_some_iff.mp h
  cases region with
  | nil =>
    cases hns
    cases hn
  | cons operand operands =>
    rw [List.mapM_cons] at hns
    obtain ⟨k, hk, _⟩ := Option.bind_eq_some_iff.mp hns
    refine ⟨operand, List.mem_cons_self .., ?_⟩
    unfold literalValue? at hk
    split at hk
    · next hliteral => exact hliteral.1
    · cases hk

/-- Folding rewrites. -/
theorem rewrites_foldList : ∀ ops : List Operation, Rewrites ops (foldList ops)
  | [] => .nil
  | ⟨name, attributes, region⟩ :: ops => by
    have hops := rewrites_foldList ops
    have hregion := rewrites_foldList region
    rw [foldList, Operation.fold]
    cases hfolded : foldedValue? name (foldList region) with
    | none => exact .keep hregion hops
    | some n =>
      refine .replace ?_ hops
      -- the first operand is a literal after folding, so a literal was there before
      obtain ⟨operand, hmem, hname⟩ := exists_literal_of_foldedValue? hfolded
      have hnot : ¬ EveryName (· ≠ Toy.literalName) region := by
        intro h
        exact (everyName_of_mem (hregion.everyName h) hmem) hname
      simpa [EveryName] using hnot

/-- Sweeping rewrites. -/
theorem rewrites_sweepList : ∀ ops : List Operation, Rewrites ops (sweepList ops)
  | [] => .nil
  | ⟨name, attributes, region⟩ :: ops => by
    have hops := rewrites_sweepList ops
    have hregion := rewrites_sweepList region
    rw [sweepList, Operation.sweep]
    split
    · exact .drop hops
    · exact .keep hregion hops

/-- Doubling keeps names. -/
theorem name_of_doubleHead (head head' : Operation.Head) (h : doubleHead head = .ok head') :
    head'.name = head.name := by
  unfold doubleHead at h
  split at h
  · split at h
    · cases h
    · split at h
      · cases h
      · cases h
        rfl
  · cases h
    rfl

/-- A standard pass rewrites the operations of a module, also if it fails. -/
theorem rewrites_of_mem_standard {pass : Pass} (h : pass ∈ Pass.natives ++ Pass.integrated)
    (context : Context) (m : Module) : Rewrites m.ops (pass.run context m).1.ops := by
  simp only [Pass.natives, Pass.integrated, List.cons_append, List.nil_append, List.mem_cons,
    List.not_mem_nil, or_false] at h
  rcases h with rfl | rfl | rfl | rfl | rfl | rfl
  · exact rewrites_refl m.ops
  · exact rewrites_mapAttributesList _ m.ops
  · exact rewrites_refl m.ops
  · exact rewrites_editHeads name_of_doubleHead m.ops
  · exact rewrites_foldList m.ops
  · exact rewrites_sweepList m.ops

end IrOptimizer
