import IrOptimizer.Proofs.Nodes
import IrOptimizer.Proofs.Operation
import IrOptimizer.Transform.DeadCode

/-!
# What dead code elimination takes away

The pass removes nops and emptied blocks, which are filler. All else in a module is its
content (`contentOf`). A nop is removed with everything inside it, whatever that is, so
content inside a nop is lost; outside of nops none is (`contentOf_sweepList`).
`deadCode_keeps_content` says so of the pass, and also when nothing at all is lost: if nops
have only filler inside.

What the sweep leaves is swept: nothing in it is dead, at any depth (`swept_sweepList`), and
what is swept stays as it is under another sweep (`Swept.sweepList_eq`).
-/

namespace IrOptimizer

open Operation (Head preorderList)

/-! ## Content -/

/-- The head of a nop or of a block. -/
def Operation.Head.isFiller (head : Head) : Bool :=
  head.name = Toy.nopName || head.name = Toy.blockName

/-- The heads of operations that are not filler. -/
def contentOf (ops : List Operation) : List Head :=
  (ops.map Operation.head).filter fun head => !head.isFiller

/-- Content is that of the first operations, then that of the others. -/
theorem contentOf_append (ops ops' : List Operation) :
    contentOf (ops ++ ops') = contentOf ops ++ contentOf ops' := by
  rw [contentOf, List.map_append, List.filter_append]
  rfl

theorem contentOf_cons (op : Operation) (ops : List Operation) :
    contentOf (op :: ops) = contentOf [op] ++ contentOf ops :=
  contentOf_append [op] ops

/-- The content of a tree is that of its root, then that inside it, then that behind it. -/
theorem contentOf_preorderList_cons (op : Operation) (ops : List Operation) :
    contentOf (preorderList (op :: ops)) =
      contentOf [op] ++ (contentOf (preorderList op.region) ++ contentOf (preorderList ops)) := by
  rw [preorderList, Operation.preorder_eq, List.cons_append, contentOf_cons, contentOf_append]

/-- Fillers are no content. -/
theorem contentOf_filler {op : Operation}
    (h : op.name = Toy.nopName ∨ op.name = Toy.blockName) : contentOf [op] = [] := by
  rcases h with hnop | hblock
  · simp [contentOf, Head.isFiller, Operation.head, hnop]
  · simp [contentOf, Head.isFiller, Operation.head, hblock]

/-- Of fewer operations there is no more content. -/
theorem contentOf_sublist {ops ops' : List Operation} (h : ops.Sublist ops') :
    (contentOf ops).Sublist (contentOf ops') :=
  (h.map _).filter _

/-! ## Outside of nops -/

mutual

/-- The operation and what is inside it but not inside a nop, in pre-order. -/
def Operation.outsideNops : Operation → List Operation
  | ⟨name, attributes, region⟩ =>
    ⟨name, attributes, region⟩ :: if name = Toy.nopName then [] else outsideNopsList region

/-- Operations with what is inside them but not inside a nop, in pre-order. -/
def outsideNopsList : List Operation → List Operation
  | [] => []
  | op :: ops => op.outsideNops ++ outsideNopsList ops

end

/-- Outside of nops is the operation and, unless it is a nop, what is inside it. -/
theorem outsideNopsList_cons (op : Operation) (ops : List Operation) :
    outsideNopsList (op :: ops) =
      op :: ((if op.name = Toy.nopName then [] else outsideNopsList op.region) ++
        outsideNopsList ops) := by
  cases op
  rfl

theorem contentOf_outsideNopsList_cons (op : Operation) (ops : List Operation) :
    contentOf (outsideNopsList (op :: ops)) =
      contentOf [op] ++
        (contentOf (if op.name = Toy.nopName then [] else outsideNopsList op.region) ++
          contentOf (outsideNopsList ops)) := by
  rw [outsideNopsList_cons, contentOf_cons, contentOf_append]

/-- What is outside of nops is part of the tree, in its order. -/
theorem outsideNopsList_sublist : ∀ ops : List Operation,
    (outsideNopsList ops).Sublist (preorderList ops)
  | [] => .slnil
  | ⟨name, attributes, region⟩ :: ops => by
    have hregion := outsideNopsList_sublist region
    have hops := outsideNopsList_sublist ops
    rw [preorderList, Operation.preorder, List.cons_append, outsideNopsList_cons]
    refine (List.Sublist.append ?_ hops).cons_cons _
    split
    · exact List.nil_sublist _
    · exact hregion

/-- Parts make up a whole just if each of them is all of its own half. -/
theorem append_eq_append_iff_of_sublist {α : Type} {a a' b b' : List α} (ha : a'.Sublist a)
    (hb : b'.Sublist b) : a' ++ b' = a ++ b ↔ a' = a ∧ b' = b := by
  constructor
  · intro h
    have hlength := congrArg List.length h
    rw [List.length_append, List.length_append] at hlength
    have hale := ha.length_le
    have hble := hb.length_le
    exact List.append_inj h (by omega)
  · rintro ⟨rfl, rfl⟩
    rfl

/-- All content is outside of nops just if every nop has only filler inside. -/
theorem contentOf_outsideNopsList_eq_iff : ∀ ops : List Operation,
    contentOf (outsideNopsList ops) = contentOf (preorderList ops) ↔
      ∀ op ∈ preorderList ops, op.name = Toy.nopName → contentOf (preorderList op.region) = []
  | [] => ⟨fun _ _ hop => (nomatch hop), fun _ => rfl⟩
  | ⟨name, attributes, region⟩ :: ops => by
    have hregion := contentOf_outsideNopsList_eq_iff region
    have hops := contentOf_outsideNopsList_eq_iff ops
    have hregionSublist := contentOf_sublist (outsideNopsList_sublist region)
    have hopsSublist := contentOf_sublist (outsideNopsList_sublist ops)
    rw [forall_mem_preorderList_cons, ← hregion, ← hops, contentOf_outsideNopsList_cons,
      contentOf_preorderList_cons, List.append_right_inj]
    by_cases hnop : name = Toy.nopName
    · rw [if_pos hnop, append_eq_append_iff_of_sublist (contentOf_sublist (List.nil_sublist _))
        hopsSublist]
      constructor
      · rintro ⟨hnone, hrest⟩
        have hnone : contentOf (preorderList region) = [] := hnone.symm
        rw [hnone] at hregionSublist ⊢
        exact ⟨fun _ => rfl, List.sublist_nil.mp hregionSublist, hrest⟩
      · rintro ⟨hnone, _, hrest⟩
        exact ⟨(hnone hnop).symm, hrest⟩
    · rw [if_neg hnop, append_eq_append_iff_of_sublist hregionSublist hopsSublist]
      exact ⟨fun h => ⟨fun hname => absurd hname hnop, h⟩, fun h => h.2⟩

/-- Outside of nops no content is lost. -/
theorem contentOf_sweepList : ∀ ops : List Operation,
    contentOf (preorderList (sweepList ops)) = contentOf (outsideNopsList ops)
  | [] => rfl
  | ⟨name, attributes, region⟩ :: ops => by
    have hregion := contentOf_sweepList region
    have hops := contentOf_sweepList ops
    rw [sweepList, Operation.sweep, contentOf_outsideNopsList_cons]
    by_cases hnop : name = Toy.nopName
    · have hfiller : contentOf [⟨name, attributes, region⟩] = [] :=
        contentOf_filler (.inl hnop)
      rw [if_pos (by simp [Operation.isDead, hnop]), if_pos hnop, hfiller, hops]
      rfl
    · rw [if_neg hnop, ← hregion, ← hops]
      split
      · next hdead =>
        -- it is a block, and the sweep has left nothing in it
        have hblock : name = Toy.blockName ∧ sweepList region = [] := by
          simpa [Operation.isDead, hnop] using hdead
        have hfiller : contentOf [⟨name, attributes, region⟩] = [] :=
          contentOf_filler (.inr hblock.1)
        rw [hfiller, hblock.2]
        rfl
      · rw [contentOf_preorderList_cons]
        rfl

/-- The pass succeeds. The content that it leaves, in pre-order, is the content that there
was outside of nops, and so it is all of it just if every nop has only filler inside. -/
theorem deadCode_keeps_content (context : Context) (m : Module) :
    let run := Pass.deadCode.run context m
    run.2 = .ok () ∧
      contentOf run.1.preorder = contentOf (outsideNopsList m.ops) ∧
      (contentOf run.1.preorder = contentOf m.preorder ↔
        ∀ op ∈ m.preorder, op.name = Toy.nopName → contentOf (preorderList op.region) = []) := by
  have hcontent : contentOf (preorderList (sweepList m.ops)) = contentOf (outsideNopsList m.ops) :=
    contentOf_sweepList m.ops
  refine ⟨rfl, hcontent, ?_⟩
  show contentOf (preorderList (sweepList m.ops)) = contentOf (preorderList m.ops) ↔ _
  rw [hcontent]
  exact contentOf_outsideNopsList_eq_iff m.ops

/-- What is printed inside a nop is lost. -/
theorem deadCode_drops_content_of_nop :
    let m : Module := ⟨none, [⟨Toy.nopName, .empty, [.ofName "toy.print"]⟩]⟩
    contentOf (Pass.deadCode.run ⟨.empty, false⟩ m).1.preorder ≠ contentOf m.preorder := by
  decide

/-! ## What is swept -/

/-- Live is every operation but a nop and an empty block. -/
theorem Operation.isDead_eq_false_iff {op : Operation} :
    op.isDead = false ↔
      op.name ≠ Toy.nopName ∧ (op.name = Toy.blockName → op.region ≠ []) := by
  simp [Operation.isDead]

/-- Nothing is dead, at any depth. -/
def Swept (ops : List Operation) : Prop := ∀ op ∈ preorderList ops, op.isDead = false

theorem swept_nil : Swept [] := fun _ hop => nomatch hop

/-- A list is swept if its first operation is live and all below and behind it is swept. -/
theorem swept_cons {op : Operation} {ops : List Operation} :
    Swept (op :: ops) ↔ op.isDead = false ∧ Swept op.region ∧ Swept ops :=
  forall_mem_preorderList_cons

/-- Behind the pass nothing dead is left at any depth. -/
theorem swept_sweepList : ∀ ops : List Operation, Swept (sweepList ops)
  | [] => swept_nil
  | ⟨name, attributes, region⟩ :: ops => by
    have hregion := swept_sweepList region
    have hops := swept_sweepList ops
    rw [sweepList, Operation.sweep]
    split
    · exact hops
    · next hlive => exact swept_cons.mpr ⟨eq_false_of_ne_true hlive, hregion, hops⟩

/-- Where nothing is dead the pass changes nothing. -/
theorem Swept.sweepList_eq : ∀ {ops : List Operation}, Swept ops → sweepList ops = ops
  | [], _ => rfl
  | ⟨name, attributes, region⟩ :: ops, h => by
    obtain ⟨hlive, hregion, hops⟩ := swept_cons.mp h
    have hregion : sweepList region = region := Swept.sweepList_eq hregion
    rw [sweepList, Operation.sweep, hregion, Swept.sweepList_eq hops]
    exact if_neg (ne_true_of_eq_false hlive)

end IrOptimizer
