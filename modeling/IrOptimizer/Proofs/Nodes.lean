import IrOptimizer.Module
import Mathlib.Data.List.Forall2

/-!
# Trees as lists of nodes

In pre-order a tree of operations is a list of nodes: for every operation its head and the
number of its children. Nothing is lost on the way, since the numbers of children say where
each region ends (`eq_of_nodesOf_append_eq`). So what a walk makes of a tree can be said of
this list, without any word about depth.

The walk that edits heads until a step refuses one goes along the list (`editNodes_nodesOf`).
There its two outcomes are plain: every node is edited (`editNodes_eq_ok_iff`), or the nodes
before the one that was refused are, and that one and all behind it are as they were
(`editNodes_eq_error_iff`). `Module.editHeads_eq_ok_iff` and `Module.editHeads_eq_error_iff`
say the same of modules.
-/

namespace IrOptimizer

namespace Operation

/-- The name and the attributes of an operation. -/
def head (op : Operation) : Head := ⟨op.name, op.attributes⟩

/-- What a walk meets at one place: a head, and how many children follow. -/
structure Node where
  head : Head
  arity : Nat
deriving DecidableEq

def node (op : Operation) : Node := ⟨op.head, op.region.length⟩

/-- The nodes of operations, nested ones included, in pre-order. -/
def nodesOf (ops : List Operation) : List Node := (preorderList ops).map node

/-- The nodes of an operation are its own, then those inside it. -/
theorem nodesOf_cons (op : Operation) (ops : List Operation) :
    nodesOf (op :: ops) = op.node :: (nodesOf op.region ++ nodesOf ops) := by
  rw [nodesOf, preorderList, preorder_eq, List.cons_append, List.map_cons, List.map_append]
  rfl

/-- So many operations are read back from their nodes, whatever nodes come behind. -/
theorem eq_of_nodesOf_append_eq : ∀ {ops ops' : List Operation} {back back' : List Node},
    ops.length = ops'.length → nodesOf ops ++ back = nodesOf ops' ++ back' →
    ops = ops' ∧ back = back'
  | [], [], _, _, _, h => ⟨rfl, h⟩
  | ⟨name, attributes, region⟩ :: ops, ⟨name', attributes', region'⟩ :: ops', back, back',
    hlength, h => by
    rw [nodesOf_cons, nodesOf_cons, List.cons_append, List.cons_append, List.append_assoc,
      List.append_assoc] at h
    obtain ⟨hnode, h⟩ := List.cons.inj h
    obtain ⟨hhead, harity⟩ := Node.mk.inj hnode
    obtain ⟨hname, hattributes⟩ := Head.mk.inj hhead
    -- the number of children says how much of the rest is the region
    obtain ⟨hregion, hbehind⟩ := eq_of_nodesOf_append_eq harity h
    obtain ⟨hops, hback⟩ := eq_of_nodesOf_append_eq (Nat.succ.inj hlength) hbehind
    have hop : Operation.mk name attributes region = ⟨name', attributes', region'⟩ := by
      rw [Operation.mk.injEq]
      exact ⟨hname, hattributes, hregion⟩
    exact ⟨by rw [hop, hops], hback⟩

/-- So many operations are determined by their nodes. -/
theorem eq_of_nodesOf_eq {ops ops' : List Operation} (hlength : ops.length = ops'.length)
    (h : nodesOf ops = nodesOf ops') : ops = ops' := by
  have hback : nodesOf ops ++ [] = nodesOf ops' ++ [] := by rw [h]
  exact (eq_of_nodesOf_append_eq hlength hback).1

/-! ## Editing along the nodes -/

section

variable {ε : Type} {step : Head → Except ε Head} {nodes nodes' : List Node}

/-- Edits the heads of nodes one after the other until a step refuses one. -/
def editNodes (step : Head → Except ε Head) : List Node → List Node × Except ε Unit
  | [] => ([], .ok ())
  | node :: nodes =>
    match step node.head with
    | .error e => (node :: nodes, .error e)
    | .ok head =>
      let (nodes', outcome) := editNodes step nodes
      (⟨head, node.arity⟩ :: nodes', outcome)

/-- A node before and after a step that takes its head. -/
structure Edited (step : Head → Except ε Head) (node node' : Node) : Prop where
  head : step node.head = .ok node'.head
  arity : node'.arity = node.arity

/-- At a node where the step fails nothing more is changed. -/
theorem editNodes_cons_of_error {node : Node} {e : ε} (h : step node.head = .error e) :
    editNodes step (node :: nodes) = (node :: nodes, .error e) := by
  rw [editNodes, h]

theorem editNodes_cons_of_ok {node : Node} {head : Head} (h : step node.head = .ok head) :
    editNodes step (node :: nodes) =
      (⟨head, node.arity⟩ :: (editNodes step nodes).1, (editNodes step nodes).2) := by
  rw [editNodes, h]

/-- A list that has been worked on to its end is followed by the next. -/
theorem editNodes_append_of_ok (h : editNodes step nodes = (nodes', .ok ())) (back : List Node) :
    editNodes step (nodes ++ back) =
      (nodes' ++ (editNodes step back).1, (editNodes step back).2) := by
  induction nodes generalizing nodes' with
  | nil =>
    cases h
    rfl
  | cons node nodes ih =>
    cases hstep : step node.head with
    | error e =>
      rw [editNodes_cons_of_error hstep] at h
      cases h
    | ok head =>
      rw [editNodes_cons_of_ok hstep, Prod.mk.injEq] at h
      obtain ⟨rfl, hrest⟩ := h
      rw [List.cons_append, editNodes_cons_of_ok hstep, ih (Prod.ext rfl hrest)]
      rfl

theorem editNodes_append_of_error {e : ε} (h : editNodes step nodes = (nodes', .error e))
    (back : List Node) : editNodes step (nodes ++ back) = (nodes' ++ back, .error e) := by
  induction nodes generalizing nodes' with
  | nil => cases h
  | cons node nodes ih =>
    cases hstep : step node.head with
    | error e' =>
      rw [editNodes_cons_of_error hstep] at h
      cases h
      exact editNodes_cons_of_error hstep
    | ok head =>
      rw [editNodes_cons_of_ok hstep, Prod.mk.injEq] at h
      obtain ⟨rfl, hrest⟩ := h
      rw [List.cons_append, editNodes_cons_of_ok hstep, ih (Prod.ext rfl hrest)]
      rfl

/-- No operation is lost or made. -/
theorem length_editHeads (step : Head → Except ε Head) :
    ∀ ops : List Operation, (editHeads step ops).1.length = ops.length
  | [] => rfl
  | op :: ops => by
    have hops := length_editHeads step ops
    rw [editHeads]
    rcases op.editHead step with ⟨op', _ | _⟩
    · rfl
    · exact congrArg Nat.succ hops

/-- A walk through a tree is a walk along its nodes. -/
theorem editNodes_nodesOf (step : Head → Except ε Head) : ∀ ops : List Operation,
    editNodes step (nodesOf ops) = (nodesOf (editHeads step ops).1, (editHeads step ops).2)
  | [] => rfl
  | ⟨name, attributes, region⟩ :: ops => by
    have hregion := editNodes_nodesOf step region
    have hops := editNodes_nodesOf step ops
    have hlength := length_editHeads step region
    rw [nodesOf_cons, editHeads, editHead]
    cases hstep : step ⟨name, attributes⟩ with
    | error e =>
      rw [editNodes_cons_of_error hstep]
      exact congrArg (·, _) (nodesOf_cons _ ops).symm
    | ok head =>
      rw [editNodes_cons_of_ok hstep]
      rcases hedit : editHeads step region with ⟨region', outcome⟩
      rw [hedit] at hregion hlength
      -- the walk goes on behind the region only if nothing in it was refused
      cases outcome with
      | error e =>
        rw [editNodes_append_of_error hregion, nodesOf_cons]
        simp only [node, Operation.head, hlength]
      | ok u =>
        rw [editNodes_append_of_ok hregion, hops, nodesOf_cons]
        simp only [node, Operation.head, hlength]

/-- The walk succeeds if each step takes its node. -/
theorem editNodes_eq_ok_iff :
    editNodes step nodes = (nodes', .ok ()) ↔ List.Forall₂ (Edited step) nodes nodes' := by
  induction nodes generalizing nodes' with
  | nil =>
    rw [List.forall₂_nil_left_iff, editNodes, Prod.mk.injEq]
    exact ⟨fun h => h.1.symm, fun h => ⟨h.symm, rfl⟩⟩
  | cons node nodes ih =>
    rw [List.forall₂_cons_left_iff]
    constructor
    · intro h
      cases hstep : step node.head with
      | error e =>
        rw [editNodes_cons_of_error hstep] at h
        cases h
      | ok head =>
        rw [editNodes_cons_of_ok hstep, Prod.mk.injEq] at h
        have hrest : editNodes step nodes = ((editNodes step nodes).1, .ok ()) := Prod.ext rfl h.2
        exact ⟨⟨head, node.arity⟩, _, ⟨hstep, rfl⟩, ih.mp hrest, h.1.symm⟩
    · rintro ⟨node', rest', ⟨hhead, harity⟩, hrest, rfl⟩
      rw [editNodes_cons_of_ok hhead, ih.mpr hrest, ← harity]

/-- The walk fails at the first node that is refused. -/
theorem editNodes_eq_error_iff {e : ε} :
    editNodes step nodes = (nodes', .error e) ↔
      ∃ front node back front', nodes = front ++ node :: back ∧
        List.Forall₂ (Edited step) front front' ∧ step node.head = .error e ∧
        nodes' = front' ++ node :: back := by
  constructor
  · intro h
    induction nodes generalizing nodes' with
    | nil => cases h
    | cons node nodes ih =>
      cases hstep : step node.head with
      | error e' =>
        rw [editNodes_cons_of_error hstep] at h
        cases h
        exact ⟨[], node, nodes, [], rfl, .nil, hstep, rfl⟩
      | ok head =>
        rw [editNodes_cons_of_ok hstep, Prod.mk.injEq] at h
        have hrest : editNodes step nodes = ((editNodes step nodes).1, .error e) := Prod.ext rfl h.2
        obtain ⟨front, refused, back, front', rfl, hfront, hrefused, hnodes⟩ := ih hrest
        refine ⟨node :: front, refused, back, ⟨head, node.arity⟩ :: front', rfl,
          .cons ⟨hstep, rfl⟩ hfront, hrefused, ?_⟩
        rw [← h.1, hnodes]
        rfl
  · rintro ⟨front, node, back, front', rfl, hfront, hnode, rfl⟩
    rw [editNodes_append_of_ok (editNodes_eq_ok_iff.mpr hfront), editNodes_cons_of_error hnode]

end

end Operation

/-! ## Modules -/

namespace Module

open Operation

/-- The nodes of a module in pre-order. -/
def nodes (m : Module) : List Node := nodesOf m.ops

/-- Modules that differ in their nodes at most: the same name, and as many operations at top
level. -/
structure SameFrame (m r : Module) : Prop where
  name : r.name = m.name
  length : r.ops.length = m.ops.length

variable {ε : Type} {step : Head → Except ε Head} {m r : Module}

/-- To change the heads of a module is to change its nodes, in a frame that stays. -/
theorem editHeads_eq_iff {outcome : Except ε Unit} :
    m.editHeads step = (r, outcome) ↔
      m.SameFrame r ∧ editNodes step m.nodes = (r.nodes, outcome) := by
  have hedit : m.editHeads step =
      (⟨m.name, (Operation.editHeads step m.ops).1⟩, (Operation.editHeads step m.ops).2) := rfl
  rw [nodes, editNodes_nodesOf, hedit, Prod.mk.injEq, Prod.mk.injEq]
  constructor
  · rintro ⟨rfl, houtcome⟩
    exact ⟨⟨rfl, length_editHeads step m.ops⟩, rfl, houtcome⟩
  · rintro ⟨⟨hname, hlength⟩, hnodes, houtcome⟩
    have hops : (Operation.editHeads step m.ops).1 = r.ops :=
      eq_of_nodesOf_eq ((length_editHeads step m.ops).trans hlength.symm) hnodes
    rw [hops, ← hname]
    exact ⟨rfl, houtcome⟩

/-- The walk succeeds with a module just if that one has every node edited. -/
theorem editHeads_eq_ok_iff :
    m.editHeads step = (r, .ok ()) ↔
      m.SameFrame r ∧ List.Forall₂ (Edited step) m.nodes r.nodes := by
  rw [editHeads_eq_iff, editNodes_eq_ok_iff]

/-- The walk fails and leaves a module just if that one has the nodes edited that come before
the first node that is refused. -/
theorem editHeads_eq_error_iff {e : ε} :
    m.editHeads step = (r, .error e) ↔
      m.SameFrame r ∧ ∃ front node back front', m.nodes = front ++ node :: back ∧
        List.Forall₂ (Edited step) front front' ∧ step node.head = .error e ∧
        r.nodes = front' ++ node :: back := by
  rw [editHeads_eq_iff, editNodes_eq_error_iff]

end Module

end IrOptimizer
