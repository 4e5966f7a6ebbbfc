import IrOptimizer.Proofs.Nodes
import IrOptimizer.Transform.DoubleLiteral

/-!
# The exact effect of doubling literals

The pass is a walk that edits heads, so what is to be known of it is what its step makes of
one node: a literal is doubled and any other operation stays (`Doubled`), or the literal is
refused with the complaint that fits (`Refused`). One of the two always happens
(`doubled_or_refused`), and the step does what they say.

`doubleLiteral_effect` says of a whole module when the pass succeeds and what it leaves in
either case. Where it fails, the cut goes through the tree in pre-order: a literal around the
refused one is doubled, one inside it is not.
-/

namespace IrOptimizer

open Operation (Node Edited)

/-- A literal has an integer value of which the double is in range. -/
def Operation.CanDouble (op : Operation) : Prop :=
  ∃ n, op.attr? Toy.valueKey = some (.int n) ∧ InRange (2 * n.toInt)

/-- A node before and after the pass: a literal has twice its value, and nothing else is
different. -/
inductive Doubled : Node → Node → Prop where
  | literal {attributes : Attributes} {n k : Int64} {arity : Nat} :
      attributes.find? Toy.valueKey = some (.int n) → k.toInt = 2 * n.toInt →
      Doubled ⟨⟨Toy.literalName, attributes⟩, arity⟩
        ⟨⟨Toy.literalName, attributes.insert Toy.valueKey (.int k)⟩, arity⟩
  | other {node : Node} : node.head.name ≠ Toy.literalName → Doubled node node

/-- Why a literal is refused: it has no integer value, or one of which the double is out of
range. -/
inductive Refused : Node → PassError → Prop where
  | missing {attributes : Attributes} {arity : Nat} :
      (∀ n, attributes.find? Toy.valueKey ≠ some (.int n)) →
      Refused ⟨⟨Toy.literalName, attributes⟩, arity⟩ missingValue
  | overflow {attributes : Attributes} {n : Int64} {arity : Nat} :
      attributes.find? Toy.valueKey = some (.int n) → ¬ InRange (2 * n.toInt) →
      Refused ⟨⟨Toy.literalName, attributes⟩, arity⟩ (doublingOverflow n)

/-! ## One node -/

/-- Every node is doubled or refused. -/
theorem doubled_or_refused (node : Node) : (∃ node', Doubled node node') ∨ ∃ e, Refused node e := by
  obtain ⟨⟨name, attributes⟩, arity⟩ := node
  by_cases hname : name = Toy.literalName
  · subst hname
    cases hvalue : (attributes.find? Toy.valueKey).bind Attribute.asInt? with
    | none => exact .inr ⟨_, .missing (Attribute.bind_asInt?_eq_none_iff.mp hvalue)⟩
    | some n =>
      have hfind := Attribute.bind_asInt?_eq_some_iff.mp hvalue
      cases hdouble : int64? (2 * n.toInt) with
      | none => exact .inr ⟨_, .overflow hfind (int64?_eq_none_iff.mp hdouble)⟩
      | some k => exact .inl ⟨_, .literal hfind (int64?_eq_some_iff.mp hdouble)⟩
  · exact .inl ⟨_, .other hname⟩

/-- A node that is doubled is what the pass leaves of it. -/
theorem Doubled.edited {node node' : Node} (h : Doubled node node') :
    Edited doubleHead node node' := by
  cases h with
  | literal hfind hk =>
    refine ⟨?_, rfl⟩
    rw [doubleHead, if_pos rfl, Attribute.bind_asInt?_eq_some_iff.mpr hfind]
    dsimp only
    rw [int64?_eq_some_iff.mpr hk]
  | other hname => exact ⟨if_neg hname, rfl⟩

/-- The pass fails at a node that is refused, with the error that says why. -/
theorem Refused.doubleHead_eq {node : Node} {e : PassError} (h : Refused node e) :
    doubleHead node.head = .error e := by
  cases h with
  | missing hmissing => rw [doubleHead, if_pos rfl, Attribute.bind_asInt?_eq_none_iff.mpr hmissing]
  | overflow hfind hrange =>
    rw [doubleHead, if_pos rfl, Attribute.bind_asInt?_eq_some_iff.mpr hfind]
    dsimp only
    rw [int64?_eq_none_iff.mpr hrange]

/-- What the pass makes of a node is its double, and nothing else. -/
theorem edited_doubleHead : Edited doubleHead = Doubled := by
  refine funext₂ fun node node' => propext ⟨fun h => ?_, Doubled.edited⟩
  rcases doubled_or_refused node with ⟨node'', hdoubled⟩ | ⟨e, hrefused⟩
  · have hhead := hdoubled.edited.head.symm.trans h.head
    have harity := hdoubled.edited.arity.trans h.arity.symm
    obtain ⟨head'', arity''⟩ := node''
    obtain ⟨head', arity'⟩ := node'
    cases hhead
    cases harity
    exact hdoubled
  · cases hrefused.doubleHead_eq.symm.trans h.head

theorem doubleHead_eq_error_iff {node : Node} {e : PassError} :
    doubleHead node.head = .error e ↔ Refused node e := by
  refine ⟨fun h => ?_, Refused.doubleHead_eq⟩
  rcases doubled_or_refused node with ⟨node', hdoubled⟩ | ⟨e', hrefused⟩
  · cases hdoubled.edited.head.symm.trans h
  · cases hrefused.doubleHead_eq.symm.trans h
    exact hrefused

/-- A literal that is doubled is one that can be. -/
theorem Doubled.canDouble {op : Operation} {node' : Node} (h : Doubled op.node node')
    (hname : op.name = Toy.literalName) : op.CanDouble := by
  obtain ⟨name, attributes, region⟩ := op
  have h : Doubled ⟨⟨name, attributes⟩, region.length⟩ node' := h
  cases h with
  | @literal _ n k _ hfind hk => exact ⟨n, hfind, hk ▸ inRange_toInt k⟩
  | other hother => exact absurd hname hother

/-- Only literals are refused, and only those that cannot be doubled. -/
theorem Refused.not_canDouble {op : Operation} {e : PassError} (h : Refused op.node e) :
    op.name = Toy.literalName ∧ ¬ op.CanDouble := by
  obtain ⟨name, attributes, region⟩ := op
  have h : Refused ⟨⟨name, attributes⟩, region.length⟩ e := h
  cases h with
  | missing hmissing => exact ⟨rfl, fun ⟨n, hfind, _⟩ => hmissing n hfind⟩
  | overflow hfind hrange =>
    refine ⟨rfl, fun ⟨n, hfind', hinRange⟩ => hrange ?_⟩
    cases hfind.symm.trans hfind'
    exact hinRange

/-! ## Modules -/

/-- Every literal of a module, at any depth, can be doubled. -/
def Module.CanDouble (m : Module) : Prop :=
  ∀ op ∈ m.preorder, op.name = Toy.literalName → op.CanDouble

/-- A module and what is left of it when every literal is doubled. Nothing else is different. -/
def Module.IsDoubled (m r : Module) : Prop :=
  m.SameFrame r ∧ List.Forall₂ Doubled m.nodes r.nodes

/-- A module and what is left of it when a literal is refused. The literals before it in
pre-order are doubled; it and everything behind it is as it was, and nothing else is different. -/
def Module.IsDoubledUpTo (m r : Module) (e : PassError) : Prop :=
  m.SameFrame r ∧ ∃ front refused back front', m.nodes = front ++ refused :: back ∧
    List.Forall₂ Doubled front front' ∧ Refused refused e ∧ r.nodes = front' ++ refused :: back

/-- The pass succeeds just with a module that is doubled throughout. -/
theorem run_doubleLiteral_eq_ok_iff {context : Context} {m r : Module} :
    Pass.doubleLiteral.run context m = (r, .ok ()) ↔ m.IsDoubled r := by
  rw [Module.IsDoubled, ← edited_doubleHead]
  exact Module.editHeads_eq_ok_iff

/-- The pass fails just with a module that is doubled up to a refused literal. -/
theorem run_doubleLiteral_eq_error_iff {context : Context} {m r : Module} {e : PassError} :
    Pass.doubleLiteral.run context m = (r, .error e) ↔ m.IsDoubledUpTo r e := by
  simp only [Module.IsDoubledUpTo, ← edited_doubleHead, ← doubleHead_eq_error_iff]
  exact Module.editHeads_eq_error_iff

/-- In a module that is doubled every literal could be. -/
theorem Module.IsDoubled.canDouble {m r : Module} (h : m.IsDoubled r) : m.CanDouble := by
  have hevery : ∀ node ∈ m.nodes, ∃ node', Doubled node node' :=
    ((List.forall₂_and_left m.nodes r.nodes).mp
      (h.2.imp fun _ node' hdoubled => ⟨⟨node', hdoubled⟩, hdoubled⟩)).1
  intro op hop hname
  obtain ⟨node', hdoubled⟩ := hevery op.node (List.mem_map_of_mem hop)
  exact hdoubled.canDouble hname

/-- Where doubling stops, there is a literal that cannot be doubled. -/
theorem Module.IsDoubledUpTo.not_canDouble {m r : Module} {e : PassError}
    (h : m.IsDoubledUpTo r e) : ¬ m.CanDouble := by
  obtain ⟨_, front, refused, back, front', hnodes, _, hrefused, _⟩ := h
  have hmem : refused ∈ m.nodes := by
    rw [hnodes]
    exact List.mem_append_right _ (List.mem_cons_self ..)
  obtain ⟨op, hop, rfl⟩ := List.mem_map.mp hmem
  obtain ⟨hname, hnot⟩ := hrefused.not_canDouble
  exact fun hall => hnot (hall op hop hname)

/-- The pass succeeds just if every literal has an integer value of which the double is in
range. If it succeeds, it leaves the module with every literal doubled. If it fails, it fails
at the first literal that it has to refuse, with the complaint about that one, and leaves the
module with the literals before it doubled. -/
theorem doubleLiteral_effect (context : Context) (m r : Module) (e : PassError) :
    ((Pass.doubleLiteral.run context m).2 = .ok () ↔ m.CanDouble) ∧
    (Pass.doubleLiteral.run context m = (r, .ok ()) ↔ m.IsDoubled r) ∧
    (Pass.doubleLiteral.run context m = (r, .error e) ↔ m.IsDoubledUpTo r e) := by
  refine ⟨?_, run_doubleLiteral_eq_ok_iff, run_doubleLiteral_eq_error_iff⟩
  rcases hrun : Pass.doubleLiteral.run context m with ⟨left, _ | _⟩
  · exact ⟨nofun, fun hall => absurd hall (run_doubleLiteral_eq_error_iff.mp hrun).not_canDouble⟩
  · exact ⟨fun _ => (run_doubleLiteral_eq_ok_iff.mp hrun).canDouble, fun _ => rfl⟩

/-- Of three literals one inside the other the second is refused. -/
example :
    let refused := (Toy.literal 9223372036854775807).attributes
    let inside (n : Int64) : Module := ⟨none, [⟨Toy.literalName, (Toy.literal n).attributes,
      [⟨Toy.literalName, refused, [Toy.literal 3]⟩]⟩]⟩
    Pass.doubleLiteral.run ⟨.empty, false⟩ (inside 1) =
      (inside 2, .error (doublingOverflow 9223372036854775807)) := by
  rfl

end IrOptimizer
