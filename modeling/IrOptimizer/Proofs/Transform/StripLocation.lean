import IrOptimizer.Proofs.Nodes
import IrOptimizer.Transform.Standard

/-!
# Stripping locations before or after a pass

The integrated passes look at names, at values and at which regions are empty, and change no
attribute but values. So it makes no difference to any of them whether an attribute under another
key is removed before they run or afterwards. This is shown for any such key and for each kind of
traversal: the walk that may stop half-way (`editHeads_mapAttributesList`), folding from the
inside outwards (`foldList_dropKey`) and sweeping (`sweepList_mapAttributesList`).

`stripLocation_commutes` says so of the passes, also of runs that fail, and says what is left of
a module in the end: the locations are gone, at every depth, and nothing else is different from
what the pass alone leaves.
-/

namespace IrOptimizer

namespace Operation

/-! ## Walks that may stop -/

/-- The head with its attributes changed. -/
def Head.mapAttributes (f : Attributes → Attributes) (head : Head) : Head :=
  { head with attributes := f head.attributes }

/-- A step that may come before or after a change of attributes makes a walk that may, also
where it stops half-way. -/
theorem editHeads_mapAttributesList {ε : Type} {step : Head → Except ε Head}
    {f : Attributes → Attributes}
    (hstep : ∀ head : Head, step (head.mapAttributes f) = (step head).map (Head.mapAttributes f)) :
    ∀ ops : List Operation, editHeads step (mapAttributesList f ops) =
      (mapAttributesList f (editHeads step ops).1, (editHeads step ops).2)
  | [] => rfl
  | ⟨name, attributes, region⟩ :: ops => by
    have hhead : step ⟨name, f attributes⟩ = (step ⟨name, attributes⟩).map (Head.mapAttributes f) :=
      hstep ⟨name, attributes⟩
    have hregion := editHeads_mapAttributesList hstep region
    have hops := editHeads_mapAttributesList hstep ops
    rw [mapAttributesList, mapAttributes, editHeads, editHeads, editHead, editHead, hhead]
    cases step ⟨name, attributes⟩ with
    | error e => rfl -- the walk stops here and all the rest stays
    | ok head =>
      dsimp only [Except.map]
      rw [hregion]
      rcases editHeads step region with ⟨region', _ | _⟩
      · rfl
      · dsimp only
        rw [hops]
        rfl

/-! ## Operations without the attributes of a key -/

/-- The operations without what they hold under a key, at every depth. -/
def dropKey (key : String) (ops : List Operation) : List Operation :=
  mapAttributesList (·.erase key) ops

theorem isEmpty_mapAttributesList (f : Attributes → Attributes) (ops : List Operation) :
    (mapAttributesList f ops).isEmpty = ops.isEmpty := by
  cases ops <;> rfl

/-- Changing attributes leaves the number of operations as it is. -/
theorem length_mapAttributesList (f : Attributes → Attributes) (ops : List Operation) :
    (mapAttributesList f ops).length = ops.length := by
  induction ops with
  | nil => rfl
  | cons op ops ih => exact congrArg Nat.succ ih

/-- A node with its attributes changed. -/
def Node.mapAttributes (f : Attributes → Attributes) (node : Node) : Node :=
  { node with head := node.head.mapAttributes f }

/-- Attributes can be changed node by node. -/
theorem nodesOf_mapAttributesList (f : Attributes → Attributes) :
    ∀ ops : List Operation, nodesOf (mapAttributesList f ops) = (nodesOf ops).map (·.mapAttributes f)
  | [] => rfl
  | ⟨name, attributes, region⟩ :: ops => by
    have hnode : node ⟨name, f attributes, mapAttributesList f region⟩ =
        (node ⟨name, attributes, region⟩).mapAttributes f := by
      rw [node, length_mapAttributesList]
      rfl
    rw [mapAttributesList, mapAttributes, nodesOf_cons, nodesOf_cons, hnode,
      nodesOf_mapAttributesList f region, nodesOf_mapAttributesList f ops, List.map_cons,
      List.map_append]

end Operation

open Operation (Head Node dropKey mapAttributesList nodesOf)

section

variable {key : String} (hkey : key ≠ Toy.valueKey)
include hkey

/-! ## The passes without the attributes of a key -/

/-- To double a literal, or to fail, needs no key but that of the value. -/
theorem doubleHead_erase (head : Head) :
    doubleHead (head.mapAttributes (·.erase key)) =
      (doubleHead head).map (Head.mapAttributes (·.erase key)) := by
  obtain ⟨name, attributes⟩ := head
  unfold doubleHead Head.mapAttributes
  dsimp only
  rw [Dictionary.find?_erase_ne _ hkey]
  split
  · split
    · rfl
    · split
      · rfl
      · rw [← Dictionary.erase_insert _ _ hkey]
        rfl
  · rfl

/-- A literal that is made has no other key. -/
theorem literal_erase (n : Int64) :
    (Toy.literal n).mapAttributes (·.erase key) = Toy.literal n := by
  have hattributes : (Toy.literal n).attributes.erase key = (Toy.literal n).attributes :=
    Dictionary.erase_insert .empty _ hkey
  show Operation.mk _ ((Toy.literal n).attributes.erase key) [] = _
  rw [hattributes]
  rfl

/-- The value of a literal is found without any other key. -/
theorem literalValue?_erase (op : Operation) :
    literalValue? (op.mapAttributes (·.erase key)) = literalValue? op := by
  obtain ⟨name, attributes, region⟩ := op
  have hregion : mapAttributesList (·.erase key) region = [] ↔ region = [] := by
    rw [← List.isEmpty_iff, Operation.isEmpty_mapAttributesList, List.isEmpty_iff]
  simp only [Operation.mapAttributes, literalValue?, Operation.attr?, hregion,
    Dictionary.find?_erase_ne _ hkey]

theorem mapM_literalValue?_dropKey (ops : List Operation) :
    (dropKey key ops).mapM literalValue? = ops.mapM literalValue? := by
  induction ops with
  | nil => rfl
  | cons op ops ih =>
    rw [List.mapM_cons, ← ih, ← literalValue?_erase hkey op, ← List.mapM_cons]
    rfl

/-- Whether an operation folds, and to what, depends on no other key of its operands. -/
theorem foldedValue?_dropKey (name : String) (operands : List Operation) :
    foldedValue? name (dropKey key operands) = foldedValue? name operands := by
  rw [foldedValue?, mapM_literalValue?_dropKey hkey]
  rfl

/-- Folding can be done before or after a key is dropped. -/
theorem foldList_dropKey : ∀ ops : List Operation,
    foldList (dropKey key ops) = dropKey key (foldList ops)
  | [] => rfl
  | ⟨name, attributes, region⟩ :: ops => by
    have hop : (Operation.mk name (attributes.erase key) (dropKey key region)).fold =
        (Operation.mk name attributes region).fold.mapAttributes (·.erase key) := by
      rw [Operation.fold, Operation.fold, foldList_dropKey region, foldedValue?_dropKey hkey]
      cases foldedValue? name (foldList region) with
      | none => rfl
      | some n => exact (literal_erase hkey n).symm
    show (Operation.mk name (attributes.erase key) (dropKey key region)).fold ::
      foldList (dropKey key ops) = _
    rw [hop, foldList_dropKey ops]
    rfl

end

/-- What is dead is so whatever attributes it has. -/
theorem sweepList_mapAttributesList (f : Attributes → Attributes) : ∀ ops : List Operation,
    sweepList (mapAttributesList f ops) = mapAttributesList f (sweepList ops)
  | [] => rfl
  | ⟨name, attributes, region⟩ :: ops => by
    have hdead : (Operation.mk name (f attributes) (mapAttributesList f (sweepList region))).isDead =
        (Operation.mk name attributes (sweepList region)).isDead := by
      rw [Operation.isDead, Operation.isDead, Operation.isEmpty_mapAttributesList]
    rw [mapAttributesList, Operation.mapAttributes, sweepList, sweepList, Operation.sweep,
      Operation.sweep, sweepList_mapAttributesList f region, sweepList_mapAttributesList f ops, hdead]
    split
    · rfl
    · rfl

/-! ## Modules -/

/-- A node before and after stripping: its location is gone, and nothing else is different. -/
structure Stripped (node node' : Node) : Prop where
  name : node'.head.name = node.head.name
  arity : node'.arity = node.arity
  location : node'.head.attributes.find? locationKey = none
  others : ∀ key, key ≠ locationKey →
    node'.head.attributes.find? key = node.head.attributes.find? key

/-- A node is stripped when it has lost the key of locations. -/
theorem stripped_erase (node : Node) : Stripped node (node.mapAttributes (·.erase locationKey)) :=
  ⟨rfl, rfl, Dictionary.find?_erase_self .., fun _ hkey => Dictionary.find?_erase_ne _ hkey.symm⟩

/-- A module and what is left of it without locations. -/
def Module.IsStripped (m r : Module) : Prop :=
  m.SameFrame r ∧ List.Forall₂ Stripped m.nodes r.nodes

/-- Behind stripping no operation has a location. -/
theorem Module.IsStripped.attr?_eq_none {m r : Module} (h : m.IsStripped r) :
    ∀ op ∈ r.preorder, op.attr? locationKey = none := by
  have hnodes : ∀ node ∈ r.nodes, node.head.attributes.find? locationKey = none :=
    ((List.forall₂_and_left r.nodes m.nodes).mp
      (h.2.flip.imp fun _ _ hstripped => ⟨hstripped.location, hstripped⟩)).1
  exact fun op hop => hnodes op.node (List.mem_map_of_mem hop)

/-- The pass strips every operation. -/
theorem Module.isStripped_stripLocations (m : Module) : m.IsStripped m.stripLocations := by
  refine ⟨⟨rfl, Operation.length_mapAttributesList _ m.ops⟩, ?_⟩
  rw [nodes, nodes, stripLocations, Operation.nodesOf_mapAttributesList, List.forall₂_map_right_iff,
    List.forall₂_same]
  exact fun node _ => stripped_erase node

/-- An integrated pass makes of a stripped module what it makes of the module, stripped. -/
theorem run_stripLocations {pass : Pass} (hpass : pass ∈ Pass.integrated) (context : Context)
    (m : Module) :
    pass.run context m.stripLocations =
      ((pass.run context m).1.stripLocations, (pass.run context m).2) := by
  have hkey : locationKey ≠ Toy.valueKey := by decide
  simp only [Pass.integrated, List.mem_cons, List.not_mem_nil, or_false] at hpass
  rcases hpass with rfl | rfl | rfl
  · have hops : Operation.editHeads doubleHead (dropKey locationKey m.ops) = _ :=
      Operation.editHeads_mapAttributesList (doubleHead_erase hkey) m.ops
    show (Module.mk m.name (Operation.editHeads doubleHead (dropKey locationKey m.ops)).1,
      (Operation.editHeads doubleHead (dropKey locationKey m.ops)).2) = _
    rw [hops]
    rfl
  · show (Module.mk m.name (foldList (dropKey locationKey m.ops)), Except.ok ()) = _
    rw [foldList_dropKey hkey]
    rfl
  · show (Module.mk m.name (sweepList (mapAttributesList _ m.ops)), Except.ok ()) = _
    rw [sweepList_mapAttributesList]
    rfl

/-- An integrated pass fails on a module without locations just if it fails on the module, and
with the same error. Stripping first and then running the pass leaves the same module as the
other way round, also where the pass fails. In that module no operation has a location, at any
depth, and nothing else is different from what the pass alone leaves. -/
theorem stripLocation_commutes {pass : Pass} (hpass : pass ∈ Pass.integrated) (context : Context)
    (m : Module) :
    let stripped := (Pass.stripLocation.run context m).1
    let alone := pass.run context m
    let last := pass.run context stripped
    (Pass.stripLocation.run context m).2 = .ok () ∧
    last.2 = alone.2 ∧
    Pass.stripLocation.run context alone.1 = (last.1, .ok ()) ∧
    (∀ op ∈ last.1.preorder, op.attr? locationKey = none) ∧
    alone.1.IsStripped last.1 := by
  intro stripped alone last
  have hlast : last = (alone.1.stripLocations, alone.2) := run_stripLocations hpass context m
  have hstripped := alone.1.isStripped_stripLocations
  rw [hlast]
  exact ⟨rfl, rfl, rfl, hstripped.attr?_eq_none, hstripped⟩

/-- The location of the literal that is refused goes too. -/
theorem stripLocation_commutes_overflow :
    let located (n : Int64) (place : String) : Operation :=
      (Toy.literal n).setAttr locationKey (.str place)
    let m : Module := ⟨none, [located 1 "a.toy:1", located 9223372036854775807 "a.toy:2"]⟩
    let r : Module := ⟨none, [Toy.literal 2, Toy.literal 9223372036854775807]⟩
    Pass.doubleLiteral ∈ Pass.integrated ∧
      Pass.doubleLiteral.run ⟨.empty, false⟩ (Pass.stripLocation.run ⟨.empty, false⟩ m).1 =
        (r, .error (doublingOverflow 9223372036854775807)) ∧
      Pass.stripLocation.run ⟨.empty, false⟩ (Pass.doubleLiteral.run ⟨.empty, false⟩ m).1 =
        (r, .ok ()) := by
  intro located m r
  have hpass : Pass.doubleLiteral ∈ Pass.integrated := List.mem_cons_self ..
  have hlast : Pass.doubleLiteral.run ⟨.empty, false⟩ (Pass.stripLocation.run ⟨.empty, false⟩ m).1 =
      (r, .error (doublingOverflow 9223372036854775807)) := by
    decide +kernel
  obtain ⟨_, _, hmodule, _⟩ := stripLocation_commutes hpass ⟨.empty, false⟩ m
  rw [hlast] at hmodule
  exact ⟨hpass, hlast, hmodule⟩

end IrOptimizer
