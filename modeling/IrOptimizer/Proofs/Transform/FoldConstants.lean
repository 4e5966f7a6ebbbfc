import IrOptimizer.Transform.FoldConstants

/-!
# Constant folding keeps values

What an operation stands for is an integer without any bound (`Operation.value?`):
a literal stands for its value, a sum for the sum of what its operands stand for,
a product likewise. The pass itself computes in 64 bits, from left to right, and
gives up where a step does not fit. It is right all the same: if no step is given
up, the result is the exact one (`accumulate?_eq_some`), and an operation that is
not replaced has operands that stand for what they stood for before.

`Folded` says where operations may differ before and after. Both facts are proved
along the tree, children first.
-/

namespace IrOptimizer

/-! ## Values -/

mutual

/-- The integer an operation stands for. A literal has no children, a sum or a
product has some, and all of them stand for integers. -/
def Operation.value? : Operation → Option Int
  | ⟨name, attributes, region⟩ =>
    if region.isEmpty then
      if name = Toy.literalName then
        ((attributes.find? Toy.valueKey).bind Attribute.asInt?).map Int64.toInt
      else none
    else if name = Toy.addName then (values? region).map (List.foldr (· + ·) 0)
    else if name = Toy.mulName then (values? region).map (List.foldr (· * ·) 1)
    else none

/-- What operations stand for, if each of them stands for an integer. -/
def values? : List Operation → Option (List Int)
  | [] => some []
  | op :: ops => do pure ((← op.value?) :: (← values? ops))

end

/-- A literal has the value it is made for. -/
theorem Operation.value?_literal (n : Int64) : (Toy.literal n).value? = some n.toInt := rfl

/-- Of its children, an operation only uses whether there are any and what they stand for. -/
theorem Operation.value?_congr {name : String} {attributes : Attributes}
    {region region' : List Operation} (hempty : region.isEmpty = region'.isEmpty)
    (hvalues : values? region = values? region') :
    (Operation.mk name attributes region).value? = (Operation.mk name attributes region').value? := by
  rw [Operation.value?, Operation.value?, hempty, hvalues]

/-- What the pass takes for a literal stands for that integer. -/
theorem value?_of_literalValue? {op : Operation} {n : Int64} (h : literalValue? op = some n) :
    op.value? = some n.toInt := by
  obtain ⟨name, attributes, region⟩ := op
  unfold literalValue? at h
  split at h
  · next hlit =>
    obtain ⟨rfl, rfl⟩ := hlit
    have hfind : (attributes.find? Toy.valueKey).bind Attribute.asInt? = some n := h
    rw [Operation.value?, List.isEmpty_nil, if_pos rfl, if_pos rfl, hfind]
    rfl
  · cases h

/-- The values of literals are those of the operations. -/
theorem values?_of_mapM_literalValue? {ops : List Operation} {ns : List Int64}
    (h : ops.mapM literalValue? = some ns) : values? ops = some (ns.map Int64.toInt) := by
  induction ops generalizing ns with
  | nil =>
    cases h
    rfl
  | cons op ops ih =>
    rw [List.mapM_cons] at h
    obtain ⟨n, hn, h⟩ := Option.bind_eq_some_iff.mp h
    obtain ⟨ns', hns, h⟩ := Option.bind_eq_some_iff.mp h
    cases h
    rw [values?, value?_of_literalValue? hn, ih hns]
    rfl

/-! ## Accumulating in 64 bits -/

/-- If every step fits, the last result is the exact one. -/
theorem foldlM_int64?_eq_some {combine : Int → Int → Int} {ns : List Int64} {k n : Int64}
    (h : ns.foldlM (fun a b => int64? (combine a.toInt b.toInt)) k = some n) :
    n.toInt = (ns.map Int64.toInt).foldl combine k.toInt := by
  induction ns generalizing k with
  | nil =>
    cases h
    rfl
  | cons j ns ih =>
    rw [List.foldlM_cons] at h
    obtain ⟨i, hi, h⟩ := Option.bind_eq_some_iff.mp h
    rw [ih h, List.map_cons, List.foldl_cons, int64?_eq_some_iff.mp hi]

/-- For sums and products it does not matter on which side one begins. -/
theorem accumulate?_eq_some {combine : Int → Int → Int} {unit : Int} [Std.Associative combine]
    [Std.LawfulRightIdentity combine unit] {ns : List Int64} {n : Int64}
    (h : accumulate? combine ns = some n) : n.toInt = (ns.map Int64.toInt).foldr combine unit := by
  cases ns with
  | nil => cases h
  | cons k ks =>
    have hright : (ks.map Int64.toInt).foldl combine k.toInt =
        combine k.toInt ((ks.map Int64.toInt).foldr combine unit) := List.foldl_eq_apply_foldr
    rw [foldlM_int64?_eq_some h, hright]
    rfl

/-- What the pass computes for a sum or a product is what that stands for. -/
theorem value?_of_foldedValue? {name : String} {region : List Operation} {n : Int64}
    (h : foldedValue? name region = some n) :
    (name = Toy.addName ∨ name = Toy.mulName) ∧
      ∀ attributes, (Operation.mk name attributes region).value? = some n.toInt := by
  obtain ⟨combine, hcombine, h⟩ := Option.bind_eq_some_iff.mp h
  obtain ⟨ns, hns, hn⟩ := Option.bind_eq_some_iff.mp h
  have hvalues := values?_of_mapM_literalValue? hns
  have hempty : ¬ region.isEmpty = true := by
    -- without operands there is nothing to begin with
    intro hregion
    obtain rfl := List.isEmpty_iff.mp hregion
    cases hns
    cases hn
  unfold arithmetic? at hcombine
  split at hcombine
  · next hadd =>
    cases hcombine
    refine ⟨.inl hadd, fun attributes => ?_⟩
    rw [Operation.value?, if_neg hempty, if_pos hadd, hvalues, accumulate?_eq_some hn]
    rfl
  · next hadd =>
    split at hcombine
    · next hmul =>
      cases hcombine
      refine ⟨.inr hmul, fun attributes => ?_⟩
      rw [Operation.value?, if_neg hempty, if_neg hadd, if_pos hmul, hvalues,
        accumulate?_eq_some hn]
      rfl
    · cases hcombine

/-! ## Folding -/

theorem foldList_eq_map (ops : List Operation) : foldList ops = ops.map Operation.fold := by
  induction ops with
  | nil => rfl
  | cons op ops ih => rw [foldList, ih, List.map_cons]

theorem isEmpty_foldList (ops : List Operation) : (foldList ops).isEmpty = ops.isEmpty := by
  rw [foldList_eq_map, List.isEmpty_map]

mutual

/-- An operation stands for the same integer after folding, or for none. -/
theorem Operation.value?_fold : ∀ op : Operation, op.fold.value? = op.value?
  | ⟨name, attributes, region⟩ => by
    -- whether or not it is replaced, it stands for what its folded operands make
    have hregion : (Operation.mk name attributes (foldList region)).value? =
        (Operation.mk name attributes region).value? :=
      Operation.value?_congr (isEmpty_foldList region) (values?_foldList region)
    rw [← hregion, Operation.fold]
    split
    · next n hn => rw [Operation.value?_literal, (value?_of_foldedValue? hn).2 attributes]
    · rfl

/-- Folding keeps the values of operands. -/
theorem values?_foldList : ∀ ops : List Operation, values? (foldList ops) = values? ops
  | [] => rfl
  | op :: ops => by
    rw [foldList, values?, values?, Operation.value?_fold op, values?_foldList ops]

end

mutual

/-- How an operation may differ after folding: it is kept, and its children may
differ in this way; or it is a sum or a product, and the literal of what it stands
for is in its place. -/
inductive Folded : Operation → Operation → Prop where
  | kept {name attributes region region'} : AllFolded region region' →
      Folded ⟨name, attributes, region⟩ ⟨name, attributes, region'⟩
  | replaced {op n} : op.name = Toy.addName ∨ op.name = Toy.mulName → op.value? = some n.toInt →
      Folded op (Toy.literal n)

inductive AllFolded : List Operation → List Operation → Prop where
  | nil : AllFolded [] []
  | cons {op op' ops ops'} : Folded op op' → AllFolded ops ops' →
      AllFolded (op :: ops) (op' :: ops')

end

mutual

/-- Folding replaces operations that have a value, and keeps the others. -/
theorem Operation.folded_fold : ∀ op : Operation, Folded op op.fold
  | ⟨name, attributes, region⟩ => by
    have hvalue := Operation.value?_fold ⟨name, attributes, region⟩
    rw [Operation.fold] at hvalue ⊢
    cases hn : foldedValue? name (foldList region) with
    | some n =>
      rw [hn] at hvalue
      exact .replaced (value?_of_foldedValue? hn).1 hvalue.symm
    | none => exact .kept (allFolded_foldList region)

theorem allFolded_foldList : ∀ ops : List Operation, AllFolded ops (foldList ops)
  | [] => .nil
  | op :: ops => .cons (Operation.folded_fold op) (allFolded_foldList ops)

end

/-- The pass does not fail. What each top-level operation stands for is as it was,
none is added, dropped or moved, and throughout the tree an operation is kept with
its children folded, or is a sum or a product and gives way to its literal. -/
theorem foldConstants_keeps_values (context : Context) (m : Module) :
    (Pass.foldConstants.run context m).2 = .ok () ∧
      (Pass.foldConstants.run context m).1.name = m.name ∧
      (Pass.foldConstants.run context m).1.ops.map Operation.value? = m.ops.map Operation.value? ∧
      AllFolded m.ops (Pass.foldConstants.run context m).1.ops := by
  refine ⟨rfl, rfl, ?_, allFolded_foldList m.ops⟩
  show (foldList m.ops).map Operation.value? = _
  rw [foldList_eq_map, List.map_map]
  exact List.map_congr_left fun op _ => op.value?_fold

end IrOptimizer
