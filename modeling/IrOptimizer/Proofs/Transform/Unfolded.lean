import IrOptimizer.Proofs.Operation
import IrOptimizer.Proofs.Transform.FoldConstants
import Mathlib.Data.List.Forall2

/-!
# What constant folding leaves unfolded

A sum or a product stays only for one of three reasons: it has no operands, one of its folded
operands is not a literal, or the numbers leave the 64-bit range on the way from left to right
(`Unfoldable`). Nothing else keeps one from being replaced (`foldedValue?_eq_none_iff`).

So what the pass leaves is folded through and through (`foldedThrough_foldList`), and a second run
finds nothing to do. `foldConstants_complete` says in addition where the sums and products are
that stay: at the place where they were. That needs one thing more, that an operation which
stays is not swallowed by one around it; it is not, since what is replaced has nothing but
literals inside.
-/

namespace IrOptimizer

open Operation (preorderList)

/-! ## Literals -/

/-- A literal without children that holds an integer. -/
structure Operation.Holds (op : Operation) (n : Int64) : Prop where
  name : op.name = Toy.literalName
  leaf : op.region = []
  value : op.attr? Toy.valueKey = some (.int n)

theorem Operation.holds_literal (n : Int64) : (Toy.literal n).Holds n := ⟨rfl, rfl, rfl⟩

/-- The operations that have a value are those that hold it. -/
theorem literalValue?_eq_some_iff {op : Operation} {n : Int64} :
    literalValue? op = some n ↔ op.Holds n := by
  unfold literalValue?
  split
  · next hlit =>
    rw [Attribute.bind_asInt?_eq_some_iff]
    exact ⟨fun hvalue => ⟨hlit.1, hlit.2, hvalue⟩, fun h => h.value⟩
  · next hlit => exact ⟨nofun, fun h => absurd ⟨h.name, h.leaf⟩ hlit⟩

theorem mapM_literalValue?_eq_some_iff {ops : List Operation} {ns : List Int64} :
    ops.mapM literalValue? = some ns ↔ List.Forall₂ Operation.Holds ops ns := by
  induction ops generalizing ns with
  | nil =>
    rw [List.forall₂_nil_left_iff]
    exact ⟨fun h => (Option.some.inj h).symm, fun h => h ▸ rfl⟩
  | cons op ops ih =>
    rw [List.mapM_cons, List.forall₂_cons_left_iff]
    constructor
    · intro h
      obtain ⟨n, hn, h⟩ := Option.bind_eq_some_iff.mp h
      obtain ⟨ns', hns, h⟩ := Option.bind_eq_some_iff.mp h
      cases h
      exact ⟨n, ns', literalValue?_eq_some_iff.mp hn, ih.mp hns, rfl⟩
    · rintro ⟨n, ns', hn, hns, rfl⟩
      rw [literalValue?_eq_some_iff.mpr hn, ih.mpr hns]
      rfl

theorem exists_holds_of_mapM {ops : List Operation} {ns : List Int64}
    (h : ops.mapM literalValue? = some ns) : ∀ op ∈ ops, ∃ n, op.Holds n :=
  ((List.forall₂_and_left ops ns).mp
    ((mapM_literalValue?_eq_some_iff.mp h).imp fun _ n hn => ⟨⟨n, hn⟩, hn⟩)).1

/-- If not all have values, there is one that holds none. -/
theorem exists_not_holds_of_mapM {ops : List Operation} (h : ops.mapM literalValue? = none) :
    ∃ op ∈ ops, ∀ n, ¬ op.Holds n := by
  induction ops with
  | nil => cases h
  | cons op ops ih =>
    cases hop : literalValue? op with
    | none =>
      refine ⟨op, List.mem_cons_self .., fun n hn => ?_⟩
      cases hop.symm.trans (literalValue?_eq_some_iff.mpr hn)
    | some n =>
      cases hops : ops.mapM literalValue? with
      | none =>
        obtain ⟨other, hmem, hnot⟩ := ih hops
        exact ⟨other, List.mem_cons_of_mem _ hmem, hnot⟩
      | some ns =>
        rw [List.mapM_cons, hop, hops] at h
        cases h

/-! ## Leaving the range -/

/-- On the way from left to right a result is out of range: that of the first number and some
that come next. -/
def LeavesRange (combine : Int → Int → Int) (first : Int64) (others : List Int64) : Prop :=
  ∃ front, front <+: others ∧ ¬ InRange ((front.map Int64.toInt).foldl combine first.toInt)

section

variable {combine : Int → Int → Int} {first next : Int64} {others : List Int64}

theorem not_leavesRange_nil : ¬ LeavesRange combine first [] := by
  rintro ⟨front, hfront, hout⟩
  obtain rfl := List.prefix_nil.mp hfront
  exact hout (inRange_toInt first)

/-- The range is left at the next number, or further on from the result up to there. -/
theorem leavesRange_cons_iff :
    LeavesRange combine first (next :: others) ↔
      ¬ InRange (combine first.toInt next.toInt) ∨
        ∃ k : Int64, k.toInt = combine first.toInt next.toInt ∧ LeavesRange combine k others := by
  constructor
  · rintro ⟨front, hfront, hout⟩
    cases front with
    | nil => exact absurd (inRange_toInt first) hout
    | cons number front =>
      obtain ⟨rfl, hprefix⟩ := List.cons_prefix_cons.mp hfront
      rw [List.map_cons, List.foldl_cons] at hout
      cases hk : int64? (combine first.toInt number.toInt) with
      | none => exact .inl (int64?_eq_none_iff.mp hk)
      | some k =>
        have hk := int64?_eq_some_iff.mp hk
        exact .inr ⟨k, hk, front, hprefix, hk ▸ hout⟩
  · rintro (hout | ⟨k, hk, front, hfront, hout⟩)
    · exact ⟨[next], List.cons_prefix_cons.mpr ⟨rfl, List.nil_prefix⟩, hout⟩
    · refine ⟨next :: front, List.cons_prefix_cons.mpr ⟨rfl, hfront⟩, ?_⟩
      rwa [List.map_cons, List.foldl_cons, ← hk]

/-- Accumulating fails just where it leaves the range. -/
theorem foldlM_int64?_eq_none_iff :
    others.foldlM (fun a b => int64? (combine a.toInt b.toInt)) first = none ↔
      LeavesRange combine first others := by
  induction others generalizing first with
  | nil => exact ⟨nofun, fun h => absurd h not_leavesRange_nil⟩
  | cons next others ih =>
    rw [List.foldlM_cons, leavesRange_cons_iff]
    cases hk : int64? (combine first.toInt next.toInt) with
    | none => exact ⟨fun _ => .inl (int64?_eq_none_iff.mp hk), fun _ => rfl⟩
    | some k =>
      have hk := int64?_eq_some_iff.mp hk
      show others.foldlM _ k = none ↔ _
      rw [ih]
      constructor
      · intro h
        exact .inr ⟨k, hk, h⟩
      · rintro (hout | ⟨k', hk', h⟩)
        · exact absurd (hk ▸ inRange_toInt k) hout
        · obtain rfl : k' = k := Int64.toInt_inj.mp (hk'.trans hk.symm)
          exact h

end

/-! ## Sums and products that stay -/

/-- Why operands do not make a number: there are none, one of them is not a literal, or on the
way from left to right the range is left. -/
inductive Unfoldable (combine : Int → Int → Int) : List Operation → Prop where
  | empty : Unfoldable combine []
  | operand {op : Operation} {operands : List Operation} :
      op ∈ operands → (∀ n, ¬ op.Holds n) → Unfoldable combine operands
  | range {operands : List Operation} {first : Int64} {others : List Int64} :
      List.Forall₂ Operation.Holds operands (first :: others) →
      LeavesRange combine first others → Unfoldable combine operands

/-- A sum or a product. -/
def Operation.IsArithmetic (op : Operation) : Prop :=
  op.name = Toy.addName ∨ op.name = Toy.mulName

/-- A sum or a product of which the operands do not make a number. -/
def Operation.Stays (op : Operation) : Prop :=
  (op.name = Toy.addName ∧ Unfoldable (· + ·) op.region) ∨
    (op.name = Toy.mulName ∧ Unfoldable (· * ·) op.region)

/-- Only arithmetic has reasons to stay. -/
theorem Operation.Stays.isArithmetic {op : Operation} (h : op.Stays) : op.IsArithmetic :=
  h.imp And.left And.left

/-- What holds a value is no arithmetic. -/
theorem Operation.Holds.not_isArithmetic {op : Operation} {n : Int64} (h : op.Holds n) :
    ¬ op.IsArithmetic := by
  rw [Operation.IsArithmetic, h.name]
  decide

/-- There is no value just if there is a reason for it in the operands. -/
theorem accumulate?_eq_none_iff {combine : Int → Int → Int} {operands : List Operation} :
    (operands.mapM literalValue?).bind (accumulate? combine) = none ↔
      Unfoldable combine operands := by
  cases hns : operands.mapM literalValue? with
  | none =>
    obtain ⟨op, hmem, hnot⟩ := exists_not_holds_of_mapM hns
    exact ⟨fun _ => .operand hmem hnot, fun _ => rfl⟩
  | some ns =>
    constructor
    · intro h
      have hholds := mapM_literalValue?_eq_some_iff.mp hns
      cases ns with
      | nil =>
        obtain rfl := List.forall₂_nil_right_iff.mp hholds
        exact .empty
      | cons first others => exact .range hholds (foldlM_int64?_eq_none_iff.mp h)
    · intro h
      cases h with
      | empty =>
        cases hns
        rfl
      | operand hmem hnot =>
        obtain ⟨n, hn⟩ := exists_holds_of_mapM hns _ hmem
        exact absurd hn (hnot n)
      | range hholds hleaves =>
        cases hns.symm.trans (mapM_literalValue?_eq_some_iff.mpr hholds)
        exact foldlM_int64?_eq_none_iff.mpr hleaves

/-- A sum or a product is kept just if it has a reason to stay. -/
theorem foldedValue?_eq_none_iff {op : Operation} (h : op.IsArithmetic) :
    foldedValue? op.name op.region = none ↔ op.Stays := by
  have hne : Toy.addName ≠ Toy.mulName := by decide
  rcases h with hname | hname
  · have hstays : op.Stays ↔ Unfoldable (· + ·) op.region := by
      simp [Operation.Stays, hname, hne]
    rw [hstays, ← accumulate?_eq_none_iff, hname]
    rfl
  · have hstays : op.Stays ↔ Unfoldable (· * ·) op.region := by
      simp [Operation.Stays, hname, hne.symm]
    rw [hstays, ← accumulate?_eq_none_iff, hname]
    rfl

/-- What makes a number consists of literals. -/
theorem exists_holds_of_foldedValue? {name : String} {operands : List Operation} {n : Int64}
    (h : foldedValue? name operands = some n) : ∀ op ∈ operands, ∃ k, op.Holds k := by
  obtain ⟨combine, _, h⟩ := Option.bind_eq_some_iff.mp h
  obtain ⟨ns, hns, _⟩ := Option.bind_eq_some_iff.mp h
  exact exists_holds_of_mapM hns

/-! ## The result is folded -/

/-- The operation with its children folded. -/
def Operation.foldRegion (op : Operation) : Operation := { op with region := foldList op.region }

/-- Without a value an operation stays, and what is inside it is folded. -/
theorem fold_of_none {op : Operation} (h : foldedValue? op.name (foldList op.region) = none) :
    op.fold = op.foldRegion := by
  obtain ⟨name, attributes, region⟩ := op
  rw [Operation.fold, h]
  rfl

/-- With a value it is replaced by the literal. -/
theorem fold_of_some {op : Operation} {n : Int64}
    (h : foldedValue? op.name (foldList op.region) = some n) : op.fold = Toy.literal n := by
  obtain ⟨name, attributes, region⟩ := op
  rw [Operation.fold, h]

/-- No operation, at any depth, has operands that make a number. -/
def FoldedThrough (ops : List Operation) : Prop :=
  ∀ op ∈ preorderList ops, foldedValue? op.name op.region = none

theorem foldedThrough_nil : FoldedThrough [] := fun _ hop => nomatch hop

/-- A list is folded if its first operation has no value and all below and behind it is folded.
-/
theorem foldedThrough_cons {op : Operation} {ops : List Operation} :
    FoldedThrough (op :: ops) ↔
      foldedValue? op.name op.region = none ∧ FoldedThrough op.region ∧ FoldedThrough ops :=
  forall_mem_preorderList_cons

/-- Behind the pass nothing is left that could be folded. -/
theorem foldedThrough_foldList : ∀ ops : List Operation, FoldedThrough (foldList ops)
  | [] => foldedThrough_nil
  | ⟨name, attributes, region⟩ :: ops => by
    have hregion := foldedThrough_foldList region
    have hops := foldedThrough_foldList ops
    rw [foldList]
    cases hvalue : foldedValue? name (foldList region) with
    | none =>
      rw [fold_of_none hvalue]
      exact foldedThrough_cons.mpr ⟨hvalue, hregion, hops⟩
    | some n =>
      rw [fold_of_some hvalue]
      exact foldedThrough_cons.mpr ⟨rfl, foldedThrough_nil, hops⟩

/-- Where nothing can be folded the pass changes nothing. -/
theorem FoldedThrough.foldList_eq : ∀ {ops : List Operation}, FoldedThrough ops →
    foldList ops = ops
  | [], _ => rfl
  | ⟨name, attributes, region⟩ :: ops, h => by
    obtain ⟨hvalue, hregion, hops⟩ := foldedThrough_cons.mp h
    have hregion : foldList region = region := FoldedThrough.foldList_eq hregion
    have hkept : foldedValue? name (foldList region) = none := by rwa [hregion]
    rw [foldList, fold_of_none hkept, FoldedThrough.foldList_eq hops, Operation.foldRegion, hregion]

/-! ## Places -/

namespace Operation

theorem at?_nil (path : List Nat) : at? path [] = none := by
  rcases path with _ | ⟨i, _ | ⟨j, path⟩⟩ <;> rfl

/-- Folding keeps the place of every operation at the top. -/
theorem getElem?_foldList (ops : List Operation) (i : Nat) :
    (foldList ops)[i]? = ops[i]?.map fold := by
  rw [foldList_eq_map, List.getElem?_map]

/-- Among literals without children there are no other operations. -/
theorem holds_of_at? {path : List Nat} {ops : List Operation} {op : Operation}
    (hops : ∀ x ∈ ops, ∃ n, x.Holds n) (h : at? path ops = some op) : ∃ n, op.Holds n := by
  rcases path with _ | ⟨i, _ | ⟨j, path⟩⟩
  · cases h
  · exact hops op (List.mem_of_getElem? h)
  · obtain ⟨outer, houter, h⟩ := Option.bind_eq_some_iff.mp h
    obtain ⟨n, hn⟩ := hops outer (List.mem_of_getElem? houter)
    rw [hn.leaf, at?_nil] at h
    cases h

/-- A sum or a product after folding was one before, at the same place, and has a reason to
stay. -/
theorem exists_of_at?_foldList : ∀ {path : List Nat} {ops : List Operation} {op' : Operation},
    op'.IsArithmetic → at? path (foldList ops) = some op' →
    ∃ op, at? path ops = some op ∧ op' = op.foldRegion ∧ op'.Stays
  | [], _, _, _, h => nomatch h
  | [i], ops, op', harithmetic, h => by
    have h : (foldList ops)[i]? = some op' := h
    rw [getElem?_foldList] at h
    obtain ⟨op, hop, rfl⟩ := Option.map_eq_some_iff.mp h
    refine ⟨op, hop, ?_⟩
    cases hvalue : foldedValue? op.name (foldList op.region) with
    | none =>
      rw [fold_of_none hvalue] at harithmetic ⊢
      exact ⟨rfl, (foldedValue?_eq_none_iff harithmetic).mp hvalue⟩
    | some n =>
      rw [fold_of_some hvalue] at harithmetic
      exact absurd harithmetic (holds_literal n).not_isArithmetic
  | i :: j :: path, ops, op', harithmetic, h => by
    obtain ⟨outer', houter', h⟩ := Option.bind_eq_some_iff.mp h
    rw [getElem?_foldList] at houter'
    obtain ⟨outer, houter, rfl⟩ := Option.map_eq_some_iff.mp houter'
    cases hvalue : foldedValue? outer.name (foldList outer.region) with
    | none =>
      rw [fold_of_none hvalue] at h
      obtain ⟨op, hop, hstays⟩ := exists_of_at?_foldList harithmetic h
      exact ⟨op, Option.bind_eq_some_iff.mpr ⟨outer, houter, hop⟩, hstays⟩
    | some n =>
      rw [fold_of_some hvalue] at h
      cases (at?_nil _).symm.trans h

/-- An operation that has a reason to stay is at its place after folding. -/
theorem at?_foldList_of_stays : ∀ {path : List Nat} {ops : List Operation} {op : Operation},
    op.foldRegion.Stays → at? path ops = some op → at? path (foldList ops) = some op.foldRegion
  | [], _, _, _, h => nomatch h
  | [i], ops, op, hstays, h => by
    have h : ops[i]? = some op := h
    have hvalue := (foldedValue?_eq_none_iff hstays.isArithmetic).mpr hstays
    show (foldList ops)[i]? = _
    rw [getElem?_foldList, h, Option.map_some, fold_of_none hvalue]
  | i :: j :: path, ops, op, hstays, h => by
    obtain ⟨outer, houter, h⟩ := Option.bind_eq_some_iff.mp h
    have hinner := at?_foldList_of_stays hstays h
    refine Option.bind_eq_some_iff.mpr ⟨outer.fold, ?_, ?_⟩
    · rw [getElem?_foldList, houter, Option.map_some]
    · cases hvalue : foldedValue? outer.name (foldList outer.region) with
      | none =>
        rw [fold_of_none hvalue]
        exact hinner
      | some n =>
        -- an operation that is replaced has only literals inside, and this is none
        obtain ⟨k, hk⟩ := holds_of_at? (exists_holds_of_foldedValue? hvalue) hinner
        exact absurd hstays.isArithmetic hk.not_isArithmetic

end Operation

/-- The pass succeeds. A sum or a product is at a place afterwards just if there was one at
that place before and, with its children folded, it has no operands, or one that is not a
literal, or the range is left on the way from left to right. A second run changes nothing. -/
theorem foldConstants_complete (context : Context) (m : Module) :
    let run := Pass.foldConstants.run context m
    run.2 = .ok () ∧
      (∀ path op', op'.IsArithmetic ∧ Operation.at? path run.1.ops = some op' ↔
        ∃ op, Operation.at? path m.ops = some op ∧ op' = op.foldRegion ∧ op'.Stays) ∧
      Pass.foldConstants.run context run.1 = (run.1, .ok ()) := by
  refine ⟨rfl, fun path op' => ⟨?_, ?_⟩, ?_⟩
  · rintro ⟨harithmetic, hplace⟩
    exact Operation.exists_of_at?_foldList harithmetic hplace
  · rintro ⟨op, hplace, rfl, hstays⟩
    exact ⟨hstays.isArithmetic, Operation.at?_foldList_of_stays hstays hplace⟩
  · have hfold : foldList (foldList m.ops) = foldList m.ops :=
      (foldedThrough_foldList m.ops).foldList_eq
    show (Module.mk m.name (foldList (foldList m.ops)), Except.ok ()) = _
    rw [hfold]
    rfl

/-- These three numbers have a sum that is in range, but the first two do not. -/
example :
    let m : Module := ⟨none, [⟨Toy.addName, .empty,
      [Toy.literal 9223372036854775807, Toy.literal 1, Toy.literal (-1)]⟩]⟩
    m.foldConstants = m := by
  rfl

end IrOptimizer
