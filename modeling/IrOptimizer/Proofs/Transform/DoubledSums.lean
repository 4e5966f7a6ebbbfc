import IrOptimizer.Proofs.Transform.DoubleLiteral
import IrOptimizer.Proofs.Transform.Unfolded
import IrOptimizer.Transform.StripLocation

/-!
# Doubling literals before or after folding sums

Twice a sum is the sum of the doubles, so a module without products may have its literals doubled
before or after its constants are folded, as long as the doubles have sums in range.

The argument is a simulation. `AllDoubled` relates trees before and after doubling: it is what
the walk of the pass computes (`editHeads_doubleHead_eq_ok_iff`), and folding on both sides keeps
it (`AllDoubled.foldList`), because the same sums fold on both sides and to a number and its
double (`AllDoubled.foldedValue?`). That the doubles have sums in range is needed: three numbers
can be added that have doubles which cannot.
-/

namespace IrOptimizer

open Operation (Head preorderList editHeads)

/-! ## Numbers and their doubles -/

/-- A number and its double. -/
def Twice (n k : Int64) : Prop := k.toInt = 2 * n.toInt

/-- If doubles have a sum in range, so do the numbers. -/
theorem Twice.exists_add {a b x y s : Int64} (ha : Twice a b) (hx : Twice x y)
    (hs : int64? (b.toInt + y.toInt) = some s) :
    ∃ r, int64? (a.toInt + x.toInt) = some r ∧ Twice r s := by
  have hs : s.toInt = 2 * (a.toInt + x.toInt) := by
    rw [int64?_eq_some_iff.mp hs, ha, hx, Int.mul_add]
  have hrange : InRange s.toInt := inRange_toInt s
  cases hr : int64? (a.toInt + x.toInt) with
  | none =>
    refine absurd ?_ (int64?_eq_none_iff.mp hr)
    unfold InRange at hrange ⊢
    omega
  | some r => exact ⟨r, rfl, by rw [Twice, hs, int64?_eq_some_iff.mp hr]⟩

/-- A sum of doubles in range is the double of a sum in range. -/
theorem exists_foldlM_of_twice {ns ks : List Int64} (h : List.Forall₂ Twice ns ks) {a b k : Int64}
    (hab : Twice a b) (hk : ks.foldlM (fun x y => int64? (x.toInt + y.toInt)) b = some k) :
    ∃ n, ns.foldlM (fun x y => int64? (x.toInt + y.toInt)) a = some n ∧ Twice n k := by
  induction h generalizing a b with
  | nil =>
    cases hk
    exact ⟨a, rfl, hab⟩
  | cons hxy _ ih =>
    rw [List.foldlM_cons] at hk ⊢
    obtain ⟨s, hs, hk⟩ := Option.bind_eq_some_iff.mp hk
    obtain ⟨r, hr, hrs⟩ := hab.exists_add hxy hs
    rw [hr]
    exact ih hrs hk

/-- Where the doubles have a sum that stays in range, the numbers have one too, and it is half of
that. -/
theorem rel_accumulate?_add {ns ks : List Int64} (h : List.Forall₂ Twice ns ks)
    (hrange : ∀ first others, ks = first :: others → ¬ LeavesRange (· + ·) first others) :
    Option.Rel Twice (accumulate? (· + ·) ns) (accumulate? (· + ·) ks) := by
  cases h with
  | nil => exact .none
  | @cons a b ns ks hab htail =>
    cases hk : accumulate? (· + ·) (b :: ks) with
    | none => exact absurd (foldlM_int64?_eq_none_iff.mp hk) (hrange b ks rfl)
    | some k =>
      obtain ⟨n, hn, hnk⟩ := exists_foldlM_of_twice htail hab hk
      have hn : accumulate? (· + ·) (a :: ns) = some n := hn
      rw [hn]
      exact .some hnk

/-! ## Sums in range -/

/-- The operation is not a sum, or it has operands that, folded, are not all numbers, or these
numbers can be added from left to right without leaving the range. -/
def Operation.SumInRange (op : Operation) : Prop :=
  op.name = Toy.addName → ∀ first others,
    List.Forall₂ Operation.Holds (foldList op.region) (first :: others) →
      ¬ LeavesRange (· + ·) first others

/-- No sum, at any depth, leaves the range when constants are folded. -/
def SumsInRange (ops : List Operation) : Prop :=
  ∀ op ∈ preorderList ops, op.SumInRange

theorem sumsInRange_cons {op : Operation} {ops : List Operation} :
    SumsInRange (op :: ops) ↔ op.SumInRange ∧ SumsInRange op.region ∧ SumsInRange ops :=
  forall_mem_preorderList_cons

/-- Only sums of literals have to be in range. -/
theorem Operation.sumInRange_iff {op : Operation} :
    op.SumInRange ↔ (op.name = Toy.addName →
      ((foldList op.region).mapM literalValue?).all fun ns =>
        ns.isEmpty || (accumulate? (· + ·) ns).isSome) := by
  refine imp_congr_right fun _ => ?_
  simp only [← mapM_literalValue?_eq_some_iff, ← foldlM_int64?_eq_none_iff]
  cases (foldList op.region).mapM literalValue? with
  | none => simp
  | some ns =>
    cases ns with
    | nil => simp
    | cons first others => simp [accumulate?, Option.isSome_iff_ne_none]

instance (op : Operation) : Decidable op.SumInRange :=
  decidable_of_iff _ Operation.sumInRange_iff.symm

/-! ## Trees and their doubles -/

/-- Trees before and after every literal is doubled. Nothing else is different. -/
inductive AllDoubled : List Operation → List Operation → Prop where
  | nil : AllDoubled [] []
  | literal {attributes n k region region' ops ops'} :
      attributes.find? Toy.valueKey = some (.int n) → Twice n k →
      AllDoubled region region' → AllDoubled ops ops' →
      AllDoubled (⟨Toy.literalName, attributes, region⟩ :: ops)
        (⟨Toy.literalName, attributes.insert Toy.valueKey (.int k), region'⟩ :: ops')
  | other {name attributes region region' ops ops'} : name ≠ Toy.literalName →
      AllDoubled region region' → AllDoubled ops ops' →
      AllDoubled (⟨name, attributes, region⟩ :: ops) (⟨name, attributes, region'⟩ :: ops')

/-- A walk succeeds if the first head is taken, everything inside and the operations behind. -/
theorem Operation.editHeads_cons_eq_ok_iff {ε : Type} {step : Head → Except ε Head}
    {name : String} {attributes : Attributes} {region ops ops' : List Operation} :
    editHeads step (⟨name, attributes, region⟩ :: ops) = (ops', .ok ()) ↔
      ∃ head region' rest', step ⟨name, attributes⟩ = .ok head ∧
        editHeads step region = (region', .ok ()) ∧ editHeads step ops = (rest', .ok ()) ∧
        ops' = ⟨head.name, head.attributes, region'⟩ :: rest' := by
  rw [editHeads, Operation.editHead]
  cases step ⟨name, attributes⟩ with
  | error e => simp
  | ok head =>
    rcases editHeads step region with ⟨region', _ | _⟩
    · simp
    · rcases editHeads step ops with ⟨rest', _ | _⟩ <;> simp [eq_comm]

/-- What the step takes is a literal that can be doubled, or another operation. -/
theorem doubleHead_eq_ok_iff {name : String} {attributes : Attributes} {head : Head} :
    doubleHead ⟨name, attributes⟩ = .ok head ↔ Doubled ⟨⟨name, attributes⟩, 0⟩ ⟨head, 0⟩ := by
  rw [← edited_doubleHead]
  exact ⟨fun h => ⟨h, rfl⟩, fun h => h.head⟩

/-- What doubling makes of operations are their doubles. -/
theorem editHeads_doubleHead_eq_ok_iff : ∀ {ops ops' : List Operation},
    editHeads doubleHead ops = (ops', .ok ()) ↔ AllDoubled ops ops'
  | [], ops' => by
    constructor
    · intro h
      cases h
      exact .nil
    · intro h
      cases h
      rfl
  | ⟨name, attributes, region⟩ :: ops, ops' => by
    rw [Operation.editHeads_cons_eq_ok_iff]
    constructor
    · rintro ⟨head, region', rest', hhead, hregion, hrest, rfl⟩
      have hregion := editHeads_doubleHead_eq_ok_iff.mp hregion
      have hrest := editHeads_doubleHead_eq_ok_iff.mp hrest
      cases doubleHead_eq_ok_iff.mp hhead with
      | literal hfind hk => exact .literal hfind hk hregion hrest
      | other hname => exact .other hname hregion hrest
    · intro h
      cases h with
      | literal hfind hk hregion hrest =>
        exact ⟨_, _, _, doubleHead_eq_ok_iff.mpr (.literal hfind hk),
          editHeads_doubleHead_eq_ok_iff.mpr hregion, editHeads_doubleHead_eq_ok_iff.mpr hrest, rfl⟩
      | other hname hregion hrest =>
        exact ⟨_, _, _, doubleHead_eq_ok_iff.mpr (.other hname),
          editHeads_doubleHead_eq_ok_iff.mpr hregion, editHeads_doubleHead_eq_ok_iff.mpr hrest, rfl⟩

/-! ## Folding on both sides -/

theorem foldedValue?_addName (operands : List Operation) : foldedValue? Toy.addName operands =
    (operands.mapM literalValue?).bind (accumulate? (· + ·)) := rfl

/-- An operation of another name has no value. -/
theorem foldedValue?_of_ne {name : String} {operands : List Operation} (hadd : name ≠ Toy.addName)
    (hmul : name ≠ Toy.mulName) : foldedValue? name operands = none := by
  rw [foldedValue?, arithmetic?, if_neg hadd, if_neg hmul]
  rfl

/-- A literal and its double, in front of trees and their doubles. -/
theorem AllDoubled.cons_literal {n k : Int64} {ops ops' : List Operation} (hnk : Twice n k)
    (h : AllDoubled ops ops') : AllDoubled (Toy.literal n :: ops) (Toy.literal k :: ops') :=
  .literal rfl hnk .nil h

namespace AllDoubled

variable {ops ops' : List Operation}

theorem eq_nil_iff (h : AllDoubled ops ops') : ops = [] ↔ ops' = [] := by
  cases h <;> simp

theorem tail {op op' : Operation} (h : AllDoubled (op :: ops) (op' :: ops')) :
    AllDoubled ops ops' := by
  cases h with
  | literal _ _ _ hops => exact hops
  | other _ _ hops => exact hops

/-- A literal and its double have values, or neither has one. -/
theorem rel_literalValue? {op op' : Operation} (h : AllDoubled (op :: ops) (op' :: ops')) :
    Option.Rel Twice (literalValue? op) (literalValue? op') := by
  cases h with
  | @literal attributes n k region region' _ _ hfind hnk hregion _ =>
    cases region with
    | nil =>
      obtain rfl := hregion.eq_nil_iff.mp rfl
      have hn : Operation.Holds ⟨Toy.literalName, attributes, []⟩ n := ⟨rfl, rfl, hfind⟩
      have hk : Operation.Holds
          ⟨Toy.literalName, attributes.insert Toy.valueKey (.int k), []⟩ k :=
        ⟨rfl, rfl, Dictionary.find?_insert_self ..⟩
      rw [literalValue?_eq_some_iff.mpr hn, literalValue?_eq_some_iff.mpr hk]
      exact .some hnk
    | cons inner region =>
      have hne : inner :: region ≠ [] := List.cons_ne_nil inner region
      have hne' : region' ≠ [] := fun h => hne (hregion.eq_nil_iff.mpr h)
      rw [literalValue?, literalValue?, if_neg (fun h => hne h.2), if_neg (fun h => hne' h.2)]
      exact .none
  | other hname =>
    rw [literalValue?, literalValue?, if_neg (fun h => hname h.1), if_neg (fun h => hname h.1)]
    exact .none

/-- Operands are numbers on both sides or on none, and then they are numbers and their doubles. -/
theorem rel_mapM_literalValue? : ∀ {ops ops' : List Operation}, AllDoubled ops ops' →
    Option.Rel (List.Forall₂ Twice) (ops.mapM literalValue?) (ops'.mapM literalValue?)
  | [], [], _ => .some .nil
  | op :: ops, op' :: ops', h => by
    have hop := h.rel_literalValue?
    have hops := rel_mapM_literalValue? h.tail
    rw [List.mapM_cons, List.mapM_cons]
    generalize literalValue? op = n, literalValue? op' = k at hop ⊢
    generalize ops.mapM literalValue? = ns, ops'.mapM literalValue? = ks at hops ⊢
    cases hop with
    | none => exact .none
    | some hnk =>
      cases hops with
      | none => exact .none
      | some htail => exact .some (.cons hnk htail)

/-- Operands make a number on both sides or on none, and then a number and its double. -/
theorem rel_foldedValue? (h : AllDoubled ops ops') {name : String} (hmul : name ≠ Toy.mulName)
    (hrange : name = Toy.addName → ∀ first others,
      List.Forall₂ Operation.Holds ops' (first :: others) → ¬ LeavesRange (· + ·) first others) :
    Option.Rel Twice (foldedValue? name ops) (foldedValue? name ops') := by
  by_cases hadd : name = Toy.addName
  · have hrange := hrange hadd
    simp only [← mapM_literalValue?_eq_some_iff] at hrange
    have hvalues := h.rel_mapM_literalValue?
    rw [hadd, foldedValue?_addName, foldedValue?_addName]
    generalize ops.mapM literalValue? = ns, ops'.mapM literalValue? = ks at hrange hvalues ⊢
    cases hvalues with
    | none => exact .none
    | some hns =>
      exact rel_accumulate?_add hns fun first others hks => hrange first others (congrArg some hks)
  · rw [foldedValue?_of_ne hadd hmul, foldedValue?_of_ne hadd hmul]
    exact .none

/-- Folding keeps trees and their doubles, if the doubles have no products and sums in range. -/
theorem foldList (h : AllDoubled ops ops') (hmul : EveryName (· ≠ Toy.mulName) ops)
    (hsums : SumsInRange ops') :
    AllDoubled (IrOptimizer.foldList ops) (IrOptimizer.foldList ops') := by
  induction h with
  | nil => exact .nil
  | literal hfind hnk _ _ ihregion ih =>
    obtain ⟨_, hmulregion, hmulops⟩ := everyName_cons.mp hmul
    obtain ⟨_, hsumsregion, hsumsops⟩ := sumsInRange_cons.mp hsums
    exact .literal hfind hnk (ihregion hmulregion hsumsregion) (ih hmulops hsumsops)
  | @other name attributes region region' ops ops' hname _ _ ihregion ih =>
    obtain ⟨hmulop, hmulregion, hmulops⟩ := everyName_cons.mp hmul
    obtain ⟨hsum, hsumsregion, hsumsops⟩ := sumsInRange_cons.mp hsums
    have hregion := ihregion hmulregion hsumsregion
    have hops := ih hmulops hsumsops
    have hfolded := hregion.rel_foldedValue? hmulop hsum
    rw [IrOptimizer.foldList, IrOptimizer.foldList, Operation.fold, Operation.fold]
    -- the same operations are replaced on both sides
    generalize foldedValue? name (IrOptimizer.foldList region) = n,
      foldedValue? name (IrOptimizer.foldList region') = k at hfolded ⊢
    cases hfolded with
    | none => exact .other hname hregion hops
    | some hnk => exact .cons_literal hnk hops

end AllDoubled

/-! ## Modules -/

/-- The pass succeeds just with the doubles. -/
theorem run_doubleLiteral_eq_ok_iff_allDoubled {context : Context} {m r : Module} :
    Pass.doubleLiteral.run context m = (r, .ok ()) ↔ r.name = m.name ∧ AllDoubled m.ops r.ops := by
  rw [← editHeads_doubleHead_eq_ok_iff]
  have hrun : Pass.doubleLiteral.run context m =
      (⟨m.name, (editHeads doubleHead m.ops).1⟩, (editHeads doubleHead m.ops).2) := rfl
  obtain ⟨name, ops⟩ := r
  rw [hrun, Prod.ext_iff, Prod.ext_iff, Module.mk.injEq, and_assoc]
  exact and_congr_left' eq_comm

/-- If a module has no products, its literals can be doubled and no sum overflows when the doubled
module is folded, then it makes no difference which is done first: folding and then doubling
succeeds as well, and leaves the same module. -/
theorem doubleLiteral_foldConstants_interchange (context : Context) {m doubled : Module}
    (hmul : ∀ op ∈ m.preorder, op.name ≠ Toy.mulName)
    (hdouble : Pass.doubleLiteral.run context m = (doubled, .ok ()))
    (hsums : ∀ op ∈ doubled.preorder, op.SumInRange) :
    ∃ folded last, Pass.foldConstants.run context doubled = (last, .ok ()) ∧
      Pass.foldConstants.run context m = (folded, .ok ()) ∧
      Pass.doubleLiteral.run context folded = (last, .ok ()) := by
  obtain ⟨hname, hops⟩ := run_doubleLiteral_eq_ok_iff_allDoubled.mp hdouble
  refine ⟨m.foldConstants, doubled.foldConstants, rfl, rfl, ?_⟩
  exact run_doubleLiteral_eq_ok_iff_allDoubled.mpr ⟨hname, hops.foldList hmul hsums⟩

/-- Sums that fold stand inside one that does not, and a literal has something inside. -/
theorem doubleLiteral_foldConstants_interchange_nested :
    let sum (operands : List Operation) : Operation :=
      ⟨Toy.addName, Dictionary.empty.insert locationKey (.str "a.toy:1"), operands⟩
    let around (n : Int64) (inner : List Operation) : Operation :=
      ⟨Toy.literalName, (Toy.literal n).attributes, inner⟩
    let m : Module := ⟨some "main", [sum [.ofName Toy.nopName, sum [Toy.literal 3,
      sum [Toy.literal (-4), Toy.literal 6]]], around 7 [sum [Toy.literal 1]], sum []]⟩
    let doubled : Module := ⟨some "main", [sum [.ofName Toy.nopName, sum [Toy.literal 6,
      sum [Toy.literal (-8), Toy.literal 12]]], around 14 [sum [Toy.literal 2]], sum []]⟩
    let last : Module := ⟨some "main", [sum [.ofName Toy.nopName, Toy.literal 10],
      around 14 [Toy.literal 2], sum []]⟩
    (∀ op ∈ m.preorder, op.name ≠ Toy.mulName) ∧
      Pass.doubleLiteral.run ⟨.empty, false⟩ m = (doubled, .ok ()) ∧
      (∀ op ∈ doubled.preorder, op.SumInRange) ∧
      Pass.foldConstants.run ⟨.empty, false⟩ doubled = (last, .ok ()) ∧
      ∃ folded, Pass.foldConstants.run ⟨.empty, false⟩ m = (folded, .ok ()) ∧
        Pass.doubleLiteral.run ⟨.empty, false⟩ folded = (last, .ok ()) := by
  intro sum around m doubled last
  have hmul : ∀ op ∈ m.preorder, op.name ≠ Toy.mulName := by decide +kernel
  have hdouble : Pass.doubleLiteral.run ⟨.empty, false⟩ m = (doubled, .ok ()) := by decide +kernel
  have hsums : ∀ op ∈ doubled.preorder, op.SumInRange := by decide +kernel
  have hlast : Pass.foldConstants.run ⟨.empty, false⟩ doubled = (last, .ok ()) := by decide +kernel
  obtain ⟨folded, last', hlast', hfolded, hboth⟩ :=
    doubleLiteral_foldConstants_interchange ⟨.empty, false⟩ hmul hdouble hsums
  cases hlast.symm.trans hlast'
  exact ⟨hmul, hdouble, hsums, hlast, folded, hfolded, hboth⟩

/-- These numbers have a sum in range, but already the doubles of the first two have none. -/
example :
    let n : Int64 := 2305843009213693952
    let m : Module := ⟨none, [⟨Toy.addName, .empty,
      [Toy.literal n, Toy.literal n, Toy.literal (-n)]⟩]⟩
    (Pass.foldConstants.run ⟨.empty, false⟩ (Pass.doubleLiteral.run ⟨.empty, false⟩ m).1).1 ≠
      (Pass.doubleLiteral.run ⟨.empty, false⟩ (Pass.foldConstants.run ⟨.empty, false⟩ m).1).1 := by
  decide +kernel

end IrOptimizer
