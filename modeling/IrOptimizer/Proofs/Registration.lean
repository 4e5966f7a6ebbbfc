import Mathlib.Data.List.TakeDrop
import Mathlib.Data.List.TakeWhile
import IrOptimizer.Dialect

/-!
# Registered dialects and legal names

A registry comes about by calls that register dialects. A call that is refused leaves the
registry as it was (`afterCall`), so every registry is `afterCalls` of some list of calls, in
which refused ones may stand anywhere.

Every such registry keeps each dialect under its own name (`WellKept`). With that a legal name
can be taken apart: it is cut at its first dot, so the dialect that makes it legal is one whose
name has no dot. A dialect with a dot in its name is registered like any other, but none of its
kinds is ever found through it (`isLegal_afterCalls_iff`); that it should make names legal, as
one might think, is refuted by the shortest such dialect.
-/

namespace IrOptimizer

/-! ## Qualified names -/

/-- The name of an operation of that kind in the dialect of that name. -/
def qualifiedName (dialect kind : String) : String := dialect ++ "." ++ kind

/-- A qualified name is the dialect, a dot and the kind. -/
theorem toList_qualifiedName (dialect kind : String) :
    (qualifiedName dialect kind).toList = dialect.toList ++ '.' :: kind.toList := by
  simp [qualifiedName]

/-- A name is cut at its first dot. -/
theorem Operation.splitName_eq_some_iff {name dialect kind : String} :
    splitName name = some (dialect, kind) ↔
      '.' ∉ dialect.toList ∧ name = qualifiedName dialect kind := by
  unfold splitName
  rw [List.span_eq_takeWhile_dropWhile]
  have hsplit := List.takeWhile_append_dropWhile (p := fun c => decide (c ≠ '.')) (l := name.toList)
  constructor
  · intro h
    cases hdrop : name.toList.dropWhile (fun c => decide (c ≠ '.')) with
    | nil =>
      rw [hdrop] at h
      cases h
    | cons dot rest =>
      rw [hdrop] at h hsplit
      simp only [Option.some.injEq, Prod.mk.injEq] at h
      obtain ⟨rfl, rfl⟩ := h
      -- what stops the first part is a dot, and no dot is in it
      have hdot : dot = '.' := by
        have hhead := List.head?_dropWhile_not (fun c => decide (c ≠ '.')) name.toList
        rw [hdrop] at hhead
        simpa using hhead
      subst hdot
      constructor
      · rw [String.toList_ofList]
        intro hmem
        simpa using List.mem_takeWhile_imp hmem
      · apply String.ext
        rw [toList_qualifiedName, String.toList_ofList, String.toList_ofList]
        exact hsplit.symm
  · intro h
    obtain ⟨hdot, rfl⟩ := h
    have hall : ∀ c ∈ dialect.toList, decide (c ≠ '.') = true := by
      intro c hc
      simp only [decide_eq_true_eq]
      intro heq
      exact hdot (heq ▸ hc)
    rw [toList_qualifiedName, List.takeWhile_append_of_pos hall, List.dropWhile_append_of_pos hall]
    simp

namespace DialectRegistry

/-! ## Runs of calls -/

/-- The registry behind a call, which may be refused. -/
def afterCall (r : DialectRegistry) (d : Dialect) : DialectRegistry :=
  match r.register d with
  | .ok r' => r'
  | .error _ => r

/-- The registry behind a run of calls that begins with no dialect. -/
def afterCalls (calls : List Dialect) : DialectRegistry :=
  calls.foldl afterCall .empty

/-- A dialect is registered if its name leads to it. -/
def Registered (r : DialectRegistry) (d : Dialect) : Prop :=
  r.find? d.name = some d

instance (r : DialectRegistry) (d : Dialect) : Decidable (r.Registered d) :=
  inferInstanceAs (Decidable (r.find? d.name = some d))

/-- What a name leads to has that name. -/
def WellKept (r : DialectRegistry) : Prop :=
  ∀ name d, r.find? name = some d → d.name = name

theorem wellKept_empty : empty.WellKept := by
  intro name d h
  cases h

/-- A call adds a dialect under its own name, or nothing. -/
theorem afterCall_eq (r : DialectRegistry) (d : Dialect) :
    r.afterCall d = r ∨ r.afterCall d = ⟨r.dialects.insert d.name d⟩ := by
  unfold afterCall register
  split
  · next r' h =>
    split at h
    · cases h
    · split at h
      · split at h
        · exact .inl (Except.ok.inj h).symm
        · cases h
      · exact .inr (Except.ok.inj h).symm
  · exact .inl rfl

/-- Every call keeps the registry well. -/
theorem WellKept.afterCall {r : DialectRegistry} (h : r.WellKept) (d : Dialect) :
    (r.afterCall d).WellKept := by
  rcases afterCall_eq r d with heq | heq
  · rw [heq]
    exact h
  · rw [heq]
    intro name e he
    by_cases hname : d.name = name
    · subst hname
      rw [find?, Dictionary.find?_insert_self] at he
      rw [← Option.some.inj he]
    · rw [find?, Dictionary.find?_insert_ne _ _ hname] at he
      exact h name e he

/-- A registry is well kept, whatever has been called. -/
theorem wellKept_afterCalls (calls : List Dialect) : (afterCalls calls).WellKept := by
  suffices h : ∀ r : DialectRegistry, r.WellKept → (calls.foldl DialectRegistry.afterCall r).WellKept by
    exact h .empty wellKept_empty
  induction calls with
  | nil => exact fun r hr => hr
  | cons d calls ih => exact fun r hr => ih (r.afterCall d) (hr.afterCall d)

/-! ## Legal names -/

/-- In a registry that is well kept a name is legal if its dialect has no dot and defines its
kind. -/
theorem WellKept.isLegal_iff {r : DialectRegistry} (h : r.WellKept) (name : String) :
    r.isLegal name = true ↔ ∃ d kind, r.Registered d ∧ '.' ∉ d.name.toList ∧
      d.defines kind = true ∧ name = qualifiedName d.name kind := by
  unfold isLegal
  constructor
  · intro hlegal
    split at hlegal
    · next dialect kind hsplit =>
      obtain ⟨hdot, rfl⟩ := Operation.splitName_eq_some_iff.mp hsplit
      cases hd : r.find? dialect with
      | none =>
        rw [hd] at hlegal
        cases hlegal
      | some d =>
        rw [hd] at hlegal
        have hname := h dialect d hd
        subst hname
        exact ⟨d, kind, hd, hdot, hlegal, rfl⟩
    · cases hlegal
  · intro hname
    obtain ⟨d, kind, hd, hdot, hkind, rfl⟩ := hname
    rw [Operation.splitName_eq_some_iff.mpr ⟨hdot, rfl⟩]
    show (r.find? d.name).any (·.defines kind) = true
    rw [hd]
    exact hkind

/-- Whatever calls have been made, accepted or refused, a name is legal exactly if it is the
name of a registered dialect, which has no dot in it, a dot and a kind of that dialect. -/
theorem isLegal_afterCalls_iff (calls : List Dialect) (name : String) :
    (afterCalls calls).isLegal name = true ↔
      ∃ d kind, (afterCalls calls).Registered d ∧ '.' ∉ d.name.toList ∧
        d.defines kind = true ∧ name = qualifiedName d.name kind :=
  (wellKept_afterCalls calls).isLegal_iff name

/-- A dialect with a dot in its name is registered and makes no name legal. -/
theorem not_isLegal_of_dotted_dialect :
    ¬ ∀ calls name, (afterCalls calls).isLegal name = true ↔
      ∃ d kind, (afterCalls calls).Registered d ∧ d.defines kind = true ∧
        name = qualifiedName d.name kind := by
  intro h
  have hlegal := (h [.ofList "a.b" ["c"]] "a.b.c").mpr
    ⟨.ofList "a.b" ["c"], "c", by decide +kernel, by decide +kernel, by decide +kernel⟩
  revert hlegal
  decide +kernel

end DialectRegistry

end IrOptimizer
