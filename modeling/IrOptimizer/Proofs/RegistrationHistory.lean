import IrOptimizer.Proofs.Except
import IrOptimizer.Proofs.Registration

/-!
# What a history of registrations comes to

Calls that register dialects are made one after the other on a registry that changes in
place and begins empty; each is accepted or refused. One equation says all that a call can do
to look-ups (`find?_afterCall`): a name that leads to a dialect goes on leading to it, and
only a new name is bound. By induction a name leads to what the first call with that name
gives (`find?_foldl_afterCall`), however many calls follow and whatever becomes of them.

From this it follows which calls are refused, that nothing registered ever changes, and that
the order and the number of calls do not matter as long as no two of them contradict each
other (`registration_history`). Callers list the kinds of a dialect in any order and some
perhaps twice; only the set of them counts (`WrittenDialect.dialect_eq_iff`).
-/

namespace IrOptimizer

/-! ## Dialects as they are written -/

/-- A dialect as a caller writes it, with the kinds in some order and some perhaps twice. -/
structure WrittenDialect where
  name : String
  kinds : List String

namespace WrittenDialect

def dialect (w : WrittenDialect) : Dialect := .ofList w.name w.kinds

/-- The same set of kinds. -/
def SameKinds (w v : WrittenDialect) : Prop := ∀ kind, kind ∈ w.kinds ↔ kind ∈ v.kinds

theorem dialect_eq_iff {w v : WrittenDialect} :
    w.dialect = v.dialect ↔ w.name = v.name ∧ w.SameKinds v := by
  unfold dialect Dialect.ofList
  rw [Dialect.mk.injEq]
  refine and_congr_right fun _ => ?_
  constructor
  · intro h kind
    rw [← NameSet.contains_ofList, ← NameSet.contains_ofList, h]
  · intro h
    refine NameSet.ext_contains fun kind => ?_
    rw [Bool.eq_iff_iff, NameSet.contains_ofList, NameSet.contains_ofList]
    exact h kind

end WrittenDialect

namespace DialectRegistry

/-! ## One call -/

/-- A call is refused if its dialect has no name, or one that leads to another dialect. -/
theorem register_eq_error_iff {r : DialectRegistry} {d : Dialect} {e : DialectError} :
    r.register d = .error e ↔
      d.name = "" ∧ e = .emptyName ∨
        d.name ≠ "" ∧ ∃ known, r.find? d.name = some known ∧ known ≠ d ∧
          e = .conflictingDefinition d.name := by
  unfold register
  by_cases hname : d.name = ""
  · rw [if_pos (String.isEmpty_iff.mpr hname)]
    simp [hname, eq_comm]
  · rw [if_neg (fun h => hname (String.isEmpty_iff.mp h))]
    cases hfind : r.find? d.name with
    | none => simp [hname]
    | some known =>
      by_cases hsame : known = d
      · simp [hname, hsame]
      · simp [hname, hsame, eq_comm (b := e)]

/-- A call binds the name of its dialect, unless that is empty or bound already. -/
theorem find?_afterCall (r : DialectRegistry) (d : Dialect) (name : String) :
    (r.afterCall d).find? name =
      (r.find? name).or (if name ≠ "" ∧ d.name = name then some d else none) := by
  by_cases hname : d.name = name
  · subst hname
    unfold afterCall register
    by_cases hempty : d.name = ""
    · rw [if_pos (String.isEmpty_iff.mpr hempty), if_neg (fun h => h.1 hempty), Option.or_none]
    · rw [if_neg (fun h => hempty (String.isEmpty_iff.mp h)), if_pos ⟨hempty, rfl⟩]
      cases hfind : r.find? d.name with
      | none => exact Dictionary.find?_insert_self _ _ _
      | some known =>
        rw [Option.some_or]
        by_cases hsame : known = d
        · simp [hsame, hfind]
        · simp [hsame, hfind]
  · rw [if_neg (fun h => hname h.2), Option.or_none]
    rcases afterCall_eq r d with heq | heq
    · rw [heq]
    · rw [heq]
      exact Dictionary.find?_insert_ne _ _ hname

/-- In place, a call answers what `register` does, and leaves a registry that it is refused by
as it was. -/
theorem call_eq (r : DialectRegistry) (d : Dialect) :
    r.call d = ((r.register d).map fun _ => (), r.afterCall d) := by
  have hcall : r.call d =
      if d.name.isEmpty then (.error .emptyName, r)
      else if r.find? d.name = none then (.ok (), ⟨r.dialects.insert d.name d⟩)
      else if r.find? d.name ≠ some d then (.error (.conflictingDefinition d.name), r)
      else (.ok (), r) := by
    unfold call registerInPlace
    split
    · rfl
    · show StateT.run (ExceptT.run (if r.find? d.name = none then _ else
        if r.find? d.name ≠ some d then _ else _)) r = _
      split
      · rfl
      · split <;> rfl
  rw [hcall]
  unfold afterCall register
  split
  · rfl
  · cases hfind : r.find? d.name with
    | none => rfl
    | some known =>
      by_cases hsame : known = d
      · simp [hsame, Except.map]
      · simp [hsame, Except.map]

/-! ## Many calls -/

/-- The call that introduces a name is the first one with it; the empty name is never
introduced. -/
def introduced? {α : Type} (nameOf : α → String) (calls : List α) (name : String) : Option α :=
  if name = "" then none else calls.find? (nameOf · = name)

theorem introduced?_eq_some {α : Type} {nameOf : α → String} {calls : List α} {name : String}
    {a : α} (h : introduced? nameOf calls name = some a) :
    name ≠ "" ∧ nameOf a = name ∧ a ∈ calls := by
  unfold introduced? at h
  split at h
  · cases h
  · next hname =>
    exact ⟨hname, by simpa using List.find?_some h, List.mem_of_find?_eq_some h⟩

/-- Some call introduces the name of a call, unless that is empty. -/
theorem exists_introduced? {α : Type} {nameOf : α → String} {calls : List α} {a : α}
    (h : a ∈ calls) (hname : nameOf a ≠ "") :
    ∃ first, introduced? nameOf calls (nameOf a) = some first := by
  rw [introduced?, if_neg hname, ← Option.isSome_iff_exists, List.find?_isSome]
  exact ⟨a, h, by simp⟩

/-- After any calls a name leads to the dialect of the call that introduced it. -/
theorem find?_foldl_afterCall (calls : List Dialect) (r : DialectRegistry) (name : String) :
    (calls.foldl afterCall r).find? name =
      (r.find? name).or (introduced? Dialect.name calls name) := by
  -- a call adds its dialect behind the earlier ones, which win
  induction calls generalizing r with
  | nil => simp [introduced?]
  | cons d calls ih =>
    rw [List.foldl_cons, ih, find?_afterCall, Option.or_assoc]
    unfold introduced?
    by_cases hempty : name = ""
    · simp [hempty]
    · by_cases hname : d.name = name
      · simp [hempty, hname]
      · simp [hempty, hname]

/-- The registry behind a history of calls in place that begins with no dialect. -/
def ofCalls (calls : List WrittenDialect) : DialectRegistry :=
  calls.foldl (fun r w => (r.call w.dialect).2) .empty

theorem ofCalls_eq (calls : List WrittenDialect) :
    ofCalls calls = (calls.map WrittenDialect.dialect).foldl afterCall .empty := by
  rw [ofCalls, List.foldl_map]
  simp only [call_eq]

theorem ofCalls_append (calls more : List WrittenDialect) :
    ofCalls (calls ++ more) = (more.map WrittenDialect.dialect).foldl afterCall (ofCalls calls) := by
  rw [ofCalls_eq, ofCalls_eq, List.map_append, List.foldl_append]

theorem find?_ofCalls (calls : List WrittenDialect) (name : String) :
    (ofCalls calls).find? name =
      (introduced? WrittenDialect.name calls name).map WrittenDialect.dialect := by
  rw [ofCalls_eq, find?_foldl_afterCall]
  unfold introduced?
  split
  · rfl
  · rw [List.find?_map]
    rfl

theorem call_ofCalls_eq_error_iff {calls : List WrittenDialect} {w : WrittenDialect}
    {e : DialectError} :
    ((ofCalls calls).call w.dialect).1 = .error e ↔
      w.name = "" ∧ e = .emptyName ∨
        ∃ first, introduced? WrittenDialect.name calls w.name = some first ∧
          ¬ first.SameKinds w ∧ e = .conflictingDefinition w.name := by
  have hname : w.dialect.name = w.name := rfl
  rw [call_eq, except_map_eq_error, register_eq_error_iff, hname, find?_ofCalls]
  refine or_congr_right ?_
  constructor
  · intro h
    obtain ⟨-, known, hknown, hother, he⟩ := h
    obtain ⟨first, hfirst, rfl⟩ := Option.map_eq_some_iff.mp hknown
    obtain ⟨-, hsame, -⟩ := introduced?_eq_some hfirst
    refine ⟨first, hfirst, fun hkinds => ?_, he⟩
    exact hother (WrittenDialect.dialect_eq_iff.mpr ⟨hsame, hkinds⟩)
  · intro h
    obtain ⟨first, hfirst, hother, he⟩ := h
    obtain ⟨hne, -, -⟩ := introduced?_eq_some hfirst
    refine ⟨hne, first.dialect, by rw [hfirst]; rfl, fun hdialect => ?_, he⟩
    exact hother (WrittenDialect.dialect_eq_iff.mp hdialect).2

/-- A call that is refused leaves the registry as it was. -/
theorem call_snd_of_error {r : DialectRegistry} {d : Dialect} {e : DialectError}
    (h : (r.call d).1 = .error e) : (r.call d).2 = r := by
  rw [call_eq, except_map_eq_error] at h
  rw [call_eq]
  show r.afterCall d = r
  rw [afterCall, h]

/-- What a name leads to stays, whatever calls follow. -/
theorem find?_ofCalls_append {calls more : List WrittenDialect} {name : String} {d : Dialect}
    (h : (ofCalls calls).find? name = some d) : (ofCalls (calls ++ more)).find? name = some d := by
  rw [ofCalls_append, find?_foldl_afterCall, h, Option.some_or]

theorem isLegal_ofCalls_append {calls more : List WrittenDialect} {name : String}
    (h : (ofCalls calls).isLegal name = true) : (ofCalls (calls ++ more)).isLegal name = true := by
  unfold isLegal at h ⊢
  split at h
  · next dialect kind hsplit =>
    rw [Option.any_eq_true] at h
    obtain ⟨d, hd, hkind⟩ := h
    rw [find?_ofCalls_append hd]
    exact hkind
  · cases h

/-! ## Calls that agree -/

/-- No two of the calls give a name different kinds, and none has the empty name. -/
structure Consistent (calls : List WrittenDialect) : Prop where
  named : ∀ w ∈ calls, w.name ≠ ""
  agree : ∀ w ∈ calls, ∀ v ∈ calls, w.name = v.name → w.SameKinds v

/-- Every call of the first history is one of the second, but for how its kinds are listed. -/
def Within (calls others : List WrittenDialect) : Prop :=
  ∀ w ∈ calls, ∃ v ∈ others, v.name = w.name ∧ v.SameKinds w

/-- Whatever call of a consistent history introduces a name, it gives the same dialect. -/
theorem introduced?_of_consistent {calls others : List WrittenDialect} (h : Consistent calls)
    (hwithin : Within others calls) {name : String} {first : WrittenDialect}
    (hfirst : introduced? WrittenDialect.name others name = some first) :
    (introduced? WrittenDialect.name calls name).map WrittenDialect.dialect =
      some first.dialect := by
  obtain ⟨hne, rfl, hmem⟩ := introduced?_eq_some hfirst
  obtain ⟨w, hw, hname, hkinds⟩ := hwithin first hmem
  rw [← hname] at hne
  obtain ⟨v, hv⟩ := exists_introduced? hw hne
  obtain ⟨-, hname', hmem'⟩ := introduced?_eq_some hv
  rw [← hname, hv, Option.map_some, Option.some.injEq, WrittenDialect.dialect_eq_iff]
  exact ⟨hname'.trans hname, fun kind => (h.agree v hmem' w hw hname' kind).trans (hkinds kind)⟩

/-- Histories with the same calls, in any order and number, come to the same registry. -/
theorem ofCalls_eq_of_within {calls others : List WrittenDialect} (h : Consistent calls)
    (hwithin : Within others calls) (hcovers : Within calls others) :
    ofCalls others = ofCalls calls := by
  suffices hfind : ∀ name, (ofCalls others).find? name = (ofCalls calls).find? name from
    congrArg DialectRegistry.mk (Dictionary.ext_find? hfind)
  intro name
  rw [find?_ofCalls, find?_ofCalls]
  cases hothers : introduced? WrittenDialect.name others name with
  | some first => exact (introduced?_of_consistent h hwithin hothers).symm
  | none =>
    cases hcalls : introduced? WrittenDialect.name calls name with
    | none => rfl
    | some first =>
      -- a name that the one history introduces is also one of the other
      obtain ⟨hne, rfl, hmem⟩ := introduced?_eq_some hcalls
      obtain ⟨w, hw, hname, -⟩ := hcovers first hmem
      rw [← hname] at hne hothers
      obtain ⟨v, hv⟩ := exists_introduced? hw hne
      cases hothers.symm.trans hv

/-- Every call of a history is accepted if all its calls are of a consistent one. -/
theorem call_eq_ok_of_within {calls others : List WrittenDialect} (h : Consistent calls)
    (hwithin : Within others calls) {before later : List WrittenDialect} {w : WrittenDialect}
    (hothers : others = before ++ w :: later) : ((ofCalls before).call w.dialect).1 = .ok () := by
  obtain ⟨v, hv, hname, hkinds⟩ := hwithin w (by simp [hothers])
  cases hcall : ((ofCalls before).call w.dialect).1 with
  | ok _ => rfl
  | error e =>
    rcases call_ofCalls_eq_error_iff.mp hcall with ⟨hempty, -⟩ | ⟨first, hfirst, hother, -⟩
    · exact absurd (hname.trans hempty) (h.named v hv)
    · -- the call that introduced the name is one of the consistent history as well
      obtain ⟨-, hfirstName, hmem⟩ := introduced?_eq_some hfirst
      obtain ⟨u, hu, huName, huKinds⟩ := hwithin first (by simp [hothers, hmem])
      have hagree := h.agree u hu v hv (huName.trans (hfirstName.trans hname.symm))
      exact absurd (fun kind => (huKinds kind).symm.trans ((hagree kind).trans (hkinds kind))) hother

/-- Behind any history of calls in place, a call is refused exactly if its dialect has no name,
or the call that introduced the name gave another set of kinds; a refused call leaves the
registry as it was. A name leads to the dialect of the call that introduced it; it goes on
leading there, and legal names stay legal, whatever calls follow. If no two calls of the history
contradict each other, any history of the same calls, in any order and number and with the
kinds listed in any way, is accepted throughout and comes to the same registry. -/
theorem registration_history (calls : List WrittenDialect) :
    (∀ (w : WrittenDialect) e, ((ofCalls calls).call w.dialect).1 = .error e ↔
      w.name = "" ∧ e = .emptyName ∨
        ∃ first, introduced? WrittenDialect.name calls w.name = some first ∧
          ¬ first.SameKinds w ∧ e = .conflictingDefinition w.name) ∧
    (∀ (w : WrittenDialect) e, ((ofCalls calls).call w.dialect).1 = .error e →
      ((ofCalls calls).call w.dialect).2 = ofCalls calls) ∧
    (∀ name, (ofCalls calls).find? name =
      (introduced? WrittenDialect.name calls name).map WrittenDialect.dialect) ∧
    (∀ more : List WrittenDialect,
      (∀ name d, (ofCalls calls).find? name = some d →
        (ofCalls (calls ++ more)).find? name = some d) ∧
      ∀ name, (ofCalls calls).isLegal name = true →
        (ofCalls (calls ++ more)).isLegal name = true) ∧
    (Consistent calls → ∀ others : List WrittenDialect, Within others calls → Within calls others →
      (∀ before w later, others = before ++ w :: later →
        ((ofCalls before).call w.dialect).1 = .ok ()) ∧
      ofCalls others = ofCalls calls) := by
  refine ⟨fun w e => call_ofCalls_eq_error_iff, fun w e => call_snd_of_error,
    find?_ofCalls calls, fun more => ⟨fun name d => find?_ofCalls_append,
      fun name => isLegal_ofCalls_append⟩, ?_⟩
  intro hconsistent others hwithin hcovers
  exact ⟨fun before w later => call_eq_ok_of_within hconsistent hwithin,
    ofCalls_eq_of_within hconsistent hwithin hcovers⟩

/-- Two dialects registered again the other way round, one of them twice and with its kinds
listed in another order. -/
theorem registration_history_reordered :
    ofCalls [⟨"arith", ["neg"]⟩, ⟨"toy", ["add", "lit", "add"]⟩, ⟨"toy", ["lit", "add"]⟩] =
      ofCalls [⟨"toy", ["lit", "add"]⟩, ⟨"arith", ["neg"]⟩] := by
  refine ((registration_history [⟨"toy", ["lit", "add"]⟩, ⟨"arith", ["neg"]⟩]).2.2.2.2
    ⟨by simp, by simp [WrittenDialect.SameKinds]⟩ _ ?_ ?_).2
  · simp [Within, WrittenDialect.SameKinds, or_comm]
  · simp [Within, WrittenDialect.SameKinds]

end DialectRegistry

end IrOptimizer
