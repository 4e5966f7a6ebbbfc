import IrOptimizer.Generic.Reading
import IrOptimizer.Proofs.Except

/-!
# What a written module means

The last stage of reading judges what is written: within one attribute dictionary
the keys have to differ, and every integer has to fit 64 bits. `tree` is the
module that is written, whether or not it passes; `dictionaries` lists the
attribute dictionaries that are judged, in the order of the text. Judging accepts
exactly if every dictionary passes, and then answers the tree
(`WrittenModule.meaning_eq_ok_iff`).

The tree knows nothing of places, and of attributes it only knows which there
are: two written modules that agree apart from that (`Alike`) have one meaning.
-/

namespace IrOptimizer.Generic

/-- The attribute that a value stands for, if it fits. -/
def WrittenValue.attribute : WrittenValue → Attribute
  | .bool b => .bool b
  | .int n => .int (Int64.ofInt n)
  | .str s => .str s

/-- An integer fits 64 bits. -/
def WrittenValue.Fits : WrittenValue → Prop
  | .int n => -9223372036854775808 ≤ n ∧ n < 9223372036854775808
  | _ => True

/-- What an attribute says, wherever it stands. -/
def WrittenAttribute.contents (a : WrittenAttribute) : String × WrittenValue := (a.key, a.value)

/-- The attributes of a dictionary in the order in which they are written. -/
def treeEntries (as : List WrittenAttribute) : List (String × Attribute) :=
  as.map fun a => (a.key, a.value.attribute)

mutual

/-- The operation that is written. -/
def WrittenOperation.tree : WrittenOperation → Operation
  | ⟨name, attributes, region⟩ => ⟨name, .ofList (treeEntries attributes), trees region⟩

def trees : List WrittenOperation → List Operation
  | [] => []
  | op :: ops => op.tree :: trees ops

end

mutual

/-- The attribute dictionaries of an operation and of everything inside it. -/
def WrittenOperation.dictionaries : WrittenOperation → List (List WrittenAttribute)
  | ⟨_, attributes, region⟩ => attributes :: dictionariesOf region

def dictionariesOf : List WrittenOperation → List (List WrittenAttribute)
  | [] => []
  | op :: ops => op.dictionaries ++ dictionariesOf ops

end

namespace WrittenModule

/-- The module that is written. -/
def tree (m : WrittenModule) : Module := ⟨m.name, trees m.ops⟩

def dictionaries (m : WrittenModule) : List (List WrittenAttribute) := dictionariesOf m.ops

/-- No dictionary binds a key twice. -/
def KeysDistinct (m : WrittenModule) : Prop :=
  ∀ as ∈ m.dictionaries, (as.map (·.key)).Nodup

/-- Every integer fits 64 bits. -/
def IntegersFit (m : WrittenModule) : Prop :=
  ∀ as ∈ m.dictionaries, ∀ a ∈ as, a.value.Fits

end WrittenModule

/-! ## Agreement apart from places and the order of attributes -/

mutual

/-- Operations that say the same, wherever that is written and in whatever order
the attributes stand. -/
def WrittenOperation.Alike : WrittenOperation → WrittenOperation → Prop
  | ⟨name, as, region⟩, ⟨name', as', region'⟩ =>
    name = name' ∧ (as.map (·.contents)).Perm (as'.map (·.contents)) ∧ AllAlike region region'

def AllAlike : List WrittenOperation → List WrittenOperation → Prop
  | [], [] => True
  | op :: ops, op' :: ops' => op.Alike op' ∧ AllAlike ops ops'
  | _, _ => False

end

def WrittenModule.Alike (w w' : WrittenModule) : Prop :=
  w.name = w'.name ∧ AllAlike w.ops w'.ops

/-! ## One dictionary -/

/-- What is asked of a dictionary. -/
def Acceptable (as : List WrittenAttribute) : Prop :=
  (as.map (·.key)).Nodup ∧ ∀ a ∈ as, a.value.Fits

/-- An attribute has a meaning if its value fits. -/
theorem WrittenAttribute.meaning_eq_ok_iff {a : WrittenAttribute} {v : Attribute} :
    a.meaning = .ok v ↔ a.value.Fits ∧ a.value.attribute = v := by
  obtain ⟨place, key, valuePlace, value⟩ := a
  cases value with
  | bool b => simp [meaning, WrittenValue.Fits, WrittenValue.attribute]
  | str s => simp [meaning, WrittenValue.Fits, WrittenValue.attribute]
  | int n =>
    simp only [meaning, WrittenValue.Fits, WrittenValue.attribute, int64?]
    by_cases hn : -9223372036854775808 ≤ n ∧ n < 9223372036854775808
    · simp [hn]
    · simp [hn]

/-- Entries are added to a dictionary if they fit, and if their keys differ from
each other and from those it has. -/
theorem addAttributes_eq_ok_iff {known d : Attributes} {as : List WrittenAttribute} :
    addAttributes known as = .ok d ↔
      Acceptable as ∧ (∀ a ∈ as, known.contains a.key = false) ∧
        (treeEntries as).foldl (fun d e => d.insert e.1 e.2) known = d := by
  induction as generalizing known with
  | nil => simp [addAttributes, Acceptable, treeEntries]
  | cons a as ih =>
    rw [addAttributes, except_bind_eq_ok]
    constructor
    · intro h
      obtain ⟨v, hv, h⟩ := h
      obtain ⟨hfits, rfl⟩ := WrittenAttribute.meaning_eq_ok_iff.mp hv
      split at h
      · cases h
      · next hfresh =>
        obtain ⟨⟨hnodup, hall⟩, hnew, hd⟩ := ih.mp h
        simp only [Dictionary.contains_insert, Bool.or_eq_false_iff, decide_eq_false_iff_not] at hnew
        refine ⟨⟨?_, ?_⟩, ?_, hd⟩
        · refine List.nodup_cons.mpr ⟨fun hm => ?_, hnodup⟩
          obtain ⟨b, hb, hkey⟩ := List.mem_map.mp hm
          exact (hnew b hb).1 hkey.symm
        · intro b hb
          rcases List.mem_cons.mp hb with rfl | hb
          · exact hfits
          · exact hall b hb
        · intro b hb
          rcases List.mem_cons.mp hb with rfl | hb
          · simpa using hfresh
          · exact (hnew b hb).2
    · intro h
      obtain ⟨⟨hnodup, hall⟩, hnew, hd⟩ := h
      obtain ⟨hnot, hnodup⟩ := List.nodup_cons.mp hnodup
      refine ⟨a.value.attribute,
        WrittenAttribute.meaning_eq_ok_iff.mpr ⟨hall a (List.mem_cons_self ..), rfl⟩, ?_⟩
      have hfresh := hnew a (List.mem_cons_self ..)
      rw [if_neg (by simp [hfresh])]
      refine ih.mpr ⟨⟨hnodup, fun b hb => hall b (List.mem_cons_of_mem _ hb)⟩, ?_, hd⟩
      -- a later key is neither this one nor one known before
      intro b hb
      have hne : a.key ≠ b.key := fun h => hnot (List.mem_map.mpr ⟨b, hb, h.symm⟩)
      simp [Dictionary.contains_insert, hne, hnew b (List.mem_cons_of_mem _ hb)]

/-- Attributes have a meaning if they are acceptable: what they say together. -/
theorem addAttributes_empty_eq_ok_iff {d : Attributes} {as : List WrittenAttribute} :
    addAttributes .empty as = .ok d ↔ Acceptable as ∧ Dictionary.ofList (treeEntries as) = d := by
  rw [addAttributes_eq_ok_iff]
  constructor
  · intro h
    obtain ⟨has, _, hd⟩ := h
    exact ⟨has, hd⟩
  · intro h
    obtain ⟨has, hd⟩ := h
    exact ⟨has, fun _ _ => rfl, hd⟩

/-! ## Whole modules -/

mutual

/-- An operation has a meaning if the attributes in it are acceptable at every depth. -/
theorem WrittenOperation.meaning_eq_ok_iff : ∀ {op : WrittenOperation} {t : Operation},
    op.meaning = .ok t ↔ (∀ as ∈ op.dictionaries, Acceptable as) ∧ op.tree = t
  | ⟨name, attributes, region⟩, t => by
    rw [WrittenOperation.meaning, except_bind_eq_ok]
    simp only [except_bind_eq_ok, addAttributes_empty_eq_ok_iff, meanings_eq_ok_iff,
      WrittenOperation.dictionaries, List.forall_mem_cons, WrittenOperation.tree]
    constructor
    · intro h
      obtain ⟨_, ⟨has, rfl⟩, _, ⟨hregion, rfl⟩, h⟩ := h
      exact ⟨⟨has, hregion⟩, Except.ok.inj h⟩
    · intro h
      obtain ⟨⟨has, hregion⟩, rfl⟩ := h
      exact ⟨_, ⟨has, rfl⟩, _, ⟨hregion, rfl⟩, rfl⟩

theorem meanings_eq_ok_iff : ∀ {ops : List WrittenOperation} {ts : List Operation},
    meanings ops = .ok ts ↔ (∀ as ∈ dictionariesOf ops, Acceptable as) ∧ trees ops = ts
  | [], ts => by simp [meanings, dictionariesOf, trees]
  | op :: ops, ts => by
    rw [meanings, except_bind_eq_ok]
    simp only [except_bind_eq_ok, WrittenOperation.meaning_eq_ok_iff, meanings_eq_ok_iff,
      dictionariesOf, List.forall_mem_append, trees]
    constructor
    · intro h
      obtain ⟨_, ⟨hop, rfl⟩, _, ⟨hops, rfl⟩, h⟩ := h
      exact ⟨⟨hop, hops⟩, Except.ok.inj h⟩
    · intro h
      obtain ⟨⟨hop, hops⟩, rfl⟩ := h
      exact ⟨_, ⟨hop, rfl⟩, _, ⟨hops, rfl⟩, rfl⟩

end

/-- Judging accepts what has distinct keys and integers that fit, and answers the tree. -/
theorem WrittenModule.meaning_eq_ok_iff {w : WrittenModule} {m : Module} :
    w.meaning = .ok m ↔ w.KeysDistinct ∧ w.IntegersFit ∧ w.tree = m := by
  rw [meaning, except_bind_eq_ok]
  simp only [meanings_eq_ok_iff, KeysDistinct, IntegersFit, dictionaries, tree]
  constructor
  · intro h
    obtain ⟨_, ⟨hall, rfl⟩, h⟩ := h
    exact ⟨fun as has => (hall as has).1, fun as has => (hall as has).2, Except.ok.inj h⟩
  · intro h
    obtain ⟨hkeys, hfit, rfl⟩ := h
    exact ⟨_, ⟨fun as has => ⟨hkeys as has, hfit as has⟩, rfl⟩, rfl⟩

/-! ## Agreement is all that counts -/

/-- To be acceptable depends on keys and values, not on places. -/
theorem acceptable_iff_contents {as : List WrittenAttribute} :
    Acceptable as ↔
      ((as.map (·.contents)).map Prod.fst).Nodup ∧
        ∀ c ∈ as.map (·.contents), c.2.Fits := by
  simp [Acceptable, WrittenAttribute.contents, Function.comp_def]

/-- What attributes say depends on keys and values, not on places. -/
theorem treeEntries_eq_contents (as : List WrittenAttribute) :
    treeEntries as = (as.map (·.contents)).map fun c => (c.1, c.2.attribute) := by
  simp [treeEntries, WrittenAttribute.contents, Function.comp_def]

/-- To be acceptable does not depend on the order. -/
theorem acceptable_iff_of_perm {as as' : List WrittenAttribute}
    (h : (as.map (·.contents)).Perm (as'.map (·.contents))) : Acceptable as ↔ Acceptable as' := by
  rw [acceptable_iff_contents, acceptable_iff_contents, (h.map Prod.fst).nodup_iff]
  constructor
  · intro h
    obtain ⟨hkeys, hall⟩ := h
    exact ⟨hkeys, fun c hc => hall c (h.mem_iff.mpr hc)⟩
  · intro h
    obtain ⟨hkeys, hall⟩ := h
    exact ⟨hkeys, fun c hc => hall c (h.mem_iff.mp hc)⟩

/-- Attributes in another order make the same dictionary. -/
theorem ofList_treeEntries_of_perm {as as' : List WrittenAttribute}
    (h : (as.map (·.contents)).Perm (as'.map (·.contents))) (has : Acceptable as) :
    Dictionary.ofList (treeEntries as) = Dictionary.ofList (treeEntries as') := by
  rw [treeEntries_eq_contents, treeEntries_eq_contents]
  refine Dictionary.ofList_eq_of_perm (h.map _) ?_
  have hkeys := (acceptable_iff_contents.mp has).1
  simpa [Function.comp_def] using hkeys

mutual

/-- Operations that are alike have the same meaning, or none. -/
theorem WrittenOperation.Alike.judged : ∀ {op op' : WrittenOperation}, op.Alike op' →
    ((∀ as ∈ op.dictionaries, Acceptable as) ↔ ∀ as ∈ op'.dictionaries, Acceptable as) ∧
      ((∀ as ∈ op.dictionaries, Acceptable as) → op.tree = op'.tree)
  | ⟨name, as, region⟩, ⟨name', as', region'⟩, h => by
    obtain ⟨rfl, hperm, hregion⟩ := h
    obtain ⟨hiff, htrees⟩ := allAlike_judged hregion
    simp only [WrittenOperation.dictionaries, WrittenOperation.tree, List.forall_mem_cons,
      acceptable_iff_of_perm hperm, hiff, true_and]
    intro h
    obtain ⟨has, hall⟩ := h
    rw [ofList_treeEntries_of_perm hperm ((acceptable_iff_of_perm hperm).mpr has),
      htrees (hiff.mpr hall)]

theorem allAlike_judged : ∀ {ops ops' : List WrittenOperation}, AllAlike ops ops' →
    ((∀ as ∈ dictionariesOf ops, Acceptable as) ↔ ∀ as ∈ dictionariesOf ops', Acceptable as) ∧
      ((∀ as ∈ dictionariesOf ops, Acceptable as) → trees ops = trees ops')
  | [], [], _ => ⟨Iff.rfl, fun _ => rfl⟩
  | [], _ :: _, h => h.elim
  | _ :: _, [], h => h.elim
  | op :: ops, op' :: ops', ⟨hop, hops⟩ => by
    obtain ⟨hiff, htree⟩ := hop.judged
    obtain ⟨hiffs, htrees⟩ := allAlike_judged hops
    simp only [dictionariesOf, trees, List.forall_mem_append, hiff, hiffs, true_and]
    intro h
    obtain ⟨hall, halls⟩ := h
    rw [htree (hiff.mpr hall), htrees (hiffs.mpr halls)]

end

/-- Written modules that agree apart from places and order have one meaning, or none. -/
theorem WrittenModule.Alike.meaning {w w' : WrittenModule} (h : w.Alike w') (m : Module) :
    w.meaning = .ok m ↔ w'.meaning = .ok m := by
  obtain ⟨hname, hops⟩ := h
  obtain ⟨hiff, htrees⟩ := allAlike_judged hops
  rw [WrittenModule.meaning, WrittenModule.meaning, except_bind_eq_ok, except_bind_eq_ok]
  simp only [meanings_eq_ok_iff, hname]
  constructor
  · intro h
    obtain ⟨_, ⟨hall, rfl⟩, hm⟩ := h
    exact ⟨_, ⟨hiff.mp hall, (htrees hall).symm⟩, hm⟩
  · intro h
    obtain ⟨_, ⟨hall, rfl⟩, hm⟩ := h
    exact ⟨_, ⟨hiff.mpr hall, htrees (hiff.mpr hall)⟩, hm⟩

end IrOptimizer.Generic
