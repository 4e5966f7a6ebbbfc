/-!
# Dictionaries with string keys

A `Dictionary α` maps finitely many strings to values. Its entries are kept in
strictly increasing order of their keys (by code point), so two dictionaries
with the same contents are equal, and listing one needs no sorting.

Main statements: `find?_insert_self` and `find?_insert_ne` say what an insertion
does to every look-up.
-/

namespace IrOptimizer

/-- A finite map from strings; the entries are sorted by key, each key once. -/
structure Dictionary (α : Type) where
  entries : List (String × α)
  sorted : entries.Pairwise (fun a b => a.1 < b.1)
deriving DecidableEq

namespace Dictionary

variable {α : Type}

/-- Puts an entry at its place in a sorted list; an entry of that key is replaced. -/
def insertEntry (key : String) (value : α) : List (String × α) → List (String × α)
  | [] => [(key, value)]
  | (k, v) :: rest =>
    if key < k then (key, value) :: (k, v) :: rest
    else if key = k then (key, value) :: rest
    else (k, v) :: insertEntry key value rest

/-- Behind an insertion there is no entry but the new one and those from before. -/
theorem mem_insertEntry {key : String} {value : α} {e : String × α} {l : List (String × α)}
    (h : e ∈ insertEntry key value l) : e = (key, value) ∨ e ∈ l := by
  induction l with
  | nil => simpa [insertEntry] using h
  | cons head rest ih =>
    obtain ⟨k, v⟩ := head
    simp only [insertEntry] at h
    split at h
    · simpa using h
    · split at h
      · rcases List.mem_cons.mp h with h | h
        · exact Or.inl h
        · exact Or.inr (List.mem_cons_of_mem _ h)
      · rcases List.mem_cons.mp h with h | h
        · exact Or.inr (h ▸ List.mem_cons_self ..)
        · exact (ih h).imp id (List.mem_cons_of_mem _)

/-- Insertion keeps the order of the keys. -/
theorem sorted_insertEntry (key : String) (value : α) {l : List (String × α)}
    (h : l.Pairwise (fun a b => a.1 < b.1)) :
    (insertEntry key value l).Pairwise (fun a b => a.1 < b.1) := by
  induction l with
  | nil => simp [insertEntry]
  | cons head rest ih =>
    obtain ⟨k, v⟩ := head
    obtain ⟨hk, hrest⟩ := List.pairwise_cons.mp h
    simp only [insertEntry]
    split
    · next hlt =>
      refine List.pairwise_cons.mpr ⟨fun e he => ?_, h⟩
      rcases List.mem_cons.mp he with rfl | he
      · exact hlt
      · exact String.lt_trans hlt (hk e he)
    · next hlt =>
      split
      · next heq => exact List.pairwise_cons.mpr ⟨fun e he => heq ▸ hk e he, hrest⟩
      · next hne =>
        refine List.pairwise_cons.mpr ⟨fun e he => ?_, ih hrest⟩
        rcases mem_insertEntry he with rfl | he
        · exact Std.lt_of_le_of_ne (String.not_lt.mp hlt) (Ne.symm hne)
        · exact hk e he

/-- The dictionary without entries. -/
def empty : Dictionary α := ⟨[], List.Pairwise.nil⟩

instance : Inhabited (Dictionary α) := ⟨empty⟩

/-- The value of a key. -/
def find? (d : Dictionary α) (key : String) : Option α :=
  (d.entries.find? (fun e => e.1 = key)).map Prod.snd

def contains (d : Dictionary α) (key : String) : Bool :=
  (d.find? key).isSome

/-- Binds a key to a value, whatever it was bound to before. -/
def insert (d : Dictionary α) (key : String) (value : α) : Dictionary α :=
  ⟨insertEntry key value d.entries, sorted_insertEntry key value d.sorted⟩

/-- Removes a key, if it is there. -/
def erase (d : Dictionary α) (key : String) : Dictionary α :=
  ⟨d.entries.filter (fun e => e.1 ≠ key), d.sorted.filter _⟩

/-- Binds the keys of a list one after the other, so the last binding of a key wins. -/
def ofList (l : List (String × α)) : Dictionary α :=
  l.foldl (fun d e => d.insert e.1 e.2) empty

/-- The keys in increasing order. -/
def keys (d : Dictionary α) : List String :=
  d.entries.map Prod.fst

def size (d : Dictionary α) : Nat :=
  d.entries.length

def isEmpty (d : Dictionary α) : Bool :=
  d.entries.isEmpty

/-! ## Look-ups after an insertion -/

theorem ext {d e : Dictionary α} (h : d.entries = e.entries) : d = e := by
  cases d; cases e; cases h; rfl

@[simp] theorem find?_empty (key : String) : (empty : Dictionary α).find? key = none := rfl

/-- A key is looked up in the new entry, if it is its key, and else in the others. -/
private theorem find?_insertEntry (key : String) (value : α) (other : String)
    (l : List (String × α)) :
    ((insertEntry key value l).find? (fun e => e.1 = other)).map Prod.snd =
      if key = other then some value else (l.find? (fun e => e.1 = other)).map Prod.snd := by
  induction l with
  | nil => by_cases h : key = other <;> simp [insertEntry, h]
  | cons head rest ih =>
    obtain ⟨k, v⟩ := head
    simp only [insertEntry]
    split
    · by_cases h : key = other <;> simp [h]
    · split
      · next heq => subst heq; by_cases h : key = other <;> simp [h]
      · next hne =>
        by_cases hk : k = other
        · have : key ≠ other := fun e => hne (e.trans hk.symm)
          simp [hk, this]
        · simp only [List.find?_cons, hk, decide_false]
          exact ih

/-- What was inserted is found. -/
theorem find?_insert_self (d : Dictionary α) (key : String) (value : α) :
    (d.insert key value).find? key = some value := by
  simp [find?, insert, find?_insertEntry]

/-- An insertion does not change what other keys lead to. -/
theorem find?_insert_ne (d : Dictionary α) {key other : String} (value : α) (h : key ≠ other) :
    (d.insert key value).find? other = d.find? other := by
  simp [find?, insert, find?_insertEntry, h]

/-- Behind an insertion one more key is there. -/
theorem contains_insert (d : Dictionary α) (key other : String) (value : α) :
    (d.insert key value).contains other = (decide (key = other) || d.contains other) := by
  unfold contains
  by_cases h : key = other
  · rw [h, find?_insert_self]
    simp
  · rw [find?_insert_ne d value h]
    simp [h]

/-! ## Equality -/

/-- No key is there twice. -/
theorem keys_nodup (d : Dictionary α) : (d.entries.map Prod.fst).Nodup := by
  refine List.pairwise_map.mpr (d.sorted.imp ?_)
  intro a b hlt hab
  exact String.lt_irrefl b.1 (hab ▸ hlt)

/-- In a list without repeated keys, a look-up finds just the entries. -/
private theorem find?_map_eq_some_iff {key : String} {value : α} {l : List (String × α)}
    (hl : (l.map Prod.fst).Nodup) :
    (l.find? (fun e => e.1 = key)).map Prod.snd = some value ↔ (key, value) ∈ l := by
  induction l with
  | nil => simp
  | cons e l ih =>
    obtain ⟨hnot, hnodup⟩ := List.nodup_cons.mp hl
    obtain ⟨k, v⟩ := e
    by_cases hk : k = key
    · subst hk
      have hfresh : (k, value) ∉ l := fun hm => hnot (List.mem_map.mpr ⟨_, hm, rfl⟩)
      simp [hfresh, eq_comm]
    · simpa [hk, Ne.symm hk] using ih hnodup

/-- What is found are the entries. -/
theorem find?_eq_some_iff {d : Dictionary α} {key : String} {value : α} :
    d.find? key = some value ↔ (key, value) ∈ d.entries :=
  find?_map_eq_some_iff d.keys_nodup

/-- Dictionaries that answer every look-up alike are equal. -/
theorem ext_find? {d e : Dictionary α} (h : ∀ key, d.find? key = e.find? key) : d = e := by
  have hnodup : ∀ d : Dictionary α, d.entries.Nodup := by
    intro d
    refine (List.pairwise_map.mp d.keys_nodup).imp ?_
    intro a b hne hab
    exact hne (hab ▸ rfl)
  refine ext (List.Perm.eq_of_pairwise ?_ d.sorted e.sorted ?_)
  · intro a b _ _ hab hba
    exact absurd hba (String.lt_asymm hab)
  · refine (List.perm_ext_iff_of_nodup (hnodup d) (hnodup e)).mpr fun (key, value) => ?_
    rw [← find?_eq_some_iff, ← find?_eq_some_iff, h]

/-- Of two values that a key is bound to one after the other the second stays. -/
theorem insert_insert (d : Dictionary α) (key : String) (first second : α) :
    (d.insert key first).insert key second = d.insert key second := by
  refine ext_find? fun other => ?_
  by_cases h : key = other
  · subst h
    rw [find?_insert_self, find?_insert_self]
  · rw [find?_insert_ne _ _ h, find?_insert_ne _ _ h, find?_insert_ne _ _ h]

/-! ## Look-ups after a removal -/

/-- What was erased is not found. -/
theorem find?_erase_self (d : Dictionary α) (key : String) : (d.erase key).find? key = none := by
  simp [find?, erase]

/-- Erasing does not change what other keys lead to. -/
theorem find?_erase_ne (d : Dictionary α) {key other : String} (h : key ≠ other) :
    (d.erase key).find? other = d.find? other := by
  have hentry : ∀ e : String × α, (e.1 ≠ key ∧ e.1 = other) ↔ e.1 = other :=
    fun e => and_iff_right_of_imp fun he => he ▸ h.symm
  rw [find?, erase, List.find?_filter]
  simp only [decide_eq_true_eq, hentry]
  rfl

/-- Another key can be erased before or after an insertion. -/
theorem erase_insert (d : Dictionary α) {key other : String} (value : α) (h : key ≠ other) :
    (d.insert other value).erase key = (d.erase key).insert other value := by
  refine ext_find? fun k => ?_
  by_cases hkey : key = k
  · subst hkey
    rw [find?_erase_self, find?_insert_ne _ _ h.symm, find?_erase_self]
  · rw [find?_erase_ne _ hkey]
    by_cases hother : other = k
    · subst hother
      rw [find?_insert_self, find?_insert_self]
    · rw [find?_insert_ne _ _ hother, find?_insert_ne _ _ hother, find?_erase_ne _ hkey]

/-! ## Listing and rebuilding -/

/-- The greatest key goes to the end. -/
private theorem insertEntry_of_lt {key : String} {value : α} {l : List (String × α)}
    (h : ∀ e ∈ l, e.1 < key) : insertEntry key value l = l ++ [(key, value)] := by
  induction l with
  | nil => rfl
  | cons head rest ih =>
    obtain ⟨k, v⟩ := head
    have hlt : k < key := h (k, v) (List.mem_cons_self ..)
    have hnot : ¬ key < k := String.lt_asymm hlt
    have hne : ¬ key = k := fun e => String.lt_irrefl k (e ▸ hlt)
    rw [insertEntry, if_neg hnot, if_neg hne, ih fun e he => h e (List.mem_cons_of_mem _ he)]
    rfl

/-- Binding keys in increasing order puts each entry behind the others. -/
private theorem entries_foldl_insert (l : List (String × α)) (d : Dictionary α)
    (h : (d.entries ++ l).Pairwise (fun a b => a.1 < b.1)) :
    (l.foldl (fun d e => d.insert e.1 e.2) d).entries = d.entries ++ l := by
  induction l generalizing d with
  | nil => simp
  | cons e l ih =>
    have hlast : (d.insert e.1 e.2).entries = d.entries ++ [e] := by
      refine insertEntry_of_lt fun a ha => ?_
      exact (List.pairwise_append.mp h).2.2 a ha e (List.mem_cons_self ..)
    rw [List.foldl_cons, ih _ (by simpa [hlast] using h), hlast]
    simp

private theorem mem_entries_foldl_insert {e : String × α} {l : List (String × α)}
    {d : Dictionary α} (h : e ∈ (l.foldl (fun d e => d.insert e.1 e.2) d).entries) :
    e ∈ l ∨ e ∈ d.entries := by
  induction l generalizing d with
  | nil => exact .inr h
  | cons a l ih =>
    rcases ih h with hl | hd
    · exact .inl (List.mem_cons_of_mem _ hl)
    · rcases mem_insertEntry hd with rfl | hd
      · exact .inl (List.mem_cons_self ..)
      · exact .inr hd

/-- A dictionary has no entries but those it is made from. -/
theorem mem_of_mem_entries_ofList {e : String × α} {l : List (String × α)}
    (h : e ∈ (ofList l).entries) : e ∈ l := by
  rcases mem_entries_foldl_insert h with hl | hd
  · exact hl
  · cases hd

/-- A dictionary is rebuilt from its entries. -/
theorem ofList_entries (d : Dictionary α) : ofList d.entries = d :=
  ext ((entries_foldl_insert d.entries empty (by simpa [empty] using d.sorted)).trans
    (List.nil_append _))

private theorem find?_foldl_insert (key : String) {l : List (String × α)}
    (hl : (l.map Prod.fst).Nodup) (d : Dictionary α) :
    (l.foldl (fun d e => d.insert e.1 e.2) d).find? key =
      ((l.find? (fun e => e.1 = key)).map Prod.snd).or (d.find? key) := by
  induction l generalizing d with
  | nil => rfl
  | cons e l ih =>
    obtain ⟨hnot, hnodup⟩ := List.nodup_cons.mp hl
    rw [List.foldl_cons, ih hnodup]
    by_cases h : e.1 = key
    · have hnone : l.find? (fun e => e.1 = key) = none := by
        refine List.find?_eq_none.mpr fun a ha => ?_
        simp only [decide_eq_true_eq]
        exact fun hak => hnot (List.mem_map.mpr ⟨a, ha, hak.trans h.symm⟩)
      subst h
      simp [hnone, find?_insert_self]
    · simp [h, find?_insert_ne d e.2 h]

/-- A dictionary made from a list without repeated keys has its entries. -/
theorem find?_ofList_eq_some_iff {l : List (String × α)} (hl : (l.map Prod.fst).Nodup)
    {key : String} {value : α} : (ofList l).find? key = some value ↔ (key, value) ∈ l := by
  rw [ofList, find?_foldl_insert key hl, find?_empty, Option.or_none]
  exact find?_map_eq_some_iff hl

/-- A list without repeated keys is a dictionary's contents in any order. -/
theorem ofList_eq_of_perm {l l' : List (String × α)} (h : l.Perm l')
    (hl : (l.map Prod.fst).Nodup) : ofList l = ofList l' := by
  refine ext_find? fun key => Option.ext fun value => ?_
  rw [find?_ofList_eq_some_iff hl, find?_ofList_eq_some_iff ((h.map Prod.fst).nodup hl)]
  exact h.mem_iff

end Dictionary

/-- A finite set of strings, listed in increasing order. -/
abbrev NameSet := Dictionary Unit

namespace NameSet

def ofList (names : List String) : NameSet :=
  Dictionary.ofList (names.map fun name => (name, ()))

private theorem contains_foldl_insert (names : List String) (s : NameSet) (name : String) :
    ((names.map fun name => (name, ())).foldl (fun s e => s.insert e.1 e.2) s).contains name =
      (decide (name ∈ names) || s.contains name) := by
  induction names generalizing s with
  | nil => simp
  | cons first names ih =>
    rw [List.map_cons, List.foldl_cons, ih, Dictionary.contains_insert]
    by_cases h : first = name
    · simp [h]
    · simp [h, Ne.symm h]

/-- A set made from names has these, in whatever order and how often they are listed. -/
theorem contains_ofList {names : List String} {name : String} :
    (ofList names).contains name = true ↔ name ∈ names := by
  rw [ofList, Dictionary.ofList, contains_foldl_insert]
  simp [Dictionary.contains]

/-- Sets with the same names are equal. -/
theorem ext_contains {s t : NameSet} (h : ∀ name, s.contains name = t.contains name) : s = t := by
  refine Dictionary.ext_find? fun name => ?_
  have hname := h name
  unfold Dictionary.contains at hname
  cases hs : s.find? name <;> cases ht : t.find? name <;> simp_all

end NameSet

end IrOptimizer
