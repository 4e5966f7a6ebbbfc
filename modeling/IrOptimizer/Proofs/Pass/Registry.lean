import IrOptimizer.Pass.Registry
import IrOptimizer.Proofs.Except

/-!
# Which passes make a registry

Passes are looked up through the index, and since list and index agree, a look-up finds the one
entry of a name (`lookup?_eq_some_iff`) or there is none (`lookup?_eq_none_iff`). The index leaves
no freedom: registries with the same entries are the same (`ext_entries`).

A registry is built by adding the passes that are offered one by one. A single pass is accepted
behind some others, or refused for the first of three reasons (`Accepted`, `Refused`); one of the
two always happens. Accepting passes one after the other is the same as asking of the whole list
that it is admissible, so building succeeds just with admissible lists and holds then what was
offered, and otherwise tells of the first pass that is refused (`build_outcome`).
-/

namespace IrOptimizer

namespace PassRegistry

variable {r r' : PassRegistry}

/-! ## Looking passes up -/

/-- The index knows the place of every entry. -/
theorem exists_find?_index {e : RegisteredPass} (h : e ∈ r.entries) :
    ∃ i, r.index.find? e.name = some i ∧ r.entries[i]? = some e := by
  obtain ⟨i, hi⟩ := List.mem_iff_getElem?.mp h
  exact ⟨i, (r.indexes e.name i).mpr ⟨e, hi, rfl⟩, hi⟩

/-- A look-up finds the entry of that name. -/
theorem lookup?_eq_some_iff {name : String} {e : RegisteredPass} :
    r.lookup? name = some e ↔ e ∈ r.entries ∧ e.name = name := by
  constructor
  · intro h
    obtain ⟨i, hi, he⟩ := Option.bind_eq_some_iff.mp h
    obtain ⟨e', he', hname⟩ := (r.indexes name i).mp hi
    obtain rfl : e' = e := Option.some.inj (he'.symm.trans he)
    exact ⟨List.mem_of_getElem? he, hname⟩
  · rintro ⟨hmem, rfl⟩
    obtain ⟨i, hi, he⟩ := exists_find?_index hmem
    exact Option.bind_eq_some_iff.mpr ⟨i, hi, he⟩

/-- A look-up finds nothing just if no entry has that name. -/
theorem lookup?_eq_none_iff {name : String} :
    r.lookup? name = none ↔ ∀ e ∈ r.entries, e.name ≠ name := by
  constructor
  · intro h e he hname
    cases h.symm.trans (lookup?_eq_some_iff.mpr ⟨he, hname⟩)
  · intro h
    refine Option.eq_none_iff_forall_ne_some.mpr fun e he => ?_
    obtain ⟨hmem, hname⟩ := lookup?_eq_some_iff.mp he
    exact h e hmem hname

/-- The names in the index are those of the entries. -/
theorem contains_index_iff {name : String} :
    r.index.contains name = true ↔ ∃ e ∈ r.entries, e.name = name := by
  rw [Dictionary.contains, Option.isSome_iff_exists]
  constructor
  · rintro ⟨i, hi⟩
    obtain ⟨e, he, hname⟩ := (r.indexes name i).mp hi
    exact ⟨e, List.mem_of_getElem? he, hname⟩
  · rintro ⟨e, he, rfl⟩
    obtain ⟨i, hi, _⟩ := exists_find?_index he
    exact ⟨i, hi⟩

/-- Registries with the same entries are the same, as the index follows from these. -/
theorem ext_entries (h : r.entries = r'.entries) : r = r' := by
  obtain ⟨entries, index, hindex⟩ := r
  obtain ⟨entries', index', hindex'⟩ := r'
  obtain rfl : entries = entries' := h
  have hfind : ∀ name, index.find? name = index'.find? name := by
    intro name
    refine Option.ext fun i => ?_
    rw [hindex name i, hindex' name i]
  obtain rfl := Dictionary.ext_find? hfind
  rfl

/-- The index of entries whose names differ. -/
theorem indexes_ofList {entries : List RegisteredPass} (h : (entries.map (·.name)).Nodup) :
    Indexes (.ofList (entries.map (·.name)).zipIdx) entries := by
  intro name i
  rw [Dictionary.find?_ofList_eq_some_iff (by rwa [List.zipIdx_map_fst]),
    List.mk_mem_zipIdx_iff_getElem?, List.getElem?_map, Option.map_eq_some_iff]

/-! ## One pass -/

/-- A name that passes can have. -/
structure Proper (name : String) : Prop where
  not_empty : name ≠ ""
  no_selector : PassFilter.ofSelector? name = none

/-- An entry that can stand behind others. -/
structure Accepted (earlier : List RegisteredPass) (e : RegisteredPass) : Prop where
  proper : Proper e.name
  new : ∀ e' ∈ earlier, e'.name ≠ e.name

/-- Why an entry cannot stand behind others: it has no name, or one that is a selector, or the
name of one of them. Only the first of these reasons is told. -/
inductive Refused (earlier : List RegisteredPass) (e : RegisteredPass) : RegistryError → Prop where
  | unnamed (hname : e.name = "") : Refused earlier e (.emptyName e.pass.label)
  | selector (hname : e.name ≠ "") {filter : PassFilter}
      (hselector : PassFilter.ofSelector? e.name = some filter) :
      Refused earlier e (.reservedName e.name)
  | known (hproper : Proper e.name) {e' : RegisteredPass} (hmem : e' ∈ earlier)
      (hname : e'.name = e.name) : Refused earlier e (.duplicateName e.name)

/-- Behind any passes, another one is accepted or there is a reason to refuse it. -/
theorem accepted_or_refused (earlier : List RegisteredPass) (e : RegisteredPass) :
    Accepted earlier e ∨ ∃ error, Refused earlier e error := by
  by_cases hname : e.name = ""
  · exact .inr ⟨_, .unnamed hname⟩
  · cases hselector : PassFilter.ofSelector? e.name with
    | some filter => exact .inr ⟨_, .selector hname hselector⟩
    | none =>
      by_cases hknown : ∃ e' ∈ earlier, e'.name = e.name
      · obtain ⟨e', hmem, hsame⟩ := hknown
        exact .inr ⟨_, .known ⟨hname, hselector⟩ hmem hsame⟩
      · exact .inl ⟨⟨hname, hselector⟩, fun e' hmem hsame => hknown ⟨e', hmem, hsame⟩⟩

/-- No pass is both accepted and refused. -/
theorem Refused.not_accepted {earlier : List RegisteredPass} {e : RegisteredPass}
    {error : RegistryError} (h : Refused earlier e error) : ¬ Accepted earlier e := by
  intro haccepted
  cases h with
  | unnamed hname => exact haccepted.proper.not_empty hname
  | selector _ hselector => cases haccepted.proper.no_selector.symm.trans hselector
  | known _ hmem hname => exact haccepted.new _ hmem hname

section

variable {provenance : Provenance} {pass : Pass}

/-- A pass that is accepted is added behind all others. -/
theorem add_of_accepted (h : Accepted r.entries (.ofPass provenance pass)) :
    ∃ r', r.add provenance pass = .ok r' ∧ r'.entries = r.entries ++ [.ofPass provenance pass] := by
  have hname : ¬ (RegisteredPass.ofPass provenance pass).name.isEmpty = true := by
    simpa using h.proper.not_empty
  have hselector :
      ¬ (PassFilter.ofSelector? (RegisteredPass.ofPass provenance pass).name).isSome = true := by
    simpa using h.proper.no_selector
  have hknown : ¬ r.index.contains (RegisteredPass.ofPass provenance pass).name = true := by
    rw [contains_index_iff]
    rintro ⟨e, he, hsame⟩
    exact h.new e he hsame
  refine ⟨r.push (.ofPass provenance pass) hknown, ?_, rfl⟩
  rw [add, if_neg hname, if_neg hselector, dif_neg hknown]

/-- A pass that is refused is not added, and the reason is told. -/
theorem add_of_refused {error : RegistryError}
    (h : Refused r.entries (.ofPass provenance pass) error) :
    r.add provenance pass = .error error := by
  cases h with
  | unnamed hname =>
    rw [add, if_pos (by simpa using hname)]
    rfl
  | selector hname hselector =>
    rw [add, if_neg (by simpa using hname), if_pos (Option.isSome_of_eq_some hselector)]
  | known hproper hmem hsame =>
    rw [add, if_neg (by simpa using hproper.not_empty), if_neg (by simpa using hproper.no_selector),
      dif_pos (contains_index_iff.mpr ⟨_, hmem, hsame⟩)]

/-- Adding succeeds just for passes that are accepted, and only appends. -/
theorem add_eq_ok_iff :
    r.add provenance pass = .ok r' ↔
      Accepted r.entries (.ofPass provenance pass) ∧
        r'.entries = r.entries ++ [.ofPass provenance pass] := by
  rcases accepted_or_refused r.entries (.ofPass provenance pass) with haccepted | ⟨e, hrefused⟩
  · obtain ⟨added, hadd, hentries⟩ := add_of_accepted haccepted
    rw [hadd, Except.ok.injEq, ← hentries]
    exact ⟨fun h => ⟨haccepted, congrArg entries h.symm⟩, fun h => ext_entries h.2.symm⟩
  · rw [add_of_refused hrefused]
    exact ⟨nofun, fun h => absurd h.1 hrefused.not_accepted⟩

/-- Adding fails just for passes that are refused, with the reason for which they are. -/
theorem add_eq_error_iff {error : RegistryError} :
    r.add provenance pass = .error error ↔
      Refused r.entries (.ofPass provenance pass) error := by
  refine ⟨fun h => ?_, add_of_refused⟩
  rcases accepted_or_refused r.entries (.ofPass provenance pass) with haccepted | ⟨e, hrefused⟩
  · obtain ⟨_, hadd, _⟩ := add_of_accepted haccepted
    cases hadd.symm.trans h
  · cases (add_of_refused hrefused).symm.trans h
    exact hrefused

end

/-! ## All passes -/

/-- Entries with names that passes can have, each name once. -/
structure Admissible (entries : List RegisteredPass) : Prop where
  proper : ∀ e ∈ entries, Proper e.name
  distinct : (entries.map (·.name)).Nodup

theorem admissible_nil : Admissible [] := ⟨nofun, List.nodup_nil⟩

/-- One more pass is admissible if it is accepted behind those before it. -/
theorem admissible_concat_iff {earlier : List RegisteredPass} {e : RegisteredPass} :
    Admissible (earlier ++ [e]) ↔ Admissible earlier ∧ Accepted earlier e := by
  constructor
  · rintro ⟨hproper, hdistinct⟩
    rw [List.map_append] at hdistinct
    obtain ⟨hearlier, _, hdisjoint⟩ := List.nodup_append.mp hdistinct
    refine ⟨⟨fun e' he' => hproper e' (List.mem_append_left _ he'), hearlier⟩,
      hproper e (by simp), fun e' he' => ?_⟩
    exact hdisjoint _ (List.mem_map_of_mem he') _ (by simp)
  · rintro ⟨⟨hproper, hdistinct⟩, hnew⟩
    refine ⟨?_, ?_⟩
    · rw [List.forall_mem_append, List.forall_mem_singleton]
      exact ⟨hproper, hnew.proper⟩
    · rw [List.map_append, List.nodup_append]
      refine ⟨hdistinct, by simp, ?_⟩
      simpa using hnew.new

/-- What is admissible as a whole is so up to any pass. -/
theorem Admissible.front {front back : List RegisteredPass} (h : Admissible (front ++ back)) :
    Admissible front := by
  refine ⟨fun e he => h.proper e (List.mem_append_left _ he), ?_⟩
  have hdistinct := h.distinct
  rw [List.map_append] at hdistinct
  exact (List.nodup_append.mp hdistinct).1

/-- Of some entries the first that cannot stand behind those before it is refused. -/
def FirstRefused (entries : List RegisteredPass) (error : RegistryError) : Prop :=
  ∃ before e later, entries = before ++ e :: later ∧ Admissible before ∧ Refused before e error

/-- The passes of two lists under their names, native ones first. -/
def offered (native integrated : List Pass) : List RegisteredPass :=
  native.map (.ofPass .native) ++ integrated.map (.ofPass .integrated)

/-- Adds the pass of an entry. -/
def addEntry (r : PassRegistry) (e : RegisteredPass) : Except RegistryError PassRegistry :=
  r.add e.provenance e.pass

/-- A registry is built by adding what is offered, in order. -/
theorem build_eq (native integrated : List Pass) :
    build native integrated = (offered native integrated).foldlM addEntry empty := by
  rw [offered, List.foldlM_append, List.foldlM_map, build]
  simp only [List.foldlM_map]
  rfl

/-- What is offered bears the name that its label leads to. -/
theorem ofPass_of_mem_offered {native integrated : List Pass} :
    ∀ e ∈ offered native integrated, RegisteredPass.ofPass e.provenance e.pass = e := by
  intro e he
  rcases List.mem_append.mp he with he | he
  · obtain ⟨pass, _, rfl⟩ := List.mem_map.mp he
    rfl
  · obtain ⟨pass, _, rfl⟩ := List.mem_map.mp he
    rfl

section

variable {entries : List RegisteredPass}

/-- Adding entries one by one succeeds if with those that are there they are admissible. -/
theorem foldlM_addEntry_eq_ok_iff (hnames : ∀ e ∈ entries, .ofPass e.provenance e.pass = e)
    (hr : Admissible r.entries) :
    entries.foldlM addEntry r = .ok r' ↔
      Admissible r'.entries ∧ r'.entries = r.entries ++ entries := by
  induction entries generalizing r with
  | nil =>
    rw [List.append_nil]
    constructor
    · rintro ⟨⟩
      exact ⟨hr, rfl⟩
    · rintro ⟨_, h⟩
      rw [ext_entries h]
      rfl
  | cons e entries ih =>
    obtain ⟨hname, hnames⟩ := List.forall_mem_cons.mp hnames
    have hadd : ∀ {r' : PassRegistry}, r.addEntry e = .ok r' ↔
        Accepted r.entries e ∧ r'.entries = r.entries ++ [e] := by
      intro r'
      rw [addEntry, add_eq_ok_iff, hname]
    rw [List.foldlM_cons, except_bind_eq_ok, List.append_cons]
    constructor
    · rintro ⟨added, hadded, hlater⟩
      obtain ⟨haccepted, hentries⟩ := hadd.mp hadded
      have hr : Admissible added.entries := by
        rw [hentries]
        exact admissible_concat_iff.mpr ⟨hr, haccepted⟩
      rw [← hentries]
      exact (ih hnames hr).mp hlater
    · rintro ⟨hadmissible, hentries⟩
      have hfront : Admissible (r.entries ++ [e]) := (hentries ▸ hadmissible).front
      have haccepted := (admissible_concat_iff.mp hfront).2
      obtain ⟨added, hadded, hentries'⟩ := add_of_accepted (hname.symm ▸ haccepted)
      rw [hname] at hentries'
      rw [← hentries'] at hfront hentries
      exact ⟨added, hadded, (ih hnames hfront).mpr ⟨hadmissible, hentries⟩⟩

/-- Where a pass is refused, the passes are not admissible. -/
theorem FirstRefused.not_admissible {error : RegistryError} (h : FirstRefused entries error) :
    ¬ Admissible entries := by
  obtain ⟨before, e, later, rfl, _, hrefused⟩ := h
  intro hadmissible
  rw [List.append_cons] at hadmissible
  exact hrefused.not_accepted (admissible_concat_iff.mp hadmissible.front).2

/-- Adding entries one by one fails at the first that is refused. -/
theorem firstRefused_of_foldlM (hnames : ∀ e ∈ entries, .ofPass e.provenance e.pass = e)
    {error : RegistryError} (h : entries.foldlM addEntry empty = .error error) :
    FirstRefused entries error := by
  obtain ⟨before, e, later, added, rfl, hbefore, hadd⟩ := foldlM_eq_error_iff.mp h
  have hnames' : ∀ e ∈ before, RegisteredPass.ofPass e.provenance e.pass = e :=
    fun e he => hnames e (List.mem_append_left _ he)
  obtain ⟨hadmissible, hentries⟩ := (foldlM_addEntry_eq_ok_iff hnames' admissible_nil).mp hbefore
  have hentries : added.entries = before := hentries
  rw [addEntry, add_eq_error_iff, hnames e (by simp), hentries] at hadd
  exact ⟨before, e, later, rfl, hentries ▸ hadmissible, hadd⟩

/-- Passes that are admissible are all added. -/
theorem exists_foldlM_addEntry (hnames : ∀ e ∈ entries, .ofPass e.provenance e.pass = e)
    (h : Admissible entries) :
    ∃ r, entries.foldlM addEntry empty = .ok r ∧ r.entries = entries := by
  cases hrun : entries.foldlM addEntry empty with
  | ok r => exact ⟨r, rfl, ((foldlM_addEntry_eq_ok_iff hnames admissible_nil).mp hrun).2⟩
  | error error => exact absurd h (firstRefused_of_foldlM hnames hrun).not_admissible

/-- Adding stops at the first pass that is refused. -/
theorem foldlM_of_firstRefused (hnames : ∀ e ∈ entries, .ofPass e.provenance e.pass = e)
    {error : RegistryError} (h : FirstRefused entries error) :
    entries.foldlM addEntry empty = .error error := by
  obtain ⟨before, e, later, rfl, hadmissible, hrefused⟩ := h
  obtain ⟨added, hbefore, hentries⟩ :=
    exists_foldlM_addEntry (fun e he => hnames e (List.mem_append_left _ he)) hadmissible
  refine foldlM_eq_error_iff.mpr ⟨before, e, later, added, rfl, hbefore, ?_⟩
  rw [addEntry, add_eq_error_iff, hnames e (by simp), hentries]
  exact hrefused

end

/-- A registry is built just if all that is offered is admissible, and holds that in order. -/
theorem build_eq_ok_iff {native integrated : List Pass} :
    build native integrated = .ok r ↔
      Admissible r.entries ∧ r.entries = offered native integrated := by
  rw [build_eq]
  exact foldlM_addEntry_eq_ok_iff ofPass_of_mem_offered admissible_nil

/-- Two lists of passes make a registry just if the names made from all their labels are proper
and differ. The registry then holds the native passes and behind them the integrated ones, in
order. A look-up finds the one of them that has the name, or nothing, and the index gives its
place. Otherwise the first pass that is refused behind those before it is told, with its reason. -/
theorem build_outcome (native integrated : List Pass) :
    let entries := offered native integrated
    ((∃ r, build native integrated = .ok r) ↔ Admissible entries) ∧
    (∀ r, build native integrated = .ok r →
      r.entries = entries ∧
      (∀ name e, r.lookup? name = some e ↔ e ∈ entries ∧ e.name = name) ∧
      (∀ name, r.lookup? name = none ↔ ∀ e ∈ entries, e.name ≠ name) ∧
      (∀ name i, r.index.find? name = some i ↔ ∃ e, entries[i]? = some e ∧ e.name = name)) ∧
    (∀ error, build native integrated = .error error ↔ FirstRefused entries error) := by
  intro entries
  refine ⟨⟨?_, fun h => ?_⟩, fun r hr => ?_, fun error => ?_⟩
  · rintro ⟨r, hr⟩
    obtain ⟨hadmissible, hentries⟩ := build_eq_ok_iff.mp hr
    rwa [hentries] at hadmissible
  · obtain ⟨r, hr, _⟩ := exists_foldlM_addEntry ofPass_of_mem_offered h
    exact ⟨r, (build_eq native integrated).trans hr⟩
  · have hentries : r.entries = entries := (build_eq_ok_iff.mp hr).2
    rw [← hentries]
    exact ⟨rfl, fun _ _ => lookup?_eq_some_iff, fun _ => lookup?_eq_none_iff, r.indexes⟩
  · rw [build_eq]
    exact ⟨firstRefused_of_foldlM ofPass_of_mem_offered,
      foldlM_of_firstRefused ofPass_of_mem_offered⟩

/-- Labels that are written in different ways may stand for the same name. -/
example :
    let labelled (label : String) : Pass := { label, run := fun _ m => (m, .ok ()) }
    build [labelled "a_b"] [labelled "aB"] = .error (.duplicateName "a-b") := by
  rfl

end PassRegistry

end IrOptimizer
