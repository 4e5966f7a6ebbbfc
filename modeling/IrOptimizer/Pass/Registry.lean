import IrOptimizer.Pass.Basic
import IrOptimizer.Pass.Name

/-!
# The pass registry

A registry holds passes in the order in which they were given, native ones
before integrated ones, each under the name made from its label. Names are not
empty, are not selectors, and differ from each other; `build` refuses a list of
passes whose labels do not allow that.

Beside the list there is an index from names to places, by which passes are looked
up. That list and index agree is part of the type, so every way of making a
registry has to keep it.
-/

namespace IrOptimizer

/-- Where a pass comes from. -/
inductive Provenance where
  /-- Built into the framework. -/
  | native
  /-- Supplied for a dialect. -/
  | integrated
deriving DecidableEq

namespace Provenance

def name : Provenance → String
  | native => "native"
  | integrated => "integrated"

end Provenance

/-- Which passes a listing or a selector covers. -/
inductive PassFilter where
  | all
  | native
  | integrated
deriving DecidableEq

namespace PassFilter

def admits : PassFilter → Provenance → Bool
  | all, _ => true
  | native, p => p = .native
  | integrated, p => p = .integrated

def name : PassFilter → String
  | all => "all"
  | native => "native"
  | integrated => "integrated"

/-- The filter that a selector in a pipeline stands for. -/
def ofSelector? (token : String) : Option PassFilter :=
  if token = "all" then some all
  else if token = "all-native" then some native
  else if token = "all-integrated" then some integrated
  else none

/-- The filter of that name. -/
def ofName? (token : String) : Option PassFilter :=
  if token = "all" then some all
  else if token = "native" then some native
  else if token = "integrated" then some integrated
  else none

/-- The complaint about a name that no filter has. -/
def unknownMessage (token : String) : String :=
  "unknown pass filter `" ++ token ++ "` (expected all, native or integrated)"

end PassFilter

/-- Why a list of passes makes no registry. -/
inductive RegistryError where
  | emptyName (label : String)
  | duplicateName (name : String)
  | reservedName (name : String)
deriving DecidableEq

namespace RegistryError

def message : RegistryError → String
  | emptyName label => "pass label `" ++ label ++ "` normalises to an empty name"
  | duplicateName name => "duplicate pass name `" ++ name ++ "`"
  | reservedName name => "pass name `" ++ name ++ "` is reserved for pipeline selectors"

end RegistryError

/-- A pass under its name. -/
structure RegisteredPass where
  name : String
  provenance : Provenance
  pass : Pass

/-- A pass under the name made from its label. -/
def RegisteredPass.ofPass (provenance : Provenance) (pass : Pass) : RegisteredPass :=
  ⟨Pass.nameOf pass.label, provenance, pass⟩

/-- An index leads from a name to the place in a list of the pass that has it, and nowhere else. -/
def Indexes (index : Dictionary Nat) (entries : List RegisteredPass) : Prop :=
  ∀ name i, index.find? name = some i ↔ ∃ e, entries[i]? = some e ∧ e.name = name

theorem indexes_empty : Indexes .empty [] := by
  intro name i
  simp

/-- A pass of a new name behind the others gets the next place. -/
theorem Indexes.concat {index : Dictionary Nat} {entries : List RegisteredPass} {e : RegisteredPass}
    (h : Indexes index entries) (hnew : ¬ index.contains e.name) :
    Indexes (index.insert e.name entries.length) (entries ++ [e]) := by
  have hunknown : index.find? e.name = none := by
    simpa [Dictionary.contains] using hnew
  have hplaces : ∀ i e', (entries ++ [e])[i]? = some e' ↔
      entries[i]? = some e' ∨ i = entries.length ∧ e = e' := by
    intro i e'
    grind
  intro name i
  simp only [hplaces]
  by_cases hname : e.name = name
  · subst hname
    rw [Dictionary.find?_insert_self]
    constructor
    · rintro ⟨⟩
      exact ⟨e, .inr ⟨rfl, rfl⟩, rfl⟩
    · rintro ⟨e', he' | ⟨rfl, _⟩, hname⟩
      · cases hunknown.symm.trans ((h e.name i).mpr ⟨e', he', hname⟩)
      · rfl
  · rw [Dictionary.find?_insert_ne _ _ hname, h name i]
    constructor
    · rintro ⟨e', he', hname'⟩
      exact ⟨e', .inl he', hname'⟩
    · rintro ⟨e', he' | ⟨_, rfl⟩, hname'⟩
      · exact ⟨e', he', hname'⟩
      · exact absurd hname' hname

/-- Passes by name, in the order of their registration. -/
structure PassRegistry where
  entries : List RegisteredPass
  /-- Where in the list the pass of a name is. -/
  index : Dictionary Nat
  indexes : Indexes index entries

namespace PassRegistry

def empty : PassRegistry := ⟨[], .empty, indexes_empty⟩

/-- The pass of that name. -/
def lookup? (r : PassRegistry) (name : String) : Option RegisteredPass :=
  (r.index.find? name).bind fun i => r.entries[i]?

/-- Puts a pass of a new name behind the others. -/
def push (r : PassRegistry) (e : RegisteredPass) (hnew : ¬ r.index.contains e.name) :
    PassRegistry :=
  ⟨r.entries ++ [e], r.index.insert e.name r.entries.length, r.indexes.concat hnew⟩

/-- Adds a pass behind the others. -/
def add (r : PassRegistry) (provenance : Provenance) (pass : Pass) :
    Except RegistryError PassRegistry :=
  let e := RegisteredPass.ofPass provenance pass
  if e.name.isEmpty then .error (.emptyName pass.label)
  else if (PassFilter.ofSelector? e.name).isSome then .error (.reservedName e.name)
  else if hknown : r.index.contains e.name then .error (.duplicateName e.name)
  else .ok (r.push e hknown)

/-- The registry of two lists of passes, or the first complaint about one of them. -/
def build (native integrated : List Pass) : Except RegistryError PassRegistry := do
  let r ← native.foldlM (fun r pass => r.add .native pass) empty
  integrated.foldlM (fun r pass => r.add .integrated pass) r

/-- The passes that a filter admits, in the order of their registration. -/
def select (r : PassRegistry) (filter : PassFilter) : List RegisteredPass :=
  r.entries.filter fun e => filter.admits e.provenance

/-- The names of the passes that a filter admits. -/
def names (r : PassRegistry) (filter : PassFilter) : List String :=
  (r.select filter).map (·.name)

/-- A listing with a line for each pass: name, provenance and description. Names
are padded to the size in bytes of the longest. -/
def listing (r : PassRegistry) (filter : PassFilter) : String :=
  let width := (r.names filter).foldl (fun w name => max w name.utf8ByteSize) 0
  String.join <| (r.select filter).map fun e =>
    let blanks := String.ofList (List.replicate (width - e.name.length) ' ')
    e.name ++ blanks ++ "  [" ++ e.provenance.name ++ "]  " ++ e.pass.description ++ "\n"

end PassRegistry

end IrOptimizer
