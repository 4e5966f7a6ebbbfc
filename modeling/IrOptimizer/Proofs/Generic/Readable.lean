import IrOptimizer.Proofs.Generic.Acceptance
import IrOptimizer.Proofs.Operation

/-!
# What can be read at all

Not every module is written in some text: the name of an operation is always an
identifier, and no more than `maxNesting` regions that hold something lie inside
one another. `readable_of_parse` says that the reader answers no other modules;
both bounds come from one induction on the language (`Operations.readable`).
Nothing is said of the names of modules, of keys and of values, which are quoted.
-/

namespace IrOptimizer

/-- Operations whose names, at every depth, are identifiers. -/
abbrev NamesReadable (ops : List Operation) : Prop :=
  EveryName (fun name => Text.isIdentifier name.toList = true) ops

/-- A module that some text could stand for. -/
structure Module.Readable (m : Module) : Prop where
  names : NamesReadable m.ops
  nesting : m.nesting ≤ Generic.maxNesting

namespace Generic

open Phrase

/-- What is read with so many levels is nested no deeper, and its names are identifiers. -/
theorem Phrase.Operations.readable {n : Nat} {s r : List Char} {ops : List WrittenOperation}
    (h : Operations n s r ops) : NamesReadable (trees ops) ∧ nestingList (trees ops) ≤ n := by
  have hname : ∀ {s r : List Char} {name : String} {as : List WrittenAttribute},
      Head s r name as → Text.isIdentifier name.toList = true := by
    rintro s r name as ⟨⟨hw, _⟩, _, _⟩
    rwa [String.toList_ofList]
  induction h with
  | nil => exact ⟨everyName_nil, Nat.zero_le _⟩
  | leaf hhead _ _ ih =>
    refine ⟨everyName_cons.mpr ⟨hname hhead, everyName_nil, ih.1⟩, Nat.max_le.mpr ⟨?_, ih.2⟩⟩
    simp [WrittenOperation.tree, trees]
  | @node n s s₁ s₂ s₃ s₄ s₅ r name as children ops hhead _ _ _ _ _ ihc ih =>
    refine ⟨everyName_cons.mpr ⟨hname hhead, ihc.1, ih.1⟩, Nat.max_le.mpr ⟨?_, ih.2⟩⟩
    exact Nat.le_trans (Operation.nesting_le ..) (Nat.succ_le_succ ihc.2)

/-- The reader answers modules with identifiers for names and bounded nesting only. -/
theorem readable_of_parse {source : String} {m : Module} (h : parse source = .ok m) :
    m.Readable := by
  obtain ⟨w, hreading, hmeaning⟩ := parseChars_eq_ok_iff.mp h
  obtain ⟨_, _, rfl⟩ := WrittenModule.meaning_eq_ok_iff.mp hmeaning
  have hops : NamesReadable (trees w.ops) ∧ nestingList (trees w.ops) ≤ maxNesting := by
    cases hreading with
    | declared _ hdecl _ =>
      obtain ⟨_, _, _, _, _, hops⟩ := hdecl
      exact hops.readable
    | bare _ _ hops _ => exact hops.readable
  exact ⟨hops.1, hops.2⟩

end Generic

end IrOptimizer
