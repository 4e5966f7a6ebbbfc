import IrOptimizer.Program.Command
import IrOptimizer.Proofs.Text.Lines

/-!
# What messages quote

The words of a message are all in one line, but a message may quote a text from elsewhere:
a name, a key, a path, or what someone else says of a failure. `quotes` lists these texts for every
kind of failure, and a message has a line feed in it exactly if one of them has
(`Command.Failure.breaks_message_iff`), which is shown for each kind from those that it
holds.
-/

namespace IrOptimizer

open Command Text

/-- The texts from elsewhere that a message quotes. -/
def SyntaxProblem.quotes : SyntaxProblem → List String
  | nestingTooDeep | expected _ | integerOutOfRange => []
  | duplicateAttribute key => [key]
  | notAnInteger word => [word]
  | other message => [message]

def DialectError.quotes : DialectError → List String
  | emptyName => []
  | conflictingDefinition name => [name]
  | unknownOperation name => [name]

def FrontendError.quotes : FrontendError → List String
  | unknownFrontend tag => [tag]
  | unreadable reason => [reason]
  | badSource e => e.problem.quotes
  | invalid e => e.quotes

def PassError.quotes : PassError → List String
  | failed message => [message]
  | invalid e => e.quotes

def PipelineError.quotes : PipelineError → List String
  | unknownPass name => [name]
  | passFailed name _ cause => name :: cause.quotes
  | invalidAfter name _ cause => name :: cause.quotes

def OptimizerError.quotes : OptimizerError → List String
  | unreadable reason => [reason]
  | frontend e => e.quotes
  | pipeline e => e.quotes
  | unwritable reason => [reason]

def SettingsError.quotes : SettingsError → List String
  | unreadable path reason => [path, reason]
  | invalidDocument reason => [reason]
  | unknownTarget name => [name]

def Command.Failure.quotes : Failure → List String
  | settings e => e.quotes
  | optimizer e => e.quotes

/-! ## Messages with line feeds -/

/-- The names of rules go into one line. -/
theorem not_breaks_expectation (rules : List Generic.Rule) :
    ¬ Breaks (Generic.Rule.expectation rules) := by
  have hitems : ∀ item ∈ rules.map Generic.Rule.describe, ¬ Breaks item := by
    intro item hitem
    obtain ⟨rule, _, rfl⟩ := List.mem_map.mp hitem
    cases rule <;> exact not_breaks rfl
  unfold Generic.Rule.expectation
  generalize rules.map Generic.Rule.describe = items at hitems
  have hlast : ¬ Breaks (items.getLast?.getD "") := by
    cases h : items.getLast? with
    | none => exact List.not_mem_nil
    | some item => exact hitems item (List.mem_of_getLast? h)
  have hfirst : ¬ Breaks (String.intercalate ", " items.dropLast) :=
    not_breaks_intercalate (not_breaks rfl) fun item h =>
      hitems item ((List.dropLast_sublist items).mem h)
  split
  · exact not_breaks rfl
  · next a =>
    rw [breaks_behind rfl]
    exact hitems a (by simp)
  · next a b =>
    rw [breaks_append, breaks_append, breaks_behind rfl]
    exact not_or.mpr ⟨not_or.mpr ⟨hitems a (by simp), not_breaks rfl⟩, hitems b (by simp)⟩
  · rw [breaks_append, breaks_append, breaks_behind rfl]
    exact not_or.mpr ⟨not_or.mpr ⟨hfirst, not_breaks rfl⟩, hlast⟩

theorem exists_mem_singleton {text : String} : (∃ t ∈ [text], Breaks t) ↔ Breaks text := by
  simp only [List.mem_singleton, exists_eq_left]

theorem exists_mem_cons {text : String} {texts : List String} :
    (∃ t ∈ text :: texts, Breaks t) ↔ Breaks text ∨ ∃ t ∈ texts, Breaks t := by
  simp only [List.mem_cons, exists_eq_or_imp]

/-- A message breaks only where a text that it quotes does. -/
theorem DialectError.breaks_message_iff (e : DialectError) :
    Breaks e.message ↔ ∃ text ∈ e.quotes, Breaks text := by
  cases e with
  | emptyName => exact iff_of_false (not_breaks rfl) (by simp [quotes])
  | conflictingDefinition name =>
    exact (breaks_between rfl rfl name).trans exists_mem_singleton.symm
  | unknownOperation name => exact (breaks_between rfl rfl name).trans exists_mem_singleton.symm

/-- A complaint about a source breaks only in a key or a word of the source. -/
theorem SyntaxProblem.breaks_message_iff (e : SyntaxProblem) :
    Breaks e.message ↔ ∃ text ∈ e.quotes, Breaks text := by
  cases e with
  | nestingTooDeep => exact iff_of_false (not_breaks rfl) (by simp [quotes])
  | expected rules => exact iff_of_false (not_breaks_expectation rules) (by simp [quotes])
  | integerOutOfRange => exact iff_of_false (not_breaks rfl) (by simp [quotes])
  | duplicateAttribute key => exact (breaks_between rfl rfl key).trans exists_mem_singleton.symm
  | notAnInteger word => exact (breaks_between rfl rfl word).trans exists_mem_singleton.symm
  | other message => exact exists_mem_singleton.symm

/-- A complaint with a place breaks only where the complaint does. -/
theorem FrontendError.breaks_message_iff (e : FrontendError) :
    Breaks e.message ↔ ∃ text ∈ e.quotes, Breaks text := by
  cases e with
  | unknownFrontend tag => exact (breaks_between rfl rfl tag).trans exists_mem_singleton.symm
  | unreadable reason => exact (breaks_behind rfl reason).trans exists_mem_singleton.symm
  | invalid e => exact e.breaks_message_iff
  | badSource e =>
    show Breaks (SyntaxError.message e) ↔ ∃ text ∈ e.problem.quotes, Breaks text
    unfold SyntaxError.message
    have hbefore : ¬ Breaks "syntax error at " := not_breaks rfl
    have hcolon : ¬ Breaks ":" := not_breaks rfl
    have hspace : ¬ Breaks ": " := not_breaks rfl
    have hplace := not_breaks_numbered (not_breaks_numbered hbefore hcolon e.position.line) hspace
      e.position.column
    rw [breaks_append, or_iff_right hplace]
    exact e.problem.breaks_message_iff

theorem PassError.breaks_message_iff (e : PassError) :
    Breaks e.message ↔ ∃ text ∈ e.quotes, Breaks text := by
  cases e with
  | failed message => exact exists_mem_singleton.symm
  | invalid e => exact e.breaks_message_iff

/-- A message about a pass breaks where the name of the pass or the cause does. -/
theorem breaks_attributed {before between after : String}
    (hbefore : before.toList.contains '\n' = false)
    (hbetween : between.toList.contains '\n' = false)
    (hafter : after.toList.contains '\n' = false) (name : String) (index : Nat)
    (message : String) :
    Breaks (before ++ name ++ between ++ toString index ++ after ++ message) ↔
      Breaks name ∨ Breaks message := by
  rw [breaks_append, breaks_append, or_iff_left (not_breaks hafter), breaks_append,
    or_iff_left (not_breaks_toString index), breaks_between hbefore hbetween]

/-- Of a pass its name is quoted, and the cause of the failure. -/
theorem PipelineError.breaks_message_iff (e : PipelineError) :
    Breaks e.message ↔ ∃ text ∈ e.quotes, Breaks text := by
  cases e with
  | unknownPass name => exact (breaks_between rfl rfl name).trans exists_mem_singleton.symm
  | passFailed name index cause =>
    show _ ↔ ∃ text ∈ name :: cause.quotes, Breaks text
    rw [exists_mem_cons, ← cause.breaks_message_iff]
    exact breaks_attributed rfl rfl rfl name index cause.message
  | invalidAfter name index cause =>
    show _ ↔ ∃ text ∈ name :: cause.quotes, Breaks text
    rw [exists_mem_cons, ← cause.breaks_message_iff]
    exact breaks_attributed rfl rfl rfl name index cause.message

theorem OptimizerError.breaks_message_iff (e : OptimizerError) :
    Breaks e.message ↔ ∃ text ∈ e.quotes, Breaks text := by
  cases e with
  | unreadable reason => exact (breaks_behind rfl reason).trans exists_mem_singleton.symm
  | frontend e => exact e.breaks_message_iff
  | pipeline e => exact e.breaks_message_iff
  | unwritable reason => exact (breaks_behind rfl reason).trans exists_mem_singleton.symm

/-- What is said of a settings document is quoted as it is, and so are paths. -/
theorem SettingsError.breaks_message_iff (e : SettingsError) :
    Breaks e.message ↔ ∃ text ∈ e.quotes, Breaks text := by
  cases e with
  | unreadable path reason =>
    show Breaks ("failed to read config " ++ path ++ ": " ++ reason) ↔
      ∃ text ∈ [path, reason], Breaks text
    rw [exists_mem_cons, exists_mem_singleton, breaks_append, breaks_between rfl rfl]
  | invalidDocument reason => exact (breaks_behind rfl reason).trans exists_mem_singleton.symm
  | unknownTarget name => exact (breaks_between rfl rfl name).trans exists_mem_singleton.symm

/-- The message of any failure breaks only where a text that it quotes does. -/
theorem Command.Failure.breaks_message_iff (e : Failure) :
    Breaks e.message ↔ ∃ text ∈ e.quotes, Breaks text := by
  cases e with
  | settings e => exact e.breaks_message_iff
  | optimizer e => exact e.breaks_message_iff

end IrOptimizer
