import IrOptimizer.Pass.Pipeline
import IrOptimizer.Settings.CommandLine
import IrOptimizer.Settings.Document

/-!
# Settings

The settings of a run come from the command line and, where that says nothing,
from a settings document. The target may also follow from the name of the output
file, and the frontend from that of the input file. A single hyphen for a file
stands for a standard stream, as does no file at all.
-/

namespace IrOptimizer

/-- What a run does. -/
structure Settings where
  input : Option String := none
  output : Option String := none
  frontend : Option String := none
  target : Target := .ir
  passes : List String := []
  listPasses : Option PassFilter := none
  verifyEach : Bool := false
  printBetweenPasses : Bool := false
  allowUnregistered : Bool := false
  splitInput : Bool := false
deriving DecidableEq

/-- Why there are no settings. -/
inductive SettingsError where
  | unreadable (path reason : String)
  | invalidDocument (reason : String)
  | unknownTarget (name : String)
deriving DecidableEq

namespace SettingsError

def message : SettingsError → String
  | unreadable path reason => "failed to read config " ++ path ++ ": " ++ reason
  | invalidDocument reason => "invalid config: " ++ reason
  | unknownTarget name => Target.unknownMessage name

end SettingsError

namespace Settings

/-- The source form where nothing says another. -/
def defaultFrontend : String := "ir"

/-- Reads a settings document. A text that is none is refused with what is said of it. -/
def document (complaint : String → String) (text : String) : Except SettingsError SettingsFile :=
  match SettingsFile.parse? text with
  | some file => .ok file
  | none => .error (.invalidDocument (complaint text))

/-- The target that is asked for, else the one that the output suggests. -/
def chooseTarget (line : CommandLine) (file : SettingsFile) : Except SettingsError Target :=
  match line.target <|> file.target with
  | some name =>
    match Target.ofName? name with
    | some target => .ok target
    | none => .error (.unknownTarget name)
  | none => .ok ((line.output.bind Target.ofPath?).getD .ir)

/-- The settings of a command line and a document. -/
def merge (line : CommandLine) (file : SettingsFile) : Except SettingsError Settings := do
  let target ← chooseTarget line file
  pure {
    input := line.input.filter (· ≠ "-")
    output := line.output.filter (· ≠ "-")
    frontend := line.frontend <|> file.frontend
    target
    passes :=
      match line.passes with
      | some spec => Pipeline.requestsOf spec
      | none => file.passes.getD []
    listPasses := line.listPasses
    verifyEach := line.verifyEach || file.verifyEach.getD false
    printBetweenPasses := line.printBetweenPasses
    allowUnregistered := line.allowUnregistered || file.allowUnregistered.getD false
    splitInput := line.splitInput }

/-- The tag of the frontend: the one asked for, else what the input's name
suggests, else the default. -/
def frontendTag (s : Settings) : String :=
  (s.frontend <|> s.input.bind Text.sourceTag?).getD defaultFrontend

end Settings

end IrOptimizer
