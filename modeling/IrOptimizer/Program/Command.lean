import IrOptimizer.Optimizer
import IrOptimizer.Program.Host

/-!
# The command

The command takes its settings, then lists passes or processes its input, and
writes the result. The output file is created only once there is something to put
into it. A failure is told in one line behind the command's name and ends the run
with status 1; arguments that are not taken end it with status 2.
-/

namespace IrOptimizer.Command

/-- The name under which the command reports. -/
def commandName : String := "choco-opt"

def versionText : String := commandName ++ " 0.1.0\n"

def helpText : String :=
  "Choco toy-language optimizer driver\n\n" ++
  "Usage: choco-opt [OPTIONS] [INPUT]\n\n" ++
  "Arguments:\n" ++
  "  [INPUT]  Input file; stdin when omitted or `-`\n\n" ++
  "Options:\n" ++
  "  -o, --output <OUTPUT>             Output file; stdout when omitted or `-`\n" ++
  "  -f, --frontend <FRONTEND>         Frontend tag (defaults to the input file extension)\n" ++
  "  -t, --target <TARGET>             Output target: ir or json\n" ++
  "  -p, --passes <PASSES>             Comma separated pass pipeline, e.g. `fold-constants,dead-code`\n" ++
  "      --list-passes[=<FILTER>]      List available passes (all, native or integrated) and exit\n" ++
  "      --verify-each                 Re-validate the module after every pass\n" ++
  "      --print-between-passes        Print the module to stderr after every pass\n" ++
  "      --allow-unregistered-dialect  Accept operations from unregistered dialects\n" ++
  "      --split-input-file            Process `// -----` separated chunks independently\n" ++
  "      --config <CONFIG>             TOML file providing defaults\n" ++
  "      --trace                       Enable debug logging\n" ++
  "  -h, --help                        Print help\n" ++
  "  -V, --version                     Print version\n"

/-- Why a run of the command fails. -/
inductive Failure where
  | settings (e : SettingsError)
  | optimizer (e : OptimizerError)
deriving DecidableEq

def Failure.message : Failure → String
  | settings e => e.message
  | optimizer e => e.message

/-- What the command says about an event; only some settings ask for snapshots. -/
def eventText (printBetweenPasses : Bool) : Event → String
  | .passed s =>
    if printBetweenPasses then
      "// -----// IR after " ++ s.name ++ " (#" ++ toString s.index ++ ") //----- //\n" ++
        s.module.print
    else ""
  | .passFailed name index cause =>
    "[WARN  choco_opt::pass_framework::manager] pass " ++ name ++ " (#" ++ toString index ++
      ") failed: " ++ cause.message ++ "\n"

variable {m : Type → Type} [Monad m]

/-- The settings of a command line. The settings document is the one it names, or
else the one the environment names. -/
def settings (words : Wording) (host : Host m) (line : CommandLine)
    (environment : Option String) : ExceptT Failure m Settings := do
  let file ←
    match line.config <|> environment with
    | none => pure SettingsFile.empty
    | some path =>
      match ← host.openFile path with
      | .error reason => throw (.settings (.unreadable path reason))
      | .ok content =>
        match (← content).text with
        | .error reason => throw (.settings (.unreadable path reason))
        | .ok text => liftExcept (Settings.document words.document text)
  liftExcept (Settings.merge line file)
where
  liftExcept {α : Type} (e : Except SettingsError α) : ExceptT Failure m α :=
    liftM (e.mapError Failure.settings)

/-- Writes a text to a file, or to the standard output. -/
def emit (host : Host m) (output : Option String) (text : String) : ExceptT Failure m Unit := do
  let outcome ←
    match output with
    | none => host.writeOutput text
    | some path =>
      match ← host.createFile path with
      | .error reason => pure (.error reason)
      | .ok write => write text
  match outcome with
  | .ok () => pure ()
  | .error reason => throw (.optimizer (.unwritable reason))

/-- Takes the input that the settings name, once that is needed. -/
def openInput (host : Host m) (input : Option String) : ExceptT Failure m (m Stream) :=
  match input with
  | none => pure host.standardInput
  | some path => do
    match ← host.openFile path with
    | .ok content => pure content
    | .error reason => throw (.optimizer (.unreadable reason))

/-- Processes the input and tells on the way what the settings ask for. -/
def processInput (host : Host m) (o : Optimizer) (s : Settings) (content : m Stream) :
    ExceptT Failure m String := do
  match o.plan s with
  | .error e => throw (.optimizer e)
  | .ok plan =>
    let report := o.processInput s plan (← content).text
    host.writeError (String.join (report.events.map (eventText s.printBetweenPasses)))
    match report.result with
    | .ok text => pure text
    | .error e => throw (.optimizer e)

/-- A run of the command with arguments that are taken. -/
def runLine (words : Wording) (host : Host m) (line : CommandLine)
    (environment : Option String) : ExceptT Failure m Unit := do
  let s ← settings words host line environment
  let o := Optimizer.standard s.allowUnregistered
  match s.listPasses with
  | some filter => emit host s.output (o.passes.listing filter)
  | none =>
    let content ← openInput host s.input
    let text ← processInput host o s content
    emit host s.output text

/-- A run of the command; answers its exit status. -/
def run (words : Wording) (host : Host m) (args : List String) (environment : Option String) :
    m UInt32 := do
  match CommandLine.parse args with
  | .error .help =>
    let _ ← host.writeOutput helpText
    pure 0
  | .error .version =>
    let _ ← host.writeOutput versionText
    pure 0
  | .error _ =>
    host.writeError (words.arguments args)
    pure 2
  | .ok line =>
    match ← (runLine words host line environment).run with
    | .ok () => pure 0
    | .error e =>
      host.writeError (commandName ++ ": " ++ e.message ++ "\n")
      pure 1

end IrOptimizer.Command
