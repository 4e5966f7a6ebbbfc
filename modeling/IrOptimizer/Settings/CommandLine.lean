import IrOptimizer.Pass.Registry
import IrOptimizer.Target

/-!
# The command line

An argument is an option, a value that an option waits for, or the input. Options
are written `--name value`, `--name=value`, `-n value`, `-nvalue` or `-n=value`.
Behind `--` every argument is an input.

Arguments are taken in order, and the first fault counts. An option that waits
for its value is judged when the next argument turns out not to be that value, or
at the end; an argument that is no option at all is complained of before that.
-/

namespace IrOptimizer

/-- What the arguments ask for, as far as they say. -/
structure CommandLine where
  input : Option String := none
  output : Option String := none
  frontend : Option String := none
  target : Option String := none
  passes : Option String := none
  config : Option String := none
  listPasses : Option PassFilter := none
  verifyEach : Bool := false
  printBetweenPasses : Bool := false
  allowUnregistered : Bool := false
  splitInput : Bool := false
  trace : Bool := false
deriving DecidableEq

namespace CommandLine

/-- Why arguments are not taken, or what is asked for instead of a run. -/
inductive Stop where
  | unknownArgument
  /-- A value is missing, or is empty where a path is wanted. -/
  | invalidValue
  /-- A value is none of those that are possible. -/
  | impossibleValue
  /-- A switch is given a value. -/
  | unexpectedValue
  /-- An option is given twice. -/
  | repeated
  | help
  | version
deriving DecidableEq

/-- The arguments that have a value of their own. -/
inductive Valued where
  | input
  | output
  | frontend
  | target
  | passes
  | config
deriving DecidableEq

/-- The arguments that are on or off. -/
inductive Switch where
  | verifyEach
  | printBetweenPasses
  | allowUnregistered
  | splitInput
  | trace
deriving DecidableEq

/-- What an option stands for. -/
inductive Meaning where
  | valued (v : Valued)
  | switch (s : Switch)
  | listPasses
  | help
  | version
deriving DecidableEq

/-- The option of a name behind two hyphens. -/
def ofLong? (name : String) : Option Meaning :=
  [("output", .valued .output), ("frontend", .valued .frontend), ("target", .valued .target),
    ("passes", .valued .passes), ("config", .valued .config), ("list-passes", .listPasses),
    ("verify-each", .switch .verifyEach), ("print-between-passes", .switch .printBetweenPasses),
    ("allow-unregistered-dialect", .switch .allowUnregistered),
    ("split-input-file", .switch .splitInput), ("trace", .switch .trace), ("help", .help),
    ("version", .version)].lookup name

/-- The option of a letter behind one hyphen. -/
def ofLetter? (c : Char) : Option Meaning :=
  [('o', .valued .output), ('f', .valued .frontend), ('t', .valued .target),
    ('p', .valued .passes), ('h', .help), ('V', .version)].lookup c

def get (c : CommandLine) : Valued → Option String
  | .input => c.input
  | .output => c.output
  | .frontend => c.frontend
  | .target => c.target
  | .passes => c.passes
  | .config => c.config

def set (c : CommandLine) (v : Valued) (value : String) : CommandLine :=
  match v with
  | .input => { c with input := some value }
  | .output => { c with output := some value }
  | .frontend => { c with frontend := some value }
  | .target => { c with target := some value }
  | .passes => { c with passes := some value }
  | .config => { c with config := some value }

/-- Whether a value names a file, and so may not be empty. -/
def Valued.isPath : Valued → Bool
  | input | output | config => true
  | frontend | target | passes => false

/-- Gives an argument its value. -/
def assign (c : CommandLine) (v : Valued) (value : String) : Except Stop CommandLine :=
  if (c.get v).isSome then .error .repeated
  else if v.isPath && value.isEmpty then .error .invalidValue
  else .ok (c.set v value)

/-- Turns a switch on. -/
def turnOn (c : CommandLine) : Switch → Except Stop CommandLine
  | .verifyEach => if c.verifyEach then .error .repeated else .ok { c with verifyEach := true }
  | .printBetweenPasses =>
    if c.printBetweenPasses then .error .repeated else .ok { c with printBetweenPasses := true }
  | .allowUnregistered =>
    if c.allowUnregistered then .error .repeated else .ok { c with allowUnregistered := true }
  | .splitInput => if c.splitInput then .error .repeated else .ok { c with splitInput := true }
  | .trace => if c.trace then .error .repeated else .ok { c with trace := true }

/-- Asks for a listing of passes; without a filter, of all. -/
def requestListing (c : CommandLine) (filter? : Option String) : Except Stop CommandLine :=
  if c.listPasses.isSome then .error .repeated
  else
    match PassFilter.ofName? (filter?.getD "all") with
    | some filter => .ok { c with listPasses := some filter }
    | none => .error .impossibleValue

/-! ## Arguments in order -/

/-- What has been taken so far: the arguments that are settled, and the last one
with its value if that has come. -/
structure Progress where
  settled : CommandLine
  pending : Option (Valued × Option String)
  inputSeen : Bool

/-- Settles the last argument. -/
def Progress.settle (p : Progress) : Except Stop CommandLine :=
  match p.pending with
  | none => .ok p.settled
  | some (_, none) => .error .invalidValue
  | some (v, some value) => p.settled.assign v value

/-- Takes a valued option, with the value attached to it if there is one. -/
def Progress.takeValued (p : Progress) (v : Valued) (attached? : Option String) :
    Except Stop Progress := do
  let c ← p.settle
  match attached? with
  | some value => return { p with settled := ← c.assign v value, pending := none }
  | none => return { p with settled := c, pending := some (v, none) }

/-- Takes an option that waits for nothing. -/
def Progress.takeDone (p : Progress) (change : CommandLine → Except Stop CommandLine) :
    Except Stop Progress := do
  return { p with settled := ← change (← p.settle), pending := none }

/-- Takes an option to which no value is attached. -/
def Progress.takeBare (p : Progress) : Meaning → Except Stop Progress
  | .valued v => p.takeValued v none
  | .switch s => p.takeDone (·.turnOn s)
  | .listPasses => p.takeDone (·.requestListing none)
  | .help => p.takeDone fun _ => .error .help
  | .version => p.takeDone fun _ => .error .version

/-- Takes an option with the value attached to it; not every option may have one. -/
def Progress.takeAttached (p : Progress) (value : String) : Meaning → Except Stop Progress
  | .valued v => p.takeValued v (some value)
  | .listPasses => p.takeDone (·.requestListing (some value))
  | .switch _ | .help | .version => .error .unexpectedValue

/-- Takes an option by its long name. -/
def Progress.takeLong (p : Progress) (name : String) (attached? : Option String) :
    Except Stop Progress :=
  match ofLong? name, attached? with
  | none, _ => .error .unknownArgument
  | some option, none => p.takeBare option
  | some option, some value => p.takeAttached value option

/-- The value that follows the letter of an option at once, maybe behind an equals sign. -/
def behindLetter? : List Char → Option String
  | [] => none
  | '=' :: value => some (String.ofList value)
  | value => some (String.ofList value)

/-- Takes options by their letters. What follows a letter that wants a value is the value. -/
def Progress.takeLetters (p : Progress) : List Char → Except Stop Progress
  | [] => .ok p
  | c :: cs =>
    match ofLetter? c with
    | none => .error .unknownArgument
    | some (.valued v) => p.takeValued v (behindLetter? cs)
    | some option => do (← p.takeBare option).takeLetters cs

/-- Takes an argument that is no option: the input, of which there is one. -/
def Progress.takeInput (p : Progress) (arg : String) : Except Stop Progress := do
  if p.inputSeen then .error .unknownArgument
  else return ⟨← p.settle, some (.input, some arg), true⟩

/-- The parts of `name=value`. -/
def splitAttached (text : List Char) : String × Option String :=
  match text.span (· ≠ '=') with
  | (name, []) => (String.ofList name, none)
  | (name, _ :: value) => (String.ofList name, some (String.ofList value))

/-- Takes the arguments in order; `onlyInputs` says that options have ended. -/
def takeAll (onlyInputs : Bool) (p : Progress) : List String → Except Stop Progress
  | [] => .ok p
  | arg :: args => do
    if onlyInputs then takeAll true (← p.takeInput arg) args
    else
      match arg.toList with
      | ['-', '-'] => takeAll true p args
      | '-' :: '-' :: text =>
        let (name, attached?) := splitAttached text
        takeAll false (← p.takeLong name attached?) args
      | '-' :: c :: cs => takeAll false (← p.takeLetters (c :: cs)) args
      | _ =>
        match p.pending with
        | some (v, none) => takeAll false { p with pending := some (v, some arg) } args
        | _ => takeAll false (← p.takeInput arg) args

/-- What the arguments of a command ask for. -/
def parse (args : List String) : Except Stop CommandLine := do
  (← takeAll false ⟨{}, none, false⟩ args).settle

end CommandLine

end IrOptimizer
