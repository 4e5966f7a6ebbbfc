import IrOptimizer.Program.FileTree
import IrOptimizer.Proofs.Optimizer

/-!
# How a run of the command ends

In a world of files and streams, the command is a chain of steps that answer something
or fail, and may change the world. `World.take` takes a step; one lemma for each function
of the command says what it does to a world, and nothing below opens the command again.

Only two kinds of step change anything: telling something on the error stream, and
delivering a text, which is the last step. So settings, input and result are functions of
the world before the run (`World.settings`, `World.source`, `World.result`), and a run can
end in no more than five ways (`World.Ends`), each of which names the world behind it.
`ends_runCommand` is what the properties of whole runs are derived from.
-/

namespace IrOptimizer

/-- The line in which the command reports a failure. -/
def Command.Failure.report (e : Failure) : String := "choco-opt: " ++ e.message ++ "\n"

namespace World

open Command

variable {α β : Type} {w : World} {words : Wording}

/-! ## Steps -/

/-- A step of the command, taken in a world. -/
def take (step : ExceptT Failure (StateM World) α) (w : World) : Except Failure α × World :=
  step.run.run w

theorem take_pure (a : α) (w : World) : take (pure a) w = (.ok a, w) := rfl

/-- What a host does, it does in the world. -/
theorem take_lift (action : StateM World α) (w : World) :
    take (liftM action) w = (.ok (action.run w).1, (action.run w).2) := rfl

/-- The next step is taken in the world behind this one, if this one answers. -/
theorem take_bind (step : ExceptT Failure (StateM World) α)
    (next : α → ExceptT Failure (StateM World) β) (w : World) :
    take (step >>= next) w =
      match take step w with
      | (.ok a, w') => take (next a) w'
      | (.error e, w') => (.error e, w') := by
  unfold take
  rw [ExceptT.run_bind, StateT.run_bind]
  obtain ⟨outcome, w'⟩ := step.run.run w
  cases outcome <;> rfl

/-- To open a file changes nothing. -/
theorem openFile_run (path : String) (w : World) :
    (host.openFile path).run w = ((w.tree.open? path).map pure, w) := by
  cases hopen : w.tree.open? path with
  | error reason =>
    simp only [host, StateT.run_bind, StateT.run_get, pure_bind, hopen]
    rfl
  | ok content =>
    simp only [host, StateT.run_bind, StateT.run_get, pure_bind, hopen]
    rfl

/-- Where no file can be made nothing changes. -/
theorem createFile_run_of_error {path reason : String}
    (h : w.tree.target? path = .error reason) :
    (host.createFile path).run w = (.error reason, w) := by
  simp only [host, StateT.run_bind, StateT.run_get, pure_bind, h]
  rfl

/-- The file is emptied first, and then it is given its text. -/
theorem createFile_run_of_ok {path name : String} (h : w.tree.target? path = .ok name) :
    ∃ write : String → StateM World (Except String Unit),
      (host.createFile path).run w = (.ok write, w.putFile name .empty) ∧
        ∀ text w', (write text).run w' = (.ok (), w'.putFile name text.toUTF8) := by
  simp only [host, StateT.run_bind, StateT.run_get, pure_bind, h]
  exact ⟨_, rfl, fun _ _ => rfl⟩

/-! ## What a run is made from -/

/-- The settings to which a command line leads. -/
def settings (w : World) (words : Wording) (line : CommandLine) (environment : Option String) :
    Except Failure Settings :=
  match line.config <|> environment with
  | none => (Settings.merge line .empty).mapError .settings
  | some path =>
    match (w.tree.open? path).bind Stream.text with
    | .error reason => .error (.settings (.unreadable path reason))
    | .ok text =>
      match Settings.document words.document text with
      | .error e => .error (.settings e)
      | .ok file => (Settings.merge line file).mapError .settings

/-- The input that settings name. -/
def source (w : World) (s : Settings) : Except Failure Stream :=
  match s.input with
  | none => .ok w.input
  | some path => (w.tree.open? path).mapError fun reason => .optimizer (.unreadable reason)

/-- What is made of an input. -/
def report (s : Settings) (input : Stream) : Report :=
  ((Optimizer.standard s.allowUnregistered).process s input).1

/-- What a run is to write: the listing of passes, or the result of its input. -/
def result (w : World) (s : Settings) : Except Failure String :=
  match s.listPasses with
  | some filter => .ok ((Optimizer.standard s.allowUnregistered).passes.listing filter)
  | none =>
    match w.source s with
    | .error e => .error e
    | .ok input => (report s input).result.mapError .optimizer

/-- What a run tells before it writes. -/
def told (w : World) (s : Settings) : String :=
  match s.listPasses with
  | some _ => ""
  | none =>
    match w.source s with
    | .error _ => ""
    | .ok input => String.join ((report s input).events.map (eventText s.printBetweenPasses))

/-- The world in which something more has been told. -/
def tell (w : World) (text : String) : World := { w with errors := w.errors ++ text }

/-- The world in which a text has been delivered. -/
def deliver (w : World) (output : Option String) (text : String) : Except Failure World :=
  match output with
  | none => .ok { w with output := w.output ++ text }
  | some path =>
    match w.tree.target? path with
    | .error reason => .error (.optimizer (.unwritable reason))
    | .ok name => .ok (w.putFile name text.toUTF8)

theorem tell_tell (w : World) (first second : String) :
    (w.tell first).tell second = w.tell (first ++ second) := by
  unfold tell
  rw [String.append_assoc]

theorem tell_empty (w : World) : w.tell "" = w := by
  unfold tell
  rw [String.append_empty]

/-- Of two contents that a file is given one after the other the second stays. -/
theorem putFile_putFile (w : World) (name : String) (bytes bytes' : ByteArray) :
    (w.putFile name bytes).putFile name bytes' = w.putFile name bytes' := by
  unfold putFile
  rw [Dictionary.insert_insert]

/-- Settings say what the command line says of the output and of snapshots. -/
theorem settings_eq_ok {line : CommandLine} {environment : Option String} {s : Settings}
    (h : w.settings words line environment = .ok s) :
    s.output = line.output.filter (· ≠ "-") ∧ s.printBetweenPasses = line.printBetweenPasses := by
  have hmerge : ∃ file, Settings.merge line file = .ok s := by
    unfold settings at h
    split at h
    · exact ⟨_, except_mapError_eq_ok.mp h⟩
    · split at h
      · cases h
      · split at h
        · cases h
        · exact ⟨_, except_mapError_eq_ok.mp h⟩
  obtain ⟨file, hmerge⟩ := hmerge
  obtain ⟨target, _, hs⟩ := except_bind_eq_ok.mp hmerge
  cases hs
  exact ⟨rfl, rfl⟩

/-! ## The functions of the command -/

theorem take_liftExcept (e : Except SettingsError α) (w : World) :
    take (Command.settings.liftExcept e) w = (e.mapError .settings, w) := by
  cases e <;> rfl

/-- Settings are found without any change. -/
theorem take_settings (w : World) (words : Wording) (line : CommandLine)
    (environment : Option String) :
    take (Command.settings words host line environment) w =
      (w.settings words line environment, w) := by
  unfold Command.settings settings
  cases line.config <|> environment with
  | none =>
    simp only [take_bind, take_pure, take_liftExcept]
  | some path =>
    simp only [take_bind, take_lift, openFile_run]
    cases w.tree.open? path with
    | error reason => rfl
    | ok content =>
      simp only [Except.map, Except.bind, take_bind, take_lift, StateT.run_pure]
      show take (match content.text with | .error reason => _ | .ok text => _) w = _
      cases content.text with
      | error reason => rfl
      | ok text =>
        simp only [take_bind, take_liftExcept]
        cases Settings.document words.document text <;> rfl

/-- An input that cannot be opened is a failure, and changes nothing. -/
theorem take_openInput_of_error {s : Settings} {e : Failure} (h : w.source s = .error e) :
    take (openInput host s.input) w = (.error e, w) := by
  unfold source at h
  unfold openInput
  cases hinput : s.input with
  | none =>
    rw [hinput] at h
    cases h
  | some path =>
    rw [hinput] at h
    obtain ⟨reason, hopen, rfl⟩ := except_mapError_eq_error.mp h
    simp only [take_bind, take_lift, openFile_run, hopen]
    rfl

/-- What is opened answers the input, whenever it is taken. -/
theorem take_openInput_of_ok {s : Settings} {input : Stream} (h : w.source s = .ok input) :
    ∃ content : StateM World Stream,
      take (openInput host s.input) w = (.ok content, w) ∧ content.run w = (input, w) := by
  unfold source at h
  unfold openInput
  cases hinput : s.input with
  | none =>
    rw [hinput] at h
    cases h
    exact ⟨host.standardInput, rfl, rfl⟩
  | some path =>
    rw [hinput] at h
    have hopen : w.tree.open? path = .ok input := except_mapError_eq_ok.mp h
    refine ⟨pure input, ?_, rfl⟩
    simp only [take_bind, take_lift, openFile_run, hopen]
    rfl

/-- To process an input tells of it and changes nothing else. -/
theorem take_processInput {input : Stream} {content : StateM World Stream}
    (hcontent : content.run w = (input, w)) (s : Settings) :
    take (processInput host (Optimizer.standard s.allowUnregistered) s content) w =
      ((report s input).result.mapError .optimizer,
        w.tell (String.join ((report s input).events.map (eventText s.printBetweenPasses)))) := by
  unfold processInput report
  cases hplan : (Optimizer.standard s.allowUnregistered).plan s with
  | error e =>
    rw [Optimizer.process_of_plan_error hplan]
    show (_, w) = (_, w.tell "")
    rw [tell_empty]
    rfl
  | ok plan =>
    rw [Optimizer.process_of_plan hplan]
    simp only [take_bind, take_lift, hcontent]
    cases hresult : ((Optimizer.standard s.allowUnregistered).processInput s plan
        input.text).result <;> rfl

/-- To write a text delivers it, or changes nothing. -/
theorem take_emit (w : World) (output : Option String) (text : String) :
    take (emit host output text) w =
      match w.deliver output text with
      | .ok w' => (.ok (), w')
      | .error e => (.error e, w) := by
  unfold emit deliver
  cases output with
  | none => rfl
  | some path =>
    simp only [take_bind, take_lift]
    cases htarget : w.tree.target? path with
    | error reason =>
      rw [createFile_run_of_error htarget]
      rfl
    | ok name =>
      obtain ⟨write, hcreate, hwrite⟩ := createFile_run_of_ok htarget
      simp only [hcreate, take_bind, take_lift, hwrite, putFile_putFile]
      rfl

/-! ## Whole runs -/

/-- How a run with a command line can end: with a status, and with a world. -/
inductive Ends (w : World) (words : Wording) (line : CommandLine) (environment : Option String) :
    UInt32 → World → Prop where
  /-- There are no settings. -/
  | unsettled {e : Failure} (hsettings : w.settings words line environment = .error e) :
    Ends w words line environment 1 (w.tell e.report)
  /-- There is nothing to write. -/
  | failed {s : Settings} {e : Failure} (hsettings : w.settings words line environment = .ok s)
    (hresult : w.result s = .error e) :
    Ends w words line environment 1 (w.tell (w.told s ++ e.report))
  /-- What there is to write cannot be delivered. -/
  | undelivered {s : Settings} {text : String} {e : Failure}
    (hsettings : w.settings words line environment = .ok s) (hresult : w.result s = .ok text)
    (hdeliver : w.deliver s.output text = .error e) :
    Ends w words line environment 1 (w.tell (w.told s ++ e.report))
  /-- It is delivered. -/
  | delivered {s : Settings} {text : String} {w' : World}
    (hsettings : w.settings words line environment = .ok s) (hresult : w.result s = .ok text)
    (hdeliver : w.deliver s.output text = .ok w') :
    Ends w words line environment 0 (w'.tell (w.told s))

/-- What is told before the last step, and whether it fails, does not depend on each other. -/
theorem deliver_tell (w : World) (told : String) (output : Option String) (text : String) :
    (w.tell told).deliver output text = (w.deliver output text).map (·.tell told) := by
  unfold deliver
  cases output with
  | none => rfl
  | some path =>
    have htree : (w.tell told).tree = w.tree := rfl
    dsimp only
    rw [htree]
    cases w.tree.target? path <;> rfl

/-- Without settings nothing is done. -/
theorem take_runLine_of_settings_error {line : CommandLine} {environment : Option String}
    {e : Failure} (h : w.settings words line environment = .error e) :
    take (runLine words host line environment) w = (.error e, w) := by
  unfold runLine
  rw [take_bind, take_settings, h]

/-- Up to the last step nothing is done but telling. -/
theorem take_runLine {line : CommandLine} {environment : Option String} {s : Settings}
    (h : w.settings words line environment = .ok s) :
    take (runLine words host line environment) w =
      match w.result s with
      | .error e => (.error e, w.tell (w.told s))
      | .ok text => take (emit host s.output text) (w.tell (w.told s)) := by
  unfold runLine
  rw [take_bind, take_settings, h]
  dsimp only
  -- a listing needs no input
  unfold result told
  cases hlist : s.listPasses with
  | some filter =>
    dsimp only
    rw [tell_empty]
  | none =>
    dsimp only
    cases hsource : w.source s with
    | error e =>
      rw [take_bind, take_openInput_of_error hsource, tell_empty]
    | ok input =>
      obtain ⟨content, hopen, hcontent⟩ := take_openInput_of_ok hsource
      rw [take_bind, hopen]
      dsimp only
      rw [take_bind, take_processInput hcontent]
      cases (report s input).result <;> rfl

section

variable {args : List String} {line : CommandLine} {environment : Option String} {w' : World}

/-- A run that does not fail exits with status 0. -/
theorem runCommand_of_ok (hline : CommandLine.parse args = .ok line)
    (h : take (runLine words host line environment) w = (.ok (), w')) :
    w.runCommand words args environment = (0, w') := by
  unfold take at h
  unfold runCommand Command.run
  rw [hline]
  dsimp only
  rw [StateT.run_bind, h]
  rfl

/-- A run that fails exits with status 1, and tells the failure last. -/
theorem runCommand_of_error {e : Failure} (hline : CommandLine.parse args = .ok line)
    (h : take (runLine words host line environment) w = (.error e, w')) :
    w.runCommand words args environment = (1, w'.tell e.report) := by
  unfold take at h
  unfold runCommand Command.run
  rw [hline]
  dsimp only
  rw [StateT.run_bind, h]
  rfl

/-- A run whose arguments are taken ends in one of the five ways. -/
theorem ends_runCommand (hline : CommandLine.parse args = .ok line) (w : World)
    (words : Wording) (environment : Option String) :
    Ends w words line environment (w.runCommand words args environment).1
      (w.runCommand words args environment).2 := by
  cases hsettings : w.settings words line environment with
  | error e =>
    rw [runCommand_of_error hline (take_runLine_of_settings_error hsettings)]
    exact .unsettled hsettings
  | ok s =>
    have htake := take_runLine hsettings
    cases hresult : w.result s with
    | error e =>
      rw [hresult] at htake
      rw [runCommand_of_error hline htake, tell_tell]
      exact .failed hsettings hresult
    | ok text =>
      rw [hresult] at htake
      dsimp only at htake
      rw [take_emit, deliver_tell] at htake
      cases hdeliver : w.deliver s.output text with
      | error e =>
        rw [hdeliver] at htake
        rw [runCommand_of_error hline htake, tell_tell]
        exact .undelivered hsettings hresult hdeliver
      | ok w' =>
        rw [hdeliver] at htake
        rw [runCommand_of_ok hline htake]
        exact .delivered hsettings hresult hdeliver

/-- Arguments that are not taken change no file; only a request for help or for the
version is no failure. -/
theorem runCommand_of_stop {stop : CommandLine.Stop} (hstop : CommandLine.parse args = .error stop)
    (w : World) (words : Wording) (environment : Option String) :
    (w.runCommand words args environment).2.tree = w.tree ∧
      ((w.runCommand words args environment).1 = 0 ↔ stop = .help ∨ stop = .version) := by
  unfold runCommand Command.run
  rw [hstop]
  cases stop with
  | help => exact ⟨rfl, iff_of_true rfl (.inl rfl)⟩
  | version => exact ⟨rfl, iff_of_true rfl (.inr rfl)⟩
  | unknownArgument | invalidValue | impossibleValue | unexpectedValue | repeated =>
    have hstatus : (2 : UInt32) ≠ 0 := by decide
    exact ⟨rfl, iff_of_false hstatus (by simp)⟩

end

end World

end IrOptimizer
