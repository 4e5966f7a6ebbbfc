import IrOptimizer.Proofs.Messages
import IrOptimizer.Proofs.Optimizer
import IrOptimizer.Proofs.Program.Run

/-!
# How a failed run is told

A run that exits with status 1 writes nothing to the standard output. On the error stream
it leaves the line with the message of its failure, but not always this line alone
(`failure_report`): a failing pass is told twice, by a warning of the executor and by the
command, and a message that quotes a text with a line feed goes over several lines. What is
said of a settings document that is refused is one of these texts, whatever it is.
`pass_failure_told_twice` is a run of the first kind.

What is told before the last line is decided in the executor, so the argument goes from
there outwards: a pipeline tells of a failing pass and nothing else
(`quietText_transform`), an input with several chunks stops at the first that fails
(`quietText_processChunks`), and nothing that comes before or behind the pipeline tells
anything. Over how many lines the report then goes depends on what its message quotes
(`Command.Failure.breaks_message_iff`).
-/

namespace IrOptimizer

open Command Text

/-- A command line with which nothing but failures is told. -/
structure CommandLine.Quiet (line : CommandLine) : Prop where
  no_trace : line.trace = false
  no_snapshots : line.printBetweenPasses = false

/-! ## Warnings -/

/-- What the executor tells when a run fails: a line, if a pass has failed. -/
def PipelineError.warning : PipelineError → String
  | passFailed name index cause =>
    "[WARN  choco_opt::pass_framework::manager] pass " ++ name ++ " (#" ++ toString index ++
      ") failed: " ++ cause.message ++ "\n"
  | _ => ""

def OptimizerError.warning : OptimizerError → String
  | pipeline e => e.warning
  | _ => ""

/-- What is told of a failure apart from its report. -/
def Command.Failure.warning : Failure → String
  | optimizer e => e.warning
  | settings _ => ""

/-- The failure is that of a pass. -/
def Command.Failure.IsOfPass (e : Failure) : Prop :=
  ∃ name index cause, e = .optimizer (.pipeline (.passFailed name index cause))

/-- What events come to when no snapshots are asked for. -/
def quietText (events : List Event) : String :=
  String.join (events.map (eventText false))

/-- The warning that comes with a result. -/
def warningOf {α : Type} : Except OptimizerError α → String
  | .error e => e.warning
  | .ok _ => ""

theorem quietText_append (first second : List Event) :
    quietText (first ++ second) = quietText first ++ quietText second := by
  unfold quietText
  rw [List.map_append, String.join_append]

/-- A pass that succeeds is not told of. -/
theorem quietText_passed (shots : List Snapshot) : quietText (shots.map .passed) = "" := by
  induction shots with
  | nil => rfl
  | cons shot shots ih =>
    rw [List.map_cons, ← List.singleton_append, quietText_append, ih]
    rfl

/-- A run of passes tells of the pass that fails. -/
theorem Run.quietText_events (r : Run) :
    quietText r.events = warningOf (r.result.mapError .pipeline) := by
  unfold events
  rw [quietText_append, quietText_passed]
  split
  · next name index cause hresult =>
    rw [hresult]
    rfl
  · next hother =>
    cases hresult : r.result with
    | ok _ => rfl
    | error e =>
      cases e with
      | passFailed name index cause => exact absurd hresult (hother name index cause)
      | unknownPass _ => rfl
      | invalidAfter _ _ _ => rfl

namespace Optimizer

variable (o : Optimizer) (s : Settings) (plan : Plan)

/-- Of a pipeline nothing is told but a failing pass. -/
theorem quietText_transform (pipeline : Pipeline) (verifyEach : Bool) (target : Target)
    (m : Module) :
    quietText (o.transform pipeline verifyEach target m).events =
      warningOf (o.transform pipeline verifyEach target m).result := by
  have hrun := (pipeline.execute o.context verifyEach m).quietText_events
  unfold transform
  dsimp only
  split
  · next hresult =>
    rw [hresult] at hrun
    exact hrun
  · next e hresult =>
    rw [hresult] at hrun
    exact hrun

theorem quietText_processModule (loaded : Except FrontendError Module) :
    quietText (o.processModule s plan loaded).events =
      warningOf (o.processModule s plan loaded).result := by
  cases loaded with
  | error e => rfl
  | ok m => exact o.quietText_transform plan.pipeline s.verifyEach s.target m

/-- Of chunks nothing is told but a failing pass in the last that is looked at. -/
theorem quietText_processChunks (chunks : List Chunk) :
    quietText (o.processChunks s plan chunks).2 = warningOf (o.processChunks s plan chunks).1 := by
  induction chunks with
  | nil => rfl
  | cons chunk chunks ih =>
    have hchunk : quietText (o.processChunk s plan chunk).events =
        warningOf (o.processChunk s plan chunk).result := o.quietText_processModule s plan _
    cases hresult : (o.processChunk s plan chunk).result with
    | error e =>
      rw [processChunks_cons_of_error hresult]
      exact hchunk.trans (congrArg warningOf hresult)
    | ok text =>
      -- a chunk with a result has told nothing
      have hnone : quietText (o.processChunk s plan chunk).events = "" := by
        rw [hchunk, hresult]
        rfl
      rw [processChunks_cons_of_ok hresult]
      dsimp only
      rw [quietText_append, hnone, ih, String.empty_append]
      cases (o.processChunks s plan chunks).1 <;> rfl

theorem quietText_processSource (source : String) :
    quietText (o.processSource s plan source).events =
      warningOf (o.processSource s plan source).result := by
  unfold processSource
  split
  · have hchunks := o.quietText_processChunks s plan (Chunk.split source.toList)
    generalize o.processChunks s plan (Chunk.split source.toList) = outcome at hchunks
    obtain ⟨texts, events⟩ := outcome
    cases texts <;> exact hchunks
  · exact o.quietText_processModule s plan _

theorem quietText_processInput (text : Except String String) :
    quietText (o.processInput s plan text).events =
      warningOf (o.processInput s plan text).result := by
  cases text with
  | ok source => exact o.quietText_processSource s plan source
  | error reason =>
    rw [processInput_error]
    dsimp only
    split
    · rfl
    · rfl

/-- A frontend or a pass that is unknown is told by its report only. -/
theorem warning_of_plan_eq_error {o : Optimizer} {s : Settings} {e : OptimizerError}
    (h : o.plan s = .error e) : e.warning = "" := by
  rcases exists_of_plan_eq_error h with ⟨tag, rfl⟩ | ⟨name, rfl⟩
  · rfl
  · rfl

/-- Whatever comes of an input, nothing is told of it but a failing pass. -/
theorem quietText_process (input : Stream) :
    quietText (o.process s input).1.events = warningOf (o.process s input).1.result := by
  cases hplan : o.plan s with
  | error e =>
    rw [process_of_plan_error hplan]
    exact (warning_of_plan_eq_error hplan).symm
  | ok plan =>
    rw [process_of_plan hplan]
    exact o.quietText_processInput s plan input.text

end Optimizer

/-! ## Reports -/

namespace Command.Failure

/-- Before the report of a failing pass stands another line. -/
theorem exists_warning_of_isOfPass {e : Failure} (h : e.IsOfPass) :
    ∃ told, e.warning = told ++ "\n" := by
  obtain ⟨name, index, cause, rfl⟩ := h
  exact ⟨_, rfl⟩

/-- A failure that is not of a pass is told by its report only. -/
theorem warning_eq_empty {e : Failure} (h : ¬ e.IsOfPass) : e.warning = "" := by
  cases e with
  | settings e => rfl
  | optimizer e =>
    cases e with
    | pipeline e =>
      cases e with
      | passFailed name index cause => exact absurd ⟨name, index, cause, rfl⟩ h
      | unknownPass name => rfl
      | invalidAfter name index cause => rfl
    | unreadable reason => rfl
    | frontend e => rfl
    | unwritable reason => rfl

/-- What is told of a failure is one line if it is not that of a pass and quotes no text
with a line feed. -/
theorem length_lines_eq_one_iff (e : Failure) :
    (Text.lines (e.warning ++ e.report).toList).length = 1 ↔
      ¬ e.IsOfPass ∧ ∀ text ∈ e.quotes, '\n' ∉ text.toList := by
  have hreport : e.report.toList = ("choco-opt: " ++ e.message).toList ++ ['\n'] := by
    unfold Failure.report
    exact String.toList_append
  have hmessage :
      '\n' ∈ ("choco-opt: " ++ e.message).toList ↔ ∃ text ∈ e.quotes, Breaks text := by
    rw [← e.breaks_message_iff]
    exact breaks_behind rfl e.message
  rw [String.toList_append, hreport, ← List.append_assoc, Text.length_lines_concat_eq_one_iff,
    List.mem_append, hmessage]
  by_cases hpass : e.IsOfPass
  · obtain ⟨told, hwarning⟩ := exists_warning_of_isOfPass hpass
    have hbreaks : '\n' ∈ e.warning.toList := by
      rw [hwarning, String.toList_append]
      exact List.mem_append_right _ (List.mem_singleton.mpr rfl)
    exact iff_of_false (fun h => h (.inl hbreaks)) fun h => h.1 hpass
  · rw [warning_eq_empty hpass]
    constructor
    · intro h
      exact ⟨hpass, fun text htext hbreaks => h (.inr ⟨text, htext, hbreaks⟩)⟩
    · rintro ⟨_, hquotes⟩ (hempty | ⟨text, htext, hbreaks⟩)
      · exact List.not_mem_nil hempty
      · exact hquotes text htext hbreaks

end Command.Failure

/-! ## Whole runs -/

namespace World

variable {w w' : World} {words : Wording}

/-- What comes of a run whose arguments are taken: a failure, or a world behind it in
which nothing has been told yet. -/
def outcome (w : World) (words : Wording) (line : CommandLine) (environment : Option String) :
    Except Failure World :=
  match w.settings words line environment with
  | .error e => .error e
  | .ok s =>
    match w.result s with
    | .error e => .error e
    | .ok text => w.deliver s.output text

/-- That there are no settings is told by the report only. -/
theorem warning_of_settings_eq_error {line : CommandLine} {environment : Option String}
    {e : Failure} (h : w.settings words line environment = .error e) : e.warning = "" := by
  have hsettings : ∃ e', e = .settings e' := by
    unfold settings at h
    split at h
    · obtain ⟨e', _, rfl⟩ := except_mapError_eq_error.mp h
      exact ⟨e', rfl⟩
    · split at h
      · cases h
        exact ⟨_, rfl⟩
      · split at h
        · cases h
          exact ⟨_, rfl⟩
        · obtain ⟨e', _, rfl⟩ := except_mapError_eq_error.mp h
          exact ⟨e', rfl⟩
  obtain ⟨e', rfl⟩ := hsettings
  rfl

/-- That there is no input is told by the report only. -/
theorem warning_of_source_eq_error {s : Settings} {e : Failure} (h : w.source s = .error e) :
    e.warning = "" := by
  unfold source at h
  split at h
  · cases h
  · obtain ⟨reason, _, rfl⟩ := except_mapError_eq_error.mp h
    rfl

/-- That nothing can be written is told by the report only. -/
theorem warning_of_deliver_eq_error {output : Option String} {text : String} {e : Failure}
    (h : w.deliver output text = .error e) : e.warning = "" := by
  unfold deliver at h
  split at h
  · cases h
  · split at h
    · cases h
      rfl
    · cases h

/-- Without snapshots only a result that fails is told of before the last step. -/
theorem told_eq {s : Settings} (h : s.printBetweenPasses = false) :
    w.told s = match w.result s with
      | .error e => e.warning
      | .ok _ => "" := by
  unfold told result
  rw [h]
  cases s.listPasses with
  | some filter => rfl
  | none =>
    cases hsource : w.source s with
    | error e => exact (warning_of_source_eq_error hsource).symm
    | ok input =>
      have hquiet := (Optimizer.standard s.allowUnregistered).quietText_process s input
      show quietText (report s input).events = _
      unfold report
      rw [hquiet]
      dsimp only
      generalize ((Optimizer.standard s.allowUnregistered).process s input).1.result = answer
      cases answer <;> rfl

/-- A quiet run tells the warning of its failure and its report. -/
theorem Ends.tell_of_quiet {line : CommandLine} {environment : Option String}
    (h : w.Ends words line environment 1 w') (hquiet : line.printBetweenPasses = false) :
    ∃ e, w.outcome words line environment = .error e ∧ w' = w.tell (e.warning ++ e.report) := by
  generalize hstatus : (1 : UInt32) = status at h
  have htold : ∀ {s}, w.settings words line environment = .ok s → s.printBetweenPasses = false :=
    fun hsettings => (settings_eq_ok hsettings).2.trans hquiet
  unfold outcome
  cases h with
  | unsettled hsettings =>
    rename_i e
    refine ⟨e, ?_, ?_⟩
    · rw [hsettings]
    · rw [warning_of_settings_eq_error hsettings, String.empty_append]
  | failed hsettings hresult =>
    rename_i s e
    refine ⟨e, ?_, ?_⟩
    · rw [hsettings]
      dsimp only
      rw [hresult]
    · rw [told_eq (htold hsettings), hresult]
  | undelivered hsettings hresult hdeliver =>
    rename_i s text e
    refine ⟨e, ?_, ?_⟩
    · rw [hsettings]
      dsimp only
      rw [hresult]
      exact hdeliver
    · rw [told_eq (htold hsettings), hresult, warning_of_deliver_eq_error hdeliver]
  | delivered => exact absurd hstatus (by decide)

/-- A settings document that is refused is told in the words for it, in as many lines as they
have. -/
theorem runCommand_of_refused_document {args : List String} {line : CommandLine}
    {environment : Option String} {path text : String} (hline : CommandLine.parse args = .ok line)
    (hpath : (line.config <|> environment) = some path)
    (hopen : (w.tree.open? path).bind Stream.text = .ok text)
    (hrefused : SettingsFile.parse? text = none) :
    w.runCommand words args environment =
      (1, w.tell ("choco-opt: " ++ ("invalid config: " ++ words.document text) ++ "\n")) := by
  have hsettings : w.settings words line environment =
      .error (.settings (.invalidDocument (words.document text))) := by
    unfold settings
    rw [hpath]
    dsimp only
    rw [hopen]
    dsimp only
    rw [Settings.document, hrefused]
  have hmessage : (Failure.settings (.invalidDocument (words.document text))).message =
      "invalid config: " ++ words.document text := rfl
  rw [runCommand_of_error hline (take_runLine_of_settings_error hsettings), Failure.report,
    hmessage]

/-- How a quiet run that exits with status 1 is told, for all arguments that are taken and
all files, inputs, environments and wordings. Its outcome is a failure; nothing is on the
standard output, and on the error stream stands the report of the failure, behind a warning
if a pass has failed. This is one line just if no pass has failed and no text that the
message quotes has a line feed; what is said of a settings document that is refused is such
a text. -/
theorem failure_report (words : Wording) {args : List String} {line : CommandLine}
    {environment : Option String} {tree : FileTree} {input : Stream}
    (hline : CommandLine.parse args = .ok line) (hquiet : line.Quiet)
    (hstatus : (runCommand ⟨tree, input, "", ""⟩ words args environment).1 = 1) :
    ∃ e, outcome ⟨tree, input, "", ""⟩ words line environment = .error e ∧
      let after := (runCommand ⟨tree, input, "", ""⟩ words args environment).2
      after.output = "" ∧
      after.errors = e.warning ++ ("choco-opt: " ++ e.message ++ "\n") ∧
      ((Text.lines after.errors.toList).length = 1 ↔
        ¬ e.IsOfPass ∧ ∀ text ∈ e.quotes, '\n' ∉ text.toList) := by
  have hends := ends_runCommand hline ⟨tree, input, "", ""⟩ words environment
  rw [hstatus] at hends
  obtain ⟨e, houtcome, hafter⟩ := hends.tell_of_quiet hquiet.no_snapshots
  have herrors : (runCommand ⟨tree, input, "", ""⟩ words args environment).2.errors =
      e.warning ++ e.report := by
    rw [hafter]
    exact String.empty_append
  refine ⟨e, houtcome, ?_, herrors, ?_⟩
  · rw [hafter]
    rfl
  · rw [herrors]
    exact e.length_lines_eq_one_iff

/-- A frontend whose tag is of two lines is not known, and is told so in two lines. -/
theorem failure_report_unknown_frontend :
    let after :=
      (runCommand ⟨.ofList [] [] [], .ofText "", "", ""⟩ .silent ["-f", "a\nb"] none).2
    after.output = "" ∧
      after.errors = "choco-opt: no frontend registered for format `a\nb`\n" ∧
      (Text.lines after.errors.toList).length ≠ 1 := by
  have hline : CommandLine.parse ["-f", "a\nb"] = .ok { frontend := some "a\nb" } := rfl
  have hstatus :
      (runCommand ⟨.ofList [] [] [], .ofText "", "", ""⟩ .silent ["-f", "a\nb"] none).1 = 1 := rfl
  obtain ⟨e, houtcome, houtput, herrors, hlines⟩ := failure_report _ hline ⟨rfl, rfl⟩ hstatus
  cases houtcome
  refine ⟨houtput, herrors, fun hone => ?_⟩
  have hquotes := (hlines.mp hone).2
  exact hquotes "a\nb" (List.mem_singleton.mpr rfl) (by decide)

/-- A literal that cannot be doubled: the pass fails, and the failure is told by a line of
the executor and once more by the command. -/
theorem pass_failure_told_twice :
    let args := ["-f", "toy", "-p", "double-literal"]
    let run :=
      runCommand ⟨.ofList [] [] [], .ofText "9223372036854775807", "", ""⟩ .silent args none
    (∃ line, CommandLine.parse args = .ok line ∧ line.Quiet) ∧
      run.1 = 1 ∧
      run.2.errors =
        "[WARN  choco_opt::pass_framework::manager] pass double-literal (#0) failed: " ++
          "doubling 9223372036854775807 overflows i64\n" ++
        "choco-opt: pass `double-literal` (pipeline position 0) failed: " ++
          "doubling 9223372036854775807 overflows i64\n" ∧
      (Text.lines run.2.errors.toList).length ≠ 1 := by
  intro args run
  let e : Failure := .optimizer (.pipeline (.passFailed "double-literal" 0
    (.failed "doubling 9223372036854775807 overflows i64")))
  have hrun : (run.1, run.2.errors) = (1, e.warning ++ e.report) := by
    decide +kernel
  have htext : e.warning ++ e.report =
      "[WARN  choco_opt::pass_framework::manager] pass double-literal (#0) failed: " ++
        "doubling 9223372036854775807 overflows i64\n" ++
      "choco-opt: pass `double-literal` (pipeline position 0) failed: " ++
        "doubling 9223372036854775807 overflows i64\n" := by
    decide +kernel
  obtain ⟨hstatus, herrors⟩ := Prod.mk.inj hrun
  refine ⟨⟨_, rfl, rfl, rfl⟩, hstatus, herrors.trans htext, ?_⟩
  rw [herrors]
  intro hone
  exact (e.length_lines_eq_one_iff.mp hone).1 ⟨_, _, _, rfl⟩

end World

end IrOptimizer
