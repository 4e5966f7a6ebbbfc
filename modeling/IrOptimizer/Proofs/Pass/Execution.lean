import IrOptimizer.Pass.Execution

/-!
# A run, stage by stage

The stages of a pipeline form a chain: each is given the module that the one before it
left (`Pipeline.left`). A stage passes, or there is one error with which a run stops in
it (`RegisteredPass.passes_or_stops`). What one stage does to a run is said by
`executeFrom_of_passes` and `executeFrom_of_stops`, and nothing below opens the executor
again.

The runs of a concatenation come from it by induction (`executeFrom_append`), and so do
the two ways in which a run can end: all stages pass, or there is a first that does not
(`allPass_or_stops`). `execute_contract` puts this together for pipelines of any passes
at all. `execute_induction` is for pipelines of which more is known: what each of its
passes keeps, a run keeps, whether it comes to its end or stops.
-/

namespace IrOptimizer

/-! ## One stage -/

namespace RegisteredPass

variable {stage : RegisteredPass} {context : Context} {verifyEach : Bool} {index : Nat}
  {m : Module}

/-- The module that a stage leaves behind it, whether its pass succeeds or not. -/
def leaves (stage : RegisteredPass) (context : Context) (m : Module) : Module :=
  (stage.pass.run context m).1

/-- A run goes on behind a stage if the pass succeeds and, under verification, what it
leaves is valid. -/
structure Passes (stage : RegisteredPass) (context : Context) (verifyEach : Bool) (m : Module) :
    Prop where
  succeeds : (stage.pass.run context m).2 = .ok ()
  valid : verifyEach = true → context.validate (stage.leaves context m) = .ok ()

/-- The error with which a run stops in a stage: the pass fails, or it succeeds and
verification fails. The error has the name and the index of the stage. -/
inductive Stops (stage : RegisteredPass) (context : Context) (verifyEach : Bool) (index : Nat)
    (m : Module) : PipelineError → Prop where
  | failed {cause : PassError} (hfails : (stage.pass.run context m).2 = .error cause) :
    Stops stage context verifyEach index m (.passFailed stage.name index cause)
  | invalid {cause : DialectError} (hsucceeds : (stage.pass.run context m).2 = .ok ())
    (hverify : verifyEach = true)
    (hinvalid : context.validate (stage.leaves context m) = .error cause) :
    Stops stage context verifyEach index m (.invalidAfter stage.name index cause)

/-- Of any stage, the run goes on behind it or stops in it. -/
theorem passes_or_stops (stage : RegisteredPass) (context : Context) (verifyEach : Bool)
    (index : Nat) (m : Module) :
    stage.Passes context verifyEach m ∨ ∃ e, stage.Stops context verifyEach index m e := by
  cases hpass : (stage.pass.run context m).2 with
  | error cause => exact .inr ⟨_, .failed hpass⟩
  | ok u =>
    cases hverify : verifyEach with
    | false => exact .inl ⟨hpass, nofun⟩
    | true =>
      cases hvalid : context.validate (stage.leaves context m) with
      | error cause => exact .inr ⟨_, .invalid hpass rfl hvalid⟩
      | ok u => exact .inl ⟨hpass, fun _ => hvalid⟩

end RegisteredPass

/-! ## Runs one after the other -/

/-- The same error in a pipeline with so many more stages in front. -/
def PipelineError.shift (n : Nat) : PipelineError → PipelineError
  | unknownPass name => unknownPass name
  | passFailed name index cause => passFailed name (index + n) cause
  | invalidAfter name index cause => invalidAfter name (index + n) cause

/-- With more stages in front a stage stops alike, at its new index. -/
theorem RegisteredPass.Stops.shift {stage : RegisteredPass} {context : Context}
    {verifyEach : Bool} {index : Nat} {m : Module} {e : PipelineError}
    (h : stage.Stops context verifyEach index m e) (n : Nat) :
    stage.Stops context verifyEach (index + n) m (e.shift n) := by
  cases h with
  | failed hfails => exact .failed hfails
  | invalid hsucceeds hverify hinvalid => exact .invalid hsucceeds hverify hinvalid

namespace Run

/-- The same run in a pipeline with so many more stages in front. -/
def shift (r : Run) (n : Nat) : Run where
  module := r.module
  result := r.result.mapError (·.shift n)
  snapshots := r.snapshots.map fun shot => { shot with index := shot.index + n }

/-- A run and, if it succeeds, another on the module that it ends with. -/
def andThen (r : Run) (next : Module → Run) : Run :=
  match r.result with
  | .error _ => r
  | .ok () => { next r.module with snapshots := r.snapshots ++ (next r.module).snapshots }

/-- A run behind a stage that has left a snapshot. -/
def behind (shot : Snapshot) (r : Run) : Run := { r with snapshots := shot :: r.snapshots }

/-- A snapshot that was taken first comes first. -/
theorem behind_andThen (shot : Snapshot) (r : Run) (next : Module → Run) :
    (r.behind shot).andThen next = (r.andThen next).behind shot := by
  unfold andThen behind
  dsimp only
  split <;> rfl

theorem behind_shift (shot : Snapshot) (r : Run) (n : Nat) :
    (r.behind shot).shift n = (r.shift n).behind { shot with index := shot.index + n } := rfl

end Run

namespace Pipeline

open RegisteredPass

variable {context : Context} {verifyEach : Bool} {index : Nat} {m : Module}
  {stage : RegisteredPass} {stages : List RegisteredPass}

/-! ## What one stage does to a run -/

/-- A stage that passes hands on what it leaves, and a snapshot of it is taken. -/
theorem executeFrom_of_passes (h : stage.Passes context verifyEach m) :
    executeFrom context verifyEach index (stage :: stages) m =
      (executeFrom context verifyEach (index + 1) stages (stage.leaves context m)).behind
        ⟨index, stage.name, stage.leaves context m⟩ := by
  obtain ⟨hsucceeds, hvalid⟩ := h
  unfold leaves at hvalid ⊢
  rcases hrun : stage.pass.run context m with ⟨m', outcome⟩
  rw [hrun] at hsucceeds hvalid
  cases hsucceeds
  have hverified : (if verifyEach then context.validate m' else .ok ()) = .ok () := by
    cases verifyEach with
    | false => rfl
    | true => exact hvalid rfl
  rw [executeFrom, hrun]
  dsimp only
  rw [hverified]
  rfl

/-- No stage runs behind one that stops, and no snapshot is taken of this. -/
theorem executeFrom_of_stops {e : PipelineError}
    (h : stage.Stops context verifyEach index m e) :
    executeFrom context verifyEach index (stage :: stages) m =
      ⟨stage.leaves context m, .error e, []⟩ := by
  cases h with
  | failed hfails =>
    unfold leaves
    rcases hrun : stage.pass.run context m with ⟨m', outcome⟩
    rw [hrun] at hfails
    cases hfails
    rw [executeFrom, hrun]
  | invalid hsucceeds hverify hinvalid =>
    unfold leaves at hinvalid ⊢
    rcases hrun : stage.pass.run context m with ⟨m', outcome⟩
    rw [hrun] at hsucceeds hinvalid
    cases hsucceeds
    dsimp only at hinvalid
    rw [executeFrom, hrun]
    dsimp only
    rw [hverify, if_pos rfl, hinvalid]

/-- More stages in front change only the indices. -/
theorem executeFrom_shift (n : Nat) (stages : List RegisteredPass) (index : Nat) (m : Module) :
    executeFrom context verifyEach (index + n) stages m =
      (executeFrom context verifyEach index stages m).shift n := by
  induction stages generalizing index m with
  | nil => rfl
  | cons stage stages ih =>
    rcases passes_or_stops stage context verifyEach index m with hpasses | ⟨e, hstops⟩
    · rw [executeFrom_of_passes hpasses, executeFrom_of_passes hpasses, Run.behind_shift,
        ← ih, Nat.add_right_comm]
    · rw [executeFrom_of_stops (hstops.shift n), executeFrom_of_stops hstops]
      rfl

/-- Stages in two parts run as the parts do, one behind the other. -/
theorem executeFrom_append (first second : List RegisteredPass) (index : Nat) (m : Module) :
    executeFrom context verifyEach index (first ++ second) m =
      (executeFrom context verifyEach index first m).andThen
        (executeFrom context verifyEach (index + first.length) second) := by
  induction first generalizing index m with
  | nil => rfl
  | cons stage first ih =>
    rcases passes_or_stops stage context verifyEach index m with hpasses | ⟨e, hstops⟩
    · rw [List.cons_append, executeFrom_of_passes hpasses, executeFrom_of_passes hpasses,
        Run.behind_andThen, ih, List.length_cons, Nat.add_right_comm, Nat.add_assoc]
    · rw [List.cons_append, executeFrom_of_stops hstops, executeFrom_of_stops hstops]
      rfl

/-! ## Stages in a chain -/

/-- What stages make of a module, each of what the one before it left. -/
def left (context : Context) (stages : List RegisteredPass) (m : Module) : Module :=
  stages.foldl (fun m stage => stage.leaves context m) m

theorem left_append (first second : List RegisteredPass) :
    left context (first ++ second) m = left context second (left context first m) :=
  List.foldl_append

/-- All stages pass, each on the module that the one before it left. -/
def AllPass (context : Context) (verifyEach : Bool) (stages : List RegisteredPass) (m : Module) :
    Prop :=
  ∀ (j : Nat) (stage : RegisteredPass), stages[j]? = some stage →
    stage.Passes context verifyEach (left context (stages.take j) m)

/-- A snapshot for every stage, in order: its index, its name and the module right after it. -/
def snapshotsOf (context : Context) (index : Nat) (stages : List RegisteredPass) (m : Module) :
    List Snapshot :=
  stages.mapIdx fun j stage => ⟨index + j, stage.name, left context (stages.take (j + 1)) m⟩

theorem allPass_nil : AllPass context verifyEach [] m := by
  intro j stage hstage
  cases hstage

/-- All stages pass if the first does, and the others do on what it leaves. -/
theorem allPass_cons : AllPass context verifyEach (stage :: stages) m ↔
    stage.Passes context verifyEach m ∧
      AllPass context verifyEach stages (stage.leaves context m) := by
  constructor
  · intro h
    exact ⟨h 0 stage rfl, fun j later hlater => h (j + 1) later hlater⟩
  · intro h j later hlater
    cases j with
    | zero =>
      cases hlater
      exact h.1
    | succ j => exact h.2 j later hlater

theorem snapshotsOf_cons (stage : RegisteredPass) (stages : List RegisteredPass) :
    snapshotsOf context index (stage :: stages) m =
      ⟨index, stage.name, stage.leaves context m⟩ ::
        snapshotsOf context (index + 1) stages (stage.leaves context m) := by
  have hlater : ∀ j, index + (j + 1) = index + 1 + j := by
    intro j
    omega
  rw [snapshotsOf, snapshotsOf, List.mapIdx_cons]
  refine congrArg _ (congrArg (stages.mapIdx ·) ?_)
  funext j later
  rw [hlater j]
  rfl

/-- If all stages pass, a run comes to its end. -/
theorem executeFrom_of_allPass (h : AllPass context verifyEach stages m) :
    executeFrom context verifyEach index stages m =
      ⟨left context stages m, .ok (), snapshotsOf context index stages m⟩ := by
  induction stages generalizing index m with
  | nil => rfl
  | cons stage stages ih =>
    obtain ⟨hpasses, hlater⟩ := allPass_cons.mp h
    rw [executeFrom_of_passes hpasses, ih hlater, snapshotsOf_cons]
    rfl

/-- A run stops in the first stage that does not pass, whatever stages come later. -/
theorem executeFrom_of_stops_behind {earlier : List RegisteredPass} {e : PipelineError}
    (hearlier : AllPass context verifyEach earlier m)
    (hstops : stage.Stops context verifyEach (index + earlier.length) (left context earlier m) e)
    (later : List RegisteredPass) :
    executeFrom context verifyEach index (earlier ++ stage :: later) m =
      ⟨left context (earlier ++ [stage]) m, .error e, snapshotsOf context index earlier m⟩ := by
  rw [executeFrom_append, executeFrom_of_allPass hearlier, left_append, Run.andThen]
  dsimp only
  rw [executeFrom_of_stops hstops, List.append_nil]
  rfl

/-- All stages pass, or there is a first that does not. -/
theorem allPass_or_stops (stages : List RegisteredPass) (index : Nat) (m : Module) :
    AllPass context verifyEach stages m ∨
      ∃ earlier stage later e, stages = earlier ++ stage :: later ∧
        AllPass context verifyEach earlier m ∧
        stage.Stops context verifyEach (index + earlier.length) (left context earlier m) e := by
  induction stages generalizing index m with
  | nil => exact .inl allPass_nil
  | cons stage stages ih =>
    rcases passes_or_stops stage context verifyEach index m with hpasses | ⟨e, hstops⟩
    · rcases ih (index + 1) (stage.leaves context m) with hall | hfirst
      · exact .inl (allPass_cons.mpr ⟨hpasses, hall⟩)
      · obtain ⟨earlier, stop, later, e, rfl, hearlier, hstops⟩ := hfirst
        have hbefore := allPass_cons.mpr ⟨hpasses, hearlier⟩
        refine .inr ⟨stage :: earlier, stop, later, e, rfl, hbefore, ?_⟩
        rw [List.length_cons, ← Nat.add_assoc, Nat.add_right_comm]
        exact hstops
    · exact .inr ⟨[], stage, stages, e, rfl, allPass_nil, hstops⟩

/-- What every pass keeps is true of the module that stages leave. -/
theorem left_induction {I : Module → Prop}
    (hstep : ∀ stage ∈ stages, ∀ m, I m → I (stage.leaves context m)) (hm : I m) :
    I (left context stages m) := by
  induction stages generalizing m with
  | nil => exact hm
  | cons stage stages ih =>
    obtain ⟨hfirst, hlater⟩ := List.forall_mem_cons.mp hstep
    exact ih hlater (hfirst m hm)

/-- A snapshot is of the module behind some of the stages. -/
theorem exists_of_mem_snapshotsOf {shot : Snapshot}
    (h : shot ∈ snapshotsOf context index stages m) :
    ∃ j, shot.module = left context (stages.take j) m := by
  obtain ⟨j, hj, rfl⟩ := List.mem_mapIdx.mp h
  exact ⟨j + 1, rfl⟩

/-! ## Pipelines -/

/-- A pipeline stops with an error at an index: the stages before it pass, and that one
does not. -/
structure StopsAt (p : Pipeline) (context : Context) (verifyEach : Bool) (m : Module)
    (index : Nat) (e : PipelineError) : Prop where
  before : AllPass context verifyEach (p.stages.take index) m
  here : ∃ stage, p.stages[index]? = some stage ∧
    stage.Stops context verifyEach index (left context (p.stages.take index) m) e

variable {p : Pipeline} {e : PipelineError}

/-- Where a pipeline stops, it stops with any stages behind that one. -/
theorem StopsAt.execute (h : p.StopsAt context verifyEach m index e)
    (later : List RegisteredPass) :
    (Pipeline.mk (p.stages.take (index + 1) ++ later)).execute context verifyEach m =
      ⟨left context (p.stages.take (index + 1)) m, .error e,
        snapshotsOf context 0 (p.stages.take index) m⟩ := by
  obtain ⟨hbefore, stage, hstage, hstops⟩ := h
  have hlength : (p.stages.take index).length = index := by
    obtain ⟨hindex, _⟩ := List.getElem?_eq_some_iff.mp hstage
    exact List.length_take_of_le (Nat.le_of_lt hindex)
  have htake : p.stages.take (index + 1) = p.stages.take index ++ [stage] := by
    rw [List.take_add_one, hstage]
    rfl
  rw [Pipeline.execute, htake, List.append_assoc, List.singleton_append]
  refine executeFrom_of_stops_behind hbefore ?_ later
  rw [Nat.zero_add, hlength]
  exact hstops

/-- A run that stops has left what the stages up to there make of the module. -/
theorem StopsAt.execute_self (h : p.StopsAt context verifyEach m index e) :
    p.execute context verifyEach m =
      ⟨left context (p.stages.take (index + 1)) m, .error e,
        snapshotsOf context 0 (p.stages.take index) m⟩ := by
  rw [← h.execute (p.stages.drop (index + 1)), List.take_append_drop]

/-- A pipeline passes, or there is an index at which it stops. -/
theorem allPass_or_stopsAt (p : Pipeline) (context : Context) (verifyEach : Bool) (m : Module) :
    AllPass context verifyEach p.stages m ∨
      ∃ index e, p.StopsAt context verifyEach m index e := by
  refine (allPass_or_stops p.stages 0 m).imp_right fun hstops => ?_
  obtain ⟨earlier, stage, later, e, hstages, hearlier, hstops⟩ := hstops
  have htake : p.stages.take earlier.length = earlier := by
    rw [hstages, List.take_left]
  refine ⟨earlier.length, e, ?_, stage, ?_, ?_⟩
  · rwa [htake]
  · rw [hstages, List.getElem?_append_right (Nat.le_refl _), Nat.sub_self]
    rfl
  · rw [htake]
    rwa [Nat.zero_add] at hstops

/-- A pipeline that passes leaves what its stages make of the module. -/
theorem execute_of_allPass (h : AllPass context verifyEach p.stages m) :
    p.execute context verifyEach m =
      ⟨left context p.stages m, .ok (), snapshotsOf context 0 p.stages m⟩ :=
  executeFrom_of_allPass h

/-- What every pass keeps is true of the module at the end of a run and of all snapshots. -/
theorem execute_induction {I : Module → Prop}
    (hstep : ∀ stage ∈ p.stages, ∀ m, I m → I (stage.leaves context m)) (hm : I m) :
    I (p.execute context verifyEach m).module ∧
      ∀ shot ∈ (p.execute context verifyEach m).snapshots, I shot.module := by
  have hleft : ∀ k, I (left context (p.stages.take k) m) := fun k =>
    left_induction (fun stage hstage => hstep stage (List.mem_of_mem_take hstage)) hm
  rcases allPass_or_stopsAt p context verifyEach m with hall | ⟨index, e, hstops⟩
  · rw [execute_of_allPass hall]
    refine ⟨left_induction hstep hm, fun shot hshot => ?_⟩
    obtain ⟨j, hj⟩ := exists_of_mem_snapshotsOf hshot
    rw [hj]
    exact hleft j
  · rw [hstops.execute_self]
    refine ⟨hleft (index + 1), fun shot hshot => ?_⟩
    obtain ⟨j, hj⟩ := exists_of_mem_snapshotsOf hshot
    rw [hj, List.take_take]
    exact hleft _

/-- The run of a concatenation is that of the first pipeline and then, if it succeeds,
that of the second on the module it ends with. -/
theorem execute_append (p q : Pipeline) (context : Context) (verifyEach : Bool) (m : Module) :
    (Pipeline.mk (p.stages ++ q.stages)).execute context verifyEach m =
      (p.execute context verifyEach m).andThen fun m =>
        (q.execute context verifyEach m).shift p.stages.length := by
  rw [execute, executeFrom_append]
  refine congrArg _ ?_
  funext m
  rw [executeFrom_shift]
  rfl

/-- What a run of any pipeline does. It succeeds exactly if all stages pass, each on the
module that the one before it left, and then it ends with the module that the last one
left and has a snapshot for every stage. It ends with an error exactly if the pipeline
stops with it at some index; then the module is the one that stage left, there are
snapshots for the stages before it, and no stage behind it has any part in the run. A
concatenation is run one pipeline after the other. -/
theorem execute_contract (p : Pipeline) (context : Context) (verifyEach : Bool) (m : Module) :
    let run := p.execute context verifyEach m
    (run.result = .ok () ↔ AllPass context verifyEach p.stages m) ∧
    (AllPass context verifyEach p.stages m →
      run.module = left context p.stages m ∧
      run.snapshots = snapshotsOf context 0 p.stages m) ∧
    (∀ e, run.result = .error e ↔ ∃ index, p.StopsAt context verifyEach m index e) ∧
    (∀ index e, p.StopsAt context verifyEach m index e →
      run.module = left context (p.stages.take (index + 1)) m ∧
      run.snapshots = snapshotsOf context 0 (p.stages.take index) m ∧
      ∀ later, (Pipeline.mk (p.stages.take (index + 1) ++ later)).execute context verifyEach m =
        run) ∧
    ∀ q : Pipeline, (Pipeline.mk (p.stages ++ q.stages)).execute context verifyEach m =
      run.andThen fun m => (q.execute context verifyEach m).shift p.stages.length := by
  intro run
  have hstop : ∀ index e, p.StopsAt context verifyEach m index e →
      run = ⟨left context (p.stages.take (index + 1)) m, .error e,
        snapshotsOf context 0 (p.stages.take index) m⟩ := fun index e h => h.execute_self
  have hend : AllPass context verifyEach p.stages m →
      run = ⟨left context p.stages m, .ok (), snapshotsOf context 0 p.stages m⟩ :=
    execute_of_allPass
  refine ⟨⟨fun hok => ?_, fun hall => ?_⟩, fun hall => ?_,
    fun e => ⟨fun herror => ?_, fun hstops => ?_⟩, fun index e h => ?_,
    fun q => execute_append p q context verifyEach m⟩
  · rcases allPass_or_stopsAt p context verifyEach m with hall | ⟨index, e, hstops⟩
    · exact hall
    · rw [hstop index e hstops] at hok
      cases hok
  · rw [hend hall]
  · rw [hend hall]
    exact ⟨rfl, rfl⟩
  · rcases allPass_or_stopsAt p context verifyEach m with hall | ⟨index, e', hstops⟩
    · rw [hend hall] at herror
      cases herror
    · rw [hstop index e' hstops] at herror
      cases herror
      exact ⟨index, hstops⟩
  · obtain ⟨index, hstops⟩ := hstops
    rw [hstop index e hstops]
  · rw [hstop index e h]
    exact ⟨rfl, rfl, h.execute⟩

end Pipeline

end IrOptimizer
