import Mathlib.Data.List.Basic
import IrOptimizer.Proofs.Pass.Name
import IrOptimizer.Proofs.Pass.Pipeline
import IrOptimizer.Settings.Merge
import IrOptimizer.Transform.Check
import IrOptimizer.Transform.DeadCode

/-!
# What a pipeline is made of

Each request stands for some stages of its own (`stagesOf`): none if it is blank, the passes that
it selects in the order of their registration, or the one pass whose name it is. A pipeline is
built just if every request can be resolved, and has then the stages of all of them, in order
(`build_eq_ok_iff`); otherwise there is a first request that cannot be resolved.

The names in a registry come from labels, so they have no blanks, are not empty and select
nothing. That is why each of them, taken for a request, stands for its own pass, and a pipeline
can be built again from its names (`build_names`). Requests can be written in one text with
commas between them, as on the command line, or as a list, as in a settings document; if no
request has a comma, both ways lead to the same (`parse_intercalate`).
-/

namespace IrOptimizer

namespace Pipeline

variable {r : PassRegistry} {requests : List String} {p : Pipeline}

/-! ## Stages of a request -/

/-- The stages that a request stands for. -/
def stagesOf (r : PassRegistry) (request : String) : List RegisteredPass :=
  if asked request = "" then []
  else
    match PassFilter.ofSelector? (asked request) with
    | some filter => r.select filter
    | none => (r.lookup? (asked request)).toList

/-- A request can be resolved: it is blank, or a selector, or a registered name. -/
def Resolves (r : PassRegistry) (request : String) : Prop :=
  asked request ≠ "" → PassFilter.ofSelector? (asked request) = none →
    asked request ∈ r.names .all

/-- The names of a registry are those of its passes. -/
theorem mem_names_all_iff {name : String} :
    name ∈ r.names .all ↔ ∃ stage ∈ r.entries, stage.name = name := by
  simp [PassRegistry.names, PassRegistry.select, PassFilter.admits]

theorem resolves_iff {request : String} : Resolves r request ↔ ¬ Unresolved r request := by
  rw [Resolves, mem_names_all_iff]
  constructor
  · rintro h ⟨hblank, hselector, hunknown⟩
    obtain ⟨stage, hstage, hname⟩ := h hblank hselector
    exact hunknown stage hstage hname
  · intro h hblank hselector
    by_contra hunknown
    exact h ⟨hblank, hselector, fun stage hstage hname => hunknown ⟨stage, hstage, hname⟩⟩

/-- A request that resolves comes to its stages. -/
theorem map_resolve_expand {request : String} (h : Resolves r request) :
    (expand r request).map (resolve r) = (stagesOf r request).map .ok := by
  unfold expand stagesOf
  rw [← asked]
  dsimp only
  by_cases hblank : asked request = ""
  · rw [if_pos hblank, if_pos (by simpa using hblank)]
    rfl
  · rw [if_neg hblank, if_neg (by simpa using hblank)]
    cases hselector : PassFilter.ofSelector? (asked request) with
    | some filter =>
      dsimp only
      rw [PassRegistry.names, List.map_map]
      exact List.map_congr_left fun stage hstage => resolve_of_mem (List.mem_filter.mp hstage).1
    | none =>
      obtain ⟨stage, hstage, hname⟩ := mem_names_all_iff.mp (h hblank hselector)
      rw [← hname, PassRegistry.lookup?_eq_some_iff.mpr ⟨hstage, rfl⟩, List.map_singleton,
        resolve_of_mem hstage]
      rfl

theorem map_resolve_flatMap (h : ∀ request ∈ requests, Resolves r request) :
    (requests.flatMap (expand r)).map (resolve r) = (requests.flatMap (stagesOf r)).map .ok := by
  rw [List.map_flatMap, List.map_flatMap]
  exact List.flatMap_congr fun request hrequest => map_resolve_expand (h request hrequest)

/-! ## Pipelines of several requests -/

/-- All requests resolve, or there is a first name that does not. -/
theorem resolves_or_firstUnresolved (r : PassRegistry) (requests : List String) :
    (∀ request ∈ requests, Resolves r request) ∨ ∃ name, FirstUnresolved r requests name := by
  induction requests with
  | nil => exact .inl nofun
  | cons request requests ih =>
    by_cases hfirst : Unresolved r request
    · exact .inr ⟨_, [], request, requests, rfl, nofun, hfirst, rfl⟩
    · rcases ih with hall | ⟨name, before, later, rest, rfl, hbefore, hlater⟩
      · exact .inl (List.forall_mem_cons.mpr ⟨resolves_iff.mpr hfirst, hall⟩)
      · exact .inr ⟨name, request :: before, later, rest, rfl,
          List.forall_mem_cons.mpr ⟨hfirst, hbefore⟩, hlater⟩

/-- Requests that resolve make the pipeline of their stages, in order. -/
theorem build_of_resolves (h : ∀ request ∈ requests, Resolves r request) :
    build r requests = .ok ⟨requests.flatMap (stagesOf r)⟩ := by
  rw [build, mapM_eq_ok_iff.mpr (map_resolve_flatMap h)]
  rfl

/-- A pipeline is built just if every request can be resolved; it has the stages of all. -/
theorem build_eq_ok_iff :
    build r requests = .ok p ↔
      (∀ request ∈ requests, Resolves r request) ∧ p.stages = requests.flatMap (stagesOf r) := by
  rcases resolves_or_firstUnresolved r requests with hall | ⟨name, hfirst⟩
  · rw [build_of_resolves hall, Except.ok.injEq]
    exact ⟨fun h => ⟨hall, congrArg stages h.symm⟩, fun h => congrArg mk h.2.symm⟩
  · rw [build_of_firstUnresolved hfirst]
    obtain ⟨before, request, later, rfl, _, hrequest, _⟩ := hfirst
    exact ⟨nofun, fun h => absurd hrequest (resolves_iff.mp (h.1 request (by simp)))⟩

/-- Building fails just for the first name that does not resolve. -/
theorem build_eq_error_iff {e : PipelineError} :
    build r requests = .error e ↔
      ∃ name, e = .unknownPass name ∧ FirstUnresolved r requests name := by
  constructor
  · intro h
    rcases resolves_or_firstUnresolved r requests with hall | ⟨name, hfirst⟩
    · cases (build_of_resolves hall).symm.trans h
    · refine ⟨name, ?_, hfirst⟩
      exact Except.error.inj (h.symm.trans (build_of_firstUnresolved hfirst))
  · rintro ⟨name, rfl, hfirst⟩
    exact build_of_firstUnresolved hfirst

/-! ## Names as requests -/

section

variable {native integrated : List Pass} {stage : RegisteredPass}

/-- A request without blanks asks for what it says. -/
theorem asked_of_no_blank {request : String} (h : ∀ c ∈ request.toList, Text.isBlank c = false) :
    asked request = request := by
  rw [asked, Text.trim_of_no_blank h, String.ofList_toList]

/-- Trimming takes nothing from a name, since it is made from a label. -/
theorem asked_name (hr : PassRegistry.build native integrated = .ok r) (hstage : stage ∈ r.entries) :
    asked stage.name = stage.name := by
  rw [(PassRegistry.build_eq_ok_iff.mp hr).2] at hstage
  refine asked_of_no_blank ?_
  rw [← PassRegistry.ofPass_of_mem_offered stage hstage]
  exact Pass.not_isBlank_of_mem_nameOf

/-- A name stands for the pass that has it. -/
theorem stagesOf_name (hr : PassRegistry.build native integrated = .ok r)
    (hstage : stage ∈ r.entries) : stagesOf r stage.name = [stage] := by
  have hproper := (PassRegistry.build_eq_ok_iff.mp hr).1.proper stage hstage
  rw [stagesOf, asked_name hr hstage, if_neg hproper.not_empty, hproper.no_selector]
  dsimp only
  rw [PassRegistry.lookup?_eq_some_iff.mpr ⟨hstage, rfl⟩]
  rfl

/-- The name of a pass resolves. -/
theorem resolves_name (hr : PassRegistry.build native integrated = .ok r)
    (hstage : stage ∈ r.entries) : Resolves r stage.name := by
  intro _ _
  rw [asked_name hr hstage]
  exact mem_names_all_iff.mpr ⟨stage, hstage, rfl⟩

/-- From the names of a pipeline it is built again. -/
theorem build_names (hr : PassRegistry.build native integrated = .ok r)
    (hp : ∀ stage ∈ p.stages, stage ∈ r.entries) : build r p.names = .ok p := by
  have hstages : ∀ stage ∈ p.stages, stagesOf r stage.name = [stage] :=
    fun stage hstage => stagesOf_name hr (hp stage hstage)
  refine build_eq_ok_iff.mpr ⟨?_, ?_⟩
  · intro request hrequest
    obtain ⟨stage, hstage, rfl⟩ := List.mem_map.mp hrequest
    exact resolves_name hr (hp stage hstage)
  · rw [names, List.flatMap_map, List.flatMap_congr hstages, List.flatMap_singleton']

end

/-! ## Requests in one text -/

/-- Requests without commas, with commas between them. -/
theorem requestsOf_intercalate (hcommas : ∀ request ∈ requests, ',' ∉ request.toList)
    (hne : requests ≠ []) : requestsOf (String.intercalate "," requests) = requests := by
  have hsplit : ([','].intercalate (requests.map String.toList)).splitOn ',' =
      requests.map String.toList :=
    List.splitOn_intercalate ',' (by simpa using hcommas) (by simpa using hne)
  rw [requestsOf, String.toList_intercalate]
  show (([','].intercalate (requests.map String.toList)).splitOn ',').map String.ofList = requests
  rw [hsplit, List.map_map]
  simp

/-- Requests that are joined with commas are those requests, if none has a comma. -/
theorem parse_intercalate (hcommas : ∀ request ∈ requests, ',' ∉ request.toList) :
    parse r (String.intercalate "," requests) = build r requests := by
  by_cases hne : requests = []
  · -- the text of no request is read as one that is blank
    subst hne
    rfl
  · rw [parse, requestsOf_intercalate hcommas hne]

/-- The command line and the settings document may say which passes to run, with commas and as a
list. The settings ask for the same either way. -/
theorem map_build_merge (hcommas : ∀ request ∈ requests, ',' ∉ request.toList) (line : CommandLine)
    (file : SettingsFile) :
    (Settings.merge { line with passes := some (String.intercalate "," requests) } file).map
        (fun s => build r s.passes) =
      (Settings.merge { line with passes := none } { file with passes := some requests }).map
        (fun s => build r s.passes) := by
  -- the target does not depend on the passes
  show (Settings.chooseTarget line file >>= _).map _ = (Settings.chooseTarget line file >>= _).map _
  cases Settings.chooseTarget line file with
  | error e => rfl
  | ok target => exact congrArg Except.ok (parse_intercalate hcommas)

/-- A pipeline is built from requests just if each of them, without the blanks around it, is empty,
a selector or a registered name. It has then the stages of all requests, in order and with
repetitions, and can be built again from its names. Otherwise it is refused for the name that the
first other request asks for. If no request has a comma, all this is the same for the text of the
requests with commas between them, also where command line and settings document are merged. -/
theorem build_exact {native integrated : List Pass}
    (hr : PassRegistry.build native integrated = .ok r) (requests : List String) :
    ((∃ p, build r requests = .ok p) ↔ ∀ request ∈ requests, Resolves r request) ∧
    (∀ p, build r requests = .ok p →
      p.stages = requests.flatMap (stagesOf r) ∧ build r p.names = .ok p) ∧
    (∀ e, build r requests = .error e ↔
      ∃ name, e = .unknownPass name ∧ FirstUnresolved r requests name) ∧
    ((∀ request ∈ requests, ',' ∉ request.toList) →
      parse r (String.intercalate "," requests) = build r requests ∧
      ∀ (line : CommandLine) (file : SettingsFile),
        (Settings.merge { line with passes := some (String.intercalate "," requests) } file).map
            (fun s => build r s.passes) =
          (Settings.merge { line with passes := none } { file with passes := some requests }).map
            (fun s => build r s.passes)) := by
  refine ⟨⟨?_, fun h => ⟨_, build_of_resolves h⟩⟩, fun p hp => ⟨?_, ?_⟩,
    fun e => build_eq_error_iff, fun hcommas => ⟨?_, ?_⟩⟩
  · rintro ⟨p, hp⟩
    exact (build_eq_ok_iff.mp hp).1
  · exact (build_eq_ok_iff.mp hp).2
  · exact build_names hr (mem_entries_of_build hp)
  · exact parse_intercalate hcommas
  · exact map_build_merge hcommas

/-- A name, a blank request, a selector and the name once more. -/
theorem build_exact_mixed :
    ∃ r p, PassRegistry.build [.nop, .verify] [.deadCode] = .ok r ∧
      build r ["dead-code", "", " all-native ", "dead-code"] = .ok p ∧
      p.names = ["dead-code", "nop", "verify", "dead-code"] ∧ build r p.names = .ok p ∧
      parse r "dead-code,, all-native ,dead-code" = .ok p := by
  obtain ⟨r, hr, hp⟩ : ∃ r, PassRegistry.build [.nop, .verify] [.deadCode] = .ok r ∧
      build r ["dead-code", "", " all-native ", "dead-code"] =
        .ok ⟨[⟨"dead-code", .integrated, .deadCode⟩, ⟨"nop", .native, .nop⟩,
          ⟨"verify", .native, .verify⟩, ⟨"dead-code", .integrated, .deadCode⟩]⟩ :=
    ⟨⟨[⟨"nop", .native, .nop⟩, ⟨"verify", .native, .verify⟩,
      ⟨"dead-code", .integrated, .deadCode⟩], _, PassRegistry.indexes_ofList (by decide)⟩,
      by rfl, by rfl⟩
  obtain ⟨_, hstages, _, htext⟩ := build_exact hr ["dead-code", "", " all-native ", "dead-code"]
  exact ⟨r, _, hr, hp, rfl, (hstages _ hp).2, (htext (by decide)).1.trans hp⟩

end Pipeline

end IrOptimizer
