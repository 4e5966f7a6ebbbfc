import IrOptimizer.Pass.Pipeline
import IrOptimizer.Proofs.Pass.Registry

/-!
# What pipelines hold

A pipeline has no stages but entries of the registry it is built from
(`mem_entries_of_build`). It is refused exactly if a request asks for a pass by a name that
none has, and then for the first such request (`build_of_resolved`,
`build_of_firstUnresolved`); what a selector stands for is always registered.
-/

namespace IrOptimizer

namespace Pipeline

theorem mem_entries_of_resolve {r : PassRegistry} {name : String} {stage : RegisteredPass}
    (h : resolve r name = .ok stage) : stage ∈ r.entries := by
  unfold resolve at h
  split at h
  · next found hfind =>
    cases h
    exact (PassRegistry.lookup?_eq_some_iff.mp hfind).1
  · cases h

/-- A pipeline has no passes but those of the registry. -/
theorem mem_entries_of_build {r : PassRegistry} {requests : List String} {p : Pipeline}
    (h : build r requests = .ok p) : ∀ stage ∈ p.stages, stage ∈ r.entries := by
  obtain ⟨stages, hstages, h⟩ := except_bind_eq_ok.mp h
  cases h
  intro stage hstage
  obtain ⟨name, _, hname⟩ := exists_of_mem_mapM hstages stage hstage
  exact mem_entries_of_resolve hname

/-- A pipeline is refused only for a name that is unknown. -/
theorem exists_of_build_eq_error {r : PassRegistry} {requests : List String} {e : PipelineError}
    (h : build r requests = .error e) : ∃ name, e = .unknownPass name := by
  unfold build at h
  cases hstages : (requests.flatMap (expand r)).mapM (resolve r) with
  | ok stages =>
    rw [hstages] at h
    cases h
  | error e' =>
    rw [hstages] at h
    cases h
    obtain ⟨_, name, _, _, _, hname⟩ := exists_of_mapM_eq_error hstages
    unfold resolve at hname
    split at hname
    · cases hname
    · exact ⟨name, (Except.error.inj hname).symm⟩

/-- No requests make an empty pipeline. -/
theorem build_nil (r : PassRegistry) : build r [] = .ok empty := rfl

/-! ## Requests that cannot be resolved -/

/-- What a request asks for, without the blanks around it. -/
def asked (request : String) : String := String.ofList (Text.trim request.toList)

/-- A request that asks for a pass by a name that none has. -/
structure Unresolved (r : PassRegistry) (request : String) : Prop where
  not_blank : asked request ≠ ""
  no_selector : PassFilter.ofSelector? (asked request) = none
  unknown : ∀ stage ∈ r.entries, stage.name ≠ asked request

/-- The first of some requests that cannot be resolved asks for a pass of that name. -/
def FirstUnresolved (r : PassRegistry) (requests : List String) (name : String) : Prop :=
  ∃ before request later, requests = before ++ request :: later ∧
    (∀ earlier ∈ before, ¬ Unresolved r earlier) ∧ Unresolved r request ∧ asked request = name

variable {r : PassRegistry}

/-- A pass is found under its name. -/
theorem resolve_of_mem {stage : RegisteredPass} (h : stage ∈ r.entries) :
    resolve r stage.name = .ok stage := by
  rw [resolve, PassRegistry.lookup?_eq_some_iff.mpr ⟨h, rfl⟩]

/-- A name that no pass has is told to be unknown. -/
theorem resolve_of_unknown {name : String} (h : ∀ stage ∈ r.entries, stage.name ≠ name) :
    resolve r name = .error (.unknownPass name) := by
  rw [resolve, PassRegistry.lookup?_eq_none_iff.mpr h]

/-- The passes that a selector stands for are registered. -/
theorem resolve_of_mem_names {filter : PassFilter} {name : String} (h : name ∈ r.names filter) :
    ∃ found, resolve r name = .ok found := by
  obtain ⟨stage, hstage, rfl⟩ := List.mem_map.mp h
  exact ⟨stage, resolve_of_mem (List.mem_filter.mp hstage).1⟩

/-- A request that is no filter asks for the pass it names. -/
theorem expand_of_unresolved {request : String} (h : Unresolved r request) :
    expand r request = [asked request] := by
  have hblank : ¬ (asked request).isEmpty = true := by simpa using h.not_blank
  unfold expand
  rw [← asked, if_neg hblank, h.no_selector]

/-- What any other request stands for is registered. -/
theorem resolve_of_mem_expand {request : String} (h : ¬ Unresolved r request) {name : String}
    (hname : name ∈ expand r request) : ∃ found, resolve r name = .ok found := by
  unfold expand at hname
  rw [← asked] at hname
  dsimp only at hname
  split at hname
  · cases hname
  · next hblank =>
    split at hname
    · exact resolve_of_mem_names hname
    · next hselector =>
      cases List.mem_singleton.mp hname
      by_cases hknown : ∃ stage ∈ r.entries, stage.name = asked request
      · obtain ⟨stage, hstage, heq⟩ := hknown
        exact ⟨stage, heq ▸ resolve_of_mem hstage⟩
      · refine absurd ⟨by simpa using hblank, hselector, fun stage hstage heq => ?_⟩ h
        exact hknown ⟨stage, hstage, heq⟩

/-- If every request resolves, every name that they come to does. -/
theorem resolve_of_mem_flatMap {requests : List String}
    (h : ∀ request ∈ requests, ¬ Unresolved r request) :
    ∀ name ∈ requests.flatMap (expand r), ∃ found, resolve r name = .ok found := by
  intro name hname
  obtain ⟨request, hrequest, hname⟩ := List.mem_flatMap.mp hname
  exact resolve_of_mem_expand (h request hrequest) hname

/-- There is a pipeline if every request can be resolved. -/
theorem build_of_resolved {requests : List String}
    (h : ∀ request ∈ requests, ¬ Unresolved r request) : ∃ p, build r requests = .ok p := by
  obtain ⟨stages, hstages⟩ := exists_mapM_eq_ok (resolve_of_mem_flatMap h)
  refine ⟨⟨stages⟩, ?_⟩
  rw [build, hstages]
  rfl

/-- Otherwise the first request that cannot be resolved is the one that is told. -/
theorem build_of_firstUnresolved {requests : List String} {name : String}
    (h : FirstUnresolved r requests name) : build r requests = .error (.unknownPass name) := by
  obtain ⟨before, request, later, rfl, hbefore, hrequest, rfl⟩ := h
  have hfirst : ((before ++ request :: later).flatMap (expand r)).mapM (resolve r) =
      .error (.unknownPass (asked request)) := by
    rw [List.flatMap_append, List.flatMap_cons, expand_of_unresolved hrequest]
    exact mapM_eq_error_of_first (resolve_of_mem_flatMap hbefore)
      (resolve_of_unknown hrequest.unknown)
  rw [build, hfirst]
  rfl

end Pipeline

end IrOptimizer
