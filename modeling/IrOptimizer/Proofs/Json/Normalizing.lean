import IrOptimizer.Proofs.Except
import IrOptimizer.Proofs.Json.RoundTrip

/-!
# Reading JSON and printing it again is normalising

There are many texts for a module, and printing knows one of them. What has been read from any
text can be read from the printed one (`parseModule_render_of_parseModule`), so to read and to
print again changes a text once and never twice.

Printing could open more brackets than the text did, since it writes all brackets that a module
can do with. But a bracket that is printed around something stood there when it was read, or
the module is short of it: every reader answers only what is printed within the brackets it was
allowed (`answers_region`). `Answers r P` says that whatever `r` answers is `P`; it has one rule
for each way readers are put together, and the rest is one induction on the brackets allowed.
-/

namespace IrOptimizer.Json

open Text Reader

namespace Reader

variable {α β σ : Type} {r : Reader α} {f : α → Reader β} {P Q : α → Prop} {R : β → Prop}

/-- Whatever a reader answers has that property. -/
def Answers (r : Reader α) (P : α → Prop) : Prop :=
  ∀ s a rest, reads r s = .ok (a, rest) → P a

/-! ## Answers of readers that are put together -/

theorem answers_pure {a : α} (h : P a) : Answers (pure a) P := by
  intro s b rest hread
  cases hread
  exact h

/-- A reader that fails answers nothing. -/
theorem answers_fail (problem : Problem) : Answers (fail problem) P :=
  fun _ _ _ hread => nomatch hread

/-- What is answered behind a step may rely on what the step answers. -/
theorem Answers.bind (hr : Answers r P) (hf : ∀ a, P a → Answers (f a) R) :
    Answers (r >>= f) R := by
  intro s b rest hread
  rw [reads_bind] at hread
  obtain ⟨⟨a, s'⟩, ha, hb⟩ := except_bind_eq_ok.mp hread
  exact hf a (hr s a s' ha) s' b rest hb

/-- A step whose answer is of no importance. -/
theorem Answers.behind (r : Reader α) (hf : ∀ a, Answers (f a) R) : Answers (r >>= f) R :=
  have hany : Answers r fun _ => True := fun _ _ _ _ => trivial
  hany.bind fun a _ => hf a

theorem Answers.mono (hr : Answers r P) (h : ∀ a, P a → Q a) : Answers r Q :=
  fun s a rest hread => h a (hr s a rest hread)

/-- A value that is refused is not answered at all. -/
theorem answers_refuse : Answers refuse P := by
  unfold refuse
  refine .behind _ fun next => ?_
  split
  · exact answers_fail _
  · split
    · exact .behind _ fun _ => answers_fail _
    split
    · exact .behind _ fun _ => answers_fail _
    split
    · exact .behind _ fun _ => answers_fail _
    split
    · exact .behind _ fun _ => answers_fail _
    split
    · exact .behind _ fun _ => answers_fail _
    split
    · exact answers_fail _
    · exact answers_fail _

/-- What is answered inside a bracket is answered with one bracket less. -/
theorem answers_enter {levels : Nat} {inside : Nat → Reader α}
    (h : ∀ below, levels = below + 1 → Answers (inside below) P) :
    Answers (enter levels inside) P := by
  unfold enter
  split
  · exact answers_fail _
  · next below => exact .behind _ fun _ => h below rfl

theorem answers_itemsFrom (hr : Answers r P) (first : Bool) :
    Answers (itemsFrom r first) fun as => ∀ a ∈ as, P a := by
  intro s
  -- the text gets shorter with each item
  induction hlength : s.length using Nat.strongRecOn generalizing first s with
  | ind n ih =>
    intro as rest hread
    rw [reads_itemsFrom] at hread
    obtain ⟨⟨more, s₁⟩, _, hread⟩ := except_bind_eq_ok.mp hread
    dsimp only at hread
    split at hread
    · obtain ⟨⟨a, s₂⟩, ha, hread⟩ := except_bind_eq_ok.mp hread
      dsimp only at hread
      split at hread
      · next hshorter =>
        obtain ⟨⟨as', s₃⟩, has, heq⟩ := except_map_eq_ok.mp hread
        cases heq
        have hlater := ih s₂.length (hlength ▸ hshorter) false s₂ rfl as' s₃ has
        exact List.forall_mem_cons.mpr ⟨hr s₁ a s₂ ha, hlater⟩
      · cases hread
    · cases hread
      exact List.forall_mem_nil _

/-- Items that are answered are so one by one. -/
theorem answers_items (hr : Answers r P) : Answers (items r) fun as => ∀ a ∈ as, P a := by
  unfold items
  exact (answers_itemsFrom hr true).bind fun as has => .behind _ fun _ => answers_pure has

/-- What every field keeps holds behind all fields. -/
theorem answers_fieldsFrom {step : σ → String → Reader σ} {I : σ → Prop}
    (hstep : ∀ known key, I known → Answers (step known key) I) (first : Bool) {known : σ}
    (hknown : I known) : Answers (fieldsFrom step first known) I := by
  intro s
  induction hlength : s.length using Nat.strongRecOn generalizing first s known with
  | ind n ih =>
    intro result rest hread
    rw [reads_fieldsFrom] at hread
    obtain ⟨⟨more, s₁⟩, _, hread⟩ := except_bind_eq_ok.mp hread
    dsimp only at hread
    split at hread
    · obtain ⟨⟨key, s₂⟩, _, hread⟩ := except_bind_eq_ok.mp hread
      obtain ⟨⟨known', s₃⟩, hfield, hread⟩ := except_bind_eq_ok.mp hread
      dsimp only at hread
      split at hread
      · next hshorter =>
        have hknown' : I known' := hstep known key hknown s₂ known' s₃ hfield
        exact ih s₃.length (hlength ▸ hshorter) false hknown' s₃ rfl result rest hread
      · cases hread
    · cases hread
      exact hknown

/-- An object answers what its fields have kept. -/
theorem answers_fields {step : σ → String → Reader σ} {I : σ → Prop}
    (hstep : ∀ known key, I known → Answers (step known key) I) {known : σ} (hknown : I known) :
    Answers (fields step known) I := by
  unfold fields
  exact (answers_fieldsFrom hstep true hknown).bind fun s hs => .behind _ fun _ => answers_pure hs

end Reader

/-! ## Fields and items that may be missing -/

section

variable {α : Type} {value : Reader α} {P : α → Prop}

/-- A field that is new holds what its value answers. -/
theorem answers_newField (hvalue : Answers value P) (known : Option α) :
    Answers (newField known value) fun found => ∀ a ∈ found, P a := by
  unfold newField
  split
  · exact answers_fail _
  · refine .behind _ fun _ => hvalue.bind fun a ha => answers_pure fun b hb => ?_
    cases hb
    exact ha

/-- An item that may be missing is what its value answers, if it is there. -/
theorem answers_itemIfAny (hvalue : Answers value P) (first : Bool) :
    Answers (itemIfAny first value) fun found => ∀ a ∈ found, P a := by
  unfold itemIfAny
  refine .behind _ fun more => ?_
  split
  · refine hvalue.bind fun a ha => answers_pure fun b hb => ?_
    cases hb
    exact ha
  · exact answers_pure fun b hb => nomatch hb

theorem getD_of_forall {found : Option α} {default : α} (hdefault : P default)
    (h : ∀ a ∈ found, P a) : P (found.getD default) := by
  cases found with
  | none => exact hdefault
  | some a => exact h a rfl

end

/-! ## How deep what is answered is printed -/

/-- Attributes take one bracket, whatever they are. -/
theorem depth_attributesToJson_le (as : Attributes) : depthFields (attributesToJson as) ≤ 1 := by
  unfold attributesToJson
  split
  · exact Nat.zero_le 1
  · show max (depthFields (entryFields as.entries) + 1) 0 ≤ 1
    rw [depthFields_entryFields]
    exact Nat.le_refl 1

/-- A region that is left out takes no brackets, and else those of its operations. -/
theorem depth_regionToJson_le (ops : List Operation) :
    depthFields (regionToJson ops) ≤ (array (operationsToJson ops)).depth := by
  cases ops with
  | nil => exact Nat.zero_le 1
  | cons op ops =>
    exact Nat.le_of_eq (Nat.max_zero (array (operationsToJson (op :: ops))).depth)

/-- Operations in a row are as deep as the deepest. -/
theorem depthItems_operationsToJson_le {ops : List Operation} {levels : Nat}
    (h : ∀ op ∈ ops, op.toJson.depth ≤ levels) : depthItems (operationsToJson ops) ≤ levels := by
  induction ops with
  | nil => exact Nat.zero_le levels
  | cons op ops ih =>
    obtain ⟨hop, hops⟩ := List.forall_mem_cons.mp h
    rw [operationsToJson, depthItems]
    exact Nat.max_le.mpr ⟨hop, ih hops⟩

/-- An operation takes a bracket around its attributes and its region. -/
theorem depth_operation_le {op : Operation} {levels : Nat}
    (has : depthFields (attributesToJson op.attributes) ≤ levels)
    (hregion : depthFields (regionToJson op.region) ≤ levels) : op.toJson.depth ≤ levels + 1 := by
  rw [toJson_operation, depth, depthFields_operationEntries]
  omega

/-- Attributes are answered within the brackets allowed. -/
theorem answers_attributes (levels : Nat) :
    Answers (attributes levels) fun as => depthFields (attributesToJson as) ≤ levels := by
  unfold attributes
  refine .behind _ fun next => ?_
  split
  · refine answers_enter fun below hlevels _ as _ _ => ?_
    have hone := depth_attributesToJson_le as
    omega
  · exact answers_refuse

/-- The fields read so far are printed with so many brackets at most. -/
structure OperationFields.Fits (levels : Nat) (f : OperationFields) : Prop where
  attributes : ∀ as ∈ f.attributes, depthFields (attributesToJson as) ≤ levels
  region : ∀ ops ∈ f.region, depthFields (regionToJson ops) ≤ levels

section

variable {levels : Nat} {inner : Reader (List Operation)}

/-- Every field of an operation keeps within the brackets allowed. -/
theorem answers_step
    (hregion : Answers inner fun ops => depthFields (regionToJson ops) ≤ levels)
    (f : OperationFields) (key : String) (hf : f.Fits levels) :
    Answers (f.step (attributes levels) inner key) (OperationFields.Fits levels) := by
  unfold OperationFields.step
  split
  · exact .behind _ fun name => answers_pure ⟨hf.attributes, hf.region⟩
  split
  · exact (answers_newField (answers_attributes levels) _).bind fun as has =>
      answers_pure ⟨has, hf.region⟩
  split
  · exact (answers_newField hregion _).bind fun ops hops => answers_pure ⟨hf.attributes, hops⟩
  · exact .behind _ fun _ => answers_pure hf

/-- What is missing in an operation takes no brackets. -/
theorem depth_finished_le {name : String} {as : Option Attributes} {ops : Option (List Operation)}
    (has : ∀ a ∈ as, depthFields (attributesToJson a) ≤ levels)
    (hops : ∀ a ∈ ops, depthFields (regionToJson a) ≤ levels) :
    (Operation.mk name (as.getD .empty) (ops.getD [])).toJson.depth ≤ levels + 1 := by
  refine depth_operation_le ?_ ?_
  · exact getD_of_forall (P := fun a => depthFields (attributesToJson a) ≤ levels)
      (Nat.zero_le levels) has
  · exact getD_of_forall (P := fun a => depthFields (regionToJson a) ≤ levels)
      (Nat.zero_le levels) hops

/-- An operation that is written as an object takes one bracket more than what is in it. -/
theorem answers_operationFields
    (hregion : Answers inner fun ops => depthFields (regionToJson ops) ≤ levels) :
    Answers (operationFields (attributes levels) inner) fun op => op.toJson.depth ≤ levels + 1 := by
  have hnone : (OperationFields.mk none none none).Fits levels := ⟨nofun, nofun⟩
  unfold operationFields
  refine (answers_fieldsFrom (answers_step hregion) true hnone).bind fun f hf => ?_
  have hfinish : Answers f.finish fun op => op.toJson.depth ≤ levels + 1 := by
    unfold OperationFields.finish
    split
    · exact answers_pure (depth_finished_le hf.attributes hf.region)
    · exact answers_fail _
  exact hfinish.bind fun op hop => .behind _ fun _ => answers_pure hop

/-- An operation that is written as an array takes one bracket more than what is in it. -/
theorem answers_operationItems
    (hregion : Answers inner fun ops => depthFields (regionToJson ops) ≤ levels) :
    Answers (operationItems (attributes levels) inner) fun op => op.toJson.depth ≤ levels + 1 := by
  unfold operationItems
  refine .behind _ fun name => ?_
  split
  · exact answers_fail _
  · refine (answers_itemIfAny (answers_attributes levels) false).bind fun as has => ?_
    refine (answers_itemIfAny hregion false).bind fun ops hops => ?_
    exact .behind _ fun _ => answers_pure (depth_finished_le has hops)

end

/-- An operation is answered within the brackets allowed, if the regions in it are. -/
theorem answers_operation_of_region {levels : Nat}
    (h : ∀ below, levels = below + 1 →
      Answers (region below) fun ops => (array (operationsToJson ops)).depth ≤ below) :
    Answers (operation levels) fun op => op.toJson.depth ≤ levels := by
  unfold operation
  refine .behind _ fun next => ?_
  cases levels with
  | zero =>
    dsimp only
    split
    · exact answers_fail _
    · exact answers_fail _
    · exact answers_refuse
  | succ levels =>
    have hregion := (h levels rfl).mono fun ops => Nat.le_trans (depth_regionToJson_le ops)
    dsimp only
    split
    · exact .behind _ fun _ => answers_operationItems hregion
    · exact .behind _ fun _ => answers_operationFields hregion
    · exact answers_refuse

/-- A region is answered within the brackets allowed. -/
theorem answers_region (levels : Nat) :
    Answers (region levels) fun ops => (array (operationsToJson ops)).depth ≤ levels := by
  -- the next region inside is two brackets further in, behind that of its operation
  induction levels using Nat.strongRecOn with
  | ind levels ih =>
    unfold region
    refine .behind _ fun next => ?_
    split
    · split
      · exact answers_fail _
      · next below =>
        have hoperation : Answers (operation below) fun op => op.toJson.depth ≤ below :=
          answers_operation_of_region fun lower hlower => ih lower (by omega)
        refine .behind _ fun _ => (answers_items hoperation).mono fun ops hops => ?_
        rw [depth]
        exact Nat.succ_le_succ (depthItems_operationsToJson_le hops)
    · exact answers_refuse

/-! ## Modules -/

/-- A module takes a bracket around its operations. -/
theorem depth_module (m : Module) :
    m.toJson.depth = (array (operationsToJson m.ops)).depth + 1 := by
  show depthFields (moduleFields m) + 1 = _
  rw [depthFields_moduleFields]

/-- Every field of a module keeps within the brackets allowed. -/
theorem answers_moduleStep {levels : Nat} (f : ModuleFields) (key : String)
    (hf : ∀ ops ∈ f.ops, (array (operationsToJson ops)).depth ≤ levels) :
    Answers (f.step levels key) fun f =>
      ∀ ops ∈ f.ops, (array (operationsToJson ops)).depth ≤ levels := by
  unfold ModuleFields.step
  split
  · exact .behind _ fun _ => answers_pure hf
  split
  · exact (answers_newField (answers_region levels) _).bind fun ops hops => answers_pure hops
  · exact .behind _ fun _ => answers_pure hf

/-- A module is printed with a bracket for its operations even if there were none, so two
brackets have to be allowed. -/
theorem answers_module {levels : Nat} (h : 2 ≤ levels) :
    Answers (module levels) fun m => m.toJson.depth ≤ levels := by
  have hmissing {below : Nat} {name : Option String} {ops : Option (List Operation)}
      (hlevels : levels = below + 1)
      (hops : ∀ a ∈ ops, (array (operationsToJson a)).depth ≤ below) :
      (Module.mk name (ops.getD [])).toJson.depth ≤ levels := by
    have hnone : (array (operationsToJson [])).depth ≤ below := by
      show 0 + 1 ≤ below
      omega
    have hdepth : (array (operationsToJson (ops.getD []))).depth ≤ below :=
      getD_of_forall (P := fun a => (array (operationsToJson a)).depth ≤ below) hnone hops
    rw [depth_module, hlevels]
    exact Nat.succ_le_succ hdepth
  unfold module
  refine .behind _ fun next => ?_
  split
  · refine answers_enter fun below hlevels => .behind _ fun name => ?_
    refine (answers_itemIfAny (answers_region below) false).bind fun ops hops => ?_
    exact .behind _ fun _ => answers_pure (hmissing hlevels hops)
  · refine answers_enter fun below hlevels => ?_
    have hnone : ∀ ops ∈ (ModuleFields.mk none none).ops,
        (array (operationsToJson ops)).depth ≤ below := nofun
    exact (answers_fields answers_moduleStep hnone).bind fun f hf =>
      answers_pure (hmissing hlevels hf)
  · exact answers_refuse

/-- A module that is read from a text is answered by the reader within all brackets. -/
theorem exists_reads_of_parseModule {text : String} {m : Module} (h : parseModule text = .ok m) :
    ∃ rest, reads (module maxLevels) text.toList = .ok (m, rest) := by
  unfold parseModule at h
  obtain ⟨⟨m', c⟩, hm, h⟩ := except_bind_eq_ok.mp h
  obtain ⟨⟨next, d⟩, _, h⟩ := except_bind_eq_ok.mp h
  dsimp only at h
  split at h
  · cases h
    refine ⟨c.rest, ?_⟩
    rw [reads, hm]
    rfl
  · cases h

/-- Reads a module and prints it again. -/
def reprint (text : String) : Except Problem String :=
  (parseModule text).map Target.json.render

/-- Whatever text a module was read from, it is read from its printed form as well; so what
comes of reading and printing stays as it is when it is read and printed again. -/
theorem parseModule_render_of_parseModule (text : String) (m : Module)
    (h : parseModule text = .ok m) :
    parseModule (Target.json.render m) = .ok m ∧
      ∃ printed, reprint text = .ok printed ∧ reprint printed = .ok printed := by
  obtain ⟨rest, hread⟩ := exists_reads_of_parseModule h
  have hdepth : m.toJson.depth ≤ 127 := answers_module (by decide) _ m rest hread
  have hprinted := parseModule_render_of_depth hdepth
  refine ⟨hprinted, Target.json.render m, ?_, ?_⟩
  · rw [reprint, h]
    rfl
  · rw [reprint, hprinted]
    rfl

/-- A text with arrays for objects, fields in another order, one that is not known, a key that
comes twice and an escaped name, and the module that it stands for; this is printed in another
way. -/
theorem parseModule_render_of_parseModule_spelled :
    let m : Module := ⟨none, [⟨"a", .ofList [("k", .int (-2))], [⟨"b", .empty, []⟩]⟩]⟩
    parseModule ("[null, [\x7b\"x\": [[]], \"region\": [[\"b\"]], " ++
        "\"attributes\": \x7b\"k\": 1, \"k\": -2\x7d, \"name\": \"\\u0061\"\x7d]]") = .ok m ∧
      parseModule (Target.json.render m) = .ok m := by
  intro m
  have hread : parseModule ("[null, [\x7b\"x\": [[]], \"region\": [[\"b\"]], " ++
      "\"attributes\": \x7b\"k\": 1, \"k\": -2\x7d, \"name\": \"\\u0061\"\x7d]]") = .ok m :=
    eq_ok_of_toOption (by decide +kernel)
  exact ⟨hread, (parseModule_render_of_parseModule _ m hread).1⟩

end IrOptimizer.Json
