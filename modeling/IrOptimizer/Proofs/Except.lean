/-!
# Steps that may fail

When a computation made of steps succeeds, each of its steps did. When it fails, it
fails with the error of the first step that did.
-/

namespace IrOptimizer

variable {ε ε' α β : Type}

theorem except_bind_eq_ok {x : Except ε α} {f : α → Except ε β} {b : β} :
    x >>= f = .ok b ↔ ∃ a, x = .ok a ∧ f a = .ok b := by
  cases x with
  | error e => exact ⟨nofun, fun ⟨_, h, _⟩ => nomatch h⟩
  | ok a => exact ⟨fun h => ⟨a, rfl, h⟩, fun ⟨_, h, hf⟩ => Except.ok.inj h ▸ hf⟩

theorem except_bind_eq_error {x : Except ε α} {f : α → Except ε β} {e : ε} :
    x >>= f = .error e ↔ x = .error e ∨ ∃ a, x = .ok a ∧ f a = .error e := by
  cases x with
  | error e' => exact ⟨fun h => .inl (congrArg Except.error (Except.error.inj h)),
      fun h => h.elim (fun h => congrArg Except.error (Except.error.inj h)) nofun⟩
  | ok a => exact ⟨fun h => .inr ⟨a, rfl, h⟩,
      fun h => h.elim nofun fun ⟨_, h, hf⟩ => Except.ok.inj h ▸ hf⟩

theorem except_mapError_eq_ok {x : Except ε α} {f : ε → ε'} {a : α} :
    x.mapError f = .ok a ↔ x = .ok a := by
  cases x with
  | error e => exact ⟨nofun, nofun⟩
  | ok a' => exact ⟨fun h => congrArg Except.ok (Except.ok.inj h),
      fun h => congrArg Except.ok (Except.ok.inj h)⟩

theorem except_mapError_eq_error {x : Except ε α} {f : ε → ε'} {e' : ε'} :
    x.mapError f = .error e' ↔ ∃ e, x = .error e ∧ f e = e' := by
  cases x with
  | error e => exact ⟨fun h => ⟨e, rfl, Except.error.inj h⟩,
      fun ⟨_, h, he⟩ => Except.error.inj h ▸ congrArg Except.error he⟩
  | ok a => exact ⟨nofun, fun ⟨_, h, _⟩ => nomatch h⟩

theorem except_map_eq_ok {x : Except ε α} {f : α → β} {b : β} :
    x.map f = .ok b ↔ ∃ a, x = .ok a ∧ b = f a := by
  cases x with
  | error e => exact ⟨nofun, fun ⟨_, h, _⟩ => nomatch h⟩
  | ok a => exact ⟨fun h => ⟨a, rfl, (Except.ok.inj h).symm⟩,
      fun ⟨_, h, hb⟩ => Except.ok.inj h ▸ congrArg Except.ok hb.symm⟩

theorem except_map_eq_error {x : Except ε α} {f : α → β} {e : ε} :
    x.map f = .error e ↔ x = .error e := by
  cases x with
  | error e' => exact ⟨fun h => congrArg Except.error (Except.error.inj h),
      fun h => congrArg Except.error (Except.error.inj h)⟩
  | ok a => exact ⟨nofun, nofun⟩

theorem eq_ok_of_toOption {x : Except ε α} {a : α} (h : x.toOption = some a) : x = .ok a := by
  cases x with
  | error e => cases h
  | ok a' => exact congrArg Except.ok (Option.some.inj h)

/-- The error of a computation that fails. -/
def error? (x : Except ε α) : Option ε :=
  match x with
  | .ok _ => none
  | .error e => some e

theorem eq_error_of_error? {x : Except ε α} {e : ε} (h : error? x = some e) : x = .error e := by
  cases x with
  | ok a => cases h
  | error e' => exact congrArg Except.error (Option.some.inj h)

/-- A step applied to each element of a list succeeds if it does on all. -/
theorem mapM_eq_ok_iff {f : α → Except ε β} {l : List α} {bs : List β} :
    l.mapM f = .ok bs ↔ l.map f = bs.map .ok := by
  induction l generalizing bs with
  | nil =>
    constructor
    · intro h
      cases h
      rfl
    · intro h
      rw [List.map_eq_nil_iff.mp h.symm]
      rfl
  | cons a l ih =>
    rw [List.mapM_cons]
    simp only [except_bind_eq_ok]
    constructor
    · intro h
      obtain ⟨b, hb, bs', hbs, h⟩ := h
      cases h
      rw [List.map_cons, List.map_cons, hb, ih.mp hbs]
    · intro h
      obtain ⟨b, bs', rfl, hb, hbs⟩ := List.map_eq_cons_iff.mp h.symm
      exact ⟨b, hb.symm, bs', ih.mpr hbs.symm, rfl⟩

/-- What a step applied to each element of a list answers comes from those elements. -/
theorem exists_of_mem_mapM {f : α → Except ε β} {l : List α} {bs : List β}
    (h : l.mapM f = .ok bs) : ∀ b ∈ bs, ∃ a ∈ l, f a = .ok b := by
  intro b hb
  have hmem : .ok b ∈ l.map f := by
    rw [mapM_eq_ok_iff.mp h]
    exact List.mem_map_of_mem hb
  exact List.mem_map.mp hmem

/-- Whether every step succeeds does not depend on how errors are told. -/
theorem mapM_mapError_eq_ok_iff {f : α → Except ε β} {g : α → ε → ε'} {l : List α} {bs : List β} :
    l.mapM (fun a => (f a).mapError (g a)) = .ok bs ↔ l.mapM f = .ok bs := by
  induction l generalizing bs with
  | nil => simp only [List.mapM_nil, pure, Except.pure, Except.ok.injEq]
  | cons a l ih =>
    simp only [List.mapM_cons, except_bind_eq_ok, except_mapError_eq_ok, ih, pure, Except.pure,
      Except.ok.injEq]

/-- A step applied to each element of a list fails at the first element where it does. -/
theorem exists_of_mapM_eq_error {f : α → Except ε β} {l : List α} {e : ε}
    (h : l.mapM f = .error e) :
    ∃ before a later, l = before ++ a :: later ∧ (∀ b ∈ before, ∃ c, f b = .ok c) ∧
      f a = .error e := by
  induction l with
  | nil => cases h
  | cons a l ih =>
    rw [List.mapM_cons] at h
    cases ha : f a with
    | error e' =>
      rw [ha] at h
      cases h
      exact ⟨[], a, l, rfl, nofun, ha⟩
    | ok b =>
      rw [ha] at h
      cases hl : l.mapM f with
      | ok bs => rw [hl] at h; cases h
      | error e' =>
        rw [hl] at h
        cases h
        obtain ⟨before, c, later, rfl, hbefore, hc⟩ := ih hl
        exact ⟨a :: before, c, later, rfl, List.forall_mem_cons.mpr ⟨⟨b, ha⟩, hbefore⟩, hc⟩

/-- Where a step fails behind elements with which it succeeds, it fails for the list. -/
theorem mapM_eq_error_of_first {f : α → Except ε β} {before later : List α} {a : α} {e : ε}
    (hbefore : ∀ b ∈ before, ∃ c, f b = .ok c) (ha : f a = .error e) :
    (before ++ a :: later).mapM f = .error e := by
  induction before with
  | nil =>
    rw [List.nil_append, List.mapM_cons, ha]
    rfl
  | cons b before ih =>
    obtain ⟨⟨c, hb⟩, hbefore⟩ := List.forall_mem_cons.mp hbefore
    rw [List.cons_append, List.mapM_cons, hb, ih hbefore]
    rfl

/-- A step applied to each element of a list fails just at the first element where it does. -/
theorem mapM_eq_error_iff {f : α → Except ε β} {l : List α} {e : ε} :
    l.mapM f = .error e ↔
      ∃ before a later, l = before ++ a :: later ∧ (∀ b ∈ before, ∃ c, f b = .ok c) ∧
        f a = .error e := by
  constructor
  · exact exists_of_mapM_eq_error
  · intro h
    obtain ⟨before, a, later, rfl, hbefore, ha⟩ := h
    exact mapM_eq_error_of_first hbefore ha

/-- A step that succeeds with each element of a list succeeds with the list. -/
theorem exists_mapM_eq_ok {f : α → Except ε β} {l : List α} (h : ∀ a ∈ l, ∃ b, f a = .ok b) :
    ∃ bs, l.mapM f = .ok bs := by
  cases hl : l.mapM f with
  | ok bs => exact ⟨bs, rfl⟩
  | error e =>
    obtain ⟨before, a, later, rfl, _, ha⟩ := exists_of_mapM_eq_error hl
    obtain ⟨b, hb⟩ := h a (List.mem_append_right before (List.mem_cons_self ..))
    cases hb.symm.trans ha

/-- A step applied to each element of a list succeeds exactly if it succeeds with each. -/
theorem exists_mapM_eq_ok_iff {f : α → Except ε β} {l : List α} :
    (∃ bs, l.mapM f = .ok bs) ↔ ∀ a ∈ l, ∃ b, f a = .ok b := by
  constructor
  · intro hok a ha
    obtain ⟨bs, h⟩ := hok
    have hmem : f a ∈ bs.map .ok := by
      rw [← mapM_eq_ok_iff.mp h]
      exact List.mem_map_of_mem ha
    obtain ⟨b, _, hb⟩ := List.mem_map.mp hmem
    exact ⟨b, hb.symm⟩
  · exact exists_mapM_eq_ok

/-- A step that carries a state along a list fails at the first element where it does in the
state that the elements before it lead to. -/
theorem foldlM_eq_error_iff {σ : Type} {f : σ → α → Except ε σ} {l : List α} {s : σ} {e : ε} :
    l.foldlM f s = .error e ↔
      ∃ before a later s', l = before ++ a :: later ∧ before.foldlM f s = .ok s' ∧
        f s' a = .error e := by
  induction l generalizing s with
  | nil =>
    constructor
    · intro h
      cases h
    · intro hfails
      obtain ⟨before, a, later, s', h, _, _⟩ := hfails
      cases before <;> cases h
  | cons a l ih =>
    rw [List.foldlM_cons, except_bind_eq_error]
    constructor
    · intro h
      rcases h with ha | ⟨t, ha, hl⟩
      · exact ⟨[], a, l, s, rfl, rfl, ha⟩
      · obtain ⟨before, b, later, s', rfl, hbefore, hb⟩ := ih.mp hl
        refine ⟨a :: before, b, later, s', rfl, ?_, hb⟩
        rw [List.foldlM_cons, ha]
        exact hbefore
    · intro hfails
      obtain ⟨before, b, later, s', h, hbefore, hb⟩ := hfails
      cases before with
      | nil =>
        cases h
        cases hbefore
        exact .inl hb
      | cons c before =>
        cases h
        obtain ⟨t, hc, hbefore⟩ := except_bind_eq_ok.mp hbefore
        exact .inr ⟨t, hc, ih.mpr ⟨before, b, later, s', rfl, hbefore, hb⟩⟩

/-- A step applied to two lists one after the other fails with the first, or with the second
when it succeeds with the first. -/
theorem mapM_append_eq_error_iff {f : α → Except ε β} {l l' : List α} {e : ε} :
    (l ++ l').mapM f = .error e ↔
      l.mapM f = .error e ∨ (∃ bs, l.mapM f = .ok bs) ∧ l'.mapM f = .error e := by
  rw [List.mapM_append, except_bind_eq_error]
  simp only [except_bind_eq_error]
  constructor
  · intro hfails
    rcases hfails with h | ⟨bs, h, h' | ⟨_, _, h'⟩⟩
    · exact .inl h
    · exact .inr ⟨⟨bs, h⟩, h'⟩
    · cases h'
  · intro hfails
    rcases hfails with h | ⟨⟨bs, h⟩, h'⟩
    · exact .inl h
    · exact .inr ⟨bs, h, .inl h'⟩

end IrOptimizer
