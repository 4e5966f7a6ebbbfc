import IrOptimizer.Frontend
import IrOptimizer.Proofs.Dialect
import IrOptimizer.Proofs.Generic.Readable
import IrOptimizer.Proofs.Text.Places

/-!
# What the standard frontends answer

Under the standard tags there are two readers, and both answer modules that the
generic form can express: the one for the generic form by its language, the one
for lists of literals because it makes nothing but literals. When they refuse a
text, both complain about a place of it, that of a character or of its end; and
neither refuses the empty text.
-/

namespace IrOptimizer

/-- A list of literals is read as literals. -/
theorem Toy.literal_of_parse {source : String} {m : Module} (h : Toy.parse source = .ok m) :
    ∀ op ∈ m.ops, ∃ n, op = Toy.literal n := by
  obtain ⟨ops, hops, h⟩ := except_bind_eq_ok.mp h
  cases h
  intro op hop
  obtain ⟨w, _, hw⟩ := exists_of_mem_mapM hops op hop
  unfold Toy.readWord at hw
  split at hw
  · next n _ => exact ⟨n, (Except.ok.inj hw).symm⟩
  · cases hw

/-- Literals in a row can be written in the generic form. -/
theorem readable_of_literals {ops : List Operation} (h : ∀ op ∈ ops, ∃ n, op = Toy.literal n) :
    NamesReadable ops ∧ nestingList ops = 0 := by
  induction ops with
  | nil => exact ⟨everyName_nil, rfl⟩
  | cons op ops ih =>
    obtain ⟨hop, hops⟩ := List.forall_mem_cons.mp h
    obtain ⟨hnames, hnesting⟩ := ih hops
    obtain ⟨n, rfl⟩ := hop
    have hliteral : Text.isIdentifier Toy.literalName.toList = true := by decide
    refine ⟨everyName_cons.mpr ⟨hliteral, everyName_nil, hnames⟩, ?_⟩
    rw [nestingList, hnesting, Toy.literal]
    rfl

/-- What is read of a literal list can be written in the generic form. -/
theorem Toy.readable_of_parse {source : String} {m : Module} (h : Toy.parse source = .ok m) :
    m.Readable := by
  obtain ⟨hnames, hnesting⟩ := readable_of_literals (Toy.literal_of_parse h)
  refine ⟨hnames, ?_⟩
  rw [Module.nesting, hnesting]
  exact Nat.zero_le _

namespace FrontendRegistry

/-- Under every standard tag there is one of two readers. -/
theorem eq_or_eq_of_resolve_standard {tag : String} {frontend : Frontend}
    (h : standard.resolve tag = .ok frontend) :
    frontend = Generic.parse ∨ frontend = Toy.parse := by
  unfold resolve at h
  split at h
  · next found hfind =>
    cases h
    have hmem := Dictionary.mem_of_mem_entries_ofList (Dictionary.find?_eq_some_iff.mp hfind)
    simp only [List.mem_cons, Prod.mk.injEq, List.not_mem_nil, or_false] at hmem
    rcases hmem with ⟨_, h⟩ | ⟨_, h⟩ | ⟨_, h⟩ | ⟨_, h⟩
    · exact .inl h
    · exact .inl h
    · exact .inr h
    · exact .inr h
  · cases h

/-- The default tag is that of the generic form. -/
theorem resolve_standard_ir : standard.resolve "ir" = .ok Generic.parse := by
  rfl

end FrontendRegistry

/-- Both readers answer modules that can be read in generic form. -/
theorem Frontend.readable_of_eq_ok {frontend : Frontend} {source : String} {m : Module}
    (hbuiltIn : frontend = Generic.parse ∨ frontend = Toy.parse) (hm : frontend source = .ok m) :
    m.Readable := by
  rcases hbuiltIn with rfl | rfl
  · exact Generic.readable_of_parse hm
  · exact Toy.readable_of_parse hm

/-! ## Where complaints stand -/

namespace Generic

open Text

/-- The place of a bracket that is too deep is in the text. -/
theorem reaches_of_tooDeep? {zone : Zone} {depth : Nat} {place p : Position} {text : List Char}
    (h : tooDeep? zone depth place text = some p) : place.Reaches text p := by
  induction text generalizing zone depth place with
  | nil => cases h
  | cons c cs ih =>
    unfold tooDeep? at h
    split at h
    · split at h
      · exact (ih h).cons
      · cases h
        exact .refl _ _
    · split at h <;> exact (ih h).cons

/-- The place at which something is expected is in the text. -/
theorem reaches_of_written_eq_error {levels : Nat} {text : List Char} {e : SyntaxError}
    (h : written levels text = .error e) : Position.start.Reaches text e.position := by
  unfold written at h
  dsimp only at h
  split at h
  · cases h
  · cases h
    exact Position.reaches_after_take text _

/-- The nesting check complains about a character; the other stages tell a place by
the characters behind it. -/
theorem reaches_of_parse_eq_error {source : String} {e : SyntaxError}
    (h : parse source = .error e) : Position.start.Reaches source.toList e.position := by
  unfold parse parseChars at h
  split at h
  · next position hover =>
    cases h
    exact reaches_of_tooDeep? hover
  · cases hwritten : written maxNesting source.toList with
    | error e' =>
      rw [hwritten] at h
      cases h
      exact reaches_of_written_eq_error hwritten
    | ok w =>
      rw [hwritten] at h
      dsimp only [bind, Except.bind] at h
      split at h
      · cases h
      · cases h
        exact Position.reaches_after_take source.toList _

end Generic

namespace Toy

open Text

/-- The place of a word is in the text. -/
theorem reaches_of_mem_words {place : Position} {inComment : Bool} {text : List Char} :
    ∀ w ∈ words place inComment text, place.Reaches text w.1 := by
  induction text generalizing place inComment with
  | nil => nofun
  | cons c cs ih =>
    -- a word begins with this character, or it is one of the words behind it
    have hlater (inComment : Bool) : ∀ w ∈ words (place.advance c) inComment cs,
        place.Reaches (c :: cs) w.1 := fun w hw => (ih w hw).cons
    unfold words
    split
    · exact hlater _
    split
    · exact hlater true
    dsimp only
    split
    · exact hlater false
    split
    · next first tail more hwords =>
      split
      -- the character either is a word or grows the next one, which then begins here
      · exact List.forall_mem_cons.mpr ⟨.refl place _, hlater false⟩
      · have hmore := hlater false
        rw [hwords] at hmore
        exact List.forall_mem_cons.mpr ⟨.refl place _, (List.forall_mem_cons.mp hmore).2⟩
    · exact List.forall_mem_cons.mpr ⟨.refl place _, hlater false⟩

theorem reaches_of_parse_eq_error {source : String} {e : SyntaxError}
    (h : parse source = .error e) : Position.start.Reaches source.toList e.position := by
  unfold parse at h
  cases hops : (words .start false source.toList).mapM readWord with
  | ok ops => rw [hops] at h; cases h
  | error e' =>
    rw [hops] at h
    cases h
    obtain ⟨before, w, later, hwords, _, hw⟩ := exists_of_mapM_eq_error hops
    have hmem : w ∈ words .start false source.toList := by
      rw [hwords]
      exact List.mem_append_right before (List.mem_cons_self ..)
    have hplace := reaches_of_mem_words w hmem
    unfold readWord at hw
    split at hw
    · cases hw
    · cases hw
      exact hplace

end Toy

/-- Both readers complain about places of their text. -/
theorem Frontend.reaches_of_eq_error {frontend : Frontend} {source : String} {e : SyntaxError}
    (hfrontend : frontend = Generic.parse ∨ frontend = Toy.parse)
    (h : frontend source = .error e) : Text.Position.start.Reaches source.toList e.position := by
  rcases hfrontend with rfl | rfl
  · exact Generic.reaches_of_parse_eq_error h
  · exact Toy.reaches_of_parse_eq_error h

/-- Neither reader refuses the empty text. -/
theorem Frontend.reads_empty {frontend : Frontend}
    (hfrontend : frontend = Generic.parse ∨ frontend = Toy.parse) :
    frontend "" = .ok ⟨none, []⟩ := by
  rcases hfrontend with rfl | rfl
  · exact eq_ok_of_toOption (by decide +kernel)
  · rfl

/-- A source is bad in every context, or in none. -/
theorem Frontend.load_eq_badSource_iff {frontend : Frontend} {context : Context} {source : String}
    {e : SyntaxError} :
    frontend.load context source = .error (.badSource e) ↔ frontend source = .error e := by
  unfold load
  cases frontend source with
  | error e' => exact ⟨fun h => by cases h; rfl, fun h => by cases h; rfl⟩
  | ok m =>
    refine ⟨fun h => ?_, nofun⟩
    dsimp only at h
    split at h <;> cases h

/-- What is loaded has been read and is valid. -/
theorem Frontend.load_eq_ok_iff {frontend : Frontend} {context : Context} {source : String}
    {m : Module} :
    frontend.load context source = .ok m ↔
      frontend source = .ok m ∧ context.validate m = .ok () := by
  unfold load
  constructor
  · intro h
    split at h
    · cases h
    · next m' hread =>
      split at h
      · cases h
      · next hvalid =>
        cases h
        exact ⟨hread, hvalid⟩
  · intro h
    obtain ⟨hread, hvalid⟩ := h
    rw [hread]
    dsimp only
    rw [hvalid]

end IrOptimizer
