import IrOptimizer.Proofs.Generic.Openings

/-!
# How many levels the grammar takes

The scanner of regions is given a number of levels. Here it is shown when that number makes no
difference at all, neither to what is read nor to what is noted as tried in vain, on texts that
follow the grammar and on texts that do not. `regionOver R n` has any scanner `R` inside `n`
levels. If it never comes to an opening parenthesis there, `R` may as well be the region that
refuses all levels, and the two scanners do the same.

What keeps the scanner from coming there is a property of the text that is left and of the
levels that are left (`Room`), kept by all that is read before the next region is tried. There
are two such: that the count of parentheses does not complain (`room_uncomplaining`), and that
there are at least as many levels as characters (`room_short`).
-/

namespace IrOptimizer.Generic

open Text Phrase Scanner

/-! ## Scanners that do the same -/

namespace Scanner

variable {α β : Type} {c : Cursor}

/-- What is read at a cursor is read from the text at the cursor. -/
theorem reads_of_read? {p : Scanner α} {a : α} {d : Cursor} (h : (p c).read? = some (a, d)) :
    p.reads c.rest = some (a, d.rest) := by
  rw [reads_rest, h]
  rfl

/-- Sequences are the same if their parts are, the second behind all that the first reads. -/
theorem bind_congr {p q : Scanner α} {f g : α → Scanner β} (hpq : p c = q c)
    (hfg : ∀ a d, (q c).read? = some (a, d) → f a d = g a d) : (p >>= f) c = (q >>= g) c := by
  show Scanner.bind p f c = Scanner.bind q g c
  unfold Scanner.bind
  rw [hpq]
  rcases hq : q c with ⟨_ | ⟨a, d⟩, attempts⟩
  · rfl
  · have hnext := hfg a d (by rw [hq])
    dsimp only
    rw [hnext]

theorem rule_congr {p q : Scanner α} (h : p c = q c) (name : Rule) :
    rule name p c = rule name q c := by
  unfold rule
  rw [h]

/-- Alternatives are the same if each is. -/
theorem orElse_congr {p p' q q' : Scanner α} (hp : p c = p' c) (hq : q c = q' c) :
    orElse p q c = orElse p' q' c := by
  unfold orElse
  rw [hp, hq]

theorem map_congr {p q : Scanner α} (h : p c = q c) (f : α → β) : (f <$> p) c = (f <$> q) c :=
  bind_congr h fun _ _ _ => rfl

theorem optional_congr {p q : Scanner α} (h : p c = q c) : optional p c = optional q c :=
  orElse_congr (map_congr h some) rfl

/-- Two repetitions do the same if their steps do, at all cursors that they come to. -/
theorem many_congr {p q : Scanner α} {I : Cursor → Prop} (hpq : ∀ c, I c → p c = q c)
    (hstep : ∀ c a d, I c → (q c).read? = some (a, d) → I d) (hc : I c) : many p c = many q c := by
  induction hlength : c.remaining using Nat.strongRecOn generalizing c with
  | ind n ih =>
    rw [many, many, hpq c hc]
    rcases hq : q c with ⟨_ | ⟨a, d⟩, attempts⟩
    · rfl
    · dsimp only
      split
      · next hshorter =>
        have hd : I d := hstep c a d hc (by rw [hq])
        rw [ih d.remaining (hlength ▸ hshorter) hd rfl]
      · rfl

end Scanner

/-! ## Scanners with a region of choice -/

/-- So many levels of regions around a scanner. -/
def regionOver (R : Scanner (List WrittenOperation)) : Nat → Scanner (List WrittenOperation)
  | 0 => R
  | levels + 1 =>
    rule .region do
      char '('
      gap
      let ops ← operations (regionOver R levels)
      char ')'
      pure ops

/-- Levels can be put over levels. -/
theorem region_add (k n : Nat) : region (k + n) = regionOver (region k) n := by
  induction n with
  | zero => rfl
  | succ n ih =>
    show region (k + n + 1) = _
    rw [region, regionOver, ih]

/-- A module declaration, given how regions are read. -/
def moduleDeclarationOver (R : Scanner (List WrittenOperation)) : Scanner WrittenModule :=
  rule .moduleDeclaration do
    moduleKeyword
    gap
    let symbol ← optional symbol
    gap
    char '\x7b'
    gap
    let ops ← operations R
    char '\x7d'
    pure ⟨symbol, ops⟩

/-- A whole text, given how regions are read. -/
def moduleOver (R : Scanner (List WrittenOperation)) : Scanner WrittenModule :=
  rule .module do
    gap
    let m ← orElse (moduleDeclarationOver R) (WrittenModule.mk none <$> operations R)
    gap
    endOfInput
    pure m

/-- The grammar of a module is over the regions of its levels. -/
theorem module_eq (n : Nat) : module n = moduleOver (region n) := rfl

/-! ## Room for what is read -/

/-- A property of the levels that are left and of a text between phrases, with which no region
opens when no level is left, and which is kept by what is read. -/
structure Room (I : Nat → List Char → Prop) : Prop where
  closed : ∀ {s}, I 0 s → s.head? ≠ some '('
  opens : ∀ {n s}, I (n + 1) ('(' :: s) → I n s
  moves : ∀ {n s r}, (∀ d, Counts d d s r) → I n s → I n r
  passes : ∀ {n s r ops}, Operations n s r ops → I n s → I n r

/-- The count of parentheses does not complain. -/
theorem room_uncomplaining : Room fun n s =>
    n ≤ maxNesting ∧ ∃ place, tooDeep? .plain (maxNesting - n) place s = none where
  closed := by
    rintro s ⟨_, place, hnone⟩ hhead
    obtain ⟨cs, rfl⟩ : ∃ cs, s = '(' :: cs := List.head?_eq_some_iff.mp hhead
    exact absurd (lt_of_tooDeep?_open hnone) (Nat.lt_irrefl maxNesting)
  opens := by
    rintro n s ⟨hn, place, hnone⟩
    have hlevel : maxNesting - (n + 1) + 1 = maxNesting - n := by omega
    have hopen := counts_open (lt_of_tooDeep?_open hnone) s
    rw [hlevel] at hopen
    exact ⟨by omega, hopen.eq_none hnone⟩
  moves := by
    rintro n s r hcounts ⟨hn, place, hnone⟩
    exact ⟨hn, (hcounts _).eq_none hnone⟩
  passes := by
    rintro n s r ops hops ⟨hn, place, hnone⟩
    exact ⟨hn, (hops.counts (by omega)).eq_none hnone⟩

/-- There are at least as many levels as characters. -/
theorem room_short : Room fun n s => s.length ≤ n where
  closed := by
    intro s hs hhead
    obtain ⟨cs, rfl⟩ : ∃ cs, s = '(' :: cs := List.head?_eq_some_iff.mp hhead
    cases hs
  opens := Nat.le_of_succ_le_succ
  moves := fun hcounts hs => Nat.le_trans (hcounts 0).length_le hs
  passes := fun hops hs => Nat.le_trans hops.length_le hs

/-- What a gap reads is a gap. -/
theorem gap_of_read? {c d : Cursor} {u : Unit} (h : (gap c).read? = some (u, d)) :
    Gap c.rest d.rest := by
  have hreads := (reads_gap c.rest).symm.trans (reads_of_read? h)
  obtain ⟨_, hrest⟩ := Prod.mk.inj (Option.some.inj hreads)
  exact hrest ▸ gap_afterGap c.rest

namespace Room

variable {I : Nat → List Char → Prop} {R : Scanner (List WrittenOperation)} {n : Nat} {c : Cursor}

section

variable (hI : Room I) (hR : ∀ c, I n c.rest → R c = region n c)
include hI hR

/-- An operation tries a region behind its head, and nowhere else. -/
theorem operation_eq (hc : I n c.rest) : operation R c = operation (region n) c := by
  -- name, attributes and gaps are read by the same scanners, and leave room for the region
  refine rule_congr (bind_congr rfl fun name c₁ hname => ?_) _
  refine bind_congr rfl fun _ c₂ hgap => ?_
  refine bind_congr rfl fun as c₃ hattributes => ?_
  refine bind_congr rfl fun _ c₄ hgap' => ?_
  have hhead : Head c.rest c₃.rest name (as.getD []) :=
    .mk (reads_identifier_iff.mp (reads_of_read? hname)) (gap_of_read? hgap)
      (optional_dictionary_sound (reads_of_read? hattributes))
  have hc₄ : I n c₄.rest :=
    hI.moves (fun d => (hhead.counts d).trans ((gap_of_read? hgap').counts d)) hc
  exact bind_congr (optional_congr (hR c₄ hc₄)) fun _ _ _ => rfl

/-- Operations in a row do not depend on levels that are not reached. -/
theorem operations_eq (hc : I n c.rest) : operations R c = operations (region n) c := by
  refine many_congr (I := fun c => I n c.rest) (fun d hd => ?_) (fun d op e hd hop => ?_) hc
  · exact bind_congr (operation_eq hI hR hd) fun _ _ _ => rfl
  · -- what the step read is a phrase, and phrases keep room
    have hread : (spacedOperation (region n)).reads d.rest = some (op, e.rest) :=
      reads_of_read? hop
    exact hI.passes ((spacedOperation_sound region_sound hread).2 .nil) hd

/-- A declaration does not depend on levels that are not reached. -/
theorem moduleDeclaration_eq (hc : I n c.rest) :
    moduleDeclarationOver R c = moduleDeclarationOver (region n) c := by
  refine rule_congr (bind_congr rfl fun _ c₁ hkey => ?_) _
  refine bind_congr rfl fun _ c₂ hgap => ?_
  refine bind_congr rfl fun name c₃ hsymbol => ?_
  refine bind_congr rfl fun _ c₄ hgap' => ?_
  refine bind_congr rfl fun _ c₅ hopen => ?_
  refine bind_congr rfl fun _ c₆ hin => ?_
  have hbrace : Gap c₃.rest ('\x7b' :: c₅.rest) := by
    rw [← reads_char_eq_some_iff.mp (reads_of_read? hopen)]
    exact gap_of_read? hgap'
  have hcounts (d : Nat) : Counts d d c.rest c₆.rest :=
    counts_declarationHead d (reads_moduleKeyword_iff.mp (reads_of_read? hkey))
      (gap_of_read? hgap) (optional_symbol_sound (reads_of_read? hsymbol)) hbrace
      (gap_of_read? hin)
  exact bind_congr (operations_eq hI hR (hI.moves hcounts hc)) fun _ _ _ => rfl

theorem module_eq (hc : I n c.rest) : moduleOver R c = module n c := by
  refine rule_congr (bind_congr rfl fun _ d hgap => ?_) _
  have hd : I n d.rest := hI.moves (fun k => (gap_of_read? hgap).counts k) hc
  have hboth := orElse_congr (moduleDeclaration_eq hI hR hd)
    (map_congr (operations_eq hI hR hd) (WrittenModule.mk none))
  exact bind_congr hboth fun _ _ _ => rfl

end

/-- Where there is room, it does not matter what is inside of all levels. -/
theorem regionOver_eq (hI : Room I)
    (hR : ∀ c : Cursor, c.rest.head? ≠ some '(' → R c = region 0 c) (n : Nat) {c : Cursor}
    (hc : I n c.rest) : regionOver R n c = region n c := by
  induction n generalizing c with
  | zero => exact hR c (hI.closed hc)
  | succ n ih =>
    -- if no parenthesis is read nothing follows, and behind one a level less is left
    refine rule_congr (bind_congr rfl fun _ c₁ hopen => ?_) _
    refine bind_congr rfl fun _ c₂ hgap => ?_
    rw [reads_char_eq_some_iff.mp (reads_of_read? hopen)] at hc
    have hc₂ : I n c₂.rest := hI.moves (fun d => (gap_of_read? hgap).counts d) (hI.opens hc)
    exact bind_congr (operations_eq hI (fun d hd => ih hd) hc₂) fun _ _ _ => rfl

/-- A module does not depend on levels that are not reached. -/
theorem moduleOver_eq (hI : Room I)
    (hR : ∀ c : Cursor, c.rest.head? ≠ some '(' → R c = region 0 c) (hc : I n c.rest) :
    moduleOver (regionOver R n) c = module n c :=
  module_eq hI (fun _ hd => regionOver_eq hI hR n hd) hc

end Room

/-- A region begins with a parenthesis, whatever its levels. -/
theorem region_eq_of_head?_ne (k : Nat) {c : Cursor} (h : c.rest.head? ≠ some '(') :
    region k c = region 0 c := by
  cases k with
  | zero => rfl
  | succ k =>
    have hchar : char '(' c = ⟨none, .none⟩ := by
      unfold char run
      dsimp only
      rw [if_neg h]
    have hbody (f : Unit → Scanner (List WrittenOperation)) :
        (char '(' >>= f) c = run (fun _ => none) c := by
      show Scanner.bind (char '(') f c = _
      unfold Scanner.bind
      rw [hchar]
      rfl
    exact rule_congr (hbody _) _

/-- Where there is room, more levels make no difference. -/
theorem Room.module_add {I : Nat → List Char → Prop} (hI : Room I) {n : Nat} {c : Cursor}
    (hc : I n c.rest) (k : Nat) : module (k + n) c = module n c := by
  rw [Generic.module_eq, region_add]
  exact hI.moduleOver_eq (fun d => region_eq_of_head?_ne k) hc

/-- With a level for each character the grammar has no bound. -/
theorem module_of_length_le {s : List Char} {n : Nat} (h : s.length ≤ n) :
    module n (.ofList s) = grammar s := by
  obtain ⟨k, rfl⟩ : ∃ k, n = k + s.length := ⟨n - s.length, by omega⟩
  exact room_short.module_add (Nat.le_refl s.length) k

/-! ## Counting parentheses and reading -/

/-- Where the count of parentheses does not complain, it does not matter what is inside of
`maxNesting` regions. -/
theorem moduleOver_of_overflow?_eq_none {s : List Char} (h : overflow? s = none)
    {R : Scanner (List WrittenOperation)}
    (hR : ∀ c : Cursor, c.rest.head? ≠ some '(' → R c = region 0 c) :
    moduleOver (regionOver R maxNesting) (.ofList s) = module maxNesting (.ofList s) :=
  room_uncomplaining.moduleOver_eq hR ⟨Nat.le_refl maxNesting, .start, h⟩

/-- Where no bracket is too deep, more levels do not matter. -/
theorem module_of_overflow?_eq_none {s : List Char} (h : overflow? s = none) {n : Nat}
    (hn : maxNesting ≤ n) : module n (.ofList s) = module maxNesting (.ofList s) := by
  obtain ⟨k, rfl⟩ : ∃ k, n = k + maxNesting := ⟨n - maxNesting, by omega⟩
  exact room_uncomplaining.module_add (c := .ofList s) ⟨Nat.le_refl maxNesting, .start, h⟩ k

/-- The count of parentheses and the grammar agree, for every text.

What the grammar alone makes of a text is the same for any number of levels that is not less
than the number of characters, and it reads what can be derived. A text that is derived is
refused by the count exactly if more than `maxNesting` regions are open at some point of the
derivation, and then at the place of the first parenthesis that opens one too many.

If the count does not refuse a text, which need not follow the grammar, then `maxNesting` levels
or more come to what the grammar alone comes to, attempts included. They do so even if any other
scanner stands for the regions inside of `maxNesting` others, provided that it does what a
region does where there is no opening parenthesis: so none is ever opened there, also not in a
reading that is given up later. -/
theorem nesting_agrees (s : List Char) :
    (∀ n, s.length ≤ n → module n (.ofList s) = grammar s) ∧
    (∀ w, (∃ c, (grammar s).read? = some (w, c)) ↔ ∃ l, Derivation s w l) ∧
    (∀ w l, Derivation s w l →
      (overflow? s = none ↔ ∀ o ∈ l, o.level ≤ maxNesting) ∧
      ∀ p, overflow? s = some p ↔ ∃ o, FirstTooDeep l o ∧ p = place s o.remaining) ∧
    (overflow? s = none →
      (∀ n, maxNesting ≤ n → module n (.ofList s) = grammar s) ∧
      ∀ R : Scanner (List WrittenOperation),
        (∀ c : Cursor, c.rest.head? ≠ some '(' → R c = region 0 c) →
          moduleOver (regionOver R maxNesting) (.ofList s) = grammar s) := by
  refine ⟨fun n => module_of_length_le, fun w => grammar_eq_some_iff,
    fun w l hderivation => hderivation.overflow?_iff, fun hnone => ?_⟩
  have hgrammar : module maxNesting (.ofList s) = grammar s := by
    rw [← module_of_overflow?_eq_none hnone (Nat.le_max_left maxNesting s.length)]
    exact module_of_length_le (Nat.le_max_right maxNesting s.length)
  refine ⟨fun n hn => ?_, fun R hR => ?_⟩
  · rw [module_of_overflow?_eq_none hnone hn, hgrammar]
  · rw [moduleOver_of_overflow?_eq_none hnone hR, hgrammar]

end IrOptimizer.Generic
