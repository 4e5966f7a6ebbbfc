import IrOptimizer.Generic.Printer
import IrOptimizer.Proofs.Generic.Readable

/-!
# Printing and reading again

A module that is printed and read comes back as it was, exactly if it is one that
can be read at all (`parse_print_eq_ok_iff`), and these are the modules the reader
answers (`exists_parse_eq_ok_iff`). In one direction the reader answers nothing
else. In the other the printed text is shown to have a reading, phrase by phrase:
what the printer makes of a name, a value, a dictionary, a list of operations is a
phrase of the language in front of whatever text may follow it.

What follows matters twice. A bare word has to end (`WordStops`), and the blanks at
the start of a line are no part of the operation on it; so the statement about
operations speaks of a gap before the phrase and of a gap behind it.
-/

namespace IrOptimizer

/-! ## Attributes as they are written -/

/-- An attribute as it is written. -/
def Attribute.written : Attribute → Generic.WrittenValue
  | bool b => .bool b
  | int n => .int n.toInt
  | str s => .str s

/-- What is written of an attribute says the attribute. -/
theorem Attribute.attribute_written (a : Attribute) : a.written.attribute = a := by
  cases a with
  | bool b => rfl
  | int n => exact congrArg Attribute.int (Int64.ofInt_toInt n)
  | str s => rfl

theorem Attribute.fits_written (a : Attribute) : a.written.Fits := by
  cases a with
  | bool b => trivial
  | int n => exact ⟨Int64.le_toInt n, Int64.toInt_lt n⟩
  | str s => trivial

namespace Generic

open Text Phrase

/-! ## Names and values -/

/-- The quoted form of a text stands for that text. -/
theorem body_encode (text : List Char) : Body (Quoted.encode text) text := by
  induction text with
  | nil => exact .nil
  | cons c cs ih =>
    rw [Quoted.encode, Quoted.escape]
    split
    · next h =>
      subst h
      exact .escape .quote ih
    · next hquote =>
      split
      · next h =>
        subst h
        exact .escape .backslash ih
      · next hslash =>
        split
        · next h =>
          subst h
          exact .escape .lineFeed ih
        · split
          · next h =>
            subst h
            exact .escape .tab ih
          · exact .plain hquote hslash ih

/-- A text in quotes is read as this text, whatever follows. -/
theorem quoted_quote (text : String) (r : List Char) :
    Phrase.Quoted ((Quoted.quote text).toList ++ r) r text := by
  have hmk := Phrase.Quoted.mk (r := r) (body_encode text.toList)
  rw [String.ofList_toList] at hmk
  simpa [Quoted.quote] using hmk

/-- A name is printed so that it is read as this name. -/
theorem name_printName (name : String) {r : List Char} (hr : WordStops r) :
    Name ((printName name).toList ++ r) r name := by
  unfold printName
  split
  · next h =>
    have hmk := Identifier.mk h hr
    rw [String.ofList_toList] at hmk
    exact .bare hmk
  · exact .quoted (quoted_quote name r)

/-- The digits of a number are read as this number. -/
theorem natural?_toDigits (n : Nat) : natural? (Nat.toDigits 10 n) = some n := by
  have hdigit : (Nat.toDigits 10 n).all isDigit = true :=
    List.all_eq_true.mpr fun c hc => Nat.isDigit_of_mem_toDigits (by decide) (by decide) hc
  have hvalue : digitsValue (Nat.toDigits 10 n) = n := Nat.ofDigitChars_ten_toDigits
  simp [natural?, hdigit, hvalue, Nat.toDigits_ne_nil]

/-- The decimal form of an integer reads as that integer. -/
theorem integer?_toString (n : Int) : integer? (toString n).toList = some n := by
  rw [Int.toString_eq_repr, Int.repr_eq_if]
  split
  · next hn =>
    -- the digits of a natural number have no sign in front
    have hhead : (Nat.toDigits 10 n.toNat).head? ≠ some '-' := by
      intro h
      have hdigit := Nat.isDigit_of_mem_toDigits (by decide) (by decide) (List.mem_of_mem_head? h)
      exact absurd hdigit (by decide)
    rw [Nat.toList_repr, integer?_digits hhead, natural?_toDigits, Option.map_some,
      Int.toNat_of_nonneg hn]
  · next hn =>
    rw [String.toList_append, Nat.toList_repr, show "-".toList = ['-'] from rfl,
      List.singleton_append, integer?_minus, natural?_toDigits, Option.map_some]
    exact congrArg some (by omega)

/-- A value is printed so that it is read as this value. -/
theorem value_print (a : Attribute) {r : List Char} (hr : WordStops r) :
    Value (a.print.toList ++ r) r a.written := by
  cases a with
  | bool b =>
    cases b with
    | true => exact .true hr
    | false => exact .false hr
  | int n => exact .int (integer?_toString n.toInt) hr
  | str s => exact .str (quoted_quote s r)

/-! ## Attributes -/

/-- What an entry says when it is printed. -/
def entryContents (e : String × Attribute) : String × WrittenValue := (e.1, e.2.written)

/-- An attribute is printed so that it is read as this attribute. -/
theorem entry_printEntry (e : String × Attribute) {r : List Char} (hr : WordStops r) :
    ∃ a, Entry ((printEntry e).toList ++ r) r a ∧ a.contents = entryContents e := by
  rw [printEntry, String.toList_append, String.toList_append, List.append_assoc,
    List.append_assoc]
  have hname := name_printName e.1 (r := " = ".toList ++ (e.2.print.toList ++ r)) rfl
  exact ⟨_, .mk hname (.blank rfl .nil) (.blank rfl .nil) (value_print e.2 hr), rfl⟩

/-- Entries with commas between them, in front of the brace that closes them. -/
theorem entries_intercalate {l : List (String × Attribute)} (hl : l ≠ []) (r : List Char) :
    ∃ as, Entries ((String.intercalate ", " (l.map printEntry)).toList ++ '\x7d' :: r)
      ('\x7d' :: r) as ∧ as.map (·.contents) = l.map entryContents := by
  induction l with
  | nil => exact absurd rfl hl
  | cons e l ih =>
    cases l with
    | nil =>
      obtain ⟨a, hentry, ha⟩ := entry_printEntry e (r := '\x7d' :: r) rfl
      refine ⟨[a], ?_, by simp [ha]⟩
      rw [List.map_cons, List.map_nil, String.intercalate_singleton]
      exact .last hentry .nil
    | cons e' l =>
      obtain ⟨as, hentries, has⟩ := ih (by simp)
      obtain ⟨a, hentry, ha⟩ := entry_printEntry e (r := ", ".toList ++
        ((String.intercalate ", " ((e' :: l).map printEntry)).toList ++ '\x7d' :: r)) rfl
      refine ⟨a :: as, ?_, by rw [List.map_cons, List.map_cons, ha, has]⟩
      rw [List.map_cons, List.map_cons, String.intercalate_cons_cons, String.toList_append,
        String.toList_append, List.append_assoc, List.append_assoc]
      exact .cons hentry .nil (.blank rfl .nil) hentries

/-- The printed entries of a dictionary are judged to be that dictionary. -/
theorem addAttributes_of_contents {d : Attributes} {as : List WrittenAttribute}
    (h : as.map (·.contents) = d.entries.map entryContents) :
    addAttributes .empty as = .ok d := by
  rw [addAttributes_empty_eq_ok_iff]
  constructor
  · rw [acceptable_iff_contents, h]
    refine ⟨by simpa [entryContents, Function.comp_def] using d.keys_nodup, ?_⟩
    intro c hc
    obtain ⟨e, _, rfl⟩ := List.mem_map.mp hc
    exact e.2.fits_written
  · rw [treeEntries_eq_contents, h, List.map_map]
    have hsame : d.entries.map ((fun c => (c.1, c.2.attribute)) ∘ entryContents) = d.entries := by
      refine (List.map_congr_left fun e _ => ?_).trans (List.map_id _)
      simp [entryContents, e.2.attribute_written]
    rw [hsame, d.ofList_entries]

/-- Attributes are printed so that they mean these attributes. -/
theorem attributeList_printAttributes (d : Attributes) (r : List Char) :
    ∃ s as, Gap ((printAttributes d).toList ++ r) s ∧ AttributeList s r as ∧
      addAttributes .empty as = .ok d := by
  unfold printAttributes
  split
  · next h =>
    have hentries : d.entries = [] := by simpa [Dictionary.isEmpty] using h
    exact ⟨r, [], .nil, .absent, addAttributes_of_contents (by rw [hentries]; rfl)⟩
  · next h =>
    have hentries : d.entries ≠ [] := by simpa [Dictionary.isEmpty] using h
    obtain ⟨as, hlist, has⟩ := entries_intercalate hentries r
    refine ⟨_, as, ?_, .braces (.listed .nil hlist), addAttributes_of_contents has⟩
    simpa using Gap.blank (s := '\x7b' :: _) (c := ' ') rfl .nil

/-- The head of an operation, in front of a character that is in no word. -/
theorem head_print {name : String} (hname : isIdentifier name.toList = true) (d : Attributes)
    {r : List Char} (hr : WordStops r) :
    ∃ as, Head (name.toList ++ ((printAttributes d).toList ++ r)) r name as ∧
      addAttributes .empty as = .ok d := by
  obtain ⟨s, as, hgap, hattrs, has⟩ := attributeList_printAttributes d r
  -- the name ends at the blank before the dictionary, or at what follows
  have hstops : WordStops ((printAttributes d).toList ++ r) := by
    unfold printAttributes
    split
    · exact hr
    · simp only [String.toList_append, List.append_assoc]
      rfl
  have hident := Identifier.mk hname hstops
  rw [String.ofList_toList] at hident
  exact ⟨as, .mk hident hgap hattrs, has⟩

/-! ## Operations -/

theorem gap_indent (depth : Nat) (s : List Char) : Gap ((indent depth).toList ++ s) s := by
  rw [indent, String.toList_ofList]
  generalize 2 * depth = n
  induction n with
  | zero => exact .nil
  | succ n ih => exact .blank rfl ih

theorem printRegion_of_ne_nil {region : List Operation} (h : region ≠ []) (depth : Nat) :
    printRegion depth region =
      " (\n" ++ printOperations (depth + 1) region ++ indent depth ++ ")" := by
  cases region with
  | nil => exact absurd rfl h
  | cons op ops => simp [printRegion, printOperations, String.append_assoc]

/-- The first operation and the others have meanings of their own. -/
theorem meanings_cons {name : String} {as : List WrittenAttribute}
    {children ws : List WrittenOperation} {attributes : Attributes} {region ops : List Operation}
    (has : addAttributes .empty as = .ok attributes) (hregion : meanings children = .ok region)
    (hops : meanings ws = .ok ops) :
    meanings (⟨name, as, children⟩ :: ws) = .ok (⟨name, attributes, region⟩ :: ops) := by
  rw [meanings, WrittenOperation.meaning, has, hregion, hops]
  rfl

mutual

/-- A printed operation in front of others, from which a gap may separate it. -/
theorem operation_print : ∀ (op : Operation) (depth : Nat) {n : Nat} {t s r : List Char}
    {ws : List WrittenOperation} {ops : List Operation}, isIdentifier op.name.toList = true →
    NamesReadable op.region → op.nesting ≤ n → Gap t s → Operations n s r ws →
    meanings ws = .ok ops →
    ∃ s' ws', Gap ((printOperation depth op).toList ++ t) s' ∧ Operations n s' r ws' ∧
      meanings ws' = .ok (op :: ops)
  | ⟨name, attributes, region⟩, depth, n, t, s, r, ws, ops, hname, hnames, hn, hgap, hws,
      hmean => by
    have hchildren := operations_print region (depth + 1) hnames (Nat.le_refl _)
      (gap_indent depth (')' :: '\n' :: t))
    by_cases hregion : region = []
    · subst hregion
      obtain ⟨as, hhead, has⟩ := head_print hname attributes (r := '\n' :: t) rfl
      refine ⟨_, _, ?_, .leaf hhead (.blank rfl hgap) hws, meanings_cons has rfl hmean⟩
      simpa [printOperation, printRegion] using gap_indent depth _
    · obtain ⟨s₁, children, hin, hread, hmeans⟩ := hchildren
      -- a region that holds something takes one level, and its children the others
      rw [Operation.nesting_of_ne_nil hregion] at hn
      obtain ⟨n, rfl⟩ : ∃ k, n = k + 1 := ⟨n - 1, by omega⟩
      obtain ⟨as, hhead, has⟩ := head_print hname attributes
        (r := ' ' :: '(' :: '\n' :: ((printOperations (depth + 1) region).toList ++
          ((indent depth).toList ++ ')' :: '\n' :: t))) rfl
      refine ⟨_, _, ?_, .node hhead (.blank rfl .nil) (.blank rfl hin)
        (hread.mono (Nat.le_of_succ_le_succ hn)) (.blank rfl hgap) hws,
        meanings_cons has hmeans hmean⟩
      simpa [printOperation, printRegion_of_ne_nil hregion] using gap_indent depth _

/-- Operations are printed so that they mean these operations. -/
theorem operations_print : ∀ (ops : List Operation) (depth : Nat) {n : Nat} {t r : List Char},
    NamesReadable ops → nestingList ops ≤ n → Gap t r →
    ∃ s ws, Gap ((printOperations depth ops).toList ++ t) s ∧ Operations n s r ws ∧
      meanings ws = .ok ops
  | [], depth, n, t, r, _, _, hgap => ⟨r, [], hgap, .nil, rfl⟩
  | op :: ops, depth, n, t, r, hnames, hn, hgap => by
    obtain ⟨hname, hregion, hrest⟩ := everyName_cons.mp hnames
    obtain ⟨hop, hops⟩ := Nat.max_le.mp hn
    obtain ⟨s, ws, hs, hws, hmean⟩ := operations_print ops depth hrest hops hgap
    rw [printOperations, String.toList_append, List.append_assoc]
    exact operation_print op depth hname hregion hop hs hws hmean

end

/-! ## Modules -/

/-- The name of a module is printed so that it is read as this name. -/
theorem symbol_printSymbol (name? : Option String) (r : List Char) :
    ∃ s, Symbol ((printSymbol name?).toList ++ '\x7b' :: r) s name? ∧ Gap s ('\x7b' :: r) := by
  cases name? with
  | none => exact ⟨_, .absent, .nil⟩
  | some name =>
    have hname := name_printName name (r := ' ' :: '\x7b' :: r) rfl
    refine ⟨' ' :: '\x7b' :: r, ?_, .blank rfl .nil⟩
    simpa [printSymbol] using Symbol.named hname

/-- What is printed of a module that can be read has a reading, and means the module. -/
theorem reading_print {m : Module} (h : m.Readable) :
    ∃ w, Reading maxNesting m.print.toList w ∧ w.meaning = .ok m := by
  obtain ⟨s, ws, hgap, hops, hmean⟩ := operations_print m.ops 1 (t := '\x7d' :: ['\n'])
    h.names h.nesting .nil
  obtain ⟨s', hsym, hopen⟩ := symbol_printSymbol m.name
    ('\n' :: ((printOperations 1 m.ops).toList ++ ['\x7d', '\n']))
  have hkey : Keyword m.print.toList (' ' :: ((printSymbol m.name).toList ++
      '\x7b' :: '\n' :: ((printOperations 1 m.ops).toList ++ ['\x7d', '\n']))) := by
    simpa [Module.print] using Keyword.mk (r := ' ' :: _) rfl
  have hend : Gap ['\n'] [] := .blank rfl .nil
  refine ⟨⟨m.name, ws⟩, .declared .nil ?_ hend, ?_⟩
  · exact .mk hkey (.blank rfl .nil) hsym hopen (.blank rfl hgap) hops
  · rw [WrittenModule.meaning, hmean]
    rfl

/-- What is printed of a readable module is read as this module. -/
theorem parse_print_of_readable {m : Module} (h : m.Readable) : parse m.print = .ok m :=
  parseChars_eq_ok_iff.mpr (reading_print h)

/-- The modules that the reader answers are those that can be read. -/
theorem exists_parse_eq_ok_iff {m : Module} : (∃ source, parse source = .ok m) ↔ m.Readable := by
  constructor
  · intro h
    obtain ⟨source, hsource⟩ := h
    exact readable_of_parse hsource
  · intro h
    exact ⟨m.print, parse_print_of_readable h⟩

/-- Printing and reading again gives back exactly the modules whose operations have
identifiers for names, at every depth, and in which no more than `maxNesting`
regions that hold something lie inside one another. -/
theorem parse_print_eq_ok_iff (m : Module) :
    parse m.print = .ok m ↔
      (∀ op ∈ m.preorder, isIdentifier op.name.toList = true) ∧ m.nesting ≤ maxNesting := by
  constructor
  · intro h
    obtain ⟨hnames, hnesting⟩ := readable_of_parse h
    exact ⟨hnames, hnesting⟩
  · intro h
    obtain ⟨hnames, hnesting⟩ := h
    exact parse_print_of_readable ⟨hnames, hnesting⟩

end Generic

end IrOptimizer
