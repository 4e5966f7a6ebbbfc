import IrOptimizer.Proofs.Generic.RoundTrip
import IrOptimizer.Proofs.Text.LineStart
import IrOptimizer.Target

/-!
# How the lines of rendered modules begin

Both forms of output quote whatever text a module holds, and escape the line feeds in it.
So only the printers begin lines, and never with a slash: the generic form begins them with
blanks, and then the name of an operation or a bracket, the JSON form with blanks and then
a value, a key or a bracket. What a JSON document prints to is followed on a line that has
begun, wherever it was put (`leads_pretty`).

For the generic form this takes names that are identifiers: the name of an operation is not
quoted, and the reader takes no other. The JSON form quotes names, too, so there is nothing
to ask of the module (`leads_render`).
-/

namespace IrOptimizer

open Text

/-! ## Quoted texts -/

/-- A line feed is escaped in quoted texts of the generic form. -/
theorem Text.Quoted.not_mem_escape (c : Char) : '\n' ∉ escape c := by
  unfold escape
  split
  · decide
  split
  · decide
  split
  · decide
  next hfeed =>
    split
    · decide
    · exact fun h => hfeed (List.mem_singleton.mp h).symm

/-- A quoted text is on one line, whatever it is. -/
theorem Text.Quoted.not_breaks_quote (text : String) : ¬ Breaks (quote text) := by
  have hencode : ∀ text : List Char, '\n' ∉ encode text := by
    intro text
    induction text with
    | nil => exact List.not_mem_nil
    | cons c cs ih => exact fun h => (List.mem_append.mp h).elim (not_mem_escape c) ih
  unfold Breaks quote
  rw [String.toList_ofList, List.cons_append]
  intro h
  rcases List.mem_cons.mp h with h | h
  · exact absurd h (by decide)
  · rcases List.mem_append.mp h with h | h
    · exact hencode _ h
    · exact absurd h (by decide)

/-- A line feed is escaped in strings of JSON. -/
theorem Json.not_mem_escape (c : Char) : '\n' ∉ escape c := by
  have hdigit : ∀ n < 16, '\n' ≠ hexDigit n := by decide
  unfold escape
  split
  · decide
  split
  · decide
  split
  · decide
  next hfeed =>
    split
    · decide
    split
    · decide
    split
    · decide
    split
    · decide
    split
    · next hcontrol =>
      have hhigh : '\n' ≠ hexDigit (c.toNat / 16) := hdigit _ (by omega)
      have hlow : '\n' ≠ hexDigit (c.toNat % 16) := hdigit _ (by omega)
      simp [hhigh, hlow]
    · exact fun h => hfeed (List.mem_singleton.mp h).symm

/-! ## JSON documents -/

namespace Json

/-- A quoted text begins a line with its quote, if nothing has begun it before. -/
theorem leads_quote (s : String) (begun : Bool) : Leads begun (quote s) true := by
  have hinside : '\n' ∉ s.toList.flatMap escape ++ ['"'] := by
    intro h
    rcases List.mem_append.mp h with h | h
    · obtain ⟨c, _, hc⟩ := List.mem_flatMap.mp h
      exact not_mem_escape c hc
    · exact absurd h (by decide)
  exact leads_of_head rfl hinside begun

/-- A new line is not begun by its blanks. -/
theorem leads_newline (depth : Nat) : Leads true (newline depth) false := by
  have hbreak : Leads true "\n" false := rfl
  have hnewline : newline depth = "\n" ++ String.ofList (List.replicate (2 * depth) ' ') := by
    rw [newline, ← List.singleton_append, String.ofList_append]
  rw [hnewline]
  exact hbreak.append (leads_replicate (2 * depth))

theorem leads_toString (n : Int) (begun : Bool) : Leads begun (toString n) true := by
  have hread := Generic.integer?_toString n
  have hne : (toString n).toList ≠ [] := by
    intro hnil
    rw [hnil] at hread
    cases hread
  have hleads := leads_of_identifierChars hne (Generic.isIdentifierChar_of_integer? hread) begun
  rwa [String.ofList_toList] at hleads

mutual

/-- Whatever a document is printed behind, its lines do not begin with a slash, and a text
behind it goes on with its last line. -/
theorem leads_pretty : ∀ (j : Json) (depth : Nat) (begun : Bool),
    Leads begun (j.pretty depth) true
  | bool true, _, begun => by
    rw [pretty]
    cases begun <;> exact rfl
  | bool false, _, begun => by
    rw [pretty]
    cases begun <;> exact rfl
  | int n, _, begun => leads_toString n begun
  | str s, _, begun => leads_quote s begun
  | array [], _, begun => by
    rw [pretty]
    cases begun <;> exact rfl
  | array (item :: items), depth, begun => by
    have hopen : Leads begun "[" true := by cases begun <;> exact rfl
    have hitem := (hopen.append (leads_newline (depth + 1))).append
      (leads_pretty item (depth + 1) false)
    have hitems := hitem.append (leads_prettyItems items (depth + 1))
    exact (hitems.append (leads_newline depth)).append rfl
  | object [], _, begun => by
    rw [pretty]
    cases begun <;> exact rfl
  | object ((key, value) :: fields), depth, begun => by
    have hopen : Leads begun "\x7b" true := by cases begun <;> exact rfl
    have hcolon : Leads true ": " true := rfl
    have hkey := ((hopen.append (leads_newline (depth + 1))).append (leads_quote key false)).append
      hcolon
    have hfields := (hkey.append (leads_pretty value (depth + 1) true)).append
      (leads_prettyFields fields (depth + 1))
    exact (hfields.append (leads_newline depth)).append rfl

/-- Each further item begins a line, behind the comma that ends the line before. -/
theorem leads_prettyItems : ∀ (items : List Json) (depth : Nat),
    Leads true (prettyItems depth items) true
  | [], _ => rfl
  | item :: items, depth => by
    have hcomma : Leads true "," true := rfl
    have hitem := (hcomma.append (leads_newline depth)).append (leads_pretty item depth false)
    exact hitem.append (leads_prettyItems items depth)

theorem leads_prettyFields : ∀ (fields : List (String × Json)) (depth : Nat),
    Leads true (prettyFields depth fields) true
  | [], _ => rfl
  | (key, value) :: fields, depth => by
    have hcomma : Leads true "," true := rfl
    have hcolon : Leads true ": " true := rfl
    have hkey := ((hcomma.append (leads_newline depth)).append (leads_quote key false)).append
      hcolon
    exact (hkey.append (leads_pretty value depth true)).append (leads_prettyFields fields depth)

end

end Json

/-! ## The generic form -/

namespace Generic

theorem leads_indent (depth : Nat) : Leads false (indent depth) false :=
  leads_replicate (2 * depth)

/-- A name that can be read begins a line, and not with a slash. -/
theorem leads_name {name : String} (h : isIdentifier name.toList = true) :
    Leads false name true := by
  have hne : name.toList ≠ [] := by
    intro hnil
    rw [hnil] at h
    cases h
  have hleads := leads_of_identifierChars hne (fun _ => isIdentifierChar_of_mem h) false
  rwa [String.ofList_toList] at hleads

/-- The key of an attribute is printed on one line. -/
theorem not_breaks_printName (name : String) : ¬ Breaks (printName name) := by
  unfold printName
  split
  · next h => exact fun hbreak => absurd (isIdentifierChar_of_mem h hbreak) (by decide)
  · exact Quoted.not_breaks_quote name

/-- A value is printed on one line. -/
theorem not_breaks_print (a : Attribute) : ¬ Breaks a.print := by
  cases a with
  | bool b => cases b <;> exact not_breaks rfl
  | str s => exact Quoted.not_breaks_quote s
  | int n =>
    intro hbreak
    have hchar := isIdentifierChar_of_integer? (integer?_toString n.toInt) _ hbreak
    exact absurd hchar (by decide)

/-- All attributes of an operation are printed on one line. -/
theorem not_breaks_printAttributes (attributes : Attributes) :
    ¬ Breaks (printAttributes attributes) := by
  have hentry : ∀ entry ∈ attributes.entries.map printEntry, ¬ Breaks entry := by
    intro entry hmem
    obtain ⟨⟨key, value⟩, _, rfl⟩ := List.mem_map.mp hmem
    unfold printEntry
    rw [breaks_append, breaks_append]
    exact not_or.mpr ⟨not_or.mpr ⟨not_breaks_printName key, not_breaks rfl⟩, not_breaks_print value⟩
  unfold printAttributes
  split
  · exact not_breaks rfl
  · rw [breaks_between rfl rfl]
    exact not_breaks_intercalate (not_breaks rfl) hentry

mutual

/-- An operation is printed in lines of its own. -/
theorem leads_printOperation : ∀ (op : Operation) (depth : Nat),
    isIdentifier op.name.toList = true → NamesReadable op.region →
      Leads false (printOperation depth op) false
  | ⟨name, attributes, region⟩, depth, hname, hnames => by
    have hhead := (leads_indent depth).append (leads_name hname)
    have hattributes := hhead.append (leads_of_not_breaks (not_breaks_printAttributes attributes))
    exact (hattributes.append (leads_printRegion region depth hnames)).append rfl

/-- A region opens behind its operation and closes on a line of its own. -/
theorem leads_printRegion : ∀ (region : List Operation) (depth : Nat), NamesReadable region →
    Leads true (printRegion depth region) true
  | [], _, _ => rfl
  | op :: ops, depth, hnames => by
    obtain ⟨hname, hregion, hrest⟩ := everyName_cons.mp hnames
    have hopen : Leads true " (\n" false := rfl
    have hfirst := hopen.append (leads_printOperation op (depth + 1) hname hregion)
    have hmore := hfirst.append (leads_printOperations ops (depth + 1) hrest)
    exact (hmore.append (leads_indent depth)).append rfl

/-- Every operation starts a line, and ends one. -/
theorem leads_printOperations : ∀ (ops : List Operation) (depth : Nat), NamesReadable ops →
    Leads false (printOperations depth ops) false
  | [], _, _ => rfl
  | op :: ops, depth, hnames => by
    obtain ⟨hname, hregion, hrest⟩ := everyName_cons.mp hnames
    exact (leads_printOperation op depth hname hregion).append
      (leads_printOperations ops depth hrest)

end

/-- No line of a module begins with a slash when it is printed. -/
theorem leads_print {m : Module} (h : NamesReadable m.ops) : Leads false m.print false := by
  have hkeyword : Leads false "module " true := rfl
  have hsymbol : Leads true (printSymbol m.name) true := by
    cases m.name with
    | none => rfl
    | some name =>
      refine leads_of_not_breaks ?_
      show ¬ Breaks ("@" ++ printName name ++ " ")
      rw [breaks_between rfl rfl]
      exact not_breaks_printName name
  have hopen : Leads true "\x7b\n" false := rfl
  have hdeclaration := (hkeyword.append hsymbol).append hopen
  exact (hdeclaration.append (leads_printOperations m.ops 1 h)).append rfl

end Generic

/-! ## Rendered modules -/

/-- The lines of a rendered module do not begin with a slash, and the last one is ended. -/
theorem Target.leads_render {m : Module} (h : NamesReadable m.ops) (target : Target) :
    Leads false (target.render m) false := by
  cases target with
  | ir => exact Generic.leads_print h
  | json => exact (Json.leads_pretty m.toJson 0 false).append rfl

/-- Both forms end with a line feed. -/
theorem Target.exists_render_eq (target : Target) (m : Module) :
    ∃ body, (target.render m).toList = body ++ ['\n'] := by
  cases target with
  | ir => exact ⟨_, String.toList_append.trans (List.append_assoc _ ['\x7d'] ['\n']).symm⟩
  | json => exact ⟨_, String.toList_append⟩

end IrOptimizer
