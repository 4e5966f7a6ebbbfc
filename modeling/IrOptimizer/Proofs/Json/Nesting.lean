import IrOptimizer.Proofs.Generic.RoundTrip
import IrOptimizer.Json.Document

/-!
# How deep documents nest

The depth of a document can be seen in its text: it is the largest number of brackets that
are open at once (`bracketDepth_pretty`). Brackets inside strings do not count, so the text is
read in zones, like the reader does that finds regions nested too deep in the generic form.

`Nests k text` says what a piece of a text contributes, wherever it stands: it is read
outside of strings, closes what it opens, and opens up to `k` brackets meanwhile. Pieces one
behind the other nest as deep as the deeper one, and a bracket around them adds one.
-/

namespace IrOptimizer.Json

open Text

/-! ## Depth of documents and texts -/

mutual

/-- How many arrays and objects lie inside one another. -/
def depth : Json → Nat
  | bool _ | int _ | str _ => 0
  | array items => depthItems items + 1
  | object fields => depthFields fields + 1

def depthItems : List Json → Nat
  | [] => 0
  | item :: items => max item.depth (depthItems items)

def depthFields : List (String × Json) → Nat
  | [] => 0
  | (_, value) :: fields => max value.depth (depthFields fields)

end

/-- Of two lists of fields the deeper counts. -/
theorem depthFields_append (first second : List (String × Json)) :
    depthFields (first ++ second) = max (depthFields first) (depthFields second) := by
  induction first with
  | nil => exact (Nat.zero_max _).symm
  | cons field fields ih =>
    rw [List.cons_append, depthFields, depthFields, ih, Nat.max_assoc]

/-- What a character is part of. -/
inductive Zone where
  | plain
  | string
  /-- Behind a backslash in a string. -/
  | escape

/-- The largest number of brackets that are open at once, where `opened` of them are open
before the text. -/
def deepest : Zone → Nat → List Char → Nat
  | _, opened, [] => opened
  | .plain, opened, c :: cs =>
    if c = '"' then deepest .string opened cs
    else if c = '[' || c = '\x7b' then deepest .plain (opened + 1) cs
    else if c = ']' || c = '\x7d' then max opened (deepest .plain (opened - 1) cs)
    else deepest .plain opened cs
  | .string, opened, c :: cs =>
    if c = '"' then deepest .plain opened cs
    else if c = '\\' then deepest .escape opened cs
    else deepest .string opened cs
  | .escape, opened, _ :: cs => deepest .string opened cs

/-- How deep the brackets of a text nest. -/
def bracketDepth (text : String) : Nat := deepest .plain 0 text.toList

/-- Brackets that are open count. -/
theorem le_deepest (zone : Zone) (opened : Nat) (text : List Char) :
    opened ≤ deepest zone opened text := by
  induction text generalizing zone opened with
  | nil => cases zone <;> exact Nat.le_refl opened
  | cons c cs ih =>
    cases zone with
    | plain =>
      unfold deepest
      split
      · exact ih .string opened
      split
      · exact Nat.le_of_succ_le (ih .plain (opened + 1))
      split
      · exact Nat.le_max_left opened _
      · exact ih .plain opened
    | string =>
      unfold deepest
      split
      · exact ih .plain opened
      split
      · exact ih .escape opened
      · exact ih .string opened
    | escape => exact ih .string opened

/-! ## Pieces of a text -/

/-- Read outside of strings, the text closes what it opens, and has up to `k` brackets of its
own open at once. -/
def Nests (k : Nat) (text : String) : Prop :=
  ∀ opened rest,
    deepest .plain opened (text.toList ++ rest) = max (opened + k) (deepest .plain opened rest)

theorem nests_of_eq {text : String} (h : ∀ opened rest,
    deepest .plain opened (text.toList ++ rest) = deepest .plain opened rest) : Nests 0 text := by
  intro opened rest
  rw [h, Nat.add_zero, Nat.max_eq_right (le_deepest .plain opened rest)]

/-- Of two texts in a row the deeper counts. -/
theorem Nests.append {k l : Nat} {first second : String} (hfirst : Nests k first)
    (hsecond : Nests l second) : Nests (max k l) (first ++ second) := by
  intro opened rest
  rw [String.toList_append, List.append_assoc, hfirst, hsecond]
  omega

/-- A bracket around a text. -/
theorem Nests.bracket {k : Nat} {inside : String} (h : Nests k inside) (opening closing : String)
    (hopening : ∀ opened rest,
      deepest .plain opened (opening.toList ++ rest) = deepest .plain (opened + 1) rest)
    (hclosing : ∀ opened rest, deepest .plain (opened + 1) (closing.toList ++ rest) =
      max (opened + 1) (deepest .plain opened rest)) :
    Nests (k + 1) (opening ++ inside ++ closing) := by
  intro opened rest
  rw [String.toList_append, String.toList_append, List.append_assoc, List.append_assoc, hopening,
    h, hclosing]
  omega

/-- A character that neither begins a string nor is a bracket. -/
def isBracketless (c : Char) : Bool :=
  c != '"' && c != '[' && c != '\x7b' && c != ']' && c != '\x7d'

/-- A text without brackets and quotes opens none. -/
theorem nests_of_bracketless {text : String} (h : text.toList.all isBracketless = true) :
    Nests 0 text := by
  refine nests_of_eq fun opened rest => ?_
  have hall := List.all_eq_true.mp h
  clear h
  revert hall
  induction text.toList with
  | nil => exact fun _ => rfl
  | cons c cs ih =>
    intro hall
    obtain ⟨hc, hcs⟩ := List.forall_mem_cons.mp hall
    simp only [isBracketless, Bool.and_eq_true, bne_iff_ne, ne_eq] at hc
    obtain ⟨⟨⟨⟨hquote, hopen⟩, hbrace⟩, hclose⟩, hbrace'⟩ := hc
    rw [List.cons_append, deepest]
    simp only [hquote, hopen, hbrace, hclose, hbrace', decide_false, Bool.or_self, if_false,
      Bool.false_eq_true]
    exact ih hcs

theorem nests_newline (depth : Nat) : Nests 0 (newline depth) := by
  refine nests_of_bracketless (List.all_eq_true.mpr fun c hc => ?_)
  rw [newline, String.toList_ofList] at hc
  rcases List.mem_cons.mp hc with rfl | hc
  · rfl
  · rw [List.eq_of_mem_replicate hc]
    rfl

/-- A number opens no bracket. -/
theorem nests_toString (n : Int) : Nests 0 (toString n) := by
  refine nests_of_bracketless (List.all_eq_true.mpr fun c hc => ?_)
  have hchar := Generic.isIdentifierChar_of_integer? (Generic.integer?_toString n) c hc
  have hnot : ∀ d, isIdentifierChar d = false → (c != d) = true := by
    intro d hd
    rw [bne_iff_ne]
    rintro rfl
    rw [hchar] at hd
    cases hd
  unfold isBracketless
  rw [hnot '"' rfl, hnot '[' rfl, hnot '\x7b' rfl, hnot ']' rfl, hnot '\x7d' rfl]
  rfl

/-- What a character is escaped as does not end the string. -/
theorem deepest_escape (opened : Nat) (c : Char) (rest : List Char) :
    deepest .string opened (escape c ++ rest) = deepest .string opened rest := by
  have hstay : ∀ {d : Char} {ds : List Char}, d ≠ '"' → d ≠ '\\' →
      deepest .string opened (d :: ds) = deepest .string opened ds := by
    intro d ds hquote hslash
    rw [deepest, if_neg hquote, if_neg hslash]
  have hdigit : ∀ n < 16, hexDigit n ≠ '"' ∧ hexDigit n ≠ '\\' := by decide
  -- a backslash takes the next character with it; what follows that, or is not escaped, stays
  unfold escape
  split
  · rfl
  split
  · rfl
  split
  · rfl
  split
  · rfl
  split
  · rfl
  split
  · rfl
  split
  · rfl
  split
  · next hcontrol =>
    obtain ⟨hquote, hslash⟩ := hdigit (c.toNat / 16) (by omega)
    obtain ⟨hquote', hslash'⟩ := hdigit (c.toNat % 16) (by omega)
    exact (hstay hquote hslash).trans (hstay hquote' hslash')
  · next hquote hslash _ _ _ _ _ _ => exact hstay hquote hslash

/-- Brackets in a string are no brackets. -/
theorem nests_quote (s : String) : Nests 0 (quote s) := by
  refine nests_of_eq fun opened rest => ?_
  have hinside : ∀ cs : List Char,
      deepest .string opened (cs.flatMap escape ++ '"' :: rest) = deepest .plain opened rest := by
    intro cs
    induction cs with
    | nil => rfl
    | cons c cs ih => rw [List.flatMap_cons, List.append_assoc, deepest_escape, ih]
  have htext : (quote s).toList ++ rest = '"' :: (s.toList.flatMap escape ++ '"' :: rest) := by
    simp [quote]
  rw [htext]
  exact hinside s.toList

/-! ## Printed documents -/

theorem nests_comma : Nests 0 "," := nests_of_bracketless rfl

theorem nests_colon : Nests 0 ": " := nests_of_bracketless rfl

mutual

/-- A document is printed in a text that nests as deep as it does. -/
theorem nests_pretty : ∀ (j : Json) (indent : Nat), Nests j.depth (j.pretty indent)
  | bool true, _ => by
    rw [pretty]
    exact nests_of_bracketless rfl
  | bool false, _ => by
    rw [pretty]
    exact nests_of_bracketless rfl
  | int n, _ => nests_toString n
  | str s, _ => nests_quote s
  | array [], _ => by
    have hinside : Nests 0 "" := nests_of_bracketless rfl
    rw [pretty]
    exact hinside.bracket "[" "]" (fun _ _ => rfl) fun _ _ => rfl
  | array (item :: items), indent => by
    have hitem := (nests_newline (indent + 1)).append (nests_pretty item (indent + 1))
    have hinside := (hitem.append (nests_prettyItems items (indent + 1))).append
      (nests_newline indent)
    have hbracket := hinside.bracket "[" "]" (fun _ _ => rfl) fun _ _ => rfl
    have hdepth : (array (item :: items)).depth =
        max (max (max 0 item.depth) (depthItems items)) 0 + 1 := by
      rw [depth, depthItems]
      omega
    rw [hdepth, pretty]
    simpa only [String.append_assoc] using hbracket
  | object [], _ => by
    have hinside : Nests 0 "" := nests_of_bracketless rfl
    rw [pretty]
    exact hinside.bracket "\x7b" "\x7d" (fun _ _ => rfl) fun _ _ => rfl
  | object ((key, value) :: fields), indent => by
    have hkey := ((nests_newline (indent + 1)).append (nests_quote key)).append nests_colon
    have hvalue := hkey.append (nests_pretty value (indent + 1))
    have hinside := (hvalue.append (nests_prettyFields fields (indent + 1))).append
      (nests_newline indent)
    have hbracket := hinside.bracket "\x7b" "\x7d" (fun _ _ => rfl) fun _ _ => rfl
    have hdepth : (object ((key, value) :: fields)).depth =
        max (max (max (max (max 0 0) 0) value.depth) (depthFields fields)) 0 + 1 := by
      rw [depth, depthFields]
      omega
    rw [hdepth, pretty]
    simpa only [String.append_assoc] using hbracket

/-- Items are as deep in print as they are as values, and so are fields. -/
theorem nests_prettyItems : ∀ (items : List Json) (indent : Nat),
    Nests (depthItems items) (prettyItems indent items)
  | [], _ => nests_of_bracketless rfl
  | item :: items, indent => by
    have hitem := (nests_comma.append (nests_newline indent)).append (nests_pretty item indent)
    have hitems := hitem.append (nests_prettyItems items indent)
    rw [Nat.max_self, Nat.zero_max] at hitems
    exact hitems

theorem nests_prettyFields : ∀ (fields : List (String × Json)) (indent : Nat),
    Nests (depthFields fields) (prettyFields indent fields)
  | [], _ => nests_of_bracketless rfl
  | (key, value) :: fields, indent => by
    have hkey := ((nests_comma.append (nests_newline indent)).append (nests_quote key)).append
      nests_colon
    have hfields := (hkey.append (nests_pretty value indent)).append
      (nests_prettyFields fields indent)
    rw [Nat.max_self, Nat.max_self, Nat.max_self, Nat.zero_max] at hfields
    exact hfields

end

/-- The depth of a document can be seen in its text. -/
theorem bracketDepth_pretty (j : Json) (indent : Nat) :
    bracketDepth (j.pretty indent ++ "\n") = j.depth := by
  have hend : deepest .plain 0 "\n".toList = 0 := rfl
  unfold bracketDepth
  rw [String.toList_append, nests_pretty j indent 0, hend]
  omega

end IrOptimizer.Json
