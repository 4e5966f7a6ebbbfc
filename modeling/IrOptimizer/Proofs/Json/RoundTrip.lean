import IrOptimizer.Json.Decode
import IrOptimizer.Proofs.Json.Lexical
import IrOptimizer.Proofs.Json.Nesting
import IrOptimizer.Target

/-!
# Printing as JSON and reading again

A module that is printed as JSON and read comes back as it was, exactly if no more than 127
brackets of its text are open at once; any other module is refused (`parseModule_render`).

The reader follows the text and not the document, so first the printed text is cut into the
pieces that it stops at: fields and items, each with what leads to it (`fieldText`,
`itemsText`). What then has to be shown of a reader is the same at every level, and is
`ReadsBack`: wherever a document is printed, the reader answers what it was made from if the
depth of the document is in bounds, and refuses it as malformed if not. This is shown for
values, attributes and regions in turn, and goes up the tree of operations by induction
(`readsBack_operation`). The bound is met first where the text opens one bracket too many,
so no other problem can come before it.
-/

namespace IrOptimizer.Json

open Text Reader

variable {α σ : Type}

/-! ## Printed pieces -/

theorem blanks_newline (indent : Nat) : Blanks (newline indent).toList := by
  intro c hc
  rw [newline, String.toList_ofList] at hc
  rcases List.mem_cons.mp hc with rfl | hc
  · rfl
  · rw [List.eq_of_mem_replicate hc]
    rfl

/-- A field of an object as it is printed among others. -/
def fieldText (first : Bool) (indent : Nat) (key : String) (value : Json) : List Char :=
  lead first ++ ((newline indent).toList ++ ((quote key).toList ++
    (':' :: ' ' :: (value.pretty indent).toList)))

def fieldsText (first : Bool) (indent : Nat) : List (String × Json) → List Char
  | [] => []
  | (key, value) :: fields => fieldText first indent key value ++ fieldsText false indent fields

/-- The items of an array as they are printed. -/
def itemsText (first : Bool) (indent : Nat) : List Json → List Char
  | [] => []
  | item :: items =>
    lead first ++ ((newline indent).toList ++ ((item.pretty indent).toList ++
      itemsText false indent items))

theorem toList_prettyFields (indent : Nat) (fields : List (String × Json)) :
    (prettyFields indent fields).toList = fieldsText false indent fields := by
  induction fields with
  | nil => rfl
  | cons field fields ih =>
    obtain ⟨key, value⟩ := field
    simp [prettyFields, fieldsText, fieldText, lead, ih]

theorem toList_prettyItems (indent : Nat) (items : List Json) :
    (prettyItems indent items).toList = itemsText false indent items := by
  induction items with
  | nil => rfl
  | cons item items ih => simp [prettyItems, itemsText, lead, ih]

/-- The text of an object, in front of whatever follows it. -/
theorem toList_object (indent : Nat) {fields : List (String × Json)} (h : fields ≠ [])
    (rest : List Char) :
    ((object fields).pretty indent).toList ++ rest =
      '\x7b' :: (fieldsText true (indent + 1) fields ++
        ((newline indent).toList ++ '\x7d' :: rest)) := by
  cases fields with
  | nil => exact absurd rfl h
  | cons field fields =>
    obtain ⟨key, value⟩ := field
    simp [pretty, fieldsText, fieldText, lead, toList_prettyFields]

/-- The text of an array: only behind items its end is on a line of its own. -/
theorem exists_toList_array (indent : Nat) (items : List Json) (rest : List Char) :
    ∃ b, Blanks b ∧ ((array items).pretty indent).toList ++ rest =
      '[' :: (itemsText true (indent + 1) items ++ (b ++ ']' :: rest)) := by
  cases items with
  | nil => exact ⟨[], blanks_nil, by simp [pretty, itemsText]⟩
  | cons item items =>
    exact ⟨(newline indent).toList, blanks_newline indent, by
      simp [pretty, itemsText, lead, toList_prettyItems]⟩

theorem fieldsText_append (indent : Nat) (fields more : List (String × Json)) :
    fieldsText false indent (fields ++ more) =
      fieldsText false indent fields ++ fieldsText false indent more := by
  induction fields with
  | nil => rfl
  | cons field fields ih =>
    obtain ⟨key, value⟩ := field
    rw [List.cons_append, fieldsText, fieldsText, ih, List.append_assoc]

theorem endsValue_brace (rest : List Char) : EndsValue ('\x7d' :: rest) :=
  ⟨'\x7d', rest, rfl, by decide⟩

theorem endsValue_comma (more : List Char) : EndsValue (',' :: more) :=
  ⟨',', more, rfl, by decide⟩

/-- Behind a field come the others, or what comes behind the fields. -/
theorem endsValue_fieldsText {rest : List Char} (h : EndsValue rest) (indent : Nat)
    (fields : List (String × Json)) : EndsValue (fieldsText false indent fields ++ rest) := by
  cases fields with
  | nil => exact h
  | cons field fields => exact endsValue_comma _

theorem endsValue_itemsText {rest : List Char} (h : EndsValue rest) (indent : Nat)
    (items : List Json) : EndsValue (itemsText false indent items ++ rest) := by
  cases items with
  | nil => exact h
  | cons item items => exact endsValue_comma _

/-- A document begins with a character that is neither a blank nor the end of an array. -/
theorem exists_head_pretty (j : Json) (indent : Nat) :
    ∃ c cs, (j.pretty indent).toList = c :: cs ∧ isPlainBlank c = false ∧ c ≠ ']' := by
  cases j with
  | bool b =>
    cases b with
    | true =>
      rw [pretty]
      exact ⟨'t', _, rfl, rfl, by decide⟩
    | false =>
      rw [pretty]
      exact ⟨'f', _, rfl, rfl, by decide⟩
  | int n =>
    obtain ⟨c, cs, htext, hc⟩ := exists_head_toString n
    exact ⟨c, cs, htext, isPlainBlank_of_beginsNumber hc, ne_of_beginsNumber hc (by decide)⟩
  | str s => exact ⟨'"', _, String.toList_ofList, rfl, by decide⟩
  | array items =>
    obtain ⟨b, _, htext⟩ := exists_toList_array indent items []
    rw [List.append_nil] at htext
    exact ⟨'[', _, htext, rfl, by decide⟩
  | object fields =>
    by_cases h : fields = []
    · subst h
      rw [pretty]
      exact ⟨'\x7b', _, rfl, rfl, by decide⟩
    · have htext := toList_object indent h []
      rw [List.append_nil] at htext
      exact ⟨'\x7b', _, htext, rfl, by decide⟩

/-! ## Reading back -/

/-- A reader answers what a document was made from, in whatever place the document is
printed, if no more brackets lie inside one another than may be opened. -/
def ReadsBack (read : Nat → Reader α) (a : α) (j : Json) : Prop :=
  ∀ (levels indent : Nat) {b rest : List Char}, Blanks b → EndsValue rest →
    reads (read levels) (b ++ ((j.pretty indent).toList ++ rest)) =
      if j.depth ≤ levels then .ok (a, rest) else .error .malformed

/-- A string is read as it was printed. -/
theorem readsBack_string (s : String) : ReadsBack (fun _ => string) s (.str s) := by
  intro levels indent b rest hb _
  have hread := reads_stringHere_quote s rest
  obtain ⟨cs, hquote⟩ := exists_toList_quote s
  rw [pretty, depth, if_pos (Nat.zero_le levels)]
  rw [hquote, List.cons_append] at hread ⊢
  exact (reads_string hb _).trans hread

/-- A field that may come once, when it comes. -/
theorem reads_newField {read : Nat → Reader α} {a : α} {j : Json} (h : ReadsBack read a j)
    (levels indent : Nat) {rest : List Char} (hrest : EndsValue rest) :
    reads (newField none (read levels)) (':' :: ' ' :: ((j.pretty indent).toList ++ rest)) =
      if j.depth ≤ levels then .ok (some a, rest) else .error .malformed := by
  have hspace : Blanks [' '] := blanks_singleton rfl
  have hvalue : reads (read levels) (' ' :: ((j.pretty indent).toList ++ rest)) = _ :=
    h levels indent hspace hrest
  unfold newField
  rw [if_neg (by simp), reads_bind_of_ok (reads_colon _), reads_bind, hvalue]
  split <;> rfl

/-- Behind a field the others are read, if its value does not nest too deep. -/
theorem reads_fieldText {step : σ → String → Reader σ} {known known' : σ} {key : String}
    {value : Json} {levels indent : Nat} {rest : List Char} (first : Bool)
    (hstep : reads (step known key) (':' :: ' ' :: ((value.pretty indent).toList ++ rest)) =
      if value.depth ≤ levels then .ok (known', rest) else .error .malformed) :
    reads (fieldsFrom step first known) (fieldText first indent key value ++ rest) =
      if value.depth ≤ levels then reads (fieldsFrom step false known') rest
      else .error .malformed := by
  have hkey := reads_stringHere_quote key (':' :: ' ' :: (value.pretty indent).toList ++ rest)
  obtain ⟨cs, hquote⟩ := exists_toList_quote key
  have htext : fieldText first indent key value ++ rest =
      lead first ++ ((newline indent).toList ++
        '"' :: (cs ++ (':' :: ' ' :: (value.pretty indent).toList ++ rest))) := by
    unfold fieldText
    rw [hquote]
    simp only [List.append_assoc, List.cons_append]
  rw [hquote] at hkey
  rw [htext]
  split
  · next hdepth =>
    rw [if_pos hdepth] at hstep
    exact reads_fieldsFrom_of_ok (blanks_newline indent) first hkey hstep
  · next hdepth =>
    rw [if_neg hdepth] at hstep
    exact reads_fieldsFrom_of_error (blanks_newline indent) first hkey hstep

/-- The items of an array are read back, if none of them nests too deep. -/
theorem reads_itemsText {read : Nat → Reader α} {toJson : α → Json} {as : List α}
    (h : ∀ a ∈ as, ReadsBack read a (toJson a)) (levels indent : Nat) (first : Bool)
    {b : List Char} (hb : Blanks b) (rest : List Char) :
    reads (itemsFrom (read levels) first)
        (itemsText first indent (as.map toJson) ++ (b ++ ']' :: rest)) =
      if depthItems (as.map toJson) ≤ levels then .ok (as, ']' :: rest)
      else .error .malformed := by
  induction as generalizing first with
  | nil =>
    rw [List.map_nil, depthItems, if_pos (Nat.zero_le levels)]
    exact reads_itemsFrom_close hb _ first rest
  | cons a as ih =>
    obtain ⟨ha, has⟩ := List.forall_mem_cons.mp h
    -- an item is ended by the comma of the next one, or by the end of the array
    have hclose : EndsValue (']' :: rest) := ⟨']', rest, rfl, by decide⟩
    have hrest := endsValue_itemsText (endsValue_append hb hclose) indent (as.map toJson)
    have hitem := ha levels indent blanks_nil hrest
    obtain ⟨c, cs, hhead, hblank, hend⟩ := exists_head_pretty (toJson a) indent
    rw [List.map_cons, depthItems, itemsText]
    rw [hhead, List.nil_append, List.cons_append] at hitem
    rw [hhead]
    simp only [List.append_assoc, List.cons_append]
    by_cases hdepth : (toJson a).depth ≤ levels
    · rw [if_pos hdepth] at hitem
      rw [reads_itemsFrom_of_ok (blanks_newline indent) first hblank hend hitem, ih has false]
      simp only [Nat.max_le, hdepth, true_and]
      split <;> rfl
    · rw [if_neg hdepth] at hitem
      rw [reads_itemsFrom_of_error (blanks_newline indent) first hblank hend hitem,
        if_neg fun hle => hdepth (Nat.max_le.mp hle).1]

/-! ## Attributes -/

/-- Values are kept apart by their first character. -/
theorem readsBack_anyValue (a : Attribute) : ReadsBack anyValue (some a) a.toJson := by
  intro levels indent b rest hb hrest
  unfold anyValue
  cases a with
  | bool value =>
    rw [Attribute.toJson, depth, if_pos (Nat.zero_le levels)]
    cases value with
    | true =>
      rw [pretty]
      show reads _ (b ++ 't' :: ("rue".toList ++ rest)) = _
      rw [reads_bind_of_ok (reads_peek hb rfl _)]
      dsimp only
      rw [if_neg (by decide), if_pos rfl, reads_bind_of_ok (reads_keywordHere 't' "rue" rest)]
      rfl
    | false =>
      rw [pretty]
      show reads _ (b ++ 'f' :: ("alse".toList ++ rest)) = _
      rw [reads_bind_of_ok (reads_peek hb rfl _)]
      dsimp only
      rw [if_neg (by decide), if_neg (by decide), if_pos rfl,
        reads_bind_of_ok (reads_keywordHere 'f' "alse" rest)]
      rfl
  | int n =>
    rw [Attribute.toJson, pretty, depth, if_pos (Nat.zero_le levels)]
    have hnumber := reads_number n hrest
    have hfit : int64? n.toInt = some n := int64?_eq_some_iff.mpr rfl
    obtain ⟨c, cs, htext, hc⟩ := exists_head_toString n.toInt
    rw [htext, List.cons_append] at hnumber ⊢
    rw [reads_bind_of_ok (reads_peek hb (isPlainBlank_of_beginsNumber hc) _)]
    dsimp only
    rw [if_neg (ne_of_beginsNumber hc (by decide)), if_neg (ne_of_beginsNumber hc (by decide)),
      if_neg (ne_of_beginsNumber hc (by decide)), if_pos hc, reads_bind_of_ok hnumber]
    dsimp only
    rw [hfit]
    rfl
  | str s =>
    rw [Attribute.toJson, pretty, depth, if_pos (Nat.zero_le levels)]
    have hread := reads_stringHere_quote s rest
    obtain ⟨cs, hquote⟩ := exists_toList_quote s
    rw [hquote, List.cons_append] at hread ⊢
    rw [reads_bind_of_ok (reads_peek hb rfl _)]
    dsimp only
    rw [if_neg (by decide), if_neg (by decide), if_neg (by decide), if_neg (by decide),
      if_pos rfl, reads_bind_of_ok hread]
    rfl

theorem depth_attribute (a : Attribute) : a.toJson.depth = 0 := by
  cases a <;> rfl

/-- The value of an attribute is read as it was printed. -/
theorem readsBack_attributeValue (a : Attribute) : ReadsBack attributeValue a a.toJson := by
  intro levels indent b rest hb hrest
  have hany := readsBack_anyValue a levels indent hb hrest
  rw [depth_attribute, if_pos (Nat.zero_le levels)] at hany ⊢
  unfold attributeValue
  rw [reads_bind_of_ok hany]
  rfl

/-- The fields that attributes are printed as. -/
def entryFields (entries : List (String × Attribute)) : List (String × Json) :=
  entries.map fun (key, value) => (key, value.toJson)

theorem depthFields_entryFields (entries : List (String × Attribute)) :
    depthFields (entryFields entries) = 0 := by
  induction entries with
  | nil => rfl
  | cons entry entries ih =>
    have hvalue := depth_attribute entry.2
    show max entry.2.toJson.depth (depthFields (entryFields entries)) = 0
    omega

/-- Attributes are put into the dictionary in the order in which they are printed. -/
theorem reads_entryFields (levels indent : Nat) (first : Bool) (known : Attributes)
    (entries : List (String × Attribute)) {b : List Char} (hb : Blanks b) (rest : List Char) :
    reads (fieldsFrom (fun known key => do
        colon; return known.insert key (← attributeValue levels)) first known)
      (fieldsText first indent (entryFields entries) ++ (b ++ '\x7d' :: rest)) =
      .ok (entries.foldl (fun known e => known.insert e.1 e.2) known, '\x7d' :: rest) := by
  induction entries generalizing first known with
  | nil => exact reads_fieldsFrom_close hb _ first known rest
  | cons entry entries ih =>
    obtain ⟨key, value⟩ := entry
    have hend := endsValue_append hb (endsValue_brace rest)
    have hrest := endsValue_fieldsText hend indent (entryFields entries)
    have hdepth : value.toJson.depth ≤ levels := by
      rw [depth_attribute]
      exact Nat.zero_le levels
    have hspace : Blanks [' '] := blanks_singleton rfl
    have hvalue := readsBack_attributeValue value levels indent hspace hrest
    have hstep : reads (do colon; return known.insert key (← attributeValue levels))
        (':' :: ' ' :: ((value.toJson.pretty indent).toList ++
          (fieldsText false indent (entryFields entries) ++ (b ++ '\x7d' :: rest)))) =
        if value.toJson.depth ≤ levels then
          .ok (known.insert key value,
            fieldsText false indent (entryFields entries) ++ (b ++ '\x7d' :: rest))
        else .error .malformed := by
      rw [if_pos hdepth] at hvalue ⊢
      rw [reads_bind_of_ok (reads_colon _)]
      exact reads_bind_of_ok hvalue _
    show reads _ (fieldText first indent key value.toJson ++
      fieldsText false indent (entryFields entries) ++ (b ++ '\x7d' :: rest)) = _
    rw [List.append_assoc, reads_fieldText first hstep, if_pos hdepth]
    exact ih false _

/-- Attributes, which are printed only if there are any, take one bracket. -/
theorem readsBack_attributes {as : Attributes} (h : as.isEmpty = false) :
    ReadsBack attributes as (.object (entryFields as.entries)) := by
  intro levels indent b rest hb _
  have hfields : entryFields as.entries ≠ [] := by
    intro hnil
    rw [Dictionary.isEmpty, List.map_eq_nil_iff.mp hnil] at h
    cases h
  rw [toList_object indent hfields, depth, depthFields_entryFields]
  unfold attributes
  rw [reads_bind_of_ok (reads_peek hb rfl _), if_pos rfl]
  cases levels with
  | zero => rfl
  | succ levels =>
    have hread := reads_entryFields levels (indent + 1) true .empty as.entries
      (blanks_newline indent) rest
    rw [if_pos (Nat.le_add_left 1 levels)]
    unfold enter fields
    rw [reads_bind_of_ok (reads_skip '\x7b' _), reads_bind_of_ok hread]
    show Except.ok (Dictionary.ofList as.entries, rest) = _
    rw [Dictionary.ofList_entries]

/-! ## Operations -/

theorem operationsToJson_eq (ops : List Operation) :
    operationsToJson ops = ops.map Operation.toJson := by
  induction ops with
  | nil => rfl
  | cons op ops ih => rw [operationsToJson, ih, List.map_cons]

/-- The operations of a region are read back if each of them is. -/
theorem readsBack_region {ops : List Operation}
    (h : ∀ op ∈ ops, ReadsBack operation op op.toJson) :
    ReadsBack region ops (.array (operationsToJson ops)) := by
  intro levels indent b rest hb _
  obtain ⟨b', hb', htext⟩ := exists_toList_array indent (operationsToJson ops) rest
  rw [htext, depth]
  unfold region
  rw [reads_bind_of_ok (reads_peek hb rfl _)]
  cases levels with
  | zero => rfl -- the bracket of the array is one too many
  | succ levels =>
    have hitems := reads_itemsText h levels (indent + 1) true hb' rest
    rw [← operationsToJson_eq] at hitems
    unfold items
    show reads (skip 1 >>= _) _ = _
    rw [reads_bind_of_ok (reads_skip '[' _), reads_bind, hitems]
    simp only [Nat.add_le_add_iff_right]
    split
    · show reads (endArray >>= _) (']' :: rest) = _
      rw [reads_bind_of_ok (reads_endArray rest)]
      rfl
    · rfl

/-- How the fields of an operation are read, if so many brackets may be opened in them. -/
def operationStep (levels : Nat) : OperationFields → String → Reader OperationFields :=
  OperationFields.step (attributes levels) (region levels)

section

variable {levels indent : Nat} {f : OperationFields} {rest : List Char}

/-- The name of an operation comes first. -/
theorem reads_nameField (name : String) (hrest : EndsValue rest) :
    reads (fieldsFrom (operationStep levels) true ⟨none, none, none⟩)
        (fieldText true indent "name" (.str name) ++ rest) =
      reads (fieldsFrom (operationStep levels) false ⟨some name, none, none⟩) rest := by
  have hstep : reads (operationStep levels ⟨none, none, none⟩ "name")
      (':' :: ' ' :: (((str name).pretty indent).toList ++ rest)) =
        if (str name).depth ≤ 0 then .ok (⟨some name, none, none⟩, rest)
        else .error .malformed := by
    unfold operationStep OperationFields.step
    rw [if_pos rfl, reads_bind, reads_newField (readsBack_string name) 0 indent hrest]
    rfl
  exact (reads_fieldText true hstep).trans (if_pos (Nat.le_refl 0))

/-- What is said of attributes, which is nothing if there are none. -/
theorem reads_attributesField (as : Attributes) (hf : f.attributes = none)
    (hrest : EndsValue rest) :
    reads (fieldsFrom (operationStep levels) false f)
        (fieldsText false indent (attributesToJson as) ++ rest) =
      if depthFields (attributesToJson as) ≤ levels then
        reads (fieldsFrom (operationStep levels) false
          { f with attributes := if as.isEmpty then none else some as }) rest
      else .error .malformed := by
  unfold attributesToJson
  cases hempty : as.isEmpty with
  | true =>
    rw [if_pos rfl, depthFields, if_pos (Nat.zero_le levels), if_pos rfl, ← hf]
    rfl
  | false =>
    have hstep : reads (operationStep levels f "attributes")
        (':' :: ' ' :: (((object (entryFields as.entries)).pretty indent).toList ++ rest)) =
          if (object (entryFields as.entries)).depth ≤ levels then
            .ok ({ f with attributes := some as }, rest)
          else .error .malformed := by
      unfold operationStep OperationFields.step
      rw [if_neg (by decide), if_pos rfl, hf, reads_bind,
        reads_newField (readsBack_attributes hempty) levels indent hrest]
      split <;> rfl
    rw [if_neg Bool.false_ne_true, if_neg Bool.false_ne_true, depthFields, depthFields,
      Nat.max_zero, fieldsText, fieldsText, List.append_nil]
    exact reads_fieldText false hstep

/-- What is said of a region, which is nothing if it is empty. -/
theorem reads_regionField {region : List Operation}
    (h : ReadsBack Json.region region (.array (operationsToJson region)))
    (hf : f.region = none) (hrest : EndsValue rest) :
    reads (fieldsFrom (operationStep levels) false f)
        (fieldsText false indent (regionToJson region) ++ rest) =
      if depthFields (regionToJson region) ≤ levels then
        reads (fieldsFrom (operationStep levels) false
          { f with region := if region.isEmpty then none else some region }) rest
      else .error .malformed := by
  cases region with
  | nil =>
    rw [regionToJson, depthFields, if_pos (Nat.zero_le levels), List.isEmpty_nil, if_pos rfl, ← hf]
    rfl
  | cons op ops =>
    have hstep : reads (operationStep levels f "region")
        (':' :: ' ' :: (((array (operationsToJson (op :: ops))).pretty indent).toList ++ rest)) =
          if (array (operationsToJson (op :: ops))).depth ≤ levels then
            .ok ({ f with region := some (op :: ops) }, rest)
          else .error .malformed := by
      unfold operationStep OperationFields.step
      rw [if_neg (by decide), if_neg (by decide), if_pos rfl, hf, reads_bind,
        reads_newField h levels indent hrest]
      split <;> rfl
    rw [List.isEmpty_cons, if_neg Bool.false_ne_true, regionToJson, depthFields, depthFields,
      Nat.max_zero, fieldsText, fieldsText, List.append_nil]
    exact reads_fieldText false hstep

end

/-- The fields that an operation is printed as. -/
def operationEntries (op : Operation) : List (String × Json) :=
  ("name", .str op.name) :: (attributesToJson op.attributes ++ regionToJson op.region)

/-- The fields of an operation, with those left out that are empty. -/
def operationFound (op : Operation) : OperationFields where
  name := some op.name
  attributes := if op.attributes.isEmpty then none else some op.attributes
  region := if op.region.isEmpty then none else some op.region

theorem toJson_operation (op : Operation) : op.toJson = .object (operationEntries op) := by
  obtain ⟨name, as, region⟩ := op
  rw [Operation.toJson]
  rfl

/-- The fields of an operation are as deep as its attributes and its region. -/
theorem depthFields_operationEntries (op : Operation) :
    depthFields (operationEntries op) =
      max (depthFields (attributesToJson op.attributes)) (depthFields (regionToJson op.region)) := by
  rw [operationEntries, depthFields, depth, depthFields_append, Nat.zero_max]

/-- The fields of an operation are read back if its region is. -/
theorem reads_operationEntries {op : Operation}
    (h : ReadsBack region op.region (.array (operationsToJson op.region))) (levels indent : Nat)
    {b : List Char} (hb : Blanks b) (rest : List Char) :
    reads (fieldsFrom (operationStep levels) true ⟨none, none, none⟩)
        (fieldsText true indent (operationEntries op) ++ (b ++ '\x7d' :: rest)) =
      if depthFields (operationEntries op) ≤ levels then
        .ok (operationFound op, '\x7d' :: rest)
      else .error .malformed := by
  have hend := endsValue_append hb (endsValue_brace rest)
  have hregion := endsValue_fieldsText hend indent (regionToJson op.region)
  have hattributes := endsValue_fieldsText hregion indent (attributesToJson op.attributes)
  have hread := @reads_nameField levels indent _ op.name hattributes
  rw [reads_attributesField op.attributes rfl hregion, reads_regionField h rfl hend,
    reads_fieldsFrom_close hb] at hread
  rw [operationEntries, fieldsText, fieldsText_append, List.append_assoc, List.append_assoc, hread,
    ← operationEntries, depthFields_operationEntries]
  -- the attributes are the first that may nest too deep, and then the region
  by_cases hfirst : depthFields (attributesToJson op.attributes) ≤ levels
  · rw [if_pos hfirst]
    simp only [Nat.max_le, hfirst, true_and]
    rfl
  · rw [if_neg hfirst, if_neg fun hle => hfirst (Nat.max_le.mp hle).1]

/-- What is not said of an operation is empty. -/
theorem reads_finish (op : Operation) (s : List Char) :
    reads (operationFound op).finish s = .ok (op, s) := by
  obtain ⟨name, as, region⟩ := op
  have hattributes : (if as.isEmpty then none else some as).getD .empty = as := by
    cases hempty : as.isEmpty with
    | true => exact Dictionary.ext (List.isEmpty_iff.mp hempty).symm
    | false => rfl
  have hregion : (if region.isEmpty then none else some region).getD [] = region := by
    cases region <;> rfl
  show Except.ok (Operation.mk name ((if as.isEmpty then none else some as).getD .empty)
    ((if region.isEmpty then none else some region).getD []), s) = _
  rw [hattributes, hregion]

/-- An operation is read back if its region is. -/
theorem readsBack_operation_of_region {op : Operation}
    (h : ReadsBack region op.region (.array (operationsToJson op.region))) :
    ReadsBack operation op op.toJson := by
  intro levels indent b rest hb _
  have hfields : operationEntries op ≠ [] := List.cons_ne_nil _ _
  rw [toJson_operation, toList_object indent hfields, depth]
  unfold operation
  rw [reads_bind_of_ok (reads_peek hb rfl _)]
  cases levels with
  | zero => rfl
  | succ levels =>
    have hread := reads_operationEntries h levels (indent + 1) (blanks_newline indent) rest
    show reads (skip 1 >>= _) _ = _
    rw [reads_bind_of_ok (reads_skip '\x7b' _)]
    unfold operationFields
    rw [reads_bind]
    unfold operationStep at hread
    rw [hread]
    simp only [Nat.add_le_add_iff_right]
    split
    · exact reads_bind_of_ok (reads_finish op _) _
    · rfl

mutual

/-- Every operation is read back as far as its brackets may be opened. -/
theorem readsBack_operation : ∀ op : Operation, ReadsBack operation op op.toJson
  | ⟨_, _, region⟩ =>
    readsBack_operation_of_region (readsBack_region (readsBack_operations region))

/-- Operations are read as they were printed. -/
theorem readsBack_operations : ∀ ops : List Operation,
    ∀ op ∈ ops, ReadsBack operation op op.toJson
  | [] => List.forall_mem_nil _
  | op :: ops => List.forall_mem_cons.mpr ⟨readsBack_operation op, readsBack_operations ops⟩

end

/-! ## Modules -/

/-- The name of a module is read as it was printed. -/
theorem readsBack_moduleName (name : String) :
    ReadsBack (fun _ => moduleName) (some name) (.str name) := by
  intro levels indent b rest hb hrest
  have hstring := readsBack_string name levels indent blanks_nil hrest
  rw [depth, if_pos (Nat.zero_le levels)] at hstring ⊢
  obtain ⟨cs, hquote⟩ := exists_toList_quote name
  rw [pretty, hquote, List.cons_append] at hstring ⊢
  unfold moduleName
  rw [reads_bind_of_ok (reads_peek hb rfl _), if_neg (by decide)]
  exact reads_bind_of_ok hstring _

section

variable {levels indent : Nat} {f : ModuleFields} {rest : List Char}

theorem reads_moduleNameField (name : String) (hrest : EndsValue rest) :
    reads (fieldsFrom (ModuleFields.step levels) true ⟨none, none⟩)
        (fieldText true indent "name" (.str name) ++ rest) =
      reads (fieldsFrom (ModuleFields.step levels) false ⟨some (some name), none⟩) rest := by
  have hstep : reads (ModuleFields.step levels ⟨none, none⟩ "name")
      (':' :: ' ' :: (((str name).pretty indent).toList ++ rest)) =
        if (str name).depth ≤ 0 then .ok (⟨some (some name), none⟩, rest)
        else .error .malformed := by
    unfold ModuleFields.step
    rw [if_pos rfl, reads_bind, reads_newField (readsBack_moduleName name) 0 indent hrest]
    rfl
  exact (reads_fieldText true hstep).trans (if_pos (Nat.le_refl 0))

/-- The operations of a module come last. -/
theorem reads_opsField (first : Bool) (ops : List Operation) (hf : f.ops = none)
    (hrest : EndsValue rest) :
    reads (fieldsFrom (ModuleFields.step levels) first f)
        (fieldText first indent "ops" (.array (operationsToJson ops)) ++ rest) =
      if (array (operationsToJson ops)).depth ≤ levels then
        reads (fieldsFrom (ModuleFields.step levels) false { f with ops := some ops }) rest
      else .error .malformed := by
  have hops := readsBack_region (readsBack_operations ops)
  have hstep : reads (ModuleFields.step levels f "ops")
      (':' :: ' ' :: (((array (operationsToJson ops)).pretty indent).toList ++ rest)) =
        if (array (operationsToJson ops)).depth ≤ levels then
          .ok ({ f with ops := some ops }, rest)
        else .error .malformed := by
    unfold ModuleFields.step
    rw [if_neg (by decide), if_pos rfl, hf, reads_bind, reads_newField hops levels indent hrest]
    split <;> rfl
  exact reads_fieldText first hstep

end

/-- The fields that a module is printed as. -/
def moduleFields (m : Module) : List (String × Json) :=
  (m.name.toList.map fun name => ("name", .str name)) ++
    [("ops", .array (operationsToJson m.ops))]

/-- The fields of a module are as deep as its operations. -/
theorem depthFields_moduleFields (m : Module) :
    depthFields (moduleFields m) = (array (operationsToJson m.ops)).depth := by
  obtain ⟨name, ops⟩ := m
  cases name with
  | none => exact Nat.max_zero _
  | some name =>
    show max (str name).depth (max (array (operationsToJson ops)).depth 0) =
      (array (operationsToJson ops)).depth
    have hname : (str name).depth = 0 := rfl
    omega

/-- The fields of a module are read as they were printed, if their brackets are allowed. -/
theorem reads_moduleFields (m : Module) (levels indent : Nat) {b : List Char} (hb : Blanks b)
    (rest : List Char) :
    reads (fieldsFrom (ModuleFields.step levels) true ⟨none, none⟩)
        (fieldsText true indent (moduleFields m) ++ (b ++ '\x7d' :: rest)) =
      if (array (operationsToJson m.ops)).depth ≤ levels then
        .ok (⟨m.name.map some, some m.ops⟩, '\x7d' :: rest)
      else .error .malformed := by
  obtain ⟨name, ops⟩ := m
  have hend := endsValue_append hb (endsValue_brace rest)
  cases name with
  | none =>
    show reads _ (fieldText true indent "ops" (.array (operationsToJson ops)) ++ [] ++ _) = _
    rw [List.append_nil, reads_opsField true ops rfl hend, reads_fieldsFrom_close hb]
    rfl
  | some name =>
    have hops : EndsValue (fieldText false indent "ops" (.array (operationsToJson ops)) ++
        (b ++ '\x7d' :: rest)) := endsValue_comma _
    show reads _ (fieldText true indent "name" (.str name) ++
      (fieldText false indent "ops" (.array (operationsToJson ops)) ++ []) ++ _) = _
    rw [List.append_nil, List.append_assoc, reads_moduleNameField name hops,
      reads_opsField false ops rfl hend, reads_fieldsFrom_close hb]
    rfl

/-- A module is read as it was printed. -/
theorem readsBack_module (m : Module) : ReadsBack module m m.toJson := by
  intro levels indent b rest hb _
  have hfields : moduleFields m ≠ [] := by simp [moduleFields]
  show reads _ (b ++ (((object (moduleFields m)).pretty indent).toList ++ rest)) =
    if (object (moduleFields m)).depth ≤ levels then _ else _
  rw [toList_object indent hfields, depth, depthFields_moduleFields]
  unfold module
  rw [reads_bind_of_ok (reads_peek hb rfl _)]
  cases levels with
  | zero => rfl
  | succ levels =>
    have hread := reads_moduleFields m levels (indent + 1) (blanks_newline indent) rest
    show reads (skip 1 >>= _) _ = _
    rw [reads_bind_of_ok (reads_skip '\x7b' _)]
    unfold fields
    rw [reads_bind, reads_bind, hread]
    simp only [Nat.add_le_add_iff_right]
    split
    · obtain ⟨name, ops⟩ := m
      cases name <;> rfl
    · rfl

theorem parseModule_of_ok {text : String} {m : Module} {rest : List Char}
    (h : reads (module maxLevels) text.toList = .ok (m, rest)) (hrest : Blanks rest) :
    parseModule text = .ok m := by
  have hend := reads_peek_end hrest
  unfold parseModule
  rw [reads] at h
  cases hm : module maxLevels (.ofList text.toList) with
  | error e =>
    rw [hm] at h
    cases h
  | ok found =>
    obtain ⟨m', c⟩ := found
    rw [hm] at h
    cases h
    rw [reads_rest] at hend
    cases hpeek : peek c with
    | error e =>
      rw [hpeek] at hend
      cases hend
    | ok found =>
      obtain ⟨next, d⟩ := found
      rw [hpeek] at hend
      have hnext : next = none := congrArg Prod.fst (Except.ok.inj hend)
      subst hnext
      simp only [bind, Except.bind, hpeek]
      rfl

theorem parseModule_of_error {text : String} {e : Problem}
    (h : reads (module maxLevels) text.toList = .error e) : parseModule text = .error e := by
  unfold parseModule
  rw [reads] at h
  cases hm : module maxLevels (.ofList text.toList) with
  | error e' =>
    rw [hm] at h
    cases h
    rfl
  | ok found =>
    rw [hm] at h
    cases h

/-- Behind the document that a module is printed as a line feed is left. -/
theorem reads_render (m : Module) :
    reads (module maxLevels) (Target.json.render m).toList =
      if m.toJson.depth ≤ 127 then .ok (m, ['\n']) else .error .malformed := by
  have hmodule := readsBack_module m maxLevels 0 blanks_nil ⟨'\n', [], rfl, by decide⟩
  rw [Target.render, String.toList_append]
  exact hmodule

/-- A module that is not too deep is read as it was printed. -/
theorem parseModule_render_of_depth {m : Module} (h : m.toJson.depth ≤ 127) :
    parseModule (Target.json.render m) = .ok m := by
  have hread := reads_render m
  rw [if_pos h] at hread
  exact parseModule_of_ok hread (blanks_singleton rfl)

/-- Printing a module as JSON and reading it again gives back exactly the modules whose text
has no more than `maxLevels` brackets open at once. Any other module is refused as no
well-formed document; never is another module read. -/
theorem parseModule_render (m : Module) :
    (parseModule (Target.json.render m) = .ok m ↔
      bracketDepth (Target.json.render m) ≤ 127) ∧
    (127 < bracketDepth (Target.json.render m) →
      parseModule (Target.json.render m) = .error .malformed) := by
  have hdepth : bracketDepth (Target.json.render m) = m.toJson.depth := bracketDepth_pretty _ 0
  rw [hdepth]
  by_cases h : m.toJson.depth ≤ 127
  · exact ⟨iff_of_true (parseModule_render_of_depth h) h, fun hlt => absurd h (Nat.not_le.mpr hlt)⟩
  · have hread := reads_render m
    rw [if_neg h] at hread
    have herror := parseModule_of_error hread
    rw [herror]
    exact ⟨iff_of_false (fun hok => nomatch hok) h, fun _ => rfl⟩

end IrOptimizer.Json
