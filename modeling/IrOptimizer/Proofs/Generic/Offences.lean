import IrOptimizer.Proofs.Generic.Acceptance

/-!
# The first offence

A text that passes the nesting check and follows the grammar may still be refused for what is
written in its attributes. Here it is shown which attribute is blamed, for what, and where
(`parse_eq_error_iff_firstOffence`): the first one, in the order of the text, that may not stand
behind the attributes before it in its dictionary.

There are two halves. One is about trees: judging an operation is judging its dictionaries one
after the other (`meanings_eq_error_iff`), and within a dictionary an attribute is compared with
those before it (`addAttributes_empty_eq_error_iff`). The other is about the text: the
dictionaries of a tree are listed in the order in which their attributes stand there (`InOrder`),
and the places that the tree keeps are those of the attributes and of their values.
-/

namespace IrOptimizer.Generic

open Text Phrase

/-! ## One attribute -/

/-- An attribute may not stand behind others in a dictionary: its integer does not fit or, if its
value does, one of the others has its key. -/
inductive Offends (earlier : List WrittenAttribute) (a : WrittenAttribute) : Offence → Prop where
  | range {n} : a.value = .int n → ¬ a.value.Fits →
      Offends earlier a ⟨a.valuePlace, .integerOutOfRange⟩
  | repeated {b} : a.value.Fits → b ∈ earlier → b.key = a.key →
      Offends earlier a ⟨a.place, .duplicateAttribute a.key⟩

/-- An attribute alone offends only by an integer that is out of range. -/
theorem WrittenAttribute.meaning_eq_error_iff {a : WrittenAttribute} {o : Offence} :
    a.meaning = .error o ↔
      ∃ n, a.value = .int n ∧ ¬ a.value.Fits ∧ o = ⟨a.valuePlace, .integerOutOfRange⟩ := by
  obtain ⟨place, key, valuePlace, value⟩ := a
  cases value with
  | bool b => simp [meaning]
  | str s => simp [meaning]
  | int n =>
    by_cases hn : -9223372036854775808 ≤ n ∧ n < 9223372036854775808
    · simp [meaning, int64?, WrittenValue.Fits, hn]
    · simp [meaning, int64?, WrittenValue.Fits, hn, eq_comm]

/-- Adds one attribute to a dictionary. -/
def addAttribute (known : Attributes) (a : WrittenAttribute) : Except Offence Attributes := do
  let value ← a.meaning
  if known.contains a.key then .error ⟨a.place, .duplicateAttribute a.key⟩
  else .ok (known.insert a.key value)

/-- Attributes are added one after the other. -/
theorem addAttributes_eq_foldlM (known : Attributes) (as : List WrittenAttribute) :
    addAttributes known as = as.foldlM addAttribute known := by
  induction as generalizing known with
  | nil => rfl
  | cons a as ih =>
    rw [addAttributes, List.foldlM_cons, addAttribute]
    cases a.meaning with
    | error o => rfl
    | ok v =>
      show (if known.contains a.key then _ else _) = (if known.contains a.key then _ else _) >>= _
      split
      · rfl
      · exact ih _

/-- What is added has the key of the attribute. -/
theorem addAttribute_eq_ok {known d : Attributes} {a : WrittenAttribute}
    (h : addAttribute known a = .ok d) : ∃ v, d = known.insert a.key v := by
  obtain ⟨v, _, h⟩ := except_bind_eq_ok.mp h
  split at h
  · cases h
  · exact ⟨v, (Except.ok.inj h).symm⟩

/-- An attribute is refused if it may not stand behind attributes with the keys that there are. -/
theorem addAttribute_eq_error_iff {known : Attributes} {earlier : List WrittenAttribute}
    {a : WrittenAttribute} {o : Offence}
    (hknown : known.contains a.key = true ↔ ∃ b ∈ earlier, b.key = a.key) :
    addAttribute known a = .error o ↔ Offends earlier a o := by
  rw [addAttribute, except_bind_eq_error]
  constructor
  · intro h
    rcases h with h | ⟨v, hv, h⟩
    · obtain ⟨n, hn, hfits, rfl⟩ := WrittenAttribute.meaning_eq_error_iff.mp h
      exact .range hn hfits
    · have hfits := (WrittenAttribute.meaning_eq_ok_iff.mp hv).1
      split at h
      · next hkey =>
        obtain ⟨b, hb, hba⟩ := hknown.mp hkey
        obtain rfl := Except.error.inj h
        exact .repeated hfits hb hba
      · cases h
  · intro h
    cases h with
    | range hn hfits => exact .inl (WrittenAttribute.meaning_eq_error_iff.mpr ⟨_, hn, hfits, rfl⟩)
    | repeated hfits hb hba =>
      refine .inr ⟨_, WrittenAttribute.meaning_eq_ok_iff.mpr ⟨hfits, rfl⟩, ?_⟩
      rw [if_pos (hknown.mpr ⟨_, hb, hba⟩)]

/-! ## One dictionary -/

/-- Adding attributes adds their keys and no others. -/
theorem contains_of_foldlM_addAttribute {known d : Attributes} {as : List WrittenAttribute}
    (h : as.foldlM addAttribute known = .ok d) (key : String) :
    d.contains key = true ↔ known.contains key = true ∨ ∃ b ∈ as, b.key = key := by
  induction as generalizing known with
  | nil =>
    cases h
    simp
  | cons a as ih =>
    obtain ⟨mid, ha, hrest⟩ := except_bind_eq_ok.mp h
    obtain ⟨v, rfl⟩ := addAttribute_eq_ok ha
    rw [ih hrest, Dictionary.contains_insert]
    simp only [Bool.or_eq_true, decide_eq_true_eq, List.mem_cons, exists_eq_or_imp, or_assoc,
      or_left_comm]

/-- A dictionary is refused at the first attribute that may not stand behind the others. -/
theorem addAttributes_empty_eq_error_iff {as : List WrittenAttribute} {o : Offence} :
    addAttributes .empty as = .error o ↔
      ∃ earlier a later, as = earlier ++ a :: later ∧ Acceptable earlier ∧ Offends earlier a o := by
  have hkeys : ∀ {earlier : List WrittenAttribute} {d : Attributes},
      earlier.foldlM addAttribute .empty = .ok d →
        ∀ key, d.contains key = true ↔ ∃ b ∈ earlier, b.key = key := by
    intro earlier d hd key
    rw [contains_of_foldlM_addAttribute hd key]
    exact or_iff_right Bool.false_ne_true
  rw [addAttributes_eq_foldlM, foldlM_eq_error_iff]
  constructor
  · intro h
    obtain ⟨earlier, a, later, d, rfl, hd, ha⟩ := h
    have hoffends := (addAttribute_eq_error_iff (hkeys hd a.key)).mp ha
    rw [← addAttributes_eq_foldlM, addAttributes_empty_eq_ok_iff] at hd
    exact ⟨earlier, a, later, rfl, hd.1, hoffends⟩
  · intro h
    obtain ⟨earlier, a, later, rfl, hearlier, hoffends⟩ := h
    have hd := addAttributes_empty_eq_ok_iff.mpr ⟨hearlier, rfl⟩
    rw [addAttributes_eq_foldlM] at hd
    exact ⟨earlier, a, later, _, rfl, hd, (addAttribute_eq_error_iff (hkeys hd a.key)).mpr hoffends⟩

/-! ## Whole modules -/

/-- An operation has a meaning if all attributes in it, region by region, can be added. -/
theorem WrittenOperation.exists_meaning_iff {op : WrittenOperation} :
    (∃ t, op.meaning = .ok t) ↔ ∃ ds, op.dictionaries.mapM (addAttributes .empty) = .ok ds := by
  rw [exists_mapM_eq_ok_iff]
  simp only [WrittenOperation.meaning_eq_ok_iff, addAttributes_empty_eq_ok_iff, exists_and_left,
    exists_eq', and_true]

mutual

/-- Judging an operation fails as judging its dictionaries one after the other does. -/
theorem WrittenOperation.meaning_eq_error_iff : ∀ {op : WrittenOperation} {o : Offence},
    op.meaning = .error o ↔ op.dictionaries.mapM (addAttributes .empty) = .error o
  | ⟨name, attributes, region⟩, o => by
    rw [WrittenOperation.meaning, WrittenOperation.dictionaries, List.mapM_cons]
    simp only [except_bind_eq_error, meanings_eq_error_iff, pure, Except.pure, reduceCtorEq,
      and_false, exists_false, or_false]

/-- Operations offend by the first offence in their attributes, in the order of the source. -/
theorem meanings_eq_error_iff : ∀ {ops : List WrittenOperation} {o : Offence},
    meanings ops = .error o ↔ (dictionariesOf ops).mapM (addAttributes .empty) = .error o
  | [], o => by
    rw [meanings, dictionariesOf, List.mapM_nil]
    exact ⟨nofun, nofun⟩
  | op :: ops, o => by
    rw [meanings, dictionariesOf, mapM_append_eq_error_iff, ← WrittenOperation.exists_meaning_iff]
    simp only [except_bind_eq_error, WrittenOperation.meaning_eq_error_iff, meanings_eq_error_iff,
      pure, Except.pure, reduceCtorEq, and_false, exists_false, or_false, exists_and_right]

end

/-- The first dictionary that is not acceptable tells the offence. -/
theorem WrittenModule.meaning_eq_error_iff {w : WrittenModule} {o : Offence} :
    w.meaning = .error o ↔
      ∃ before as after, w.dictionaries = before ++ as :: after ∧
        (∀ d ∈ before, Acceptable d) ∧ addAttributes .empty as = .error o := by
  have hstages : w.meaning = .error o ↔ w.dictionaries.mapM (addAttributes .empty) = .error o := by
    rw [meaning, except_bind_eq_error, meanings_eq_error_iff]
    refine or_iff_left fun h => ?_
    obtain ⟨_, _, hpure⟩ := h
    cases hpure
  rw [hstages]
  constructor
  · intro h
    obtain ⟨before, as, after, hsplit, hbefore, has⟩ := exists_of_mapM_eq_error h
    refine ⟨before, as, after, hsplit, fun d hd => ?_, has⟩
    obtain ⟨_, hok⟩ := hbefore d hd
    exact (addAttributes_empty_eq_ok_iff.mp hok).1
  · intro h
    obtain ⟨before, as, after, hsplit, hbefore, has⟩ := h
    rw [hsplit]
    refine mapM_eq_error_of_first (fun d hd => ?_) has
    exact ⟨_, addAttributes_empty_eq_ok_iff.mpr ⟨hbefore d hd, rfl⟩⟩

/-! ## Attributes in the text -/

/-- Attributes that stand one behind the other in a text, up to what is left of it. -/
inductive InOrder : List Char → List Char → List WrittenAttribute → Prop where
  | nil {s r} : r <:+ s → InOrder s r []
  | cons {s t t' r a as} : t <:+ s → Entry t t' a → InOrder t' r as → InOrder s r (a :: as)

namespace InOrder

theorem of_suffix {s s' r : List Char} {as : List WrittenAttribute} (h : InOrder s r as)
    (hs : s <:+ s') : InOrder s' r as := by
  cases h with
  | nil hr => exact .nil (hr.trans hs)
  | cons ht hentry hmore => exact .cons (ht.trans hs) hentry hmore

/-- What stands in order in two parts of a text stands in order in both together. -/
theorem append {s t r : List Char} {as bs : List WrittenAttribute} (h : InOrder s t as)
    (h' : InOrder t r bs) : InOrder s r (as ++ bs) := by
  induction h with
  | nil hsuffix => exact h'.of_suffix hsuffix
  | cons ht hentry _ ih => exact .cons ht hentry (ih h')

theorem to_suffix {s r r' : List Char} {as : List WrittenAttribute} (h : InOrder s r as)
    (hr : r' <:+ r) : InOrder s r' as := by
  have happend := h.append (.nil hr)
  rwa [List.append_nil] at happend

/-- Each attribute is written somewhere in the text. -/
theorem exists_entry {s r : List Char} {as : List WrittenAttribute} (h : InOrder s r as) :
    ∀ a ∈ as, ∃ t t', t <:+ s ∧ Entry t t' a := by
  induction h with
  | nil _ => exact List.forall_mem_nil _
  | @cons s t t' r a as ht hentry _ ih =>
    refine List.forall_mem_cons.mpr ⟨⟨t, t', ht, hentry⟩, fun b hb => ?_⟩
    obtain ⟨u, u', hu, hb⟩ := ih b hb
    exact ⟨u, u', hu.trans (hentry.suffix.trans ht), hb⟩

end InOrder

/-- Entries stand in the source in the order in which they are listed. -/
theorem Phrase.Entries.inOrder {s r : List Char} {as : List WrittenAttribute}
    (h : Entries s r as) : InOrder s r as := by
  induction h with
  | last hentry hgap => exact .cons List.suffix_rfl hentry (.nil hgap.suffix)
  | cons hentry hcomma hgap _ ih =>
    have hbehind := hgap.suffix.trans ((List.suffix_cons ..).trans hcomma.suffix)
    exact .cons List.suffix_rfl hentry (ih.of_suffix hbehind)

theorem Phrase.Braces.inOrder {s r : List Char} {as : List WrittenAttribute}
    (h : Braces s r as) : InOrder s r as := by
  cases h with
  | empty hgap => exact .nil (((List.suffix_cons ..).trans hgap.suffix).trans (List.suffix_cons ..))
  | listed hgap hentries =>
    exact (hentries.inOrder.to_suffix (List.suffix_cons ..)).of_suffix
      (hgap.suffix.trans (List.suffix_cons ..))

/-- The attributes of an operation stand in order in its head. -/
theorem Phrase.Head.inOrder {s r : List Char} {name : String} {as : List WrittenAttribute}
    (h : Head s r name as) : InOrder s r as := by
  obtain ⟨hname, hgap, hattributes⟩ := h
  have hbehind := hgap.suffix.trans hname.suffix
  cases hattributes with
  | absent => exact .nil hbehind
  | braces hbraces => exact hbraces.inOrder.of_suffix hbehind

/-- The dictionaries of operations are listed in the order of the text. -/
theorem Phrase.Operations.inOrder {n : Nat} {s r : List Char} {ops : List WrittenOperation}
    (h : Operations n s r ops) : InOrder s r (dictionariesOf ops).flatten := by
  induction h with
  | nil => exact .nil List.suffix_rfl
  | leaf hhead hgap _ ih =>
    exact hhead.inOrder.append (ih.of_suffix hgap.suffix)
  | node hhead hopen hin _ hout _ ihc ih =>
    rw [dictionariesOf, WrittenOperation.dictionaries, List.cons_append, List.flatten_cons,
      List.flatten_append]
    -- the attributes of the head, then those of the region, then those behind it
    have hregion := (ihc.of_suffix hin.suffix).of_suffix ((List.suffix_cons ..).trans hopen.suffix)
    exact hhead.inOrder.append ((hregion.to_suffix (List.suffix_cons ..)).append
      (ih.of_suffix hout.suffix))

/-- All attributes of a module stand in order, those of an operation before those inside it. -/
theorem Phrase.Reading.inOrder {n : Nat} {s : List Char} {w : WrittenModule}
    (h : Reading n s w) : InOrder s [] w.dictionaries.flatten := by
  cases h with
  | declared hgap hdecl _ =>
    obtain ⟨hkey, hgap', hsym, hopen, hin, hops⟩ := hdecl
    have hname := hsym.suffix.trans (hgap'.suffix.trans (hkey.suffix.trans hgap.suffix))
    have hbrace := hin.suffix.trans ((List.suffix_cons ..).trans (hopen.suffix.trans hname))
    exact (hops.inOrder.to_suffix (List.nil_suffix ..)).of_suffix hbrace
  | bare _ hgap hops _ =>
    exact (hops.inOrder.to_suffix (List.nil_suffix ..)).of_suffix hgap.suffix

/-! ## Errors -/

/-- The error that blames an attribute of a text which may not stand behind others in its
dictionary. An integer that does not fit is blamed at its own place, a key that is there already
at the place of the attribute. -/
inductive Blames (text : List Char) (earlier : List WrittenAttribute) (a : WrittenAttribute) :
    SyntaxError → Prop where
  | range {before s r n} : text = before ++ s → s.length = a.valuePlace → Value s r a.value →
      a.value = .int n → ¬ a.value.Fits → Blames text earlier a ⟨.after before, .integerOutOfRange⟩
  | repeated {before s r b} : text = before ++ s → Entry s r a → a.value.Fits → b ∈ earlier →
      b.key = a.key → Blames text earlier a ⟨.after before, .duplicateAttribute a.key⟩

/-- The error that blames the first attribute, in the order of the text, which may not stand
behind those before it in its dictionary. -/
def FirstOffence (text : List Char) (w : WrittenModule) (e : SyntaxError) : Prop :=
  ∃ before earlier a later after, w.dictionaries = before ++ (earlier ++ a :: later) :: after ∧
    (∀ d ∈ before, Acceptable d) ∧ Acceptable earlier ∧ Blames text earlier a e

/-- To blame an attribute is to tell its offence at its place. -/
theorem blames_iff {text t t' : List Char} {earlier : List WrittenAttribute}
    {a : WrittenAttribute} {e : SyntaxError} (ht : t <:+ text) (hentry : Entry t t' a) :
    Blames text earlier a e ↔ ∃ o, Offends earlier a o ∧ e = ⟨place text o.remaining, o.problem⟩ := by
  constructor
  · intro h
    cases h with
    | range htext hs _ hn hfits =>
      refine ⟨_, .range hn hfits, ?_⟩
      rw [← hs, htext, place_append]
    | repeated htext hentry' hfits hb hkey =>
      refine ⟨_, .repeated hfits hb hkey, ?_⟩
      rw [hentry'.exists_value.1, htext, place_append]
  · intro h
    obtain ⟨o, hoffends, rfl⟩ := h
    cases hoffends with
    | range hn hfits =>
      obtain ⟨_, v, hv, hplace, hvalue⟩ := hentry.exists_value
      obtain ⟨before, rfl⟩ := hv.trans ht
      rw [← hplace, place_append]
      exact .range rfl hplace hvalue hn hfits
    | repeated hfits hb hkey =>
      obtain ⟨before, rfl⟩ := ht
      rw [hentry.exists_value.1, place_append]
      exact .repeated rfl hentry hfits hb hkey

/-- Behind the grammar an error is an offence, told by its place. -/
theorem parse_eq_error_iff_meaning {source : String} {w : WrittenModule}
    (hcount : overflow? source.toList = none) (hgrammar : written maxNesting source.toList = .ok w)
    {e : SyntaxError} :
    parse source = .error e ↔
      ∃ o, w.meaning = .error o ∧ e = ⟨place source.toList o.remaining, o.problem⟩ := by
  rw [parse, parseChars, hcount]
  constructor
  · intro h
    rcases except_bind_eq_error.mp h with hw | ⟨v, hv, h⟩
    · cases hgrammar.symm.trans hw
    · obtain rfl := Except.ok.inj (hgrammar.symm.trans hv)
      cases hmeaning : w.meaning with
      | ok m =>
        rw [hmeaning] at h
        cases h
      | error o =>
        rw [hmeaning] at h
        exact ⟨o, rfl, (Except.error.inj h).symm⟩
  · intro h
    obtain ⟨o, ho, rfl⟩ := h
    refine except_bind_eq_error.mpr (.inr ⟨w, hgrammar, ?_⟩)
    rw [ho]

/-- What the grammar reads of a source that is not too deep is a reading. -/
theorem reading_of_written {source : String} {w : WrittenModule}
    (hcount : overflow? source.toList = none) (hgrammar : written maxNesting source.toList = .ok w) :
    Reading maxNesting source.toList w := by
  obtain ⟨r, hread⟩ := written_eq_ok_iff.mp hgrammar
  exact reading_of_reads_module hread hcount

/-- A text that passes the nesting check and follows the grammar has its attributes one behind the
other, in the order in which their dictionaries are listed. It is refused exactly if a dictionary
binds a key twice or an integer does not fit, and the error is that of the first offence. -/
theorem parse_eq_error_iff_firstOffence (source : String) (w : WrittenModule)
    (hcount : overflow? source.toList = none)
    (hgrammar : written maxNesting source.toList = .ok w) :
    InOrder source.toList [] w.dictionaries.flatten ∧
    ((∃ e, parse source = .error e) ↔ ¬ w.KeysDistinct ∨ ¬ w.IntegersFit) ∧
    ∀ e, parse source = .error e ↔ FirstOffence source.toList w e := by
  have horder := (reading_of_written hcount hgrammar).inOrder
  refine ⟨horder, ?_, fun e => ?_⟩
  · have haccepted : (∃ m, w.meaning = .ok m) ↔ w.KeysDistinct ∧ w.IntegersFit := by
      simp only [WrittenModule.meaning_eq_ok_iff, exists_and_left, exists_eq', and_true]
    rw [← Classical.not_and_iff_not_or_not, ← haccepted]
    constructor
    · intro hrefused hread
      obtain ⟨e, he⟩ := hrefused
      obtain ⟨m, hm⟩ := hread
      obtain ⟨o, ho, _⟩ := (parse_eq_error_iff_meaning hcount hgrammar).mp he
      cases hm.symm.trans ho
    · intro hrefused
      cases hmeaning : w.meaning with
      | ok m => exact absurd ⟨m, hmeaning⟩ hrefused
      | error o => exact ⟨_, (parse_eq_error_iff_meaning hcount hgrammar).mpr ⟨o, hmeaning, rfl⟩⟩
  · have hentries : ∀ before earlier a later after,
        w.dictionaries = before ++ (earlier ++ a :: later) :: after →
          ∃ t t', t <:+ source.toList ∧ Entry t t' a := by
      intro before earlier a later after hsplit
      apply horder.exists_entry
      rw [hsplit]
      simp
    rw [parse_eq_error_iff_meaning hcount hgrammar]
    simp only [WrittenModule.meaning_eq_error_iff, addAttributes_empty_eq_error_iff]
    constructor
    · intro h
      obtain ⟨o, ⟨before, as, after, hsplit, hbefore, earlier, a, later, rfl, hearlier, ho⟩, rfl⟩ := h
      obtain ⟨t, t', ht, hentry⟩ := hentries before earlier a later after hsplit
      exact ⟨before, earlier, a, later, after, hsplit, hbefore, hearlier,
        (blames_iff ht hentry).mpr ⟨o, ho, rfl⟩⟩
    · intro h
      obtain ⟨before, earlier, a, later, after, hsplit, hbefore, hearlier, hblames⟩ := h
      obtain ⟨t, t', ht, hentry⟩ := hentries before earlier a later after hsplit
      obtain ⟨o, ho, rfl⟩ := (blames_iff ht hentry).mp hblames
      exact ⟨o, ⟨before, _, after, hsplit, hbefore, earlier, a, later, rfl, hearlier, ho⟩, rfl⟩

/-- An integer that does not fit, under a key that is there already, in front of a region with a
repeated key. -/
def thriceWrong : String :=
  "a \x7bx = 1, \"x\" = 9223372036854775808\x7d (b \x7by = 1, y = 2\x7d)"

/-- The integer is blamed. -/
theorem parse_blames_integer_before_keys :
    overflow? thriceWrong.toList = none ∧
    ∃ w, written maxNesting thriceWrong.toList = .ok w ∧
      FirstOffence thriceWrong.toList w ⟨⟨1, 17⟩, .integerOutOfRange⟩ := by
  have hcount : overflow? thriceWrong.toList = none := by decide +kernel
  have hsome : (written maxNesting thriceWrong.toList).toOption.isSome = true := by
    decide +kernel
  obtain ⟨w, hw⟩ := Option.isSome_iff_exists.mp hsome
  have hwritten := eq_ok_of_toOption hw
  refine ⟨hcount, w, hwritten, ?_⟩
  apply ((parse_eq_error_iff_firstOffence thriceWrong w hcount hwritten).2.2 _).mp
  exact eq_error_of_error? (by decide +kernel)

end IrOptimizer.Generic
