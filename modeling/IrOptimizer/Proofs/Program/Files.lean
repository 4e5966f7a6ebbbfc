import IrOptimizer.Proofs.Program.Run

/-!
# What a run of the command leaves in the files

A run makes a file only in its last step, when everything it is to write is there. So a
run that fails leaves the tree as it was, wherever it fails, and one that succeeds
changes the file that the output option names and nothing else (`runCommand_files`). What
the file then holds has been made from the tree before the run, since nothing was written
while it was read: the output may be the input or the settings document.

Following a path asks for directories only, and those stay; so the path that was written
to leads to what was written (`FileTree.DiffersIn.open?_eq`).
-/

namespace IrOptimizer

/-! ## Trees that differ in a file -/

namespace FileTree

variable {t t' : FileTree}

/-- The second tree is the first but for one file, which has a certain content in it. -/
structure DiffersIn (t t' : FileTree) (name : String) (content : ByteArray) : Prop where
  content_eq : t'.files.find? name = some content
  others_eq : ∀ other, other ≠ name → t'.files.find? other = t.files.find? other
  directories_eq : t'.directories = t.directories
  workingDirectory_eq : t'.workingDirectory = t.workingDirectory

/-- A name leads to a directory if it is not too long and there is one at that place. -/
theorem entry_eq_directory_iff {place : List String} {name : String} :
    t.entry place name = .ok .directory ↔
      name.utf8ByteSize ≤ maxNameSize ∧ t.directories.contains (pathOf (name :: place)) = true := by
  unfold entry
  split
  · next hlong => exact ⟨nofun, fun h => absurd hlong (Nat.not_lt.mpr h.1)⟩
  · next hshort =>
    split
    · next hdirectory => exact ⟨fun _ => ⟨Nat.not_lt.mp hshort, hdirectory⟩, fun _ => rfl⟩
    · next hdirectory =>
      refine ⟨fun h => ?_, fun h => absurd h.2 hdirectory⟩
      split at h <;> cases h

/-- A directory that is entered is entered in every tree with the same directories. -/
theorem enter_of_directories_eq (hdirectories : t'.directories = t.directories)
    {place place' : List String} {name : String} (h : t.enter place name = .ok place') :
    t'.enter place name = .ok place' := by
  unfold enter at h ⊢
  split
  · next hdot => rwa [if_pos hdot] at h
  · next hdot =>
    rw [if_neg hdot] at h
    split
    · next hdots => rwa [if_pos hdots] at h
    · next hdots =>
      rw [if_neg hdots] at h
      split at h
      · next hentry =>
        have hentry' : t'.entry place name = .ok .directory := by
          rw [entry_eq_directory_iff, hdirectories]
          exact entry_eq_directory_iff.mp hentry
        rw [hentry']
        exact h
      · cases h
      · cases h
      · cases h

/-- A way through directories is there in every tree with the same directories. -/
theorem foldlM_enter_of_directories_eq (hdirectories : t'.directories = t.directories)
    {names place place' : List String} (h : names.foldlM t.enter place = .ok place') :
    names.foldlM t'.enter place = .ok place' := by
  induction names generalizing place with
  | nil => exact h
  | cons name names ih =>
    rw [List.foldlM_cons] at h ⊢
    obtain ⟨next, henter, hrest⟩ := except_bind_eq_ok.mp h
    exact except_bind_eq_ok.mpr ⟨next, enter_of_directories_eq hdirectories henter, ih hrest⟩

/-- A path that can be written to leads, through directories, to a name that is none. -/
theorem exists_of_target?_eq_ok {text name : String} (h : t.target? text = .ok name) :
    ∃ path place last, Path.read text = .ok path ∧ t.parentPlace path = .ok place ∧
      path.names.getLast? = some last ∧ (isDots last || path.endsWithSlash) = false ∧
      name = pathOf (last :: place) ∧ last.utf8ByteSize ≤ maxNameSize ∧
      t.directories.contains name = false := by
  unfold target? at h
  obtain ⟨path, hpath, h⟩ := except_bind_eq_ok.mp h
  obtain ⟨place, hplace, h⟩ := except_bind_eq_ok.mp h
  refine ⟨path, place, ?_⟩
  cases hlast : path.names.getLast? with
  | none =>
    rw [hlast] at h
    cases h
  | some last =>
    rw [hlast] at h
    dsimp only at h
    split at h
    · cases h
    · next hplain =>
      obtain ⟨found, hentry, h⟩ := except_bind_eq_ok.mp h
      -- the last name is looked up, and what is found is no directory
      have hfound : found ≠ .directory ∧ name = pathOf (last :: place) := by
        cases found with
        | directory => cases h
        | file _ => exact ⟨nofun, (Except.ok.inj h).symm⟩
        | nothing => exact ⟨nofun, (Except.ok.inj h).symm⟩
      obtain ⟨hfound, rfl⟩ := hfound
      have hsize : last.utf8ByteSize ≤ maxNameSize := by
        by_cases hlong : maxNameSize < last.utf8ByteSize
        · unfold entry at hentry
          rw [if_pos hlong] at hentry
          cases hentry
        · exact Nat.not_lt.mp hlong
      refine ⟨last, hpath, hplace, rfl, Bool.eq_false_iff.mpr hplain, rfl, hsize, ?_⟩
      refine Bool.eq_false_iff.mpr fun hdirectory => ?_
      have hentry' := entry_eq_directory_iff.mpr ⟨hsize, hdirectory⟩
      exact hfound (Except.ok.inj (hentry.symm.trans hentry'))

/-- The path that was written to leads to what was written. -/
theorem DiffersIn.open?_eq {name : String} {content : ByteArray} (h : t.DiffersIn t' name content)
    {text : String} (htarget : t.target? text = .ok name) :
    t'.open? text = .ok ⟨content, none⟩ := by
  obtain ⟨path, place, last, hpath, hplace, hlast, hplain, rfl, hsize, hnot⟩ :=
    exists_of_target?_eq_ok htarget
  have hplace' : t'.parentPlace path = .ok place := by
    unfold parentPlace at hplace ⊢
    rw [h.workingDirectory_eq]
    exact foldlM_enter_of_directories_eq h.directories_eq hplace
  have hentry : t'.entry place last = .ok (.file content) := by
    unfold entry
    rw [if_neg (Nat.not_lt.mpr hsize), h.directories_eq, hnot, h.content_eq]
    rfl
  unfold open?
  refine except_bind_eq_ok.mpr ⟨path, hpath, except_bind_eq_ok.mpr ⟨place, hplace', ?_⟩⟩
  dsimp only
  rw [hlast]
  dsimp only
  rw [hplain, hentry]
  rfl

end FileTree

/-! ## Runs -/

namespace World

variable {w : World} {words : Wording} {s : Settings} {line : CommandLine}
  {environment : Option String}

/-- To put a file into a tree changes that file only. -/
theorem differsIn_putFile (w : World) (name : String) (content : ByteArray) :
    w.tree.DiffersIn (w.putFile name content).tree name content where
  content_eq := Dictionary.find?_insert_self w.tree.files name content
  others_eq := fun _ hother => Dictionary.find?_insert_ne w.tree.files content (Ne.symm hother)
  directories_eq := rfl
  workingDirectory_eq := rfl

/-- A text that is delivered goes to the standard output or into the file that is named. -/
theorem deliver_eq_ok {output : Option String} {text : String} {w' : World}
    (h : w.deliver output text = .ok w') :
    (output = none ∧ w'.tree = w.tree ∧ w'.output = w.output ++ text) ∨
      ∃ path name, output = some path ∧ w.tree.target? path = .ok name ∧
        w' = w.putFile name text.toUTF8 := by
  unfold deliver at h
  cases output with
  | none =>
    cases h
    exact .inl ⟨rfl, rfl, rfl⟩
  | some path =>
    dsimp only at h
    split at h
    · cases h
    · next name htarget =>
      cases h
      exact .inr ⟨path, name, rfl, htarget, rfl⟩

namespace Ends

variable {status : UInt32} {after : World}

/-- A run that fails has told something, and that is all. -/
theorem tree_eq (h : w.Ends words line environment status after) (hfails : status ≠ 0) :
    after.tree = w.tree := by
  cases h with
  | unsettled _ => rfl
  | failed _ _ => rfl
  | undelivered _ _ _ => rfl
  | delivered _ _ _ => exact absurd rfl hfails

/-- A run that exits with status 0 has delivered its result. -/
theorem exists_delivered (h : w.Ends words line environment 0 after) :
    ∃ s text w', w.settings words line environment = .ok s ∧ w.result s = .ok text ∧
      w.deliver s.output text = .ok w' ∧ after = w'.tell (w.told s) := by
  cases h with
  | delivered hsettings hresult hdeliver => exact ⟨_, _, _, hsettings, hresult, hdeliver, rfl⟩

/-- A run that has a result and can deliver it exits with status 0. -/
theorem status_eq_zero (h : w.Ends words line environment status after) {text : String} {w' : World}
    (hsettings : w.settings words line environment = .ok s) (hresult : w.result s = .ok text)
    (hdeliver : w.deliver s.output text = .ok w') : status = 0 := by
  cases h with
  | unsettled hsettings' => cases hsettings.symm.trans hsettings'
  | failed hsettings' hresult' =>
    cases hsettings.symm.trans hsettings'
    cases hresult.symm.trans hresult'
  | undelivered hsettings' hresult' hdeliver' =>
    cases hsettings.symm.trans hsettings'
    cases hresult.symm.trans hresult'
    cases hdeliver.symm.trans hdeliver'
  | delivered _ _ _ => rfl

end Ends

/-- The files behind a run, for every tree, input, environment, arguments and wording. A run that
fails has changed none and made none. A run that succeeds has shown its help or version,
or has written the listing or the result that comes of the files as they were: to the
standard output, or to the file that the output option names, which holds just that text
then and is the only one that differs. And a run succeeds if there is something to write
and a place to write it to. -/
theorem runCommand_files (w : World) (words : Wording) (args : List String)
    (environment : Option String) :
    let status := (w.runCommand words args environment).1
    let after := (w.runCommand words args environment).2
    (status ≠ 0 → after.tree = w.tree) ∧
    (status = 0 →
      (after.tree = w.tree ∧
        (CommandLine.parse args = .error .help ∨ CommandLine.parse args = .error .version ∨
          ∃ line s text, CommandLine.parse args = .ok line ∧
            w.settings words line environment = .ok s ∧ s.output = none ∧ w.result s = .ok text ∧
            after.output = w.output ++ text)) ∨
      ∃ line s path name text, CommandLine.parse args = .ok line ∧
        w.settings words line environment = .ok s ∧ line.output = some path ∧ path ≠ "-" ∧
        w.result s = .ok text ∧ w.tree.target? path = .ok name ∧
        w.tree.DiffersIn after.tree name text.toUTF8 ∧
        after.tree.open? path = .ok (.ofText text)) ∧
    ∀ line s text w', CommandLine.parse args = .ok line →
      w.settings words line environment = .ok s → w.result s = .ok text →
        w.deliver s.output text = .ok w' → status = 0 := by
  intro status after
  cases hline : CommandLine.parse args with
  | error stop =>
    obtain ⟨htree, hstatus⟩ := runCommand_of_stop hline w words environment
    refine ⟨fun _ => htree, fun hzero => .inl ⟨htree, ?_⟩, fun _ _ _ _ h => nomatch h⟩
    rcases hstatus.mp hzero with rfl | rfl
    · exact .inl rfl
    · exact .inr (.inl rfl)
  | ok line =>
    have hends : w.Ends words line environment status after :=
      ends_runCommand hline w words environment
    refine ⟨hends.tree_eq, fun hzero => ?_, ?_⟩
    · rw [hzero] at hends
      obtain ⟨s, text, w', hsettings, hresult, hdeliver, hafter⟩ := hends.exists_delivered
      obtain ⟨houtput, _⟩ := settings_eq_ok hsettings
      rw [hafter]
      rcases deliver_eq_ok hdeliver with
        ⟨hnone, htree, hwritten⟩ | ⟨path, name, hsome, htarget, rfl⟩
      · exact .inl ⟨htree, .inr (.inr ⟨line, s, text, rfl, hsettings, hnone, hresult, hwritten⟩)⟩
      · -- settings leave the output option away if it is a hyphen
        have hdiffers := differsIn_putFile w name text.toUTF8
        rw [hsome] at houtput
        obtain ⟨hpath, hhyphen⟩ := Option.filter_eq_some_iff.mp houtput.symm
        exact .inr ⟨line, s, path, name, text, rfl, hsettings, hpath, of_decide_eq_true hhyphen,
          hresult, htarget, hdiffers, hdiffers.open?_eq htarget⟩
    · intro line' s text w' hline' hsettings hresult hdeliver
      cases hline'
      exact hends.status_eq_zero hsettings hresult hdeliver

/-- A literal list is overwritten by what comes of it. -/
example :
    (runCommand ⟨.ofList [("p.toy", "3".toUTF8)] [] [], .ofText "", "", ""⟩ .silent
      ["p.toy", "-o", "p.toy"] none).2.tree.open? "p.toy" =
        .ok (.ofText "module \x7b\n  toy.lit \x7bvalue = 3\x7d\n\x7d\n") := rfl

end World

end IrOptimizer
