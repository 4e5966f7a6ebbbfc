import IrOptimizer.Proofs.Rendering
import IrOptimizer.Proofs.SplitInput

/-!
# The output of a split run is a split input

Between the results of two chunks stands a marker line, and nowhere else: a rendered module
is a text whose lines are all ended and of which none is a marker (`plain_render`), and such
texts with marker lines between them are split where they were joined
(`split_intercalate`). So from the output of a split run its parts come back, one for each
chunk of the input. In generic form each part is the text of a module that can be loaded
again, and the whole output is stable (`process_split_output`).
-/

namespace IrOptimizer

open Text

/-! ## Joining and splitting -/

namespace Chunk

/-- A text that can stand between marker lines: its last line is ended, and no line is a
marker. -/
structure Plain (text : String) : Prop where
  ended : ∃ body, text.toList = body ++ ['\n']
  no_marker : ∀ line ∈ lines text.toList, isMarker line = false

/-- Plain texts with marker lines between them are the chunks of what they make up. -/
theorem map_text_ofLines_intercalate {texts : List String} (hne : texts ≠ [])
    (hplain : ∀ text ∈ texts, Plain text) (n : Nat) :
    (ofLines n (lines (String.intercalate Optimizer.separator texts).toList)).map Chunk.text =
      texts.map String.toList := by
  induction texts generalizing n with
  | nil => exact absurd rfl hne
  | cons text texts ih =>
    obtain ⟨htext, htexts⟩ := List.forall_mem_cons.mp hplain
    cases texts with
    | nil =>
      rw [String.intercalate_singleton, ofLines_of_no_marker htext.no_marker, flatten_lines]
      rfl
    | cons next texts =>
      obtain ⟨body, hbody⟩ := htext.ended
      have hseparator : Optimizer.separator.toList = splitMarker.toList ++ ['\n'] := by decide
      have hmarker : lines Optimizer.separator.toList = [Optimizer.separator.toList] := by decide
      have hlines : lines (String.intercalate Optimizer.separator (text :: next :: texts)).toList =
          lines text.toList ++ Optimizer.separator.toList ::
            lines (String.intercalate Optimizer.separator (next :: texts)).toList := by
        rw [String.intercalate_cons_cons, String.toList_append, String.toList_append,
          List.append_assoc, lines_append_of_concat hbody,
          lines_append_of_concat hseparator, hmarker]
        rfl
      rw [hlines, ofLines_append_marker htext.no_marker (by decide), List.map_cons, flatten_lines,
        ih (List.cons_ne_nil _ _) htexts]
      rfl

/-- Splitting undoes joining. -/
theorem split_intercalate {texts : List String} (hne : texts ≠ [])
    (hplain : ∀ text ∈ texts, Plain text) :
    (split (String.intercalate Optimizer.separator texts).toList).map
      (fun chunk => String.ofList chunk.text) = texts := by
  have hsplit := map_text_ofLines_intercalate hne hplain 0
  have hback := congrArg (List.map String.ofList) hsplit
  have hid : String.ofList ∘ String.toList = id := funext fun text => String.ofList_toList
  rw [List.map_map, List.map_map, hid, List.map_id] at hback
  exact hback

theorem plain_render {m : Module} (h : NamesReadable m.ops) (target : Target) :
    Plain (target.render m) where
  ended := target.exists_render_eq m
  no_marker := not_isMarker_of_leads (target.leads_render h)

/-- There is always a chunk. -/
theorem split_ne_nil (source : List Char) : split source ≠ [] := by
  intro h
  have hcut := cut_split source
  rw [h] at hcut
  generalize lines source = ls at hcut
  cases hcut

end Chunk

/-! ## Split runs -/

namespace Optimizer

variable {o : Optimizer} {s : Settings} {p : Plan}

/-- There is a result of a split input if there is one of each of its chunks. -/
theorem processSource_eq_ok_iff (hplan : o.plan s = .ok p) (hsplit : s.splitInput = true)
    {source t : String} :
    (o.processSource s p source).result = .ok t ↔
      ∃ texts, (Chunk.split source.toList).map (o.alone s) = texts.map .ok ∧
        t = String.intercalate separator texts := by
  have halone : o.alone s = fun chunk => (o.processText s p (String.ofList chunk.text)).result :=
    funext (alone_eq hplan)
  have hchunks : chunks s source = Chunk.split source.toList := if_pos hsplit
  rw [processSource_eq, hchunks, processChunks_result, except_map_eq_ok, halone]
  refine exists_congr fun texts => and_congr ?_ Iff.rfl
  simp only [processChunk_result]
  rw [mapM_mapError_eq_ok_iff, mapM_eq_ok_iff]

/-- What comes of a chunk is rendered from a module that can be loaded again. -/
theorem exists_loadable_of_alone {frontend : Frontend} {chunk : Chunk} {text : String}
    (hpasses : o.passes = .standard)
    (hfrontend : o.frontends.resolve s.frontendTag = .ok frontend)
    (hbuiltIn : frontend = Generic.parse ∨ frontend = Toy.parse)
    (h : o.alone s chunk = .ok text) :
    ∃ m : Module, m.Loadable o.context ∧ s.target.render m = text := by
  obtain ⟨frontend', pipeline, source, m, hfrontend', hbuild, _, hload, _, ht⟩ :=
    (process_eq_ok_iff rfl).mp h
  cases hfrontend.symm.trans hfrontend'
  rw [hpasses] at hbuild
  exact ⟨_, pipeline.loadable_execute hbuild (loadable_of_load hbuiltIn hload) _, ht⟩

/-- Without passes the generic form of a module that can be loaded comes out as it went in. -/
theorem alone_print {m : Module} (hm : m.Loadable o.context)
    (hfrontend : o.frontends.resolve s.frontendTag = .ok Generic.parse) (hpasses : s.passes = [])
    (htarget : s.target = .ir) {chunk : Chunk} (hchunk : String.ofList chunk.text = m.print) :
    o.alone s chunk = .ok m.print := by
  refine (process_eq_ok_iff rfl).mpr
    ⟨Generic.parse, .empty, m.print, m, hfrontend, ?_, ?_, hm.load_print, rfl, ?_⟩
  · rw [hpasses]
    exact Pipeline.build_nil _
  · rw [hchunk]
    exact Stream.text_ofText _
  · rw [htarget]
    rfl

/-- For every optimizer with the standard passes, settings that split and name a built-in
frontend, and input: if there is a result, splitting it gives back the results of the
chunks of the input, in order and one for each, in either form of output. And a result in
generic form comes out again when it is split and processed without passes in the same
context. -/
theorem process_split_output (o : Optimizer) (s : Settings) (input : Stream)
    (frontend : Frontend) (t : String) (hpasses : o.passes = .standard)
    (hfrontend : o.frontends.resolve s.frontendTag = .ok frontend)
    (hbuiltIn : frontend = Generic.parse ∨ frontend = Toy.parse)
    (hsplit : s.splitInput = true) (h : (o.process s input).1.result = .ok t) :
    (∃ source texts, input.text = .ok source ∧
      (Chunk.split source.toList).map (o.alone s) = texts.map .ok ∧
      (Chunk.split t.toList).map (fun chunk => String.ofList chunk.text) = texts) ∧
    (s.target = .ir → ∀ again : Settings,
      o.frontends.resolve again.frontendTag = .ok Generic.parse → again.passes = [] →
        again.splitInput = true → again.target = .ir →
          (o.process again (.ofText t)).1.result = .ok t) := by
  obtain ⟨p, source, hplan, hsource, hresult⟩ := process_eq_ok_iff_source.mp h
  obtain ⟨texts, htexts, rfl⟩ := (processSource_eq_ok_iff hplan hsplit).mp hresult
  have hmodule : ∀ text ∈ texts, ∃ m : Module, m.Loadable o.context ∧ s.target.render m = text := by
    intro text htext
    have hmem : Except.ok text ∈ (Chunk.split source.toList).map (o.alone s) := by
      rw [htexts]
      exact List.mem_map_of_mem htext
    obtain ⟨chunk, _, hchunk⟩ := List.mem_map.mp hmem
    exact exists_loadable_of_alone hpasses hfrontend hbuiltIn hchunk
  have hne : texts ≠ [] := by
    rintro rfl
    exact Chunk.split_ne_nil _ (List.map_eq_nil_iff.mp htexts)
  have hparts : (Chunk.split (String.intercalate separator texts).toList).map
      (fun chunk => String.ofList chunk.text) = texts := by
    refine Chunk.split_intercalate hne fun text htext => ?_
    obtain ⟨m, hm, rfl⟩ := hmodule text htext
    exact Chunk.plain_render hm.readable.names s.target
  refine ⟨⟨source, texts, hsource, htexts, hparts⟩, ?_⟩
  intro htarget again htag hnone hagain hir
  have hplan' : o.plan again = .ok ⟨Generic.parse, .empty⟩ :=
    plan_eq_ok_iff.mpr ⟨htag, hnone ▸ Pipeline.build_nil _⟩
  rw [process_of_text hplan' (Stream.text_ofText _)]
  refine (processSource_eq_ok_iff hplan' hagain).mpr ⟨texts, ?_, rfl⟩
  -- each part is the generic form of a module, which comes out again
  have hsame : ∀ chunk ∈ Chunk.split (String.intercalate separator texts).toList,
      o.alone again chunk = .ok (String.ofList chunk.text) := by
    intro chunk hchunk
    have htext : String.ofList chunk.text ∈ texts := by
      rw [← hparts]
      exact List.mem_map_of_mem hchunk
    obtain ⟨m, hm, hrender⟩ := hmodule _ htext
    rw [htarget] at hrender
    rw [← hrender]
    exact alone_print hm htag hnone hir hrender.symm
  have hback := congrArg
    (List.map fun text => (.ok text : Except OptimizerError String)) hparts
  rw [List.map_map] at hback
  rw [List.map_congr_left hsame]
  exact hback

/-- Two chunks, the second without literals. -/
theorem process_split_output_two :
    let t := "module \x7b\n  toy.lit \x7bvalue = 1\x7d\n\x7d\n// -----\nmodule \x7b\n\x7d\n"
    ((standard false).process { frontend := some "toy", splitInput := true }
      (.ofText "1\n// -----\n")).1.result = .ok t ∧
    (Chunk.split t.toList).length = 2 ∧
    ((standard false).process { splitInput := true } (.ofText t)).1.result = .ok t := by
  intro t
  have hrun : ((standard false).process { frontend := some "toy", splitInput := true }
      (.ofText "1\n// -----\n")).1.result = .ok t := rfl
  obtain ⟨⟨source, texts, hsource, htexts, hparts⟩, hagain⟩ :=
    process_split_output (standard false) _ _ Toy.parse t (passes_standard false) rfl (.inr rfl) rfl
      hrun
  refine ⟨hrun, ?_, hagain rfl { splitInput := true } rfl rfl rfl rfl⟩
  rw [Stream.text_ofText] at hsource
  cases hsource
  have hlength := congrArg List.length (hparts ▸ htexts)
  simp only [List.length_map] at hlength
  rw [← hlength]
  decide

end Optimizer

end IrOptimizer
