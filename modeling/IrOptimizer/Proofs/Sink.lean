import IrOptimizer.Proofs.Optimizer

/-!
# What a sink gets

A text is written to a sink in as many writes as it takes. However many these are, together
they come to what one look at the sink tells: the bytes that fit are appended, and all is well
exactly if that is all of them (`writeAll_eq`). What one write leaves over finds no room
(`fitting_taking`), so there are two writes at most and no induction is needed.

`Delivered` says what writing and flushing a text comes to, and `run_delivers` that a run
delivers the text that processing results in, or leaves the sink alone if there is none.
-/

namespace IrOptimizer

namespace Sink

variable {s : Sink} {bytes : ByteArray}

/-! ## One write -/

/-- Without a limit all bytes fit, else those up to it. -/
theorem fitting_eq (s : Sink) (size : Nat) :
    s.fitting size = s.limit.elim size fun limit => min size (limit - s.written.size) := by
  unfold fitting
  cases s.limit <;> rfl

/-- No more bytes fit than there are. -/
theorem fitting_le (s : Sink) (size : Nat) : s.fitting size ≤ size := by
  unfold fitting
  split
  · exact Nat.le_refl size
  · exact Nat.min_le_left ..

/-- The sink with those of the bytes that fit. -/
def taking (s : Sink) (bytes : ByteArray) : Sink :=
  { s with written := s.written ++ bytes.extract 0 (s.fitting bytes.size) }

theorem size_extract_fitting (s : Sink) (bytes : ByteArray) :
    (bytes.extract 0 (s.fitting bytes.size)).size = s.fitting bytes.size := by
  rw [ByteArray.size_extract, Nat.min_eq_left (s.fitting_le _), Nat.sub_zero]

/-- A sink stays as it is if nothing fits. -/
theorem taking_of_full (hfull : s.fitting bytes.size = 0) : s.taking bytes = s := by
  unfold taking
  rw [hfull, ByteArray.extract_same, ByteArray.append_empty]

/-- Of what did not fit, nothing fits. -/
theorem fitting_taking (s : Sink) (bytes : ByteArray) :
    (s.taking bytes).fitting (bytes.size - s.fitting bytes.size) = 0 := by
  have hsize := s.size_extract_fitting bytes
  unfold taking fitting at *
  cases hlimit : s.limit with
  | none => simp
  | some limit =>
    rw [hlimit] at hsize
    simp only [ByteArray.size_append] at hsize ⊢
    omega

/-- A full sink gives its reason, or says that it has accepted nothing. -/
theorem write_of_full (hfull : s.fitting bytes.size = 0) (hbytes : 0 < bytes.size) :
    s.write bytes = (s, s.fullReason.elim (.ok 0) .error) := by
  rw [write, if_pos ⟨hfull, hbytes⟩]
  cases s.fullReason <;> rfl

/-- A sink with room accepts what fits. -/
theorem write_of_room (hroom : s.fitting bytes.size ≠ 0) :
    s.write bytes = (s.taking bytes, .ok (s.fitting bytes.size)) := by
  rw [write, if_neg fun h => hroom h.1]
  rfl

/-! ## As many writes as it takes -/

/-- What a full sink answers in the end. -/
def refusal (s : Sink) : String := s.fullReason.getD incompleteReason

/-- To write no bytes always succeeds. -/
theorem writeAll_of_empty (s : Sink) (hsize : bytes.size = 0) : s.writeAll bytes = (s, .ok ()) := by
  rw [writeAll, dif_pos hsize]

/-- At a full sink the loop fails. -/
theorem writeAll_of_full (hfull : s.fitting bytes.size = 0) (hbytes : 0 < bytes.size) :
    s.writeAll bytes = (s, .error s.refusal) := by
  rw [writeAll, dif_neg (Nat.ne_of_gt hbytes), write_of_full hfull hbytes]
  unfold refusal
  cases s.fullReason <;> rfl

/-- Where there is room, writing goes on with what did not fit. -/
theorem writeAll_of_room (hroom : s.fitting bytes.size ≠ 0) :
    s.writeAll bytes =
      (s.taking bytes).writeAll (bytes.extract (s.fitting bytes.size) bytes.size) := by
  have hle := s.fitting_le bytes.size
  obtain ⟨n, hn⟩ := Nat.exists_eq_succ_of_ne_zero hroom
  rw [writeAll, dif_neg (by omega), write_of_room hroom, hn]

/-- What the loop comes to: the bytes that fit are written, and it succeeds if these are all.
-/
theorem writeAll_eq (s : Sink) (bytes : ByteArray) :
    s.writeAll bytes = (s.taking bytes,
      if s.fitting bytes.size = bytes.size then .ok () else .error s.refusal) := by
  have hle := s.fitting_le bytes.size
  by_cases hroom : s.fitting bytes.size = 0
  · rw [taking_of_full hroom, hroom]
    by_cases hbytes : bytes.size = 0
    · rw [writeAll_of_empty s hbytes, if_pos hbytes.symm]
    · rw [writeAll_of_full hroom (by omega), if_neg (Ne.symm hbytes)]
  · rw [writeAll_of_room hroom]
    -- the second write finds nothing left to write, or a full sink
    have hrest : (bytes.extract (s.fitting bytes.size) bytes.size).size =
        bytes.size - s.fitting bytes.size := by
      rw [ByteArray.size_extract, Nat.min_self]
    have hfull := s.fitting_taking bytes
    rw [← hrest] at hfull
    by_cases hall : s.fitting bytes.size = bytes.size
    · rw [writeAll_of_empty _ (by omega), if_pos hall]
    · rw [writeAll_of_full hfull (by omega), if_neg hall]
      rfl

/-- A text is flushed once if all of it is written. -/
theorem writeText_eq (s : Sink) (text : String) :
    s.writeText text =
      if s.fitting text.toUTF8.size = text.toUTF8.size then (s.taking text.toUTF8).flush
      else (s.taking text.toUTF8, .error s.refusal) := by
  rw [writeText, writeAll_eq]
  by_cases hall : s.fitting text.toUTF8.size = text.toUTF8.size
  · rw [if_pos hall, if_pos hall]
  · rw [if_neg hall, if_neg hall]

/-! ## Delivery -/

/-- What it comes to that bytes are written to a sink and flushed: so many of them are
accepted, as many as fit, and it is flushed, once, if these are all. -/
structure Delivered (s : Sink) (bytes : ByteArray) (accepted : Nat) (s' : Sink)
    (outcome : Except String Unit) : Prop where
  accepted_eq : accepted =
    s.limit.elim bytes.size fun limit => min bytes.size (limit - s.written.size)
  written_eq : s'.written = s.written ++ bytes.extract 0 accepted
  flushes_eq : s'.flushes = s.flushes + if accepted = bytes.size then 1 else 0
  outcome_eq_ok_iff : outcome = .ok () ↔ accepted = bytes.size ∧ s.flushReason = none
  outcome_eq_error_iff : ∀ reason, outcome = .error reason ↔
    accepted < bytes.size ∧ reason = s.fullReason.getD "failed to write whole buffer" ∨
      accepted = bytes.size ∧ s.flushReason = some reason

/-- Writing a text delivers it, as far as the sink accepts it. -/
theorem delivered_writeText (s : Sink) (text : String) :
    Delivered s text.toUTF8 (s.fitting text.toUTF8.size) (s.writeText text).1
      (s.writeText text).2 := by
  rw [writeText_eq]
  generalize text.toUTF8 = bytes
  have hle := s.fitting_le bytes.size
  by_cases hall : s.fitting bytes.size = bytes.size
  · -- what a flush answers is decided by the reason to refuse it
    have hflush : ((s.taking bytes).flush).2 = s.flushReason.elim (.ok ()) .error := by
      unfold flush taking
      cases s.flushReason <;> rfl
    rw [if_pos hall]
    refine ⟨s.fitting_eq _, rfl, by rw [if_pos hall]; rfl, ?_, fun reason => ?_⟩
    · rw [hflush]
      cases s.flushReason <;> simp [hall]
    · rw [hflush]
      cases s.flushReason <;> simp [hall]
  · have hpart : s.fitting bytes.size < bytes.size := by omega
    rw [if_neg hall]
    refine ⟨s.fitting_eq _, rfl, by rw [if_neg hall]; rfl, ?_, fun reason => ?_⟩
    · simp [hall]
    · simp [hall, hpart, refusal, incompleteReason, eq_comm]

end Sink

/-! ## Runs -/

/-- If processing fails, a run fails with its error, and the sink is as it was. Otherwise the
run delivers the text that processing results in, as far as the sink accepts its bytes, and
succeeds exactly if that is done; what goes wrong is told as a failure to write. In either
case it takes from the input what processing takes. -/
theorem Optimizer.run_delivers (o : Optimizer) (s : Settings) (input : Stream) (sink : Sink) :
    (∀ e, (o.process s input).1.result = .error e →
      o.run s input sink = (.error e, sink, (o.process s input).2)) ∧
    (∀ text, (o.process s input).1.result = .ok text →
      ∃ accepted sink' outcome,
        o.run s input sink = (outcome.mapError .unwritable, sink', (o.process s input).2) ∧
        Sink.Delivered sink text.toUTF8 accepted sink' outcome) := by
  unfold run
  generalize o.process s input = processed
  obtain ⟨⟨result, events⟩, taken⟩ := processed
  constructor
  · intro e he
    cases he
    rfl
  · intro text htext
    cases htext
    exact ⟨_, _, _, rfl, sink.delivered_writeText text⟩

end IrOptimizer
