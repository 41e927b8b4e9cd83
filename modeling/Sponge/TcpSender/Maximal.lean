/-
  Sponge.TcpSender.Maximal

  How much `fill_window` sends once the SYN is out.

  One pass of its loop takes as much as the window, the payload limit and the buffer
  allow (`sendData_payload`), so only the last segment can be short, and a FIN that
  fits goes out with the last bytes (`sendData_fin`).  The window shrinks by exactly
  what is sent (`window_of_run`).  The loop ends by itself: any number of passes that
  covers the buffer gives the same result (`fillLoop_congr`).
-/

import Sponge.TcpSender.Fill

namespace Sponge

open Lib (Run Guarded)

namespace TCPSender

-- ============================================================================
-- One pass of the loop
-- ============================================================================

/-- The test of the loop of `fill_window`. -/
def KeepsFilling (s : TCPSender) : Prop := s.windowSize > 0 ∧ s.stream.bufferEmpty = false

theorem keepsFilling_iff (s : TCPSender) :
    s.KeepsFilling ↔ 0 < s.windowSize ∧ s.stream.buffer ≠ [] := by
  rw [KeepsFilling, ByteStream.bufferEmpty_eq_false_iff]

theorem fillLoop_of_not {s : TCPSender} (h : ¬ s.KeepsFilling) (fuel : Nat) :
    fillLoop fuel s = s := by
  cases fuel with
  | zero => rfl
  | succ fuel => exact if_neg h

theorem fillLoop_succ {s : TCPSender} (h : s.KeepsFilling) (fuel : Nat) :
    fillLoop (fuel + 1) s = fillLoop fuel s.sendData := if_pos h

theorem KeepsFilling.emit {s : TCPSender} (h : s.KeepsFilling) (hnext : 0 < s.nextSeqnoAbsolute) :
    Emit s s.dataSegment s.sendData := by
  obtain ⟨hwin, hbuf⟩ := (keepsFilling_iff s).mp h
  exact emit_data hnext hwin hbuf

/-- A pass takes what the window, the payload limit and the buffer allow. -/
theorem dataSegment_payload_length (s : TCPSender) :
    s.dataSegment.payload.length =
      min (min s.windowSize TCPConfig.maxPayloadSize) s.stream.buffer.length := by
  rw [← bytesPerSegment_eq]
  show (s.stream.buffer.take (s.stream.bytesToRead s.bytesPerSegment)).length = _
  rw [List.length_take, ByteStream.bytesToRead_eq]
  omega

/-- What is left of the window after a pass: the payload alone did not use it up. -/
theorem payload_lt_window {s : TCPSender} (h : s.KeepsFilling) (hnext : 0 < s.nextSeqnoAbsolute)
    (hwin : 0 < s.sendData.windowSize) : s.dataSegment.payload.length < s.windowSize := by
  have hemit := h.emit hnext
  generalize s.sendData = u at hemit hwin
  obtain ⟨hf⟩ := hemit
  rw [afterSend_windowSize, TCPSegment.lengthInSequenceSpace] at hwin
  omega

/-- A pass that leaves room in the window and bytes in the buffer has sent a full
    payload. -/
theorem sendData_payload {s : TCPSender} (h : s.KeepsFilling) (hnext : 0 < s.nextSeqnoAbsolute)
    (hagain : s.sendData.KeepsFilling) :
    s.dataSegment.payload.length = TCPConfig.maxPayloadSize := by
  obtain ⟨hwin, hbuf⟩ := (keepsFilling_iff _).mp hagain
  have hless := payload_lt_window h hnext hwin
  have hrest := (h.emit hnext).buffer_length_le
  have hpos := List.length_pos_iff.mpr hbuf
  have hlen := s.dataSegment_payload_length
  omega

/-- A pass that empties the buffer takes the FIN along if it fits. -/
theorem sendData_fin {s : TCPSender} (h : s.KeepsFilling) (hnext : 0 < s.nextSeqnoAbsolute)
    (heof : s.sendData.stream.eof = true) (hwin : 0 < s.sendData.windowSize) :
    s.sendData.finSent = true := by
  have hless := payload_lt_window h hnext hwin
  have hemit := h.emit hnext
  generalize s.sendData = u at hemit heof
  obtain ⟨hf⟩ := hemit
  have hstream := hf.read_eq
  rw [show s.dataSegment.payload = (s.stream.read s.bytesPerSegment).1 from rfl,
    ByteStream.read_fst_length] at hstream
  rw [afterSend_stream] at heof
  rw [afterSend_finSent, Bool.or_eq_true]
  by_contra hnot
  rw [not_or, Bool.not_eq_true] at hnot
  -- nothing keeps the FIN from going out with the payload
  refine hnot.2 ((piggybacksFin_iff s).mpr ⟨?_, hnot.1, hless⟩)
  rw [hstream]
  exact heof

-- ============================================================================
-- The loop
-- ============================================================================

/-- With passes for every buffered byte the loop ends by its own test. -/
theorem fillLoop_ends (fuel : Nat) {s : TCPSender} (hnext : 0 < s.nextSeqnoAbsolute)
    (hfuel : s.stream.bufferSize ≤ fuel) : ¬ (fillLoop fuel s).KeepsFilling := by
  rw [keepsFilling_iff, not_and_or, Nat.not_lt, Nat.le_zero, not_not]
  exact fillLoop_done fuel hnext hfuel

/-- Any two numbers of passes that cover the buffer give the same result. -/
theorem fillLoop_congr {fuel : Nat} {s : TCPSender} (hnext : 0 < s.nextSeqnoAbsolute)
    (hfuel : s.stream.bufferSize ≤ fuel) : fillLoop fuel s = fillLoop s.stream.bufferSize s := by
  have hmore : ∀ n k (u : TCPSender), ¬ (fillLoop n u).KeepsFilling →
      fillLoop (n + k) u = fillLoop n u := by
    intro n k
    induction n with
    | zero =>
        intro u hu
        rw [Nat.zero_add]
        exact fillLoop_of_not hu k
    | succ n ih =>
        intro u hu
        by_cases hkeeps : u.KeepsFilling
        · rw [fillLoop_succ hkeeps] at hu ⊢
          rw [Nat.succ_add, fillLoop_succ hkeeps]
          exact ih _ hu
        · rw [fillLoop_of_not hkeeps, fillLoop_of_not hkeeps]
  obtain ⟨k, rfl⟩ := Nat.exists_eq_add_of_le hfuel
  exact hmore _ k s (fillLoop_ends _ hnext (Nat.le_refl _))

/-- What the passes of the loop send: all payloads but the last are full, and after
    at least one pass no FIN is left behind that would fit. -/
theorem fillLoop_segments (fuel : Nat) {s : TCPSender} (hnext : 0 < s.nextSeqnoAbsolute) :
    ∃ segs, Run Emit s segs (fillLoop fuel s) ∧
      (∀ seg ∈ segs.dropLast, seg.payload.length = TCPConfig.maxPayloadSize) ∧
      (segs ≠ [] → s.KeepsFilling ∧ ((fillLoop fuel s).stream.eof = true →
        0 < (fillLoop fuel s).windowSize → (fillLoop fuel s).finSent = true)) := by
  induction fuel generalizing s with
  | zero => exact ⟨[], Run.nil, by simp, by simp⟩
  | succ fuel ih =>
      by_cases hkeeps : s.KeepsFilling
      · have hemit := hkeeps.emit hnext
        obtain ⟨segs, hrun, hfull, hfin⟩ := ih (s := s.sendData)
          (Nat.lt_of_le_of_lt (Nat.zero_le _) hemit.nextSeqnoAbsolute_lt)
        rw [fillLoop_succ hkeeps]
        refine ⟨s.dataSegment :: segs, (Run.single hemit).append hrun, ?_, fun _ => ⟨hkeeps, ?_⟩⟩
        · by_cases hlast : segs = []
          · simp [hlast]
          · rw [List.dropLast_cons_of_ne_nil hlast]
            -- a further pass was made
            have hagain := (hfin hlast).1
            exact List.forall_mem_cons.mpr ⟨sendData_payload hkeeps hnext hagain, hfull⟩
        · by_cases hlast : segs = []
          · subst hlast
            rw [hrun.eq_of_nil]
            exact sendData_fin hkeeps hnext
          · exact (hfin hlast).2
      · rw [fillLoop_of_not hkeeps]
        exact ⟨[], Run.nil, by simp, by simp⟩

/-- New segments take what they occupy from the window. -/
theorem window_of_run {s s' : TCPSender} {segs : List TCPSegment} (h : Run Emit s segs s')
    (hnext : 0 < s.nextSeqnoAbsolute) : (wire segs).length + s'.windowSize = s.windowSize := by
  refine (h.invariant_hist (I := fun segs t => 0 < t.nextSeqnoAbsolute ∧
    (wire segs).length + t.windowSize = s.windowSize) ⟨hnext, by simp⟩ ?_).2
  rintro segs t seg u ⟨ht, hwin⟩ hemit
  have hgrows := hemit.nextSeqnoAbsolute_lt
  refine ⟨by omega, ?_⟩
  obtain ⟨hf⟩ := hemit
  have hsyn : seg.header.syn = false := by
    rw [← Bool.not_eq_true, hf.syn_iff]
    omega
  have hle := hf.window_le hsyn
  rw [wire_append, wire_singleton, List.length_append, TCPSegment.cells_length,
    afterSend_windowSize]
  omega

-- ============================================================================
-- The whole of `fill_window`
-- ============================================================================

/-- Filling the window from `s`, the SYN being out: the loop ends, the segments take
    exactly what they occupy from the window, all but the last carry as much as a
    segment may, and nothing that fits is left. -/
structure FillsMaximally (s : TCPSender) (segs : List TCPSegment) (s' : TCPSender) : Prop where
  terminates : ∀ fuel, s.stream.bufferSize ≤ fuel →
    fillLoop fuel s = fillLoop s.stream.bufferSize s ∧ ¬ (fillLoop fuel s).KeepsFilling
  emitted : s'.segmentsOut = s.segmentsOut ++ segs
  bounded : (wire segs).length ≤ s.windowSize
  window_eq : s'.windowSize = s.windowSize - (wire segs).length
  payload_eq : ∀ seg ∈ segs.dropLast, seg.payload.length = TCPConfig.maxPayloadSize
  maximal : s'.windowSize = 0 ∨
    s'.stream.buffer = [] ∧ (s'.stream.inputEnded = true → s'.finSent = true)

/-- The segments of `fill_window` are those of its loop, or a FIN alone. -/
theorem fillWindow_segments {s : TCPSender} (hnext : 0 < s.nextSeqnoAbsolute) :
    ∃ segs, Run Emit s segs s.fillWindow ∧
      ∀ seg ∈ segs.dropLast, seg.payload.length = TCPConfig.maxPayloadSize := by
  have hsyn : s.sendSyn = s := if_neg (by omega)
  unfold fillWindow
  simp only [hsyn]
  split
  · exact ⟨[], Run.nil, by simp⟩
  · obtain ⟨segs, hrun, hfull, hfin⟩ := fillLoop_segments s.stream.bufferSize hnext
    have hle := nextSeqnoAbsolute_le_of_run hrun
    generalize fillLoop s.stream.bufferSize s = u at hrun hfin hle
    unfold sendFin
    split
    · rename_i h
      obtain ⟨heof, hnot, hwin⟩ := h
      -- the FIN goes out alone only if the loop had nothing to send
      have hnil : segs = [] := by
        by_contra hne
        rw [(hfin hne).2 heof hwin] at hnot
        cases hnot
      subst hnil
      obtain rfl := hrun.eq_of_nil
      exact ⟨_, Run.single (emit_fin hnext hwin heof hnot), by simp⟩
    · exact ⟨segs, hrun, hfull⟩

/-- **Filling the window.**  Once the SYN is out, `fill_window` terminates, sends
    within the window and leaves nothing unsent that the window has room for. -/
theorem fillWindow_maximal (s : TCPSender) (hnext : 0 < s.nextSeqnoAbsolute) :
    ∃ segs, s.FillsMaximally segs s.fillWindow := by
  obtain ⟨segs, hrun, hpayload⟩ := fillWindow_segments hnext
  have hwin := window_of_run hrun hnext
  exact ⟨segs,
    { terminates := fun fuel hfuel =>
        ⟨fillLoop_congr hnext hfuel, fillLoop_ends fuel hnext hfuel⟩
      emitted := segmentsOut_of_run hrun
      bounded := by omega
      window_eq := by omega
      payload_eq := hpayload
      maximal := s.fillWindow_full }⟩

/-- A sender with a window of 4 and six bytes to send. -/
def sixBytesWaiting : TCPSender :=
  ((TCPSender.new 16 1000 ⟨0⟩).fillWindow.ackReceived ⟨1⟩ 4).writeStream [97, 98, 99, 100, 101, 102]

theorem fillWindow_maximal_sixBytesWaiting :
    sixBytesWaiting.fillWindow.windowSize = 0 ∧
      sixBytesWaiting.fillWindow.stream.buffer = [101, 102] ∧
      ∃ segs, sixBytesWaiting.FillsMaximally segs sixBytesWaiting.fillWindow :=
  ⟨by decide, by decide, fillWindow_maximal sixBytesWaiting (by decide)⟩

end TCPSender

end Sponge
