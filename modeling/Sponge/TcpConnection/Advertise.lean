/-
  Sponge.TcpConnection.Advertise

  The window that a connection advertises.

  The right edge of the receiver's window, `ackno + window_size()`, never moves back:
  an arriving byte moves the acknowledgement up and the window down, a read moves the
  window up, and the FIN moves the acknowledgement.  What is advertised is the window
  truncated to the 16 bits of the header.  That makes no difference exactly for the
  capacities below 2^16 (`advertises_iff_capacity_lt`): from there on a window of
  65536 is advertised as 0, and the right edge falls back by as much.
-/

import Sponge.StreamReassembler.Capacity
import Sponge.TcpConnection.Output

namespace Sponge

open Lib (Run Guarded)

namespace TCPReceiver

-- ============================================================================
-- The receiver's window
-- ============================================================================

/-- The absolute number that `ackno()` stands for. -/
def absoluteAckno (r : TCPReceiver) : Nat :=
  1 + r.streamOut.bytesWritten + if r.streamOut.inputEnded then 1 else 0

/-- The right edge of the receiver's window. -/
def windowEdge (r : TCPReceiver) : Nat := r.absoluteAckno + r.windowSize

/-- The receiver and its reassembler have the same capacity. -/
def Sized (r : TCPReceiver) : Prop := r.reassembler.capacity = r.capacity

variable {r r' : TCPReceiver}

theorem Sized.buffer_le (h : r.Sized) : r.streamOut.buffer.length ≤ r.capacity.toNat := by
  have hfits := r.reassembler.output.fits
  rw [r.reassembler.sized, h] at hfits
  exact hfits

/-- The buffer and the window make up the capacity. -/
theorem Sized.windowSize_add (h : r.Sized) :
    r.windowSize + r.streamOut.buffer.length = r.capacity.toNat := by
  have hle := h.buffer_le
  have hlt := r.capacity.toNat_lt
  have hsub : r.windowSize = r.capacity.toNat - r.streamOut.buffer.length :=
    StreamReassembler.sizeSub_of_le hle (by omega)
  omega

/-- What keeps the window's edge from moving back: no end is taken back, and no more
    bytes come into the buffer than are written. -/
theorem Sized.windowEdge_le (h : r.Sized) (h' : r'.Sized) (hcap : r'.capacity = r.capacity)
    (hended : r.streamOut.inputEnded = true → r'.streamOut.inputEnded = true)
    (hbytes : r.streamOut.bytesWritten + r'.streamOut.buffer.length ≤
      r'.streamOut.bytesWritten + r.streamOut.buffer.length) :
    r.windowEdge ≤ r'.windowEdge := by
  have hw := h.windowSize_add
  have hw' := h'.windowSize_add
  rw [hcap] at hw'
  have hend : (if r.streamOut.inputEnded then 1 else 0) ≤
      if r'.streamOut.inputEnded then 1 else 0 := by
    split
    · rw [if_pos (hended ‹_›)]
    · exact Nat.zero_le _
  unfold windowEdge absoluteAckno
  omega

theorem segmentReceived_sized {seg : TCPSegment} (h : r.segmentReceived seg = some r')
    (hs : r.Sized) : r'.Sized ∧ r'.capacity = r.capacity := by
  obtain ⟨-, -, rfl⟩ | ⟨-, reassembler, hpush, rfl⟩ := segmentReceived_cases h
  · exact ⟨hs, rfl⟩
  · have hcap : (r.synced seg).capacity = r.capacity := by
      unfold synced
      split <;> rfl
    refine ⟨?_, hcap⟩
    obtain ⟨-, -, -, hsame⟩ := StreamReassembler.pushSubstring_output hpush
    exact (hsame.trans hs).trans hcap.symm

theorem segmentReceived_windowEdge {seg : TCPSegment} (h : r.segmentReceived seg = some r')
    (hs : r.Sized) : r.windowEdge ≤ r'.windowEdge := by
  obtain ⟨hs', hcap⟩ := segmentReceived_sized h hs
  refine hs.windowEdge_le hs' hcap (segmentReceived_keeps h).2.1 ?_
  obtain ⟨-, -, rfl⟩ | ⟨-, reassembler, hpush, rfl⟩ := segmentReceived_cases h
  · exact Nat.le_refl _
  · obtain ⟨⟨bytes, hbuf, hwritten⟩, -⟩ := StreamReassembler.pushSubstring_output hpush
    show r.reassembler.output.bytesWritten + reassembler.output.buffer.length ≤
      reassembler.output.bytesWritten + r.reassembler.output.buffer.length
    rw [hbuf, hwritten, List.length_append]
    omega

end TCPReceiver

namespace TCPConnection

/-- No operation moves the edge of the receiver's window back. -/
theorem ReceiverStep.windowEdge_le {c : TCPConnection} {op : Op} {r : TCPReceiver}
    (h : c.ReceiverStep op r) (hs : c.receiver.Sized) :
    r.Sized ∧ r.capacity = c.receiver.capacity ∧ c.receiver.windowEdge ≤ r.windowEdge := by
  cases h with
  | same | setError => exact ⟨hs, rfl, Nat.le_refl _⟩
  | read len | popOutput len =>
      -- reading shortens the buffer and leaves the capacity as it is
      refine ⟨hs, rfl, hs.windowEdge_le hs rfl id ?_⟩
      show c.receiver.streamOut.bytesWritten + (c.receiver.streamOut.buffer.drop _).length ≤ _
      rw [List.length_drop]
      exact Nat.add_le_add_left (Nat.sub_le ..) _
  | receive _ _ h =>
      obtain ⟨hs', hcap⟩ := TCPReceiver.segmentReceived_sized h hs
      exact ⟨hs', hcap, TCPReceiver.segmentReceived_windowEdge h hs⟩

-- ============================================================================
-- What is advertised
-- ============================================================================

/-- The right edge that a segment with an acknowledgement advertises. -/
def Emission.rightEdge (e : Emission) : Nat := e.receiver.absoluteAckno + e.seg.header.win.toNat

/-- What an acknowledgement says about the receiver: its `ackno()`, and its
    `window_size()` truncated to 16 bits. -/
structure Emission.Faithful (e : Emission) : Prop where
  ackno_eq : e.seg.header.ackno = wrap e.receiver.absoluteAckno ⟨e.receiver.isn⟩
  win_eq : e.seg.header.win = UInt16.ofNat e.receiver.windowSize

theorem stamp_of_synRecv {r : TCPReceiver} (h : r.synRecv = true) (seg : TCPSegment) :
    (stamp r seg).header.ack = true ∧ Emission.Faithful ⟨stamp r seg, r⟩ := by
  have hackno : r.ackno = some (wrap r.absoluteAckno ⟨r.isn⟩) := by
    rw [TCPReceiver.ackno_eq, if_pos h]
    rfl
  rw [stamp_of_ackno seg hackno]
  exact ⟨rfl, rfl, rfl⟩

theorem stamp_of_not_synRecv {r : TCPReceiver} (h : r.synRecv = false) (seg : TCPSegment) :
    stamp r seg = seg := by
  have hackno : r.ackno = none := by
    rw [TCPReceiver.ackno_eq, h]
    rfl
  unfold stamp
  rw [hackno]

end TCPConnection

namespace ConnectionTrace

open TCPConnection

/-- Over everything put out with the ACK flag set, the right edge of the advertised
    window does not move back, and a window of 0 is advertised only for a window
    of 0. -/
structure Advertises (t : ConnectionTrace) : Prop where
  edge_mono : (t.emitted.filter (·.seg.header.ack)).Pairwise fun e e' =>
    e.rightEdge ≤ e'.rightEdge
  ackno_eq : ∀ e ∈ t.emitted, e.seg.header.ack = true →
    e.seg.header.ackno = wrap e.receiver.absoluteAckno ⟨e.receiver.isn⟩
  zero_only : ∀ e ∈ t.emitted, e.seg.header.ack = true → e.seg.header.win = 0 →
    e.receiver.windowSize = 0

theorem TraceInv.faithful {t : ConnectionTrace} (h : t.TraceInv) {e : Emission}
    (he : e ∈ t.emitted) (hack : e.seg.header.ack = true) : e.Faithful := by
  obtain ⟨seg', r⟩ := e
  rcases h.emitted _ he with hrst | ⟨seg, hseg, heq⟩
  · simp only at hrst hack
    rw [hrst] at hack
    cases hack
  · simp only at heq hack
    subst heq
    cases hsyn : r.synRecv with
    | true => exact (stamp_of_synRecv hsyn seg).2
    | false =>
        -- the sender itself acknowledges nothing
        obtain ⟨finAt, hw⟩ := h.wired
        rw [stamp_of_not_synRecv hsyn, hw.segments.ack_eq_false hseg] at hack
        cases hack

/-- The receiver's capacity is that of the configuration, and the edges of the windows
    behind what was put out are in order, up to the present one. -/
structure EdgeInv (cfg : TCPConfig) (t : ConnectionTrace) : Prop where
  sized : t.conn.receiver.Sized
  capacity_eq : t.conn.receiver.capacity = cfg.recvCapacity
  window_le : ∀ e ∈ t.emitted, e.receiver.windowSize ≤ cfg.recvCapacity.toNat
  edge_le : ∀ e ∈ t.emitted, e.receiver.windowEdge ≤ t.conn.receiver.windowEdge
  edge_mono : t.emitted.Pairwise fun e e' => e.receiver.windowEdge ≤ e'.receiver.windowEdge

/-- The receiver behind what an operation puts out is the one after it. -/
theorem queuedBy_receiver {c c' : TCPConnection} {op : Op} (h : c.step op = some c')
    {e : Emission} (he : e ∈ c.queuedBy op) :
    e.receiver.windowEdge = c'.receiver.windowEdge ∧
    e.receiver.windowSize = c'.receiver.windowSize := by
  rcases List.mem_append.mp he with he | he
  · cases h₁ : c.sending op with
    | none =>
        rw [h₁] at he
        cases he
    | some c₁ =>
        rw [h₁] at he
        obtain ⟨seg, -, rfl⟩ := List.mem_map.mp he
        obtain ⟨-, rfl⟩ | ⟨-, -, hr, -⟩ := step_of_sending h h₁
        · rw [(stopLingering_frame _).2.1]
          exact ⟨rfl, rfl⟩
        · rw [hr]
          exact ⟨rfl, rfl⟩
  · split at he
    · rename_i hgive
      rw [List.mem_singleton.mp he]
      cases op with
      | tick ms =>
          obtain ⟨-, rfl⟩ | ⟨hnot, -⟩ := step_of_sending h rfl
          · rw [(stopLingering_frame _).2.1]
            exact ⟨rfl, rfl⟩
          · exact absurd hgive hnot
      | _ => exact hgive.elim
    · cases he

theorem edgeInv_new (endNode : List ByteString → Nat) (cfg : TCPConfig) (isn : WrappingInt32) :
    (new endNode cfg isn).EdgeInv cfg where
  sized := rfl
  capacity_eq := rfl
  window_le := by simp [new]
  edge_le := by simp [new]
  edge_mono := List.Pairwise.nil

theorem EdgeInv.step {cfg : TCPConfig} {t t' : ConnectionTrace} (h : t.EdgeInv cfg) {op : Op}
    (hs : t.step op = some t') : t'.EdgeInv cfg := by
  obtain ⟨hc, hemit, -⟩ := step_conn hs
  obtain ⟨hsized, hcap, hedge⟩ := (step_receiver hc).windowEdge_le h.sized
  rw [h.capacity_eq] at hcap
  refine ⟨hsized, hcap, ?_, ?_, ?_⟩
  · intro e he
    rw [hemit] at he
    rcases List.mem_append.mp he with he | he
    · exact h.window_le e he
    · have hw := hsized.windowSize_add
      rw [(queuedBy_receiver hc he).2]
      rw [hcap] at hw
      omega
  · intro e he
    rw [hemit] at he
    rcases List.mem_append.mp he with he | he
    · exact Nat.le_trans (h.edge_le e he) hedge
    · exact Nat.le_of_eq (queuedBy_receiver hc he).1
  · rw [hemit, List.pairwise_append]
    refine ⟨h.edge_mono, ?_, ?_⟩
    · refine List.pairwise_of_forall_mem_list fun e he e' he' => ?_
      rw [(queuedBy_receiver hc he).1, (queuedBy_receiver hc he').1]
    · intro e he e' he'
      rw [(queuedBy_receiver hc he').1]
      exact Nat.le_trans (h.edge_le e he) hedge

/-- Below 2^16 nothing is truncated. -/
theorem EdgeInv.advertises {cfg : TCPConfig} {t : ConnectionTrace} (h : t.EdgeInv cfg)
    (ht : t.TraceInv) (hcap : cfg.recvCapacity.toNat < 2 ^ 16) : t.Advertises := by
  have hwin : ∀ e ∈ t.emitted, e.seg.header.ack = true →
      e.seg.header.win.toNat = e.receiver.windowSize := by
    intro e he hack
    have hle := h.window_le e he
    rw [(ht.faithful he hack).win_eq, UInt16.toNat_ofNat']
    exact Nat.mod_eq_of_lt (by omega)
  refine ⟨?_, fun e he hack => (ht.faithful he hack).ackno_eq, ?_⟩
  · refine (h.edge_mono.filter _).imp_of_mem ?_
    intro e e' he he' hle
    obtain ⟨he, hack⟩ := List.mem_filter.mp he
    obtain ⟨he', hack'⟩ := List.mem_filter.mp he'
    rw [Emission.rightEdge, Emission.rightEdge, hwin e he hack, hwin e' he' hack']
    exact hle
  · intro e he hack hzero
    rw [← hwin e he hack, hzero]
    rfl

end ConnectionTrace

-- ============================================================================
-- Larger capacities
-- ============================================================================

/-- A fresh reassembler writes what it is given at index 0 straight to its output. -/
theorem StreamReassembler.pushData_new (endNode : List ByteString → Nat) {capacity : UInt64}
    {data : List UInt8} (h : data.length ≤ capacity.toNat) :
    ((new endNode capacity).pushData data 0).output.buffer = data := by
  by_cases hnil : data = []
  · subst hnil
    rw [pushData_nil]
    rfl
  · have hlen := List.length_pos_iff.mpr hnil
    have hbound : (new endNode capacity).rightBound 0 = capacity.toNat := by
      have hlt := capacity.toNat_lt
      show sizeSub (0 + capacity.toNat - 0) 0 = _
      rw [sizeSub_of_le (Nat.zero_le _) (by omega)]
      omega
    have htrim : (new endNode capacity).trim data 0 = some ⟨0, data⟩ := by
      unfold trim
      rw [if_neg (show ¬ 0 < (new endNode capacity).index from Nat.lt_irrefl 0), hbound,
        List.take_of_length_le h]
    have hkept : ¬ (new endNode capacity).Ignored data 0 := by
      have hlt := capacity.toNat_lt
      rw [Ignored, lastIndex_of_lt (by omega)]
      show ¬ (0 + data.length ≤ 0 ∨ 0 > 0 + capacity.toNat ∨ data.length = 0)
      omega
    have hflush : ((new endNode capacity).pushUnassembledBytes data 0).flushToOutput.output =
        ((ByteStream.new capacity.toNat).write data).2 := by
      rw [pushUnassembledBytes, htrim]
      simp [flushToOutput, new, insertSorted, writeToOutput]
    rw [pushData, if_neg (by exact hkept), hflush, ByteStream.write_buffer, ByteStream.bytesToWrite_eq]
    show [] ++ data.take (min data.length (capacity.toNat - 0)) = data
    rw [List.nil_append, List.take_of_length_le (by omega)]

/-- A SYN that brings so many bytes that the window is a multiple of 2^16. -/
def roundingSyn (capacity : UInt64) : TCPSegment :=
  { header := { syn := true }, payload := List.replicate (capacity.toNat % 2 ^ 16) 0 }

theorem roundingSyn_received (endNode : List ByteString → Nat) (capacity : UInt64) :
    ∃ r, (TCPReceiver.new endNode capacity).segmentReceived (roundingSyn capacity) = some r ∧
      r.synRecv = true ∧ r.windowSize = capacity.toNat - capacity.toNat % 2 ^ 16 := by
  have hle : (roundingSyn capacity).payload.length ≤ capacity.toNat := by
    show (List.replicate _ (0 : UInt8)).length ≤ _
    rw [List.length_replicate]
    exact Nat.mod_le ..
  have hsized : (TCPReceiver.new endNode capacity).Sized := rfl
  have hindex : (TCPReceiver.unwrappedIndex
      { TCPReceiver.new endNode capacity with synRecv := true, isn := 0 } 1) = 0 := by
    show (unwrap ⟨1⟩ ⟨0 + 1⟩ (UInt64.ofNat 0)).toNat = 0
    decide
  obtain ⟨r, hr⟩ : ∃ r, r = { TCPReceiver.new endNode capacity with
      synRecv := true
      isn := 0
      reassembler := (StreamReassembler.new endNode capacity).pushData
        (roundingSyn capacity).payload 0 } := ⟨_, rfl⟩
  have hrec : (TCPReceiver.new endNode capacity).segmentReceived (roundingSyn capacity) =
      some r := by
    show TCPReceiver.pushPayload
      { TCPReceiver.new endNode capacity with synRecv := true, isn := 0 } (0 + 1)
        (roundingSyn capacity) = _
    unfold TCPReceiver.pushPayload
    rw [show (0 + 1 : UInt32) = 1 from rfl, hindex, hr]
    rfl
  have hlen : r.streamOut.buffer.length = capacity.toNat % 2 ^ 16 := by
    rw [hr]
    exact (congrArg List.length (StreamReassembler.pushData_new endNode hle)).trans
      List.length_replicate
  obtain ⟨hsized', hcap⟩ := TCPReceiver.segmentReceived_sized hrec hsized
  have hwindow := hsized'.windowSize_add
  rw [hlen, hcap] at hwindow
  refine ⟨r, hrec, by rw [hr], ?_⟩
  show _ = (TCPReceiver.new endNode capacity).capacity.toNat - _
  omega

namespace ConnectionTrace

open TCPConnection

/-- From 2^16 on there is a window that is advertised as 0 but is not 0. -/
theorem not_advertises_of_le (endNode : List ByteString → Nat) (cfg : TCPConfig)
    (isn : WrappingInt32) (hcap : 2 ^ 16 ≤ cfg.recvCapacity.toNat) :
    ∃ t, Run (Guarded (fun _ _ => True) step) (new endNode cfg isn)
      [.segmentReceived (roundingSyn cfg.recvCapacity)] t ∧ ¬ t.Advertises := by
  obtain ⟨r, hr, hsyn, hwin⟩ := roundingSyn_received endNode cfg.recvCapacity
  have hproc : (TCPConnection.new endNode cfg isn).Processes (roundingSyn cfg.recvCapacity) :=
    Or.inr rfl
  have hpos : 0 < (roundingSyn cfg.recvCapacity).lengthInSequenceSpace := by
    show 0 < _ + 1 + 0
    omega
  -- some answer is put out, stamped by the receiver that took the segment in
  obtain ⟨c₁, hc₁⟩ : ∃ c₁, c₁ = (((TCPConnection.new endNode cfg isn).received r).takeAck
    (roundingSyn cfg.recvCapacity)).ensureReply (roundingSyn cfg.recvCapacity) := ⟨_, rfl⟩
  have hsent : (TCPConnection.new endNode cfg isn).sending
      (.segmentReceived (roundingSyn cfg.recvCapacity)) = some c₁ := by
    simp only [sending]
    rw [if_pos ⟨hproc, rfl⟩, hc₁]
    exact congrArg _ hr
  have hreceiver : c₁.receiver = r := by
    rw [hc₁, (reply_frame _ _).1]
    rfl
  obtain ⟨seg, hseg⟩ := List.exists_mem_of_ne_nil _
    (hc₁ ▸ ensureReply_ne_nil _ hpos : c₁.sender.segmentsOut ≠ [])
  obtain ⟨hack, hfaithful⟩ := stamp_of_synRecv hsyn seg
  have hmem : (⟨stamp r seg, r⟩ : Emission) ∈ (TCPConnection.new endNode cfg isn).queuedBy
      (.segmentReceived (roundingSyn cfg.recvCapacity)) := by
    refine List.mem_append_left _ ?_
    rw [hsent]
    exact List.mem_map.mpr ⟨seg, hseg, by rw [hreceiver]⟩
  obtain ⟨c, hc⟩ := segmentReceived_returns (c := TCPConnection.new endNode cfg isn) hr
  refine ⟨_, Run.single ⟨trivial, show step _ _ = some _ from congrArg (Option.map _) hc⟩, ?_⟩
  intro h
  have hzero := h.zero_only ⟨stamp r seg, r⟩ hmem hack ?_
  · simp only [hwin] at hzero
    omega
  · rw [hfaithful.win_eq, hwin]
    apply UInt16.toNat_inj.mp
    rw [UInt16.toNat_ofNat']
    show _ = 0
    omega

/-- **The advertised window.**  The right edge of the advertised window never moves
    back and 0 is advertised only for a window of 0, in every run, exactly if the
    capacity is below 2^16. -/
theorem advertises_iff_capacity_lt (cfg : TCPConfig) :
    (∀ (endNode : List ByteString → Nat) (isn : WrappingInt32) (ops : List Op)
      (t : ConnectionTrace),
      Run (Guarded (fun _ _ => True) step) (new endNode cfg isn) ops t → t.Advertises) ↔
    cfg.recvCapacity.toNat < 2 ^ 16 := by
  constructor
  · intro h
    by_contra hcap
    obtain ⟨t, hrun, hnot⟩ := not_advertises_of_le List.length cfg ⟨0⟩ (by omega)
    exact hnot (h _ _ _ t hrun)
  · intro hcap endNode isn ops t hrun
    have hedge : t.EdgeInv cfg :=
      hrun.invariant (edgeInv_new endNode cfg isn) fun _ _ _ h hs => h.step hs.2
    exact hedge.advertises (traceInv_run hrun) hcap

/-- A byte arrives, is read, and arrives again. -/
def readBack : List Op :=
  [.segmentReceived { header := { syn := true } },
    .segmentReceived { header := { seqno := ⟨1⟩ }, payload := [97] },
    .read 1,
    .segmentReceived { header := { seqno := ⟨1⟩ }, payload := [97] }]

/-- With a capacity of 65536 the window is advertised as 0, then as 65535, and when the
    byte was read as 0 again: the right edge falls from 65537 to 2. -/
theorem advertises_fails :
    ∃ t, Run (Guarded (fun _ _ => True) step)
        (new List.length { recvCapacity := 65536, fixedIsn := some ⟨0⟩ } ⟨0⟩) readBack t ∧
      t.emitted.map (fun e => (e.seg.header.ack, e.receiver.windowSize, e.rightEdge)) =
        [(true, 65536, 1), (true, 65535, 65537), (true, 65536, 2)] ∧
      ¬ t.Advertises := by
  have hrun := Run.of_exec (fun _ _ => True) step
    (new List.length { recvCapacity := 65536, fixedIsn := some ⟨0⟩ } ⟨0⟩) readBack (by decide)
  refine ⟨_, hrun, by decide, fun h => ?_⟩
  have hmono := h.edge_mono
  revert hmono
  decide

end ConnectionTrace

end Sponge
