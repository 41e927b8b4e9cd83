/-
  Sponge.TcpState

  The summary of a connection's state (`tcp_state.hh`, `tcp_state.cc`).

  The source summarises the two halves by constant strings that are only compared
  with each other; here they are the constructors of two enumerations.
-/

import Sponge.TcpReceiver
import Sponge.TcpSender.Basic

namespace Sponge

/-- `TCPReceiverStateSummary` -/
inductive TCPReceiverStateSummary
  | error
  | listen
  | synRecv
  | finRecv
deriving DecidableEq, Repr

/-- `TCPSenderStateSummary` -/
inductive TCPSenderStateSummary
  | error
  | closed
  | synSent
  | synAcked
  | finSent
  | finAcked
deriving DecidableEq, Repr

/-- `TCPState` -/
structure TCPState where
  sender : TCPSenderStateSummary
  receiver : TCPReceiverStateSummary
  active : Bool := true
  lingerAfterStreamsFinish : Bool := true
deriving DecidableEq, Repr

namespace TCPState

/-- `TCPState::State`: the official names. -/
inductive State
  | listen
  | synRcvd
  | synSent
  | established
  | closeWait
  | lastAck
  | finWait1
  | finWait2
  | closing
  | timeWait
  | closed
  | reset
deriving DecidableEq, Repr

/-- `TCPState(state)` -/
def ofState : State → TCPState
  | .listen => { receiver := .listen, sender := .closed }
  | .synRcvd => { receiver := .synRecv, sender := .synSent }
  | .synSent => { receiver := .listen, sender := .synSent }
  | .established => { receiver := .synRecv, sender := .synAcked }
  | .closeWait =>
      { receiver := .finRecv, sender := .synAcked, lingerAfterStreamsFinish := false }
  | .lastAck => { receiver := .finRecv, sender := .finSent, lingerAfterStreamsFinish := false }
  | .closing => { receiver := .finRecv, sender := .finSent }
  | .finWait1 => { receiver := .synRecv, sender := .finSent }
  | .finWait2 => { receiver := .synRecv, sender := .finAcked }
  | .timeWait => { receiver := .finRecv, sender := .finAcked }
  | .reset =>
      { receiver := .error, sender := .error, lingerAfterStreamsFinish := false, active := false }
  | .closed =>
      { receiver := .finRecv, sender := .finAcked, lingerAfterStreamsFinish := false,
        active := false }

end TCPState

/-- `state_summary(receiver)` -/
def TCPReceiver.stateSummary (receiver : TCPReceiver) : TCPReceiverStateSummary :=
  if receiver.streamOut.error then .error
  else if receiver.ackno.isNone then .listen
  else if receiver.streamOut.inputEnded then .finRecv
  else .synRecv

/-- `state_summary(sender)` -/
def TCPSender.stateSummary (sender : TCPSender) : TCPSenderStateSummary :=
  if sender.stream.error then .error
  else if sender.nextSeqnoAbsolute = 0 then .closed
  else if sender.nextSeqnoAbsolute = sender.bytesInFlight then .synSent
  else if sender.stream.eof = false then .synAcked
  else if sender.nextSeqnoAbsolute < sender.stream.bytesWritten + 2 then .synAcked
  else if sender.bytesInFlight ≠ 0 then .finSent
  else .finAcked

/-- `TCPState(sender, receiver, active, linger)` -/
def TCPState.of (sender : TCPSender) (receiver : TCPReceiver) (active linger : Bool) : TCPState where
  sender := sender.stateSummary
  receiver := receiver.stateSummary
  active := active
  lingerAfterStreamsFinish := if active then linger else false

-- ============================================================================
-- The summary of a sender
-- ============================================================================

namespace TCPSender

/-- The summary of a sender whose SYN was acknowledged. -/
theorem stateSummary_of_acked {s : TCPSender} (herr : s.stream.error = false)
    (hacked : s.bytesInFlight < s.nextSeqnoAbsolute) :
    s.stateSummary =
      if s.stream.eof = true ∧ s.stream.bytesWritten + 2 ≤ s.nextSeqnoAbsolute then
        if s.bytesInFlight = 0 then .finAcked else .finSent
      else .synAcked := by
  have hpos : s.nextSeqnoAbsolute ≠ 0 := by omega
  have hne : s.nextSeqnoAbsolute ≠ s.bytesInFlight := by omega
  simp only [stateSummary, herr, hpos, hne, Bool.false_eq_true, if_false]
  cases s.stream.eof with
  | false => simp
  | true =>
      by_cases hnext : s.nextSeqnoAbsolute < s.stream.bytesWritten + 2
      · simp [hnext, Nat.not_le.mpr hnext]
      · by_cases hflight : s.bytesInFlight = 0 <;> simp [hnext, Nat.not_lt.mp hnext, hflight]

theorem Counts.stateSummary_unsent {s : TCPSender} (h : s.Counts) (herr : s.stream.error = false)
    (hacked : s.bytesInFlight < s.nextSeqnoAbsolute) (hfin : s.finSent = false) :
    s.stateSummary = .synAcked := by
  have hnext := h.next_eq (by omega)
  have hwritten := h.written_eq
  rw [hfin] at hnext
  rw [stateSummary_of_acked herr hacked, if_neg]
  rintro ⟨-, hle⟩
  simp only [Bool.false_eq_true, if_false] at hnext
  omega

theorem Counts.stateSummary_sent {s : TCPSender} (h : s.Counts) (herr : s.stream.error = false)
    (hacked : s.bytesInFlight < s.nextSeqnoAbsolute) (hfin : s.finSent = true)
    (heof : s.stream.eof = true) :
    s.stateSummary = if s.bytesInFlight = 0 then .finAcked else .finSent := by
  have hnext := h.next_eq (by omega)
  have hwritten := h.written_eq
  rw [hfin, if_pos rfl] at hnext
  rw [((s.stream.eof_iff).mp heof).2, List.length_nil] at hwritten
  rw [stateSummary_of_acked herr hacked, if_pos ⟨heof, by omega⟩]

end TCPSender

end Sponge
