/-
  Sponge.Util.FileDescriptor

  Reading and writing through the kernel (`file_descriptor.hh`, `file_descriptor.cc`,
  `Socket::shutdown` of `socket.cc`), with the discontiguous buffers that are written
  (`buffer.hh`, `buffer.cc`).

  What the kernel will answer to the system calls on a descriptor is part of its state,
  as endless sequences that the calls take from: results that hold for every descriptor
  hold whatever the kernel answers.  The descriptor also keeps what has passed through
  it, call by call.

  A write may take any part of what it is given.  What `write` has passed on when it
  returns or throws is always the front of its buffer, nothing twice and nothing out of
  order, and with `write_all` it returns only when all of it is written (`write_ends`).
-/

import Mathlib.Data.Stream.Init
import Sponge.Lib.Effect
import Sponge.Util.Parser

namespace Sponge

open Lib (Ends)

-- ============================================================================
-- Discontiguous buffers
-- ============================================================================

/-- `BufferViewList`: the views, each by the bytes it shows. -/
abbrev BufferViewList := List (List UInt8)

namespace BufferViewList

/-- `BufferViewList(str)` -/
def ofString (str : List UInt8) : BufferViewList := [str]

/-- `size()` -/
def size (views : BufferViewList) : Nat := (views.map List.length).sum

/-- `remove_prefix(n)` -/
def removePrefix : BufferViewList → Nat → Except Exn BufferViewList
  | [], n => if n > 0 then .error (.outOfRange "BufferListView::remove_prefix") else .ok []
  | front :: rest, n =>
      if n > 0 then
        if n < front.length then .ok (front.drop n :: rest)
        else removePrefix rest (n - front.length)
      else .ok (front :: rest)

theorem size_eq (views : BufferViewList) : views.size = views.flatten.length :=
  List.length_flatten.symm

@[simp] theorem size_ofString (str : List UInt8) : (ofString str).size = str.length := by
  simp [ofString, size]

/-- Removing is possible up to the whole of the buffer, and drops that many bytes. -/
theorem removePrefix_flatten {views : BufferViewList} {n : Nat}
    (h : n ≤ views.flatten.length) :
    ∃ rest, views.removePrefix n = .ok rest ∧ rest.flatten = views.flatten.drop n := by
  induction views generalizing n with
  | nil =>
      obtain rfl : n = 0 := Nat.le_zero.mp h
      exact ⟨[], rfl, rfl⟩
  | cons front rest ih =>
      rw [List.flatten_cons, List.length_append] at h
      unfold removePrefix
      by_cases hn : n > 0
      · rw [if_pos hn]
        by_cases hlt : n < front.length
        · rw [if_pos hlt]
          refine ⟨_, rfl, ?_⟩
          rw [List.flatten_cons, List.flatten_cons, List.drop_append_of_le_length (by omega)]
        · rw [if_neg hlt]
          obtain ⟨rest', hrest, hflatten⟩ := ih (show n - front.length ≤ _ by omega)
          refine ⟨rest', hrest, ?_⟩
          rw [hflatten, List.flatten_cons, List.drop_append]
          simp [List.drop_eq_nil_of_le (Nat.le_of_not_lt hlt)]
      · obtain rfl : n = 0 := by omega
        exact ⟨_, if_neg hn, rfl⟩

theorem removePrefix_ok {views : BufferViewList} {n : Nat} (h : n ≤ views.size) :
    ∃ rest : BufferViewList, views.removePrefix n = .ok rest ∧
      rest.flatten = views.flatten.drop n ∧ rest.size = views.size - n := by
  rw [views.size_eq] at h
  obtain ⟨rest, hrest, hflatten⟩ := removePrefix_flatten h
  refine ⟨rest, hrest, hflatten, ?_⟩
  rw [size_eq, size_eq, hflatten, List.length_drop]

end BufferViewList

-- ============================================================================
-- Exceptions
-- ============================================================================

/-- What is thrown by code that makes system calls. -/
inductive Thrown
  | exn (e : Exn)
  /-- `unix_error(attempt)`, with the value of `errno` -/
  | unixError (attempt : String) (errno : Nat)
  /-- behaviour that C++ does not define; nothing is known from there on -/
  | undefinedBehavior
deriving DecidableEq, Repr

/-- `throw runtime_error(what)` -/
def Thrown.runtimeError (what : String) : Thrown := .exn (.runtimeError what)

section

variable {σ α : Type}

/-- `SystemCall(attempt, return_value)`, with the `errno` of a call that failed. -/
def systemCall (attempt : String) : Except Nat α → EStateM Thrown σ α
  | .ok a => pure a
  | .error errno => throw (.unixError attempt errno)

/-- The result of a function that may throw. -/
def raise : Except Exn α → EStateM Thrown σ α
  | .ok a => pure a
  | .error e => throw (.exn e)

variable {s : σ} {Q : α → σ → Prop} {E : Thrown → σ → Prop}

theorem ends_systemCall {attempt : String} {answer : Except Nat α} :
    Ends (systemCall attempt answer) s Q E ↔
      (∀ a, answer = .ok a → Q a s) ∧ ∀ errno, answer = .error errno → E (.unixError attempt errno) s := by
  cases answer <;> simp [systemCall]

theorem ends_raise {result : Except Exn α} :
    Ends (raise result) s Q E ↔
      (∀ a, result = .ok a → Q a s) ∧ ∀ e, result = .error e → E (.exn e) s := by
  cases result <;> simp [raise]

end

-- ============================================================================
-- Descriptors
-- ============================================================================

/-- `FileDescriptor::FDWrapper`: what all copies of a descriptor share. -/
structure FDWrapper where
  eof : Bool := false
  closed : Bool := false
  readCount : UInt32 := 0
  writeCount : UInt32 := 0
deriving DecidableEq, Repr

/-- What the kernel is going to answer to the calls on a descriptor. -/
structure Kernel where
  /-- the answers to `read(2)`: the bytes, or `errno` -/
  reads : Stream' (Except Nat (List UInt8))
  /-- the answers to `writev(2)`, which depend on the size of what is written -/
  writes : Stream' (Nat → Except Nat Nat)
  /-- the answers to `shutdown(2)` and `close(2)` -/
  controls : Stream' (Except Nat Unit)

/-- `FileDescriptor` -/
structure FileDescriptor extends FDWrapper, Kernel where
  /-- what has been read so far -/
  received : List (List UInt8) := []
  /-- what has been written so far -/
  sent : List (List UInt8) := []
  /-- the write side was shut down -/
  shutWr : Bool := false

namespace FileDescriptor

/-- `FileDescriptor(fd)` -/
def new (kernel : Kernel) : FileDescriptor := { toKernel := kernel }

/-- `register_read()`, at which the model notes what was read. -/
def registerRead (bytes : List UInt8) : EStateM Thrown FileDescriptor Unit :=
  modify fun fd => { fd with readCount := fd.readCount + 1, received := fd.received ++ [bytes] }

/-- `register_write()`, at which the model notes what was written. -/
def registerWrite (bytes : List UInt8) : EStateM Thrown FileDescriptor Unit :=
  modify fun fd => { fd with writeCount := fd.writeCount + 1, sent := fd.sent ++ [bytes] }

/-- `BUFFER_SIZE` of `read` -/
def bufferSize : Nat := 1024 * 1024

/-- `read(limit)` -/
def read (limit : Nat) : EStateM Thrown FileDescriptor (List UInt8) := do
  let sizeToRead := min bufferSize limit
  let fd ← get
  modify fun fd => { fd with reads := fd.reads.tail }
  let bytes ← systemCall "read" fd.reads.head
  modify fun fd => { fd with eof := fd.eof || (decide (limit > 0) && bytes.isEmpty) }
  if bytes.length > sizeToRead then throw (.runtimeError "read() read more than requested")
  else do
    registerRead bytes
    pure bytes

/-- The loop of `write`, as many rounds as the fuel allows; `write` gives it more than it
    needs, since every round but that of an empty buffer writes something. -/
def writeLoop (writeAll : Bool) : Nat → BufferViewList → Nat → EStateM Thrown FileDescriptor Nat
  | 0, _, totalBytesWritten => pure totalBytesWritten
  | fuel + 1, buffer, totalBytesWritten => do
      let fd ← get
      modify fun fd => { fd with writes := fd.writes.tail }
      let bytesWritten ← systemCall "writev" (fd.writes.head buffer.size)
      if bytesWritten = 0 ∧ buffer.size ≠ 0 then
        throw (.runtimeError "write returned 0 given non-empty input buffer")
      else if bytesWritten > buffer.size then
        throw (.runtimeError "write wrote more than length of input buffer")
      else do
        registerWrite (buffer.flatten.take bytesWritten)
        let buffer ← raise (buffer.removePrefix bytesWritten)
        if writeAll = true ∧ buffer.size ≠ 0 then
          writeLoop writeAll fuel buffer (totalBytesWritten + bytesWritten)
        else pure (totalBytesWritten + bytesWritten)

/-- `write(buffer, write_all)` -/
def write (buffer : BufferViewList) (writeAll : Bool) : EStateM Thrown FileDescriptor Nat :=
  writeLoop writeAll (buffer.size + 1) buffer 0

/-- `close()` -/
def close : EStateM Thrown FileDescriptor Unit := do
  let fd ← get
  modify fun fd => { fd with controls := fd.controls.tail }
  systemCall "close" fd.controls.head
  modify fun fd => { fd with eof := true, closed := true }

/-- `Socket::shutdown(SHUT_WR)` -/
def shutdownWr : EStateM Thrown FileDescriptor Unit := do
  let fd ← get
  modify fun fd => { fd with controls := fd.controls.tail }
  systemCall "shutdown" fd.controls.head
  modify fun fd => { fd with writeCount := fd.writeCount + 1, shutWr := true }

-- ============================================================================
-- What a call can do
-- ============================================================================

/-- The two descriptors differ at most in what the kernel is going to answer. -/
structure SameBut (fd fd' : FileDescriptor) : Prop where
  wrapper : fd'.toFDWrapper = fd.toFDWrapper
  received : fd'.received = fd.received
  sent : fd'.sent = fd.sent
  shutWr : fd'.shutWr = fd.shutWr

/-- A call of `read` has returned. -/
structure DidRead (limit : Nat) (fd : FileDescriptor) (bytes : List UInt8) (fd' : FileDescriptor) :
    Prop where
  wrapper : fd'.toFDWrapper = { fd.toFDWrapper with
    eof := fd.eof || (decide (limit > 0) && bytes.isEmpty), readCount := fd.readCount + 1 }
  length_le : bytes.length ≤ min bufferSize limit
  received : fd'.received = fd.received ++ [bytes]
  sent : fd'.sent = fd.sent
  shutWr : fd'.shutWr = fd.shutWr

/-- The chunks have been written. -/
structure DidWrite (fd : FileDescriptor) (chunks : List (List UInt8)) (fd' : FileDescriptor) :
    Prop where
  wrapper : fd'.toFDWrapper =
    { fd.toFDWrapper with writeCount := fd.writeCount + chunks.length.toUInt32 }
  received : fd'.received = fd.received
  sent : fd'.sent = fd.sent ++ chunks
  shutWr : fd'.shutWr = fd.shutWr

/-- The descriptor was closed. -/
structure DidClose (fd fd' : FileDescriptor) : Prop where
  wrapper : fd'.toFDWrapper = { fd.toFDWrapper with eof := true, closed := true }
  received : fd'.received = fd.received
  sent : fd'.sent = fd.sent
  shutWr : fd'.shutWr = fd.shutWr

/-- The write side was shut down. -/
structure DidShutdown (fd fd' : FileDescriptor) : Prop where
  wrapper : fd'.toFDWrapper = { fd.toFDWrapper with writeCount := fd.writeCount + 1 }
  received : fd'.received = fd.received
  sent : fd'.sent = fd.sent
  shutWr : fd'.shutWr = true

/-- What a system call on a descriptor throws: the error of the kernel, or a complaint
    about a result that the kernel must not give. -/
inductive OfKernel : Thrown → Prop
  | unix (attempt : String) (errno : Nat) : OfKernel (.unixError attempt errno)
  | readMore : OfKernel (.runtimeError "read() read more than requested")
  | wroteNone : OfKernel (.runtimeError "write returned 0 given non-empty input buffer")
  | wroteMore : OfKernel (.runtimeError "write wrote more than length of input buffer")

section

variable {fd : FileDescriptor}

theorem read_ends (fd : FileDescriptor) (limit : Nat) :
    Ends (read limit) fd (DidRead limit fd) (fun e fd' => OfKernel e ∧ SameBut fd fd') := by
  unfold read
  simp only [Lib.ends_bind, Lib.ends_get, Lib.ends_modify, ends_systemCall, Lib.ends_ite,
    Lib.ends_throw, Lib.ends_pure, registerRead]
  refine ⟨fun bytes _ => ⟨fun hmore => ?_, fun hle => ?_⟩, fun errno _ => ?_⟩
  · -- what is too long is not empty
    have hne : bytes.isEmpty = false := by
      cases bytes with
      | nil => cases hmore
      | cons b bs => rfl
    exact ⟨.readMore, by simp [hne], rfl, rfl, rfl⟩
  · exact ⟨rfl, Nat.le_of_not_lt hle, rfl, rfl, rfl⟩
  · exact ⟨.unix _ _, rfl, rfl, rfl, rfl⟩

theorem SameBut.didWrite {fd' : FileDescriptor} (h : SameBut fd fd') : DidWrite fd [] fd' where
  wrapper := by simp [h.wrapper]
  received := h.received
  sent := by simp [h.sent]
  shutWr := h.shutWr

/-- What is written after a first chunk. -/
theorem DidWrite.cons {fd₁ fd₂ : FileDescriptor} {chunk : List UInt8} {chunks : List (List UInt8)}
    (h₁ : DidWrite fd [chunk] fd₁) (h₂ : DidWrite fd₁ chunks fd₂) :
    DidWrite fd (chunk :: chunks) fd₂ where
  wrapper := by
    rw [h₂.wrapper, h₁.wrapper]
    have hcount : (chunk :: chunks).length.toUInt32 = 1 + chunks.length.toUInt32 := by
      rw [List.length_cons, Nat.add_comm, Nat.toUInt32, UInt32.ofNat_add]
      rfl
    simp only [hcount, ← UInt32.add_assoc]
    rfl
  received := h₂.received.trans h₁.received
  sent := by rw [h₂.sent, h₁.sent, List.append_assoc, List.singleton_append]
  shutWr := h₂.shutWr.trans h₁.shutWr

/-- The chunks that were written are the front of what was to be written; a round that
    was not asked for more ends the loop. -/
structure Progress (writeAll : Bool) (buffer : BufferViewList) (chunks : List (List UInt8))
    (n : Nat) : Prop where
  le : n ≤ buffer.size
  flatten : chunks.flatten = buffer.flatten.take n
  all : writeAll = true → n = buffer.size
  one : writeAll = false → chunks.length = 1

/-- A write that has failed has passed on a part of what was to be written, and nothing
    if it was to be one round only. -/
structure Failed (writeAll : Bool) (buffer : BufferViewList) (chunks : List (List UInt8)) : Prop where
  flatten : chunks.flatten <+: buffer.flatten
  none : writeAll = false → chunks = []

theorem writeLoop_ends (writeAll : Bool) {fuel : Nat} {buffer : BufferViewList}
    (hfuel : buffer.size < fuel) (total : Nat) (fd : FileDescriptor) :
    Ends (writeLoop writeAll fuel buffer total) fd
      (fun result fd' => ∃ n chunks, result = total + n ∧ DidWrite fd chunks fd' ∧
        Progress writeAll buffer chunks n)
      (fun e fd' => OfKernel e ∧ ∃ chunks, DidWrite fd chunks fd' ∧ Failed writeAll buffer chunks) := by
  induction fuel generalizing buffer total fd with
  | zero => omega
  | succ fuel ih =>
      rw [writeLoop]
      simp only [Lib.ends_bind, Lib.ends_get, Lib.ends_modify, ends_systemCall, Lib.ends_ite,
        Lib.ends_throw, Lib.ends_pure, registerWrite, ends_raise]
      have hnone : ∀ e fd', OfKernel e → SameBut fd fd' → OfKernel e ∧
          ∃ chunks, DidWrite fd chunks fd' ∧ Failed writeAll buffer chunks :=
        fun _ _ he h => ⟨he, [], h.didWrite, List.nil_prefix, fun _ => rfl⟩
      refine ⟨fun n _ => ⟨fun _ => ?_, fun hsome => ⟨fun _ => ?_, fun hle => ?_⟩⟩, fun _ _ => ?_⟩
      · exact hnone _ _ .wroteNone ⟨rfl, rfl, rfl, rfl⟩
      · exact hnone _ _ .wroteMore ⟨rfl, rfl, rfl, rfl⟩
      · have hle : n ≤ buffer.size := Nat.le_of_not_lt hle
        obtain ⟨rest, hremove, hflatten, hsize⟩ := BufferViewList.removePrefix_ok hle
        have hfirst : DidWrite fd [buffer.flatten.take n]
            { fd with
              writeCount := fd.writeCount + 1
              writes := fd.writes.tail
              sent := fd.sent ++ [buffer.flatten.take n] } := ⟨rfl, rfl, rfl, rfl⟩
        refine ⟨fun rest' hrest' => ?_, fun e he => by rw [hremove] at he; cases he⟩
        obtain rfl : rest = rest' := Except.ok.inj (hremove.symm.trans hrest')
        refine ⟨fun hmore => ?_, fun hdone => ?_⟩
        · -- another round: something was written, so that less is left
          have hpos : n ≠ 0 := fun h0 => hsome ⟨h0, fun h => hmore.2 (by omega)⟩
          refine (ih (by omega) (total + n) _).mono ?_ ?_
          · rintro _ fd' ⟨m, chunks, rfl, hwrite, hprogress⟩
            refine ⟨n + m, _, by omega, hfirst.cons hwrite, ?_⟩
            have hm := hprogress.le
            have hall := hprogress.all
            refine ⟨by omega, ?_, fun h => by have := hall h; omega, ?_⟩
            · rw [List.flatten_cons, hprogress.flatten, hflatten, List.take_add]
            · intro h
              rw [h] at hmore
              cases hmore.1
          · rintro e fd' ⟨he, chunks, hwrite, hfailed⟩
            refine ⟨he, _, hfirst.cons hwrite, ?_⟩
            obtain ⟨⟨tail, htail⟩, -⟩ := hfailed
            refine ⟨⟨tail, ?_⟩, fun h => ?_⟩
            · rw [List.flatten_cons, List.append_assoc, htail, hflatten, List.take_append_drop]
            · rw [h] at hmore
              cases hmore.1
        · refine ⟨n, _, rfl, hfirst, hle, by simp, ?_, fun _ => rfl⟩
          intro h
          have : ¬ rest.size ≠ 0 := fun hne => hdone ⟨h, hne⟩
          omega
      · exact hnone _ _ (.unix _ _) ⟨rfl, rfl, rfl, rfl⟩

/-- Whatever the kernel answers: what `write` has passed on is the front of the buffer,
    as long as it says when it returns, and all of it if that was asked for. -/
theorem write_ends (fd : FileDescriptor) (buffer : BufferViewList) (writeAll : Bool) :
    Ends (write buffer writeAll) fd
      (fun n fd' => ∃ chunks, DidWrite fd chunks fd' ∧ Progress writeAll buffer chunks n)
      (fun e fd' => OfKernel e ∧ ∃ chunks, DidWrite fd chunks fd' ∧ Failed writeAll buffer chunks) := by
  refine (writeLoop_ends writeAll (Nat.lt_succ_self _) 0 fd).mono ?_ fun _ _ h => h
  rintro _ fd' ⟨n, chunks, rfl, hwrite, hprogress⟩
  rw [Nat.zero_add]
  exact ⟨chunks, hwrite, hprogress⟩

/-- What is written of the front of a list is the front of the list. -/
theorem Progress.of_take {writeAll : Bool} {bytes : List UInt8} {m : Nat}
    {chunks : List (List UInt8)} {n : Nat}
    (h : Progress writeAll (.ofString (bytes.take m)) chunks n) :
    chunks.flatten = bytes.take n ∧ n ≤ bytes.length := by
  have hle := h.le
  rw [BufferViewList.size_ofString, List.length_take] at hle
  refine ⟨?_, by omega⟩
  rw [h.flatten]
  simp only [BufferViewList.ofString, List.flatten_cons, List.flatten_nil, List.append_nil]
  rw [List.take_take, Nat.min_eq_left (by omega)]

theorem close_ends (fd : FileDescriptor) :
    Ends close fd (fun _ => DidClose fd) (fun e fd' => OfKernel e ∧ SameBut fd fd') := by
  unfold close
  simp only [Lib.ends_bind, Lib.ends_get, Lib.ends_modify, ends_systemCall]
  exact ⟨fun _ _ => ⟨rfl, rfl, rfl, rfl⟩, fun _ _ => ⟨.unix _ _, rfl, rfl, rfl, rfl⟩⟩

theorem shutdownWr_ends (fd : FileDescriptor) :
    Ends shutdownWr fd (fun _ => DidShutdown fd) (fun e fd' => OfKernel e ∧ SameBut fd fd') := by
  unfold shutdownWr
  simp only [Lib.ends_bind, Lib.ends_get, Lib.ends_modify, ends_systemCall]
  exact ⟨fun _ _ => ⟨rfl, rfl, rfl, rfl⟩, fun _ _ => ⟨.unix _ _, rfl, rfl, rfl, rfl⟩⟩

end

end FileDescriptor

end Sponge
