/-
  Sponge.ByteStream

  The flow-controlled in-memory byte stream (`byte_stream.hh`, `byte_stream.cc`).

  Byte counters are naturals: a `size_t` that counts bytes never comes near
  `2^64`.  The stream's own invariant — the buffer fits in the capacity, which
  is what makes `_capacity - buffer_size()` an exact subtraction — is a field,
  so every operation below carries its proof.

  `write` does not look at the end-of-input flag, and `pop_output` adds its
  whole argument to the count of bytes read; both are kept as the source has
  them.
-/

import Mathlib.Data.List.Basic

namespace Sponge

/-- `ByteStream`: an in-order byte stream with room for `capacity` bytes. -/
structure ByteStream where
  capacity : Nat
  buffer : List UInt8
  /-- `_eof`, read by `input_ended()` -/
  inputEnded : Bool
  bytesWritten : Nat
  bytesRead : Nat
  error : Bool
  fits : buffer.length ≤ capacity

namespace ByteStream

/-- `ByteStream(capacity)` -/
def new (capacity : Nat) : ByteStream where
  capacity := capacity
  buffer := []
  inputEnded := false
  bytesWritten := 0
  bytesRead := 0
  error := false
  fits := Nat.zero_le _

def bufferSize (s : ByteStream) : Nat := s.buffer.length

def bufferEmpty (s : ByteStream) : Bool := s.bufferSize == 0

/-- `eof()`: the input has ended and everything was read. -/
def eof (s : ByteStream) : Bool := s.inputEnded && s.bufferEmpty

def remainingCapacity (s : ByteStream) : Nat := s.capacity - s.bufferSize

/-- Number of bytes a read of `len` bytes really takes. -/
def bytesToRead (s : ByteStream) (len : Nat) : Nat :=
  if len > s.bufferSize then s.bufferSize else len

/-- Number of bytes of `data` that `write(data)` accepts. -/
def bytesToWrite (s : ByteStream) (data : List UInt8) : Nat :=
  if data.length > s.remainingCapacity then s.remainingCapacity else data.length

theorem bytesToWrite_le (s : ByteStream) (data : List UInt8) :
    s.bytesToWrite data ≤ s.capacity - s.buffer.length := by
  unfold bytesToWrite remainingCapacity bufferSize
  split <;> omega

/-- `write(data)`: the number of bytes accepted, and the stream after it. -/
def write (s : ByteStream) (data : List UInt8) : Nat × ByteStream :=
  let n := s.bytesToWrite data
  (n, { s with
    buffer := s.buffer ++ data.take n
    bytesWritten := s.bytesWritten + n
    fits := by
      have h1 := s.bytesToWrite_le data
      have h2 := s.fits
      simp only [List.length_append, List.length_take]
      omega })

/-- `peek_output(len)` -/
def peekOutput (s : ByteStream) (len : Nat) : List UInt8 := s.buffer.take (s.bytesToRead len)

/-- `pop_output(len)`: the count of bytes read grows by the argument. -/
def popOutput (s : ByteStream) (len : Nat) : ByteStream :=
  { s with
    bytesRead := s.bytesRead + len
    buffer := s.buffer.drop (s.bytesToRead len)
    fits := by
      have := s.fits
      rw [List.length_drop]
      omega }

/-- `read(len)`: the bytes read, and the stream after it. -/
def read (s : ByteStream) (len : Nat) : List UInt8 × ByteStream :=
  let n := s.bytesToRead len
  (s.buffer.take n, { s with
    buffer := s.buffer.drop n
    bytesRead := s.bytesRead + n
    fits := by
      have := s.fits
      rw [List.length_drop]
      omega })

/-- `end_input()` -/
def endInput (s : ByteStream) : ByteStream := { s with inputEnded := true }

/-- `set_error()` -/
def setError (s : ByteStream) : ByteStream := { s with error := true }

-- ============================================================================
-- Sizes
-- ============================================================================

theorem bytesToRead_eq (s : ByteStream) (len : Nat) :
    s.bytesToRead len = min len s.buffer.length := by
  unfold bytesToRead bufferSize
  split <;> omega

theorem bytesToWrite_eq (s : ByteStream) (data : List UInt8) :
    s.bytesToWrite data = min data.length (s.capacity - s.buffer.length) := by
  unfold bytesToWrite remainingCapacity bufferSize
  split <;> omega

theorem bufferEmpty_iff (s : ByteStream) : s.bufferEmpty = true ↔ s.buffer = [] := by
  simp [bufferEmpty, bufferSize]

theorem bufferEmpty_eq_false_iff (s : ByteStream) : s.bufferEmpty = false ↔ s.buffer ≠ [] := by
  rw [← Bool.not_eq_true, bufferEmpty_iff]

theorem eof_iff (s : ByteStream) : s.eof = true ↔ s.inputEnded = true ∧ s.buffer = [] := by
  simp [eof, bufferEmpty_iff]

-- ============================================================================
-- What each operation leaves alone
-- ============================================================================

section Fields

variable (s : ByteStream) (data : List UInt8) (len : Nat)

@[simp] theorem write_fst : (s.write data).1 = s.bytesToWrite data := rfl

@[simp] theorem write_buffer :
    (s.write data).2.buffer = s.buffer ++ data.take (s.bytesToWrite data) := rfl

@[simp] theorem write_bytesWritten :
    (s.write data).2.bytesWritten = s.bytesWritten + s.bytesToWrite data := rfl

@[simp] theorem write_bytesRead : (s.write data).2.bytesRead = s.bytesRead := rfl

@[simp] theorem write_inputEnded : (s.write data).2.inputEnded = s.inputEnded := rfl

@[simp] theorem write_capacity : (s.write data).2.capacity = s.capacity := rfl

@[simp] theorem write_error : (s.write data).2.error = s.error := rfl

@[simp] theorem read_fst : (s.read len).1 = s.buffer.take (s.bytesToRead len) := rfl

@[simp] theorem read_buffer : (s.read len).2.buffer = s.buffer.drop (s.bytesToRead len) := rfl

@[simp] theorem read_bytesRead :
    (s.read len).2.bytesRead = s.bytesRead + s.bytesToRead len := rfl

@[simp] theorem read_bytesWritten : (s.read len).2.bytesWritten = s.bytesWritten := rfl

@[simp] theorem read_inputEnded : (s.read len).2.inputEnded = s.inputEnded := rfl

@[simp] theorem read_capacity : (s.read len).2.capacity = s.capacity := rfl

@[simp] theorem read_error : (s.read len).2.error = s.error := rfl

@[simp] theorem popOutput_buffer :
    (s.popOutput len).buffer = s.buffer.drop (s.bytesToRead len) := rfl

@[simp] theorem popOutput_bytesWritten : (s.popOutput len).bytesWritten = s.bytesWritten := rfl

@[simp] theorem popOutput_inputEnded : (s.popOutput len).inputEnded = s.inputEnded := rfl

@[simp] theorem popOutput_capacity : (s.popOutput len).capacity = s.capacity := rfl

@[simp] theorem popOutput_error : (s.popOutput len).error = s.error := rfl

@[simp] theorem endInput_buffer : s.endInput.buffer = s.buffer := rfl

@[simp] theorem endInput_inputEnded : s.endInput.inputEnded = true := rfl

@[simp] theorem endInput_bytesWritten : s.endInput.bytesWritten = s.bytesWritten := rfl

@[simp] theorem endInput_bytesRead : s.endInput.bytesRead = s.bytesRead := rfl

@[simp] theorem endInput_capacity : s.endInput.capacity = s.capacity := rfl

@[simp] theorem endInput_error : s.endInput.error = s.error := rfl

@[simp] theorem setError_buffer : s.setError.buffer = s.buffer := rfl

@[simp] theorem setError_inputEnded : s.setError.inputEnded = s.inputEnded := rfl

@[simp] theorem setError_bytesWritten : s.setError.bytesWritten = s.bytesWritten := rfl

@[simp] theorem setError_bytesRead : s.setError.bytesRead = s.bytesRead := rfl

@[simp] theorem setError_capacity : s.setError.capacity = s.capacity := rfl

@[simp] theorem setError_error : s.setError.error = true := rfl

end Fields

/-- What was taken by a read followed by what is left is the buffer. -/
theorem read_append (s : ByteStream) (len : Nat) :
    (s.read len).1 ++ (s.read len).2.buffer = s.buffer :=
  List.take_append_drop ..

/-- What is peeked followed by what a pop of the same length leaves is the buffer. -/
theorem peekOutput_append (s : ByteStream) (len : Nat) :
    s.peekOutput len ++ (s.popOutput len).buffer = s.buffer :=
  List.take_append_drop ..

theorem read_congr {s : ByteStream} {m n : Nat} (h : s.bytesToRead m = s.bytesToRead n) :
    s.read m = s.read n := by
  simp only [read, h]

theorem read_zero (s : ByteStream) : s.read 0 = ([], s) := by
  have h : s.bytesToRead 0 = 0 := by simp [bytesToRead]
  simp [read, h]

/-- Asking for as many bytes as a read took reads the same bytes. -/
theorem read_fst_length (s : ByteStream) (len : Nat) : s.read (s.read len).1.length = s.read len :=
  read_congr (by simp only [read_fst, List.length_take, bytesToRead_eq]; omega)

/-- A positive read of a non-empty buffer takes at least one byte. -/
theorem read_fst_length_pos {s : ByteStream} {len : Nat} (hb : s.buffer ≠ []) (hlen : 0 < len) :
    0 < (s.read len).1.length := by
  have := List.length_pos_iff.mpr hb
  rw [read_fst, List.length_take, bytesToRead_eq]
  omega

-- ============================================================================
-- Accounting
-- ============================================================================

/-- The counters account for the buffer.  `popOutput` with an argument larger
    than the buffer breaks this; the other operations keep it. -/
def Accounted (s : ByteStream) : Prop := s.bytesWritten = s.bytesRead + s.buffer.length

theorem accounted_new (capacity : Nat) : (new capacity).Accounted := rfl

theorem Accounted.write {s : ByteStream} (h : s.Accounted) (data : List UInt8) :
    (s.write data).2.Accounted := by
  have hle := s.bytesToWrite_eq data
  simp only [Accounted, write_bytesWritten, write_bytesRead, write_buffer, List.length_append,
    List.length_take] at h ⊢
  omega

theorem Accounted.read {s : ByteStream} (h : s.Accounted) (len : Nat) :
    (s.read len).2.Accounted := by
  have hle := s.bytesToRead_eq len
  simp only [Accounted, read_bytesWritten, read_bytesRead, read_buffer, List.length_drop] at h ⊢
  omega

theorem Accounted.endInput {s : ByteStream} (h : s.Accounted) : s.endInput.Accounted := h

end ByteStream

end Sponge
