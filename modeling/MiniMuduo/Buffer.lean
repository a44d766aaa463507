/-
# Buffer: the byte buffer of a connection

`Buffer` of `include/mini_muduo/Buffer.h` and `src/Buffer.cc`: a vector with
a read index and a write index, the bytes between them are the readable
ones. All index arithmetic is in `size_t`, so the model's is too
(`Lib/Word.lean`); `WF` is the invariant under which none of it wraps, and
every operation keeps it. On what can be read, the operations are those of a
byte queue: `append_spec` adds at the back, `retrieve_spec` removes from the
front, `makeSpace_spec` changes nothing.

Key definitions: `Buffer`, `Buffer.WF`, `Buffer.readable`.
Key theorems: `Buffer.makeSpace_spec`, `Buffer.append_spec`,
`Buffer.retrieve_spec`, `Buffer.append_ok`.
-/
import MiniMuduo.Fault
import MiniMuduo.Lib.Fallible
import MiniMuduo.Lib.Slice
import MiniMuduo.Lib.Word

namespace MiniMuduo

open Slice Word Fallible

/-- `Buffer`: `buffer_`, `read_index_`, `write_index_`. -/
structure Buffer where
  buffer : List UInt8
  readIndex : ℕ
  writeIndex : ℕ
  deriving DecidableEq, Repr

namespace Buffer

/-- `std::vector<char>::max_size()`. -/
def maxSize : ℕ := 0x7FFFFFFFFFFFFFFF

/-- `Buffer::kInitialSize`. -/
def kInitialSize : ℕ := 1024

/-- `Buffer(size_t initial_size)`. -/
def create (initialSize : ℕ) : Except Fault Buffer :=
  if initialSize ≤ maxSize then .ok ⟨List.replicate initialSize 0, 0, 0⟩ else .error .lengthError

def readableBytes (b : Buffer) : ℕ := sizeSub b.writeIndex b.readIndex

def writeableBytes (b : Buffer) : ℕ := sizeSub b.buffer.length b.writeIndex

def freeSize (b : Buffer) : ℕ := sizeAdd (sizeSub b.buffer.length b.writeIndex) b.readIndex

/-- The `len` bytes from `Peek()` on. -/
def peek (b : Buffer) (len : ℕ) : List UInt8 := slice b.buffer b.readIndex (b.readIndex + len)

/-- The readable region `[read_index_, write_index_)`. -/
def readable (b : Buffer) : List UInt8 := slice b.buffer b.readIndex b.writeIndex

/-- `buffer_.resize(n)`. -/
def resize (b : Buffer) (n : ℕ) : Except Fault Buffer :=
  if n ≤ maxSize then
    .ok { b with buffer := b.buffer.take n ++ List.replicate (n - b.buffer.length) 0 }
  else .error .lengthError

/-- `std::copy` of `data` into the vector from position `i` on. -/
def copyInto (v : List UInt8) (i : ℕ) (data : List UInt8) : Except Fault (List UInt8) :=
  if i + data.length ≤ v.length then .ok (overwrite v i data) else .error .outOfRange

theorem copyInto_le {v data v' : List UInt8} {i : ℕ} (h : copyInto v i data = .ok v') :
    i + data.length ≤ v.length := by
  unfold copyInto at h
  split at h
  · assumption
  · cases h

/-- `RetrieveAllAsString`, `RetrieveAsString` and `TcpConnection` call this
with `len` at most `ReadableBytes()`, as the `assert` asks. -/
def retrieve (b : Buffer) (len : ℕ) : Except Fault Buffer :=
  if len ≤ b.readableBytes then
    if len < b.readableBytes then .ok { b with readIndex := sizeAdd b.readIndex len }
    else .ok { b with readIndex := 0, writeIndex := 0 }
  else .error .assertion

def retrieveAsString (b : Buffer) (len : ℕ) : Except Fault (List UInt8 × Buffer) :=
  if len ≤ b.readableBytes then do
    let result := b.peek len
    let b ← b.retrieve len
    return (result, b)
  else .error .assertion

def retrieveAllAsString (b : Buffer) : Except Fault (List UInt8 × Buffer) :=
  b.retrieveAsString b.readableBytes

def makeSpace (b : Buffer) (len : ℕ) : Except Fault Buffer :=
  if len > b.freeSize then b.resize (sizeAdd b.writeIndex len)
  else do
    -- source and target overlap, the copy runs forward to a lower address
    let buffer ← copyInto b.buffer 0 b.readable
    return { buffer, readIndex := 0, writeIndex := sizeSub b.writeIndex b.readIndex }

def append (b : Buffer) (data : List UInt8) : Except Fault Buffer := do
  let b ← if b.writeableBytes < data.length then b.makeSpace data.length else .ok b
  let buffer ← copyInto b.buffer b.writeIndex data
  return { b with buffer, writeIndex := sizeAdd b.writeIndex data.length }

/-- What `readv` did: it filled the two iovecs in order with `bytes`, or
returned -1 and set `errno`. -/
inductive ReadvResult
  | read (bytes : List UInt8)
  | failed (errno : ℕ)
  deriving DecidableEq, Repr

/-- The value `readv` returns. -/
def ReadvResult.count : ReadvResult → ℤ
  | .read bytes => bytes.length
  | .failed _ => -1

/-- What `readv` stored. -/
def ReadvResult.bytes : ReadvResult → List UInt8
  | .read bytes => bytes
  | .failed _ => []

/-- `sizeof(extra_buf)`. -/
def extraBufSize : ℕ := 64 * 1024

/-- `ReadFd(fd, saveErrno)`: the value returned, `*saveErrno` and the buffer
after the call. -/
def readFd (b : Buffer) (r : ReadvResult) (saveErrno : ℕ) : Except Fault (ℤ × ℕ × Buffer) := do
  let writable := b.writeableBytes
  -- vec[0] is the tail of the vector, vec[1] is extra_buf
  let buffer ← copyInto b.buffer b.writeIndex (r.bytes.take writable)
  let extraBuf := r.bytes.drop writable
  let b := { b with buffer }
  let n := r.count
  if sizeOfInt n ≤ writable then
    return (n, saveErrno, { b with writeIndex := sizeAdd b.writeIndex (sizeOfInt n) })
  else
    match r with
    | .failed errno => return (n, errno, b)
    | .read _ => return (n, saveErrno, ← b.append extraBuf)

theorem readFd_count {b b' : Buffer} {r : ReadvResult} {saveErrno e : ℕ} {n : ℤ}
    (h : b.readFd r saveErrno = .ok (n, e, b')) : n = r.count := by
  unfold readFd at h
  obtain ⟨buffer, -, h⟩ := bind_eq_ok h
  simp only at h
  split at h
  · cases h
    rfl
  · cases r with
    | failed errno =>
      cases h
      rfl
    | read bytes =>
      obtain ⟨b1, -, h⟩ := bind_eq_ok h
      cases h
      rfl

/-! ### The invariant -/

/-- The indices are in order and inside the vector, and the vector is no
larger than a vector can be. -/
structure WF (b : Buffer) : Prop where
  read_le : b.readIndex ≤ b.writeIndex
  write_le : b.writeIndex ≤ b.buffer.length
  size_le : b.buffer.length ≤ maxSize

theorem create_spec {n : ℕ} {b : Buffer} (h : create n = .ok b) : b.WF ∧ b.readable = [] := by
  unfold create at h
  split at h
  · rename_i hn
    cases h
    exact ⟨⟨Nat.le_refl _, Nat.zero_le _, by simpa using hn⟩, slice_self _ _⟩
  · cases h

namespace WF

variable {b : Buffer} (h : b.WF)

include h

theorem readableBytes_eq : b.readableBytes = b.writeIndex - b.readIndex := by
  obtain ⟨h1, h2, h3⟩ := h
  exact sizeSub_of_le h1 (by unfold maxSize at h3; omega)

theorem writeableBytes_eq : b.writeableBytes = b.buffer.length - b.writeIndex := by
  obtain ⟨h1, h2, h3⟩ := h
  exact sizeSub_of_le h2 (by unfold maxSize at h3; omega)

theorem freeSize_eq : b.freeSize = b.buffer.length - b.writeIndex + b.readIndex := by
  obtain ⟨h1, h2, h3⟩ := h
  unfold maxSize at h3
  unfold freeSize
  rw [sizeSub_of_le h2 (by omega), sizeAdd_of_lt (by omega)]

theorem length_readable : b.readable.length = b.readableBytes := by
  rw [h.readableBytes_eq]
  exact length_slice _ _ h.write_le

theorem readable_eq_nil_iff : b.readable = [] ↔ b.readableBytes = 0 := by
  rw [← h.length_readable, List.length_eq_zero_iff]

theorem peek_eq_take {len : ℕ} (hlen : len ≤ b.readableBytes) : b.peek len = b.readable.take len := by
  rw [h.readableBytes_eq] at hlen
  have := h.read_le
  exact (take_slice b.buffer (by omega)).symm

/-- `retrieve` removes from the front. -/
theorem retrieve_spec {len : ℕ} (hlen : len ≤ b.readableBytes) :
    ∃ b', b.retrieve len = .ok b' ∧ b'.WF ∧ b'.readable = b.readable.drop len := by
  have hr := h.readableBytes_eq
  obtain ⟨h1, h2, h3⟩ := h
  unfold retrieve
  rw [if_pos hlen]
  by_cases hlt : len < b.readableBytes
  · rw [if_pos hlt]
    have hadd : sizeAdd b.readIndex len = b.readIndex + len :=
      sizeAdd_of_lt (by unfold maxSize at h3; omega)
    refine ⟨_, rfl, ⟨?_, h2, h3⟩, ?_⟩
    · simp only [hadd]; omega
    · simp only [readable, hadd, drop_slice]
  · rw [if_neg hlt]
    refine ⟨_, rfl, ⟨Nat.le_refl _, Nat.zero_le _, h3⟩, ?_⟩
    rw [List.drop_eq_nil_of_le]
    · exact slice_self _ _
    · have := length_slice b.buffer b.readIndex h2
      unfold readable; omega

/-- `MakeSpace` keeps the readable bytes and makes room, unless the vector
would grow too large. -/
theorem makeSpace_spec {len : ℕ} {b' : Buffer} (hlen : b.writeIndex + len < 0x10000000000000000)
    (hm : b.makeSpace len = .ok b') :
    b'.WF ∧ b'.readable = b.readable ∧ len ≤ b'.writeableBytes := by
  have hw := h
  obtain ⟨h1, h2, h3⟩ := h
  unfold makeSpace at hm
  rw [hw.freeSize_eq] at hm
  split at hm
  · -- resize: the vector grows behind the write index
    rename_i hgt
    unfold resize at hm
    rw [sizeAdd_of_lt hlen] at hm
    split at hm
    · rename_i hmax
      cases hm
      set v := b.buffer.take (b.writeIndex + len) ++
        List.replicate (b.writeIndex + len - b.buffer.length) 0 with hv
      have hsize : v.length = b.writeIndex + len := by
        simp only [hv, List.length_append, List.length_take, List.length_replicate]; omega
      have hle : b.writeIndex ≤ v.length := by omega
      have hwf : WF { b with buffer := v } := ⟨h1, hle, hsize ▸ hmax⟩
      refine ⟨hwf, slice_take_append (Nat.le_add_right _ _) h2, ?_⟩
      rw [hwf.writeableBytes_eq, hsize]
      simp
    · cases hm
  · -- compaction: the readable bytes move to the front
    rename_i hle
    have hlr := hw.length_readable
    rw [hw.readableBytes_eq] at hlr
    have hfit : 0 + b.readable.length ≤ b.buffer.length := by omega
    simp only [copyInto, if_pos hfit, bind, Except.bind, pure, Except.pure] at hm
    cases hm
    have hsub : sizeSub b.writeIndex b.readIndex = b.writeIndex - b.readIndex :=
      sizeSub_of_le h1 (by unfold maxSize at h3; omega)
    have hlen' := length_overwrite hfit
    have hwf : WF ⟨overwrite b.buffer 0 b.readable, 0, sizeSub b.writeIndex b.readIndex⟩ :=
      ⟨Nat.zero_le _, by simp only [hlen', hsub]; omega, by simp only [hlen']; exact h3⟩
    refine ⟨hwf, ?_, ?_⟩
    · have := slice_overwrite_at (d := b.readable) (Nat.zero_le b.buffer.length)
      simp only [Nat.zero_add, hlr] at this
      simpa [readable, hsub] using this
    · rw [hwf.writeableBytes_eq]
      simp only [hlen', hsub]
      omega

/-- The copy and the index update that end `Append`. -/
theorem write_spec {data : List UInt8} (hroom : data.length ≤ b.writeableBytes) :
    copyInto b.buffer b.writeIndex data = .ok (overwrite b.buffer b.writeIndex data) ∧
      WF ⟨overwrite b.buffer b.writeIndex data, b.readIndex, sizeAdd b.writeIndex data.length⟩ ∧
      readable ⟨overwrite b.buffer b.writeIndex data, b.readIndex, sizeAdd b.writeIndex data.length⟩ =
        b.readable ++ data := by
  rw [h.writeableBytes_eq] at hroom
  obtain ⟨h1, h2, h3⟩ := h
  have hfit : b.writeIndex + data.length ≤ b.buffer.length := by omega
  have hadd : sizeAdd b.writeIndex data.length = b.writeIndex + data.length :=
    sizeAdd_of_lt (by unfold maxSize at h3; omega)
  have hlen := length_overwrite hfit
  refine ⟨if_pos hfit, ⟨?_, ?_, ?_⟩, ?_⟩
  · simp only [hadd]; omega
  · simp only [hadd, hlen]; exact hfit
  · simp only [hlen]; exact h3
  · simp only [readable, hadd]
    exact slice_overwrite h1 hfit

/-- Whatever `len` is, `MakeSpace` leaves a vector of a possible size. -/
theorem makeSpace_size {len : ℕ} {b' : Buffer} (hm : b.makeSpace len = .ok b') :
    b'.buffer.length ≤ maxSize := by
  have hsize := h.size_le
  unfold makeSpace at hm
  split at hm
  · unfold resize at hm
    split at hm
    · rename_i hn
      cases hm
      simp only [List.length_append, List.length_take, List.length_replicate]
      omega
    · cases hm
  · unfold copyInto at hm
    split at hm
    · rename_i hfit
      cases hm
      simp only [length_overwrite hfit]
      exact hsize
    · cases hm

/-- `Append` adds at the back. -/
theorem append_spec {data : List UInt8} {b' : Buffer} (ha : b.append data = .ok b') :
    b'.WF ∧ b'.readable = b.readable ++ data := by
  unfold append at ha
  by_cases hroom : b.writeableBytes < data.length
  · rw [if_pos hroom] at ha
    obtain ⟨b1, hm, ha⟩ := bind_eq_ok ha
    obtain ⟨v, hc, hb'⟩ := bind_eq_ok ha
    have hfit : b1.writeIndex + data.length ≤ b1.buffer.length := copyInto_le hc
    have hwrap : b.writeIndex + data.length < 0x10000000000000000 := by
      have h1 := h.makeSpace_size hm
      have h2 := h.write_le
      have h3 := h.size_le
      unfold maxSize at h1 h3
      omega
    obtain ⟨hwf, hr, hspace⟩ := h.makeSpace_spec hwrap hm
    obtain ⟨hc', hwf', hr'⟩ := hwf.write_spec hspace
    obtain rfl : overwrite b1.buffer b1.writeIndex data = v := by simpa [hc'] using hc
    cases hb'
    exact ⟨hwf', by rw [hr', hr]⟩
  · rw [if_neg hroom] at ha
    rw [ok_bind] at ha
    obtain ⟨hc, hwf, hr⟩ := h.write_spec (Nat.not_lt.mp hroom)
    obtain ⟨v, hv, hb'⟩ := bind_eq_ok ha
    obtain rfl : overwrite b.buffer b.writeIndex data = v := by simpa [hc] using hv
    cases hb'
    exact ⟨hwf, hr⟩

/-- `MakeSpace` returns whenever the vector need not grow beyond its maximum. -/
theorem makeSpace_ok {len : ℕ} (hmax : b.writeIndex + len ≤ maxSize) : ∃ b', b.makeSpace len = .ok b' := by
  have hwrap : b.writeIndex + len < 0x10000000000000000 := by unfold maxSize at hmax; omega
  unfold makeSpace
  split
  · unfold resize
    rw [sizeAdd_of_lt hwrap, if_pos hmax]
    exact ⟨_, rfl⟩
  · have hlen := h.length_readable
    rw [h.readableBytes_eq] at hlen
    have hle := h.write_le
    unfold copyInto
    rw [if_pos (by omega), ok_bind]
    exact ⟨_, rfl⟩

/-- `Append` returns whenever the vector need not grow beyond its maximum. -/
theorem append_ok {data : List UInt8} (hmax : b.writeIndex + data.length ≤ maxSize) :
    ∃ b', b.append data = .ok b' := by
  have hwrap : b.writeIndex + data.length < 0x10000000000000000 := by unfold maxSize at hmax; omega
  unfold append
  by_cases hroom : b.writeableBytes < data.length
  · obtain ⟨b1, hm⟩ := h.makeSpace_ok hmax
    obtain ⟨hwf, -, hspace⟩ := h.makeSpace_spec hwrap hm
    simp only [if_pos hroom, hm, ok_bind, (hwf.write_spec hspace).1]
    exact ⟨_, rfl⟩
  · simp only [if_neg hroom, ok_bind, (h.write_spec (Nat.not_lt.mp hroom)).1]
    exact ⟨_, rfl⟩

end WF

end Buffer
end MiniMuduo
