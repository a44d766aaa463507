/-
# The input byte stream of a buffer

A run of `ReadFd` and of the three ways to take bytes out, over a `Buffer`
of any initial size. `InputStream` keeps beside the buffer what `readv`
delivered and what was taken out so far; the stream is intact when the first
is the second followed by what can be read.

`ReadFd` hands `readv` the tail of the vector and, behind it, a stack
buffer. When the data reaches the stack buffer, the code appends that part
at `write_index_` without having moved it over the tail: the bytes in the
tail are overwritten (`readFd_spec`). So a run keeps the stream intact
exactly when no read both finds room in the tail and goes beyond it
(`intact_iff`).

Key definitions: `InputStream`, `InputStream.SpillsOver`.
Key theorems: `readFd_spec`, `readFd_failed`, `InputStream.step_spec`.
-/
import MiniMuduo.Buffer
import MiniMuduo.Lib.Run

namespace MiniMuduo

open Slice Word Fallible Runs

namespace Buffer

/-- What `ReadFd` keeps of the bytes `readv` delivered. -/
def kept (b : Buffer) (bytes : List UInt8) : List UInt8 :=
  if bytes.length ≤ b.writeableBytes then bytes else bytes.drop b.writeableBytes

/-- The bytes `readv` stores in the tail of the vector are not readable yet. -/
theorem WF.fill_tail {b : Buffer} (h : b.WF) (bytes : List UInt8) :
    copyInto b.buffer b.writeIndex (bytes.take b.writeableBytes) =
        .ok (overwrite b.buffer b.writeIndex (bytes.take b.writeableBytes)) ∧
      WF { b with buffer := overwrite b.buffer b.writeIndex (bytes.take b.writeableBytes) } ∧
      readable { b with buffer := overwrite b.buffer b.writeIndex (bytes.take b.writeableBytes) } =
        b.readable := by
  have hle := h.write_le
  have hfit : b.writeIndex + (bytes.take b.writeableBytes).length ≤ b.buffer.length := by
    rw [h.writeableBytes_eq, List.length_take]
    omega
  have hlen := length_overwrite hfit
  refine ⟨if_pos hfit, ⟨h.read_le, ?_, ?_⟩, slice_overwrite_below (Nat.le_refl _) h.write_le⟩
  · simp only [hlen]; exact h.write_le
  · simp only [hlen]; exact h.size_le

theorem WF.readFd_failed {b : Buffer} (h : b.WF) (errno saveErrno : ℕ) :
    b.readFd (.failed errno) saveErrno = .ok (-1, errno, b) := by
  have hw : ¬ sizeOfInt (-1) ≤ b.writeableBytes := by
    have := h.size_le
    rw [sizeOfInt_neg_one, h.writeableBytes_eq]
    unfold maxSize at this
    omega
  have hle := h.write_le
  have hcopy : copyInto b.buffer b.writeIndex [] = .ok b.buffer := by
    simp [copyInto, overwrite, hle]
  simp [readFd, ReadvResult.bytes, ReadvResult.count, hcopy, hw]

/-- A successful `ReadFd` adds what it keeps at the back. -/
theorem WF.readFd_spec {b : Buffer} (h : b.WF) {bytes : List UInt8}
    (hn : bytes.length ≤ b.writeableBytes + extraBufSize) {saveErrno e : ℕ} {n : ℤ} {b' : Buffer}
    (hr : b.readFd (.read bytes) saveErrno = .ok (n, e, b')) :
    n = bytes.length ∧ b'.WF ∧ b'.readable = b.readable ++ b.kept bytes := by
  obtain ⟨hcopy, hwf, hread⟩ := h.fill_tail bytes
  have hsize : sizeOfInt (bytes.length : ℤ) = bytes.length := by
    have h1 := h.size_le
    rw [h.writeableBytes_eq] at hn
    unfold maxSize at h1
    unfold extraBufSize at hn
    exact sizeOfInt_natCast (by omega)
  simp only [readFd, ReadvResult.bytes, ReadvResult.count, hcopy, ok_bind, hsize, pure_eq_ok] at hr
  by_cases hle : bytes.length ≤ b.writeableBytes
  · -- everything is in the tail, and the write index moves over it
    rw [if_pos hle] at hr
    cases hr
    obtain ⟨-, hwf', hread'⟩ := h.write_spec hle
    rw [List.take_of_length_le hle, kept, if_pos hle]
    exact ⟨rfl, hwf', hread'⟩
  · -- the stack buffer's part is appended over the tail's
    rw [if_neg hle] at hr
    obtain ⟨b1, ha, hb1⟩ := bind_eq_ok hr
    cases hb1
    obtain ⟨hwf', hread'⟩ := hwf.append_spec ha
    rw [hread', hread, kept, if_neg hle]
    exact ⟨rfl, hwf', rfl⟩

end Buffer

/-- A buffer with what `readv` delivered into it and what was taken out of
it so far. -/
structure InputStream where
  buffer : Buffer
  delivered : List UInt8
  retrieved : List UInt8

namespace InputStream

/-- The calls a connection and its message callback make on `input_buffer_`. -/
inductive Op
  | readFd (r : Buffer.ReadvResult)
  | retrieve (len : ℕ)
  | retrieveAsString (len : ℕ)
  | retrieveAllAsString

/-- `readv` returns at most what the two iovecs hold; callers take at most
`ReadableBytes()`. -/
def enabled (s : InputStream) : Op → Prop
  | .readFd r => r.bytes.length ≤ s.buffer.writeableBytes + Buffer.extraBufSize
  | .retrieve len => len ≤ s.buffer.readableBytes
  | .retrieveAsString len => len ≤ s.buffer.readableBytes
  | .retrieveAllAsString => True

instance (s : InputStream) : ∀ op, Decidable (s.enabled op)
  | .readFd _ => inferInstanceAs (Decidable (_ ≤ _))
  | .retrieve _ => inferInstanceAs (Decidable (_ ≤ _))
  | .retrieveAsString _ => inferInstanceAs (Decidable (_ ≤ _))
  | .retrieveAllAsString => inferInstanceAs (Decidable True)

/-- One call, with `delivered` and `retrieved` brought up to date. -/
def step (s : InputStream) : Op → Except Fault InputStream
  | .readFd r => do
    let (_, _, b) ← s.buffer.readFd r 0
    return { s with buffer := b, delivered := s.delivered ++ r.bytes }
  | .retrieve len => do
    let b ← s.buffer.retrieve len
    return { s with buffer := b, retrieved := s.retrieved ++ s.buffer.peek len }
  | .retrieveAsString len => do
    let (result, b) ← s.buffer.retrieveAsString len
    return { s with buffer := b, retrieved := s.retrieved ++ result }
  | .retrieveAllAsString => do
    let (result, b) ← s.buffer.retrieveAllAsString
    return { s with buffer := b, retrieved := s.retrieved ++ result }

def machine : Machine InputStream Op Fault := ⟨enabled, step⟩

instance (s : InputStream) (op : Op) : Decidable (machine.enabled s op) :=
  inferInstanceAs (Decidable (s.enabled op))

/-- The stream of a buffer that has just been built. -/
def start (b : Buffer) : InputStream := ⟨b, [], []⟩

/-- What was delivered is what was taken out followed by what can be read. -/
def Intact (s : InputStream) : Prop := s.delivered = s.retrieved ++ s.buffer.readable

instance (s : InputStream) : Decidable s.Intact := inferInstanceAs (Decidable (_ = _))

/-- The read finds room in the tail of the vector and goes beyond it. -/
def SpillsOver (s : InputStream) : Op → Prop
  | .readFd r => 0 < s.buffer.writeableBytes ∧ s.buffer.writeableBytes < r.bytes.length
  | _ => False

instance (s : InputStream) : ∀ op, Decidable (s.SpillsOver op)
  | .readFd _ => inferInstanceAs (Decidable (_ ∧ _))
  | .retrieve _ | .retrieveAsString _ | .retrieveAllAsString => inferInstanceAs (Decidable False)

theorem retrieve_stream {b b' : Buffer} (h : b.WF) {len : ℕ} (hlen : len ≤ b.readableBytes)
    (hr : b.retrieve len = .ok b') (old : List UInt8) :
    b'.WF ∧ old ++ b.peek len ++ b'.readable = old ++ b.readable := by
  obtain ⟨b'', hr', hwf, hread⟩ := h.retrieve_spec hlen
  obtain rfl : b' = b'' := by rw [hr] at hr'; exact Except.ok.inj hr'
  rw [hread, h.peek_eq_take hlen, List.append_assoc, List.take_append_drop]
  exact ⟨hwf, rfl⟩

theorem retrieveAsString_eq {b b' : Buffer} {len : ℕ} {result : List UInt8}
    (hr : b.retrieveAsString len = .ok (result, b')) :
    result = b.peek len ∧ b.retrieve len = .ok b' := by
  unfold Buffer.retrieveAsString at hr
  split at hr
  · obtain ⟨b1, h1, h2⟩ := bind_eq_ok hr
    cases h2
    exact ⟨rfl, h1⟩
  · cases hr

/-- One step: the bytes a read delivers are kept whole, or some are lost
exactly when the read spills over. -/
theorem step_spec {s s' : InputStream} {op : Op} (h : s.buffer.WF) (hen : s.enabled op)
    (hst : s.step op = .ok s') :
    s'.buffer.WF ∧ ∃ got kept, s'.delivered = s.delivered ++ got ∧
      s'.retrieved ++ s'.buffer.readable = s.retrieved ++ s.buffer.readable ++ kept ∧
      ((¬ s.SpillsOver op ∧ kept = got) ∨ (s.SpillsOver op ∧ kept.length < got.length)) := by
  cases op with
  | readFd r =>
    obtain ⟨⟨n, e, b⟩, hr, hs'⟩ := bind_eq_ok hst
    cases hs'
    cases r with
    | failed errno =>
      rw [h.readFd_failed] at hr
      cases hr
      exact ⟨h, [], [], rfl, by simp, .inl ⟨by simp [SpillsOver, Buffer.ReadvResult.bytes], rfl⟩⟩
    | read bytes =>
      obtain ⟨-, hwf, hread⟩ := h.readFd_spec hen hr
      refine ⟨hwf, bytes, s.buffer.kept bytes, rfl, ?_, ?_⟩
      · rw [hread, ← List.append_assoc]
        rfl
      · simp only [SpillsOver, Buffer.ReadvResult.bytes, Buffer.kept]
        split
        · exact .inl ⟨by omega, rfl⟩
        · rename_i hgt
          by_cases h0 : 0 < s.buffer.writeableBytes
          · refine .inr ⟨⟨h0, by omega⟩, ?_⟩
            rw [List.length_drop]
            omega
          · have : s.buffer.writeableBytes = 0 := by omega
            exact .inl ⟨by omega, by rw [this, List.drop_zero]⟩
  | retrieve len =>
    obtain ⟨b, hr, hs'⟩ := bind_eq_ok hst
    cases hs'
    obtain ⟨hwf, hread⟩ := retrieve_stream h hen hr s.retrieved
    exact ⟨hwf, [], [], by simp, by simpa using hread, .inl ⟨id, rfl⟩⟩
  | retrieveAsString len =>
    obtain ⟨⟨result, b⟩, hr, hs'⟩ := bind_eq_ok hst
    cases hs'
    obtain ⟨rfl, hret⟩ := retrieveAsString_eq hr
    obtain ⟨hwf, hread⟩ := retrieve_stream h hen hret s.retrieved
    exact ⟨hwf, [], [], by simp, by simpa using hread, .inl ⟨id, rfl⟩⟩
  | retrieveAllAsString =>
    obtain ⟨⟨result, b⟩, hr, hs'⟩ := bind_eq_ok hst
    cases hs'
    obtain ⟨rfl, hret⟩ := retrieveAsString_eq hr
    obtain ⟨hwf, hread⟩ := retrieve_stream h (Nat.le_refl _) hret s.retrieved
    exact ⟨hwf, [], [], by simp, by simpa using hread, .inl ⟨id, rfl⟩⟩

theorem run_stream {s t : InputStream} {tr : List (InputStream × Op)} (hr : Run machine s tr t)
    (hwf : s.buffer.WF) (hs : s.Intact) :
    t.buffer.WF ∧ (((∀ p ∈ tr, ¬ p.1.SpillsOver p.2) ∧ t.Intact) ∨
      ((∃ p ∈ tr, p.1.SpillsOver p.2) ∧
        (t.retrieved ++ t.buffer.readable).length < t.delivered.length)) := by
  induction hr with
  | nil => exact ⟨hwf, .inl ⟨by simp, hs⟩⟩
  | @snoc tr t u op _ hen hst ih =>
    obtain ⟨hwf', hcase⟩ := ih
    obtain ⟨hwf'', got, kept, hd, hk, hspill⟩ := step_spec hwf' hen hst
    refine ⟨hwf'', ?_⟩
    rcases hcase with ⟨hno, hint⟩ | ⟨⟨p, hp, hsp⟩, hlt⟩
    · rcases hspill with ⟨hns, rfl⟩ | ⟨hsp, hlen⟩
      · refine .inl ⟨fun p hp => ?_, by unfold Intact; rw [hk, hd, hint]⟩
        rcases List.mem_append.mp hp with hp | hp
        · exact hno p hp
        · obtain rfl : p = (t, op) := by simpa using hp
          exact hns
      · refine .inr ⟨⟨(t, op), by simp, hsp⟩, ?_⟩
        rw [hk, hd, hint]
        simp only [List.length_append]
        omega
    · refine .inr ⟨⟨p, List.mem_append_left _ hp, hsp⟩, ?_⟩
      have : kept.length ≤ got.length := by
        rcases hspill with ⟨-, rfl⟩ | ⟨-, h⟩
        · exact Nat.le_refl _
        · omega
      rw [hk, hd]
      simp only [List.length_append] at hlt ⊢
      omega

/-- **The input stream is intact exactly while no read spills over.** For a
buffer of any initial size and every run: what `readv` delivered is what was
taken out followed by what can be read, if and only if no `ReadFd` of the
run found room in the tail of the vector and read beyond it; and a `ReadFd`
whose `readv` fails leaves the buffer as it was. -/
theorem intact_iff {n : ℕ} {b : Buffer} (hb : Buffer.create n = .ok b)
    {tr : List (InputStream × Op)} {s : InputStream} (hr : Run machine (start b) tr s) :
    (s.Intact ↔ ∀ p ∈ tr, ¬ p.1.SpillsOver p.2) ∧
      ∀ errno saveErrno, s.buffer.readFd (.failed errno) saveErrno = .ok (-1, errno, s.buffer) := by
  obtain ⟨hwf, hempty⟩ := Buffer.create_spec hb
  obtain ⟨hwf', hcase⟩ := run_stream hr hwf (by simp [Intact, start, hempty])
  refine ⟨⟨fun hint => ?_, fun hno => ?_⟩, hwf'.readFd_failed⟩
  · rcases hcase with ⟨hno, -⟩ | ⟨-, hlt⟩
    · exact hno
    · rw [hint] at hlt
      omega
  · rcases hcase with ⟨-, hint⟩ | ⟨⟨p, hp, hsp⟩, -⟩
    · exact hint
    · exact absurd hsp (hno p hp)

/-- A buffer of two bytes reads one, gives it out, fills up, and reads once
more with no tail left. -/
theorem intact_iff_two_bytes :
    let ops := [.readFd (.read [7]), .retrieve 1, .readFd (.read [1, 2]), .readFd (.read [3])]
    (final machine (start ⟨[0, 0], 0, 0⟩) ops).Intact :=
  ((intact_iff (n := 2) rfl (run_of_accepts _ _ (by decide +kernel))).1).mpr (by decide +kernel)

/-- A read of three bytes into a buffer of two loses the first two. -/
theorem read_three_into_two :
    ¬ ∀ (n : ℕ) (b : Buffer) (tr : List (InputStream × Op)) (s : InputStream),
      Buffer.create n = .ok b → Run machine (start b) tr s → s.Intact := by
  intro h
  have hint := h 2 _ _ _ rfl (run_of_accepts [.readFd (.read [1, 2, 3])] _ (by decide +kernel))
  revert hint
  decide +kernel

end InputStream
end MiniMuduo
