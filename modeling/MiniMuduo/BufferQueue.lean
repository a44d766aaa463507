/-
# A buffer is a byte queue

What `Buffer` is for: a queue of bytes, filled at the back and emptied from
the front. `ByteQueue.step` is that queue, with what a call returns;
`Buffer.call` is the same call on the two indices and the vector. In every
run of calls from a new buffer, each within what the callers promise, the
readable region is the queue, and every call returns what the queue's does
(`buffer_refines_byteQueue`).

`Buffer.spans` lists the ranges of `buffer_` that the copies of a call read
or write, each with the size the vector has at that time.

Key definitions: `Buffer.Op`, `Buffer.call`, `ByteQueue.step`, `Buffer.spans`.
Key theorems: `Buffer.WF.call_spec`, `buffer_refines_byteQueue`.
-/
import MiniMuduo.Buffer
import MiniMuduo.Lib.Run

namespace MiniMuduo

open Slice Word Fallible Runs

namespace Buffer

/-- The calls that fill and empty a buffer. -/
inductive Op
  | append (data : List UInt8)
  | makeSpace (len : ℕ)
  | retrieve (len : ℕ)
  | retrieveAsString (len : ℕ)
  | retrieveAllAsString
  deriving DecidableEq, Repr

/-- What the callers promise: nobody asks for more than is readable, and the
vector can be as large as is asked for. -/
def allowed (b : Buffer) : Op → Prop
  | .append data => b.writeIndex + data.length ≤ maxSize
  | .makeSpace len => b.writeIndex + len ≤ maxSize
  | .retrieve len => len ≤ b.readableBytes
  | .retrieveAsString len => len ≤ b.readableBytes
  | .retrieveAllAsString => True

instance (b : Buffer) : ∀ op, Decidable (b.allowed op)
  | .append _ => inferInstanceAs (Decidable (_ ≤ _))
  | .makeSpace _ => inferInstanceAs (Decidable (_ ≤ _))
  | .retrieve _ => inferInstanceAs (Decidable (_ ≤ _))
  | .retrieveAsString _ => inferInstanceAs (Decidable (_ ≤ _))
  | .retrieveAllAsString => inferInstanceAs (Decidable True)

/-- One call: the string it returns, if it returns one, and the buffer after it. -/
def call (b : Buffer) : Op → Except Fault (Option (List UInt8) × Buffer)
  | .append data => return (none, ← b.append data)
  | .makeSpace len => return (none, ← b.makeSpace len)
  | .retrieve len => return (none, ← b.retrieve len)
  | .retrieveAsString len => do
    let (result, b) ← b.retrieveAsString len
    return (some result, b)
  | .retrieveAllAsString => do
    let (result, b) ← b.retrieveAllAsString
    return (some result, b)

/-- A range `[first, last)` of a vector of `size` elements. -/
structure Span where
  first : ℕ
  last : ℕ
  size : ℕ
  deriving DecidableEq, Repr

def Span.Inside (s : Span) : Prop := s.first ≤ s.last ∧ s.last ≤ s.size

/-- What the `std::copy` of `MakeSpace` reads and what it writes. -/
def makeSpaceSpans (b : Buffer) (len : ℕ) : List Span :=
  if len > b.freeSize then []
  else [⟨b.readIndex, b.writeIndex, b.buffer.length⟩, ⟨0, b.writeIndex - b.readIndex, b.buffer.length⟩]

/-- What the copies of a call read and write. -/
def spans (b : Buffer) : Op → Except Fault (List Span)
  | .append data => do
    let b' ← if b.writeableBytes < data.length then b.makeSpace data.length else .ok b
    let moved := if b.writeableBytes < data.length then b.makeSpaceSpans data.length else []
    return moved ++ [⟨b'.writeIndex, b'.writeIndex + data.length, b'.buffer.length⟩]
  | .makeSpace len => return b.makeSpaceSpans len
  | .retrieve _ => return []
  | .retrieveAsString len => return [⟨b.readIndex, b.readIndex + len, b.buffer.length⟩]
  | .retrieveAllAsString => return [⟨b.readIndex, b.readIndex + b.readableBytes, b.buffer.length⟩]

end Buffer

/-! ### The queue -/

/-- Bytes, the oldest first. -/
abbrev ByteQueue := List UInt8

/-- What a call returns and leaves when a buffer is nothing but a queue. -/
def ByteQueue.step (q : ByteQueue) : Buffer.Op → Option (List UInt8) × ByteQueue
  | .append data => (none, q ++ data)
  | .makeSpace _ => (none, q)
  | .retrieve len => (none, q.drop len)
  | .retrieveAsString len => (some (q.take len), q.drop len)
  | .retrieveAllAsString => (some q, [])

/-- The queue after these calls on an empty one. -/
def ByteQueue.after (ops : List Buffer.Op) : ByteQueue := ops.foldl (fun q op => (q.step op).2) []

/-! ### Every call is the queue's -/

namespace Buffer

namespace WF

variable {b : Buffer} (h : b.WF)

include h

/-- The three sizes are the differences their names say: nothing wraps. -/
theorem sizes_exact : (b.readableBytes : ℤ) = b.writeIndex - b.readIndex ∧
    (b.writeableBytes : ℤ) = b.buffer.length - b.writeIndex ∧
    (b.freeSize : ℤ) = b.buffer.length - b.writeIndex + b.readIndex := by
  have hread := h.read_le
  have hwrite := h.write_le
  rw [h.readableBytes_eq, h.writeableBytes_eq, h.freeSize_eq]
  omega

theorem makeSpaceSpans_inside (len : ℕ) : ∀ s ∈ b.makeSpaceSpans len, s.Inside := by
  have hread := h.read_le
  have hwrite := h.write_le
  unfold makeSpaceSpans Span.Inside
  split
  · simp
  · intro s hs
    simp only [List.mem_cons, List.not_mem_nil, or_false] at hs
    obtain rfl | rfl := hs <;> simp only <;> omega

theorem append_call {data : List UInt8} (hmax : b.writeIndex + data.length ≤ maxSize) :
    ∃ b', b.append data = .ok b' ∧ b'.WF ∧ b'.readable = b.readable ++ data ∧
      ∃ spans, b.spans (.append data) = .ok spans ∧ ∀ s ∈ spans, s.Inside := by
  have hwrap : b.writeIndex + data.length < 0x10000000000000000 := by unfold maxSize at hmax; omega
  obtain ⟨b', hb'⟩ := h.append_ok hmax
  obtain ⟨hwf, hread⟩ := h.append_spec hb'
  refine ⟨b', hb', hwf, hread, ?_⟩
  unfold spans
  by_cases hroom : b.writeableBytes < data.length
  · obtain ⟨b1, hm⟩ := h.makeSpace_ok hmax
    obtain ⟨hwf1, -, hspace⟩ := h.makeSpace_spec hwrap hm
    simp only [if_pos hroom, hm, ok_bind, pure_eq_ok]
    refine ⟨_, rfl, ?_⟩
    intro s hs
    rcases List.mem_append.mp hs with hs | hs
    · exact h.makeSpaceSpans_inside _ s hs
    · rw [List.mem_singleton.mp hs]
      have := hwf1.write_le
      rw [hwf1.writeableBytes_eq] at hspace
      unfold Span.Inside
      simp only
      omega
  · simp only [if_neg hroom, ok_bind, pure_eq_ok, List.nil_append]
    refine ⟨_, rfl, ?_⟩
    intro s hs
    rw [List.mem_singleton.mp hs]
    have := h.write_le
    rw [h.writeableBytes_eq] at hroom
    unfold Span.Inside
    simp only
    omega

theorem retrieveAsString_spec {len : ℕ} (hlen : len ≤ b.readableBytes) :
    ∃ b', b.retrieveAsString len = .ok (b.readable.take len, b') ∧ b'.WF ∧
      b'.readable = b.readable.drop len := by
  obtain ⟨b', hb', hwf, hread⟩ := h.retrieve_spec hlen
  refine ⟨b', ?_, hwf, hread⟩
  simp only [retrieveAsString, if_pos hlen, hb', ok_bind, pure_eq_ok, h.peek_eq_take hlen]

theorem readSpan_inside {len : ℕ} (hlen : len ≤ b.readableBytes) :
    Span.Inside ⟨b.readIndex, b.readIndex + len, b.buffer.length⟩ := by
  have hread := h.read_le
  have hwrite := h.write_le
  rw [h.readableBytes_eq] at hlen
  unfold Span.Inside
  simp only
  omega

/-- Every call the callers may make returns, keeps the invariant, and does
what the queue does. -/
theorem call_spec {op : Op} (hop : b.allowed op) :
    ∃ r b', b.call op = .ok (r, b') ∧ b'.WF ∧ (r, b'.readable) = ByteQueue.step b.readable op ∧
      (∃ spans, b.spans op = .ok spans ∧ ∀ s ∈ spans, s.Inside) ∧
      ∀ len, op = .makeSpace len → len ≤ b'.writeableBytes := by
  cases op with
  | append data =>
    obtain ⟨b', hb', hwf, hread, hspans⟩ := h.append_call hop
    refine ⟨none, b', ?_, hwf, ?_, hspans, by simp⟩
    · simp [call, hb']
    · rw [hread]
      rfl
  | makeSpace len =>
    have hmax : b.writeIndex + len ≤ maxSize := hop
    have hwrap : b.writeIndex + len < 0x10000000000000000 := by unfold maxSize at hmax; omega
    obtain ⟨b', hb'⟩ := h.makeSpace_ok hmax
    obtain ⟨hwf, hread, hspace⟩ := h.makeSpace_spec hwrap hb'
    refine ⟨none, b', ?_, hwf, ?_, ⟨_, rfl, h.makeSpaceSpans_inside len⟩, ?_⟩
    · simp [call, hb']
    · rw [hread]
      rfl
    · intro len' hlen'
      cases hlen'
      exact hspace
  | retrieve len =>
    obtain ⟨b', hb', hwf, hread⟩ := h.retrieve_spec hop
    refine ⟨none, b', ?_, hwf, ?_, ⟨_, rfl, by simp⟩, by simp⟩
    · simp [call, hb']
    · rw [hread]
      rfl
  | retrieveAsString len =>
    obtain ⟨b', hb', hwf, hread⟩ := h.retrieveAsString_spec hop
    refine ⟨some (b.readable.take len), b', ?_, hwf, ?_, ⟨_, rfl, ?_⟩, by simp⟩
    · simp [call, hb']
    · rw [hread]
      rfl
    · intro s hs
      rw [List.mem_singleton.mp hs]
      exact h.readSpan_inside hop
  | retrieveAllAsString =>
    have hall : b.readableBytes ≤ b.readableBytes := Nat.le_refl _
    have hlen := h.length_readable
    obtain ⟨b', hb', hwf, hread⟩ := h.retrieveAsString_spec hall
    rw [← hlen, List.take_length] at hb'
    rw [← hlen, List.drop_length] at hread
    refine ⟨some b.readable, b', ?_, hwf, ?_, ⟨_, rfl, ?_⟩, by simp⟩
    · simp [call, retrieveAllAsString, ← hlen, hb']
    · rw [hread]
      rfl
    · intro s hs
      rw [List.mem_singleton.mp hs]
      exact h.readSpan_inside hall

end WF

end Buffer

/-! ### Runs -/

/-- A buffer and the calls on it. -/
def bufferMachine : Machine Buffer Buffer.Op Fault where
  enabled := Buffer.allowed
  step b op := do
    let (_, b) ← b.call op
    return b

instance (b : Buffer) (op : Buffer.Op) : Decidable (bufferMachine.enabled b op) :=
  inferInstanceAs (Decidable (b.allowed op))

/-- The buffer is well formed and shows the queue. -/
def Buffer.Represents (b : Buffer) (q : ByteQueue) : Prop := b.WF ∧ b.readable = q

theorem represents_step {b b' : Buffer} {q : ByteQueue} {op : Buffer.Op} (h : b.Represents q)
    (hop : bufferMachine.enabled b op) (hst : bufferMachine.step b op = .ok b') :
    b'.Represents (q.step op).2 := by
  obtain ⟨hwf, rfl⟩ := h
  obtain ⟨r, b1, hcall, hwf1, heq, -⟩ := hwf.call_spec hop
  obtain rfl : b1 = b' := by simpa [bufferMachine, hcall] using hst
  exact ⟨hwf1, congrArg Prod.snd heq⟩

/-- **A buffer refines a byte queue.** After any calls on a new buffer, of any
initial size: the indices are in order and inside the vector, none of the
three sizes wraps, the readable region is the queue; and whatever call comes
next returns, with what the queue returns and leaves, its copies stay inside
the vector, and a `MakeSpace` makes the room asked for. -/
theorem buffer_refines_byteQueue {n : ℕ} {b₀ b : Buffer} {tr : List (Buffer × Buffer.Op)}
    (h0 : Buffer.create n = .ok b₀) (hr : Run bufferMachine b₀ tr b) :
    (b.readIndex ≤ b.writeIndex ∧ b.writeIndex ≤ b.buffer.length) ∧
    ((b.readableBytes : ℤ) = b.writeIndex - b.readIndex ∧
      (b.writeableBytes : ℤ) = b.buffer.length - b.writeIndex ∧
      (b.freeSize : ℤ) = b.buffer.length - b.writeIndex + b.readIndex) ∧
    b.readable = ByteQueue.after (tr.map Prod.snd) ∧
    ∀ op, b.allowed op →
      ∃ r b', b.call op = .ok (r, b') ∧ (r, b'.readable) = ByteQueue.step b.readable op ∧
        (∃ spans, b.spans op = .ok spans ∧ ∀ s ∈ spans, s.Inside) ∧
        ∀ len, op = .makeSpace len → len ≤ b'.writeableBytes := by
  have hstep : ∀ (t : Buffer) (q : ByteQueue) (op : Buffer.Op) (u : Buffer), t.Represents q →
      bufferMachine.enabled t op → bufferMachine.step t op = .ok u → u.Represents (q.step op).2 := by
    intro t q op u ht hop hst
    exact represents_step ht hop hst
  have hstart : b₀.Represents [] := Buffer.create_spec h0
  obtain ⟨hwf, hread⟩ := hr.simulates hstep hstart
  refine ⟨⟨hwf.read_le, hwf.write_le⟩, hwf.sizes_exact, hread, ?_⟩
  intro op hop
  obtain ⟨r, b', hcall, -, heq, hspans, hspace⟩ := hwf.call_spec hop
  exact ⟨r, b', hcall, heq, hspans, hspace⟩

/-- Four bytes, one taken, then an append that compacts and one that grows. -/
theorem buffer_refines_byteQueue_five :
    let ops : List Buffer.Op := [.append [1, 2, 3, 4], .retrieve 1, .append [5, 6], .retrieveAsString 2,
      .append [7, 8, 9, 10]]
    let b₀ : Buffer := ⟨[0, 0, 0, 0, 0], 0, 0⟩
    let b := final bufferMachine b₀ ops
    Buffer.create 5 = .ok b₀ ∧ b.readable = ByteQueue.after ((trace bufferMachine b₀ ops).map Prod.snd) ∧
      b.buffer.length = 9 ∧ b.readable = [4, 5, 6, 7, 8, 9, 10] :=
  ⟨rfl, (buffer_refines_byteQueue (n := 5) rfl (run_of_accepts _ _ (by decide +kernel))).2.2.1,
    by decide +kernel, by decide +kernel⟩

end MiniMuduo
