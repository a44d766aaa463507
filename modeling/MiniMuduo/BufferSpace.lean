/-
# The space of a buffer

`Buffer` never gives memory back, and makes the vector larger only where the
bytes that are free before and behind the readable region do not suffice. In
every run of calls on a buffer, reads from the socket among them, the vector
is never smaller than it was made and never larger than twice what the
largest call asked for, the readable bytes included (`space_bounded`).

Key definitions: `Buffer.demand`, `Buffer.SpaceOp`.
Key theorems: `Buffer.WF.append_length`, `Buffer.WF.readFd_length`,
`space_bounded`.
-/
import MiniMuduo.BufferQueue
import MiniMuduo.InputStream

namespace MiniMuduo

open Slice Word Fallible Runs

namespace Buffer

/-- The size of the vector after `MakeSpace(len)`. -/
def grown (b : Buffer) (len : ℕ) : ℕ := if b.freeSize < len then b.writeIndex + len else b.buffer.length

/-- A copy into the vector keeps its size. -/
theorem copyInto_length {v v' data : List UInt8} {i : ℕ} (hc : copyInto v i data = .ok v') :
    v'.length = v.length := by
  have hfit := copyInto_le hc
  rw [copyInto, if_pos hfit] at hc
  cases hc
  exact length_overwrite hfit

namespace WF

variable {b b' : Buffer} (h : b.WF)

include h

theorem le_grown (len : ℕ) : b.buffer.length ≤ b.grown len := by
  have hfree := h.freeSize_eq
  have hle := h.write_le
  unfold grown
  split
  · omega
  · exact Nat.le_refl _

/-- The vector grows to less than twice of what is asked for. -/
theorem grown_le (len : ℕ) : b.grown len ≤ max b.buffer.length (2 * (b.readableBytes + len)) := by
  have hfree := h.freeSize_eq
  have hread := h.readableBytes_eq
  have hle := h.write_le
  have hidx := h.read_le
  unfold grown
  split
  · omega
  · exact Nat.le_max_left _ _

theorem makeSpace_length {len : ℕ} (hlen : b.writeIndex + len < 0x10000000000000000)
    (hm : b.makeSpace len = .ok b') : b'.buffer.length = b.grown len := by
  have hle := h.write_le
  have hfree := h.freeSize_eq
  unfold makeSpace at hm
  unfold grown
  by_cases hgt : b.freeSize < len
  · rw [if_pos hgt] at hm ⊢
    unfold resize at hm
    rw [sizeAdd_of_lt hlen] at hm
    split at hm
    · cases hm
      simp only [List.length_append, List.length_take, List.length_replicate]
      omega
    · cases hm
  · rw [if_neg hgt] at hm ⊢
    obtain ⟨v, hc, hm⟩ := bind_eq_ok hm
    cases hm
    exact copyInto_length hc

/-- `Append` makes the vector larger only where `MakeSpace` does. -/
theorem append_length {data : List UInt8} (ha : b.append data = .ok b') :
    b'.buffer.length = b.grown data.length := by
  have hfree := h.freeSize_eq
  have hwrite := h.writeableBytes_eq
  unfold append at ha
  by_cases hroom : b.writeableBytes < data.length
  · rw [if_pos hroom] at ha
    obtain ⟨b1, hm, ha⟩ := bind_eq_ok ha
    obtain ⟨v, hc, hb'⟩ := bind_eq_ok ha
    have hwrap : b.writeIndex + data.length < 0x10000000000000000 := by
      have h1 := h.makeSpace_size hm
      have h2 := h.write_le
      have h3 := h.size_le
      have h4 := copyInto_le hc
      unfold maxSize at h1 h3
      omega
    cases hb'
    exact (copyInto_length hc).trans (h.makeSpace_length hwrap hm)
  · rw [if_neg hroom, ok_bind] at ha
    obtain ⟨v, hc, hb'⟩ := bind_eq_ok ha
    cases hb'
    have hno : ¬ b.freeSize < data.length := by omega
    rw [grown, if_neg hno]
    exact copyInto_length hc

/-- `ReadFd` makes the vector larger only for what is behind its tail. -/
theorem readFd_length {r : ReadvResult} (hn : r.bytes.length ≤ b.writeableBytes + extraBufSize)
    {saveErrno e : ℕ} {n : ℤ} (hr : b.readFd r saveErrno = .ok (n, e, b')) :
    b'.buffer.length = b.grown (r.bytes.length - b.writeableBytes) := by
  have hnone : ¬ b.freeSize < 0 := Nat.not_lt_zero _
  cases r with
  | failed errno =>
    rw [h.readFd_failed] at hr
    cases hr
    simp [ReadvResult.bytes, grown]
  | read bytes =>
    obtain ⟨hcopy, hwf, -⟩ := h.fill_tail bytes
    have hlen := copyInto_length hcopy
    have hsize : sizeOfInt (bytes.length : ℤ) = bytes.length := by
      have h1 := h.size_le
      rw [h.writeableBytes_eq] at hn
      unfold maxSize at h1
      unfold extraBufSize at hn
      simp only [ReadvResult.bytes] at hn
      exact sizeOfInt_natCast (by omega)
    simp only [readFd, ReadvResult.bytes, ReadvResult.count, hcopy, ok_bind, hsize, pure_eq_ok] at hr
    simp only [ReadvResult.bytes]
    by_cases hle : bytes.length ≤ b.writeableBytes
    · rw [if_pos hle] at hr
      cases hr
      rw [Nat.sub_eq_zero_of_le hle, grown, if_neg hnone]
      exact hlen
    · rw [if_neg hle] at hr
      obtain ⟨b1, ha, hb1⟩ := bind_eq_ok hr
      cases hb1
      rw [hwf.append_length ha, List.length_drop]
      unfold grown freeSize
      rw [hlen]

theorem readFd_wf {r : ReadvResult} (hn : r.bytes.length ≤ b.writeableBytes + extraBufSize)
    {saveErrno e : ℕ} {n : ℤ} (hr : b.readFd r saveErrno = .ok (n, e, b')) : b'.WF := by
  cases r with
  | failed errno =>
    rw [h.readFd_failed] at hr
    cases hr
    exact h
  | read bytes => exact (h.readFd_spec hn hr).2.1

end WF

/-! ### Runs -/

/-- The calls on a buffer, with reads from the socket. -/
inductive SpaceOp
  | call (op : Op)
  | readFd (r : ReadvResult)

def spaceEnabled (b : Buffer) : SpaceOp → Prop
  | .call op => b.allowed op
  | .readFd r => r.bytes.length ≤ b.writeableBytes + extraBufSize

instance (b : Buffer) : ∀ op, Decidable (b.spaceEnabled op)
  | .call op => inferInstanceAs (Decidable (b.allowed op))
  | .readFd _ => inferInstanceAs (Decidable (_ ≤ _))

def spaceStep (b : Buffer) : SpaceOp → Except Fault Buffer
  | .call op => return (← b.call op).2
  | .readFd r => return (← b.readFd r 0).2.2

def spaceMachine : Machine Buffer SpaceOp Fault := ⟨spaceEnabled, spaceStep⟩

instance (b : Buffer) (op : SpaceOp) : Decidable (spaceMachine.enabled b op) :=
  inferInstanceAs (Decidable (b.spaceEnabled op))

/-- The bytes that a call wants the buffer to have room for: those that are
readable, and those that it adds. -/
def demand (b : Buffer) : SpaceOp → ℕ
  | .call (.append data) => b.readableBytes + data.length
  | .call (.makeSpace len) => b.readableBytes + len
  | .readFd r => b.readableBytes + r.bytes.length
  | .call (.retrieve _) | .call (.retrieveAsString _) | .call .retrieveAllAsString => b.readableBytes

/-- The most that a call of the run wanted. -/
def peak (tr : List (Buffer × SpaceOp)) : ℕ := (tr.map fun p => p.1.demand p.2).foldr max 0

theorem peak_append (tr : List (Buffer × SpaceOp)) (b : Buffer) (op : SpaceOp) :
    peak (tr ++ [(b, op)]) = max (peak tr) (b.demand op) := by
  unfold peak
  induction tr with
  | nil => simp
  | cons p tr ih =>
    rw [List.cons_append, List.map_cons, List.map_cons, List.foldr_cons, List.foldr_cons, ih, Nat.max_assoc]

theorem retrieve_buffer {b b' : Buffer} {len : ℕ} (hr : b.retrieve len = .ok b') : b'.buffer = b.buffer := by
  unfold retrieve at hr
  split at hr
  · split at hr
    · cases hr
      rfl
    · cases hr
      rfl
  · cases hr

theorem retrieveAsString_buffer {b b' : Buffer} {len : ℕ} {result : List UInt8}
    (hr : b.retrieveAsString len = .ok (result, b')) : b'.buffer = b.buffer :=
  retrieve_buffer (InputStream.retrieveAsString_eq hr).2

/-- A read keeps the vector, or makes it as large as `MakeSpace` would for a
part of the demand. -/
theorem WF.space_readFd {b b' : Buffer} (h : b.WF) {r : ReadvResult}
    (hn : r.bytes.length ≤ b.writeableBytes + extraBufSize) {e : ℕ} {n : ℤ} (hr : b.readFd r 0 = .ok (n, e, b')) :
    b'.WF ∧ ∃ len, b'.buffer.length = b.grown len ∧ b.readableBytes + len ≤ b.demand (.readFd r) :=
  ⟨h.readFd_wf hn hr, _, h.readFd_length hn hr, Nat.add_le_add_left (Nat.sub_le _ _) _⟩

/-- So does any other call. -/
theorem WF.space_call {b b' : Buffer} (h : b.WF) {op : Op} (hop : b.allowed op) {res : Option (List UInt8)}
    (hcall : b.call op = .ok (res, b')) :
    b'.WF ∧ ∃ len, b'.buffer.length = b.grown len ∧ b.readableBytes + len ≤ b.demand (.call op) := by
  obtain ⟨res', b2, hcall', hwf, -⟩ := h.call_spec hop
  obtain rfl : b' = b2 := by
    rw [hcall] at hcall'
    exact congrArg Prod.snd (Except.ok.inj hcall')
  refine ⟨hwf, ?_⟩
  have hsame : b'.buffer = b.buffer → ∃ len, b'.buffer.length = b.grown len ∧
      b.readableBytes + len ≤ b.readableBytes := by
    intro heq
    refine ⟨0, ?_, Nat.le_of_eq (Nat.add_zero _)⟩
    rw [heq, grown, if_neg (Nat.not_lt_zero _)]
  cases op with
  | append data =>
    simp only [demand]
    obtain ⟨b2, ha, hb2⟩ := bind_eq_ok hcall
    cases hb2
    exact ⟨_, h.append_length ha, Nat.le_refl _⟩
  | makeSpace len =>
    simp only [demand]
    obtain ⟨b2, hm, hb2⟩ := bind_eq_ok hcall
    cases hb2
    have hwrap : b.writeIndex + len < 0x10000000000000000 := by
      have hmax : b.writeIndex + len ≤ maxSize := hop
      unfold maxSize at hmax
      omega
    exact ⟨_, h.makeSpace_length hwrap hm, Nat.le_refl _⟩
  | retrieve len =>
    simp only [demand]
    obtain ⟨b2, hr, hb2⟩ := bind_eq_ok hcall
    cases hb2
    exact hsame (retrieve_buffer hr)
  | retrieveAsString len =>
    simp only [demand]
    obtain ⟨⟨result, b2⟩, hr, hb2⟩ := bind_eq_ok hcall
    cases hb2
    exact hsame (retrieveAsString_buffer hr)
  | retrieveAllAsString =>
    simp only [demand]
    obtain ⟨⟨result, b2⟩, hr, hb2⟩ := bind_eq_ok hcall
    cases hb2
    exact hsame (retrieveAsString_buffer hr)

theorem WF.space_step {b b' : Buffer} (h : b.WF) {op : SpaceOp} (hen : b.spaceEnabled op)
    (hst : b.spaceStep op = .ok b') :
    b'.WF ∧ ∃ len, b'.buffer.length = b.grown len ∧ b.readableBytes + len ≤ b.demand op := by
  cases op with
  | readFd r =>
    obtain ⟨⟨n, e, b1⟩, hr, hb1⟩ := bind_eq_ok hst
    cases hb1
    exact h.space_readFd hen hr
  | call op =>
    obtain ⟨⟨res, b1⟩, hcall, hb1⟩ := bind_eq_ok hst
    cases hb1
    exact h.space_call hen hcall

end Buffer

open Buffer

/-- **A buffer takes at most twice the space that was asked of it.** In every
run of calls and reads on a buffer of any initial size, the vector is never
smaller than it was made, and never larger than the greater of its initial
size and twice what the most demanding call wanted to hold; so what is
readable and what is free together stay within that, too. -/
theorem space_bounded {n : ℕ} {b₀ b : Buffer} {tr : List (Buffer × SpaceOp)} (hb : Buffer.create n = .ok b₀)
    (hr : Run spaceMachine b₀ tr b) :
    n ≤ b.buffer.length ∧ b.buffer.length ≤ max n (2 * peak tr) ∧
      b.readableBytes + b.freeSize = b.buffer.length := by
  have hsize : b₀.buffer.length = n := by
    unfold Buffer.create at hb
    split at hb
    · cases hb
      exact List.length_replicate
    · cases hb
  have hinv : b.WF ∧ n ≤ b.buffer.length ∧ b.buffer.length ≤ max n (2 * peak tr) := by
    induction hr with
    | nil => exact ⟨(create_spec hb).1, Nat.le_of_eq hsize.symm, by omega⟩
    | @snoc tr t u op hr hen hst ih =>
      obtain ⟨hwf, hge, hle⟩ := ih
      obtain ⟨hwf', len, hlen, hdemand⟩ := hwf.space_step hen hst
      have hmore := hwf.le_grown len
      have hless := hwf.grown_le len
      rw [peak_append]
      refine ⟨hwf', ?_, ?_⟩
      · omega
      · omega
  obtain ⟨hwf, hge, hle⟩ := hinv
  refine ⟨hge, hle, ?_⟩
  have hread := hwf.readableBytes_eq
  have hfree := hwf.freeSize_eq
  have h1 := hwf.read_le
  have h2 := hwf.write_le
  omega

/-- A buffer of four bytes that has to grow for an `Append` and again for a
read. -/
theorem space_bounded_four :
    let calls : List SpaceOp := [.call (.append [1, 2, 3]), .call (.retrieve 2), .call (.append [4, 5, 6, 7]),
      .readFd (.read [8, 9, 10]), .call .retrieveAllAsString]
    let b := final spaceMachine ⟨[0, 0, 0, 0], 0, 0⟩ calls
    b.buffer.length = 10 ∧ b.buffer.length ≤ max 4 (2 * peak (trace spaceMachine ⟨[0, 0, 0, 0], 0, 0⟩ calls)) :=
  ⟨by decide +kernel, (space_bounded (n := 4) rfl (run_of_accepts _ _ (by decide +kernel))).2.1⟩

end MiniMuduo
