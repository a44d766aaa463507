/-
# UdpReceiver::HandleRead reads in batches

`UdpReceiver::HandleRead` of `src/UdpReceiver.cc` as one function, with the
arrays of a batch as the code has them: `datagrams`, `peer_addresses`,
`io_vectors` and `messages`, where a header points at an address and at an
io-vector, and an io-vector at a buffer. The kernel follows these pointers
(`Batch.store`), the code then reads the arrays by index (`deliver`).

Buffers are addresses in a heap: they come from the free list of the pool or
from `new`, and go into the hands of user code with the callback (`held`) or
back to the free list with `datagrams`. User code gives back what it holds at
any time; it is noticed at the next `Acquire`. What `recvmmsg` returns is the
environment's choice: for its `n`-th call with `v` headers, an error or the
datagrams it takes from the socket. MSG_TRUNC is in the flags of the call, so
`msg_len` is a datagram's own length.

`delivered` is what the callback was shown. What is taken from the socket is
read off the results of `recvmmsg` (`Env.takes`, `Env.Ends`).
`MiniMuduo.UdpRefinement` relates the function to the steps of
`MiniMuduo.UdpReceiver`.

Key definitions: `UdpBatch.Receiver`, `UdpBatch.Batch`, `UdpBatch.handleRead`,
`UdpBatch.Env.takes`, `UdpBatch.Env.Ends`.
Key theorems: `UdpBatch.prepare_spec`, `UdpBatch.receive_spec`,
`UdpBatch.deliverAll_spec`, `handleRead_lossless`.
-/
import Mathlib.Data.List.Nodup
import MiniMuduo.Lib.Slice
import MiniMuduo.UdpReceiver

namespace MiniMuduo

namespace UdpBatch

open Fallible Slice

/-- A datagram in the socket: where it comes from, and its bytes. -/
structure Packet (ρ : Type) where
  peer : ρ
  bytes : List UInt8
  deriving DecidableEq, Repr

/-- What `recvmmsg` does. -/
inductive Outcome (ρ : Type)
  /-- -1 with EINTR. -/
  | interrupted
  /-- -1 with any other `errno`. -/
  | failed (errno : ℕ)
  | received (packets : List (Packet ρ))
  deriving DecidableEq, Repr

/-- `iovec`. -/
structure IoVec where
  iovBase : ℕ
  iovLen : ℕ
  deriving DecidableEq, Repr

/-- `mmsghdr`: `msg_name` and `msg_iov` are indices of `peer_addresses` and
`io_vectors`. -/
structure MmsgHdr where
  msgName : ℕ
  msgIov : ℕ
  msgLen : ℕ
  msgTrunc : Bool
  deriving DecidableEq, Repr

/-- `UdpDatagram`; a moved-from one has no buffer. -/
structure Datagram (ρ : Type) where
  buffer : Option ℕ
  peer : Option ρ
  receiveTime : ℤ
  originalSize : ℕ
  truncated : Bool
  deriving DecidableEq, Repr

/-- What the callback reads of its datagram: the first `size()` bytes of
`data()`, and the rest. -/
structure View (ρ : Type) where
  data : List UInt8
  size : ℕ
  originalSize : ℕ
  truncated : Bool
  peer : Option ρ
  receiveTime : ℤ
  deriving DecidableEq, Repr

/-- The receiver, its pool, and what was delivered. -/
structure Receiver (ρ : Type) where
  maxPacketsPerRead : ℕ
  bufferSize : ℕ
  started : Bool
  messageCallback : Bool
  heap : ℕ → Option PacketBuffer
  /-- The next address that `new` gives. -/
  next : ℕ
  freeBuffers : List ℕ
  /-- The buffers in the hands of user code. -/
  held : List ℕ
  acquires : ℕ
  /-- How often `recvmmsg` was called. -/
  calls : ℕ
  delivered : List (View ρ)

/-- What the environment decides. -/
structure Env (ρ : Type) where
  /-- The `n`-th call of `recvmmsg`, with `v` headers. -/
  recvmmsg : ℕ → ℕ → Outcome ρ
  /-- What user code gives back before the `n`-th `Acquire`. -/
  released : ℕ → List ℕ
  /-- The bytes in the `n`-th buffer that `new` gives. -/
  junk : ℕ → List UInt8
  /-- The callback of the `n`-th delivery calls `Stop`. -/
  stops : ℕ → Bool

/-- The arrays of one round. -/
structure Batch (ρ : Type) where
  datagrams : List (Datagram ρ)
  peerAddresses : List (Option ρ)
  ioVectors : List IoVec
  messages : List MmsgHdr

variable {ρ : Type}

/-! ### Acquire -/

namespace Receiver

/-- A receiver after its constructor, with `initial_buffer_count` buffers in
the pool. -/
def create (junk : ℕ → List UInt8) (bufferSize initialBufferCount maxPacketsPerRead : ℕ) : Receiver ρ where
  maxPacketsPerRead := maxPacketsPerRead
  bufferSize := bufferSize
  started := false
  messageCallback := false
  heap := fun a => if a < initialBufferCount then some ⟨bufferSize, junk a, 0⟩ else none
  next := initialBufferCount
  freeBuffers := (List.range initialBufferCount).reverse
  held := []
  acquires := 0
  calls := 0
  delivered := []

/-- `PacketBuffer::reset`. -/
def resetBuffer (a : ℕ) (s : Receiver ρ) : Receiver ρ :=
  { s with heap := Function.update s.heap a ((s.heap a).map fun p => { p with size := 0 }) }

/-- The deleter of a handle. -/
def release (s : Receiver ρ) (a : ℕ) : Receiver ρ :=
  { s.resetBuffer a with freeBuffers := a :: s.freeBuffers }

/-- User code drops the last handle of a buffer that it holds. -/
def giveBack (s : Receiver ρ) (a : ℕ) : Receiver ρ :=
  if a ∈ s.held then { s.release a with held := s.held.erase a } else s

/-- `PacketBufferPool::Acquire`. -/
def acquire (env : Env ρ) (s : Receiver ρ) : ℕ × Receiver ρ :=
  let s := (env.released s.acquires).foldl giveBack { s with acquires := s.acquires + 1 }
  match s.freeBuffers with
  | b :: rest => (b, { s.resetBuffer b with freeBuffers := rest })
  | [] =>
    (s.next, { s with
      heap := Function.update s.heap s.next (some ⟨s.bufferSize, env.junk s.next, 0⟩)
      next := s.next + 1 })

/-- `UdpDatagram::capacity()`. -/
def capacity (s : Receiver ρ) (a : ℕ) : ℕ := ((s.heap a).map PacketBuffer.capacity).getD 0

end Receiver

/-! ### A round -/

/-- The arrays, before anything is in them. -/
def Batch.create (batchSize : ℕ) : Batch ρ :=
  ⟨[], List.replicate batchSize none, List.replicate batchSize ⟨0, 0⟩, List.replicate batchSize ⟨0, 0, 0, false⟩⟩

/-- One pass of the loop that prepares the arrays. -/
def fill (env : Env ρ) (x : Batch ρ × Receiver ρ) (i : ℕ) : Batch ρ × Receiver ρ :=
  let (b, s) := x
  let (a, s) := s.acquire env
  ({ b with
      datagrams := b.datagrams ++ [⟨some a, none, 0, 0, false⟩]
      ioVectors := b.ioVectors.set i ⟨a, s.capacity a⟩
      messages := b.messages.set i ⟨i, i, 0, false⟩ }, s)

/-- The loop. -/
def prepare (env : Env ρ) (batchSize : ℕ) (s : Receiver ρ) : Batch ρ × Receiver ρ :=
  (List.range batchSize).foldl (fill env) (Batch.create batchSize, s)

/-- The kernel stores a datagram where the `k`-th header points: `msg_len` is
the datagram's length, and MSG_TRUNC says that it was cut. -/
def store (x : Batch ρ × Receiver ρ) (k : ℕ) (packet : Packet ρ) : Batch ρ × Receiver ρ :=
  let (b, s) := x
  match b.messages[k]? with
  | none => x
  | some hdr =>
    match b.ioVectors[hdr.msgIov]? with
    | none => x
    | some iov =>
      ({ b with
          peerAddresses := b.peerAddresses.set hdr.msgName (some packet.peer)
          messages := b.messages.set k
            { hdr with msgLen := packet.bytes.length, msgTrunc := iov.iovLen < packet.bytes.length } },
        { s with
          heap := Function.update s.heap iov.iovBase ((s.heap iov.iovBase).map fun p =>
            { p with data := overwrite p.data 0 (packet.bytes.take iov.iovLen) }) })

/-- `recvmmsg` fills the headers from the `k`-th on. -/
def receive (x : Batch ρ × Receiver ρ) : ℕ → List (Packet ρ) → Batch ρ × Receiver ρ
  | _, [] => x
  | k, packet :: packets => receive (store x k packet) (k + 1) packets

/-- The body of the loop over the received messages. -/
def deliver (env : Env ρ) (receiveTime : ℤ) (b : Batch ρ) (s : Receiver ρ) (i : ℕ) :
    Except Fault (Batch ρ × Receiver ρ) :=
  match b.datagrams[i]?, b.messages[i]?, b.peerAddresses[i]? with
  | some datagram, some hdr, some peer =>
    match datagram.buffer with
    | none => .error .useAfterFree
    | some a =>
      match s.heap a with
      | none => .error .useAfterFree
      | some p =>
        let originalSize := hdr.msgLen
        let readableSize := min originalSize p.capacity
        let truncated := hdr.msgTrunc || p.capacity < originalSize
        if readableSize ≤ p.capacity then
          let s := { s with heap := Function.update s.heap a (some { p with size := readableSize }) }
          if s.messageCallback then
            let view : View ρ := ⟨p.data.take readableSize, readableSize, originalSize, truncated, peer, receiveTime⟩
            .ok ({ b with datagrams := b.datagrams.set i { datagram with buffer := none } },
              { s with
                held := a :: s.held
                delivered := s.delivered ++ [view]
                started := s.started && !env.stops s.delivered.length })
          else
            .ok ({ b with datagrams := b.datagrams.set i ⟨some a, peer, receiveTime, originalSize, truncated⟩ }, s)
        else .error .assertion
  | _, _, _ => .error .outOfRange

/-- The loop over the messages from the `i`-th on; `Stop` in a callback ends it. -/
def deliverAll (env : Env ρ) (receiveTime : ℤ) : ℕ → ℕ → Batch ρ → Receiver ρ → Except Fault (Batch ρ × Receiver ρ)
  | 0, _, b, s => .ok (b, s)
  | n + 1, i, b, s => do
    let (b, s) ← deliver env receiveTime b s i
    if s.started then deliverAll env receiveTime n (i + 1) b s else return (b, s)

/-- The end of a round: `datagrams` is destroyed, and gives back the buffers
that it still has. -/
def destroy (b : Batch ρ) (s : Receiver ρ) : Receiver ρ :=
  (b.datagrams.filterMap Datagram.buffer).foldl Receiver.release s

/-- The `while` of `HandleRead`, with `packets_read` so far; `none` when the
fuel is used up. -/
def handleRead (env : Env ρ) (receiveTime : ℤ) : ℕ → ℕ → Receiver ρ → Except Fault (Option (Receiver ρ))
  | 0, _, _ => .ok none
  | fuel + 1, packetsRead, s =>
    if packetsRead < s.maxPacketsPerRead then
      let batchSize := min (s.maxPacketsPerRead - packetsRead) UdpReceiver.kDefaultMaxPacketPerRead
      let (b, s) := prepare env batchSize s
      let outcome := env.recvmmsg s.calls batchSize
      let s := { s with calls := s.calls + 1 }
      match outcome with
      | .interrupted => handleRead env receiveTime fuel packetsRead (destroy b s)
      | .failed _ => .ok (some (destroy b s))
      | .received packets =>
        let (b, s) := receive (b, s) 0 packets
        if packets = [] then .ok (some (destroy b s))
        else do
          let (b, s) ← deliverAll env receiveTime packets.length 0 b s
          let s := destroy b s
          if s.started then
            if packets.length < batchSize then return some s
            else handleRead env receiveTime fuel (packetsRead + packets.length) s
          else return some s
    else .ok (some s)

/-! ### What the calls of recvmmsg take -/

/-- How many headers a call gets, with `read` datagrams before it. -/
def vlen (max read : ℕ) : ℕ := min (max - read) UdpReceiver.kDefaultMaxPacketPerRead

namespace Outcome

/-- What a call took from the socket. -/
def packets : Outcome ρ → List (Packet ρ)
  | received packets => packets
  | interrupted | failed _ => []

/-- No call with `v` headers follows this outcome: an error, or a batch that
is not full. -/
def last (v : ℕ) : Outcome ρ → Bool
  | interrupted => false
  | failed _ => true
  | received packets => packets.length < v

end Outcome

/-- What so many calls of `recvmmsg`, from the `n`-th on, take from the socket,
with `read` datagrams before them. -/
def Env.takes (env : Env ρ) (max : ℕ) : ℕ → ℕ → ℕ → List (Packet ρ)
  | 0, _, _ => []
  | calls + 1, n, read =>
    let outcome := env.recvmmsg n (vlen max read)
    outcome.packets ++ env.takes max calls (n + 1) (read + outcome.packets.length)

/-- These calls are all: then the budget is used up or the last call says so,
and not earlier. -/
def Env.Ends (env : Env ρ) (max : ℕ) : ℕ → ℕ → ℕ → Prop
  | 0, _, read => max ≤ read
  | calls + 1, n, read =>
    let outcome := env.recvmmsg n (vlen max read)
    read < max ∧ if outcome.last (vlen max read) then calls = 0
      else env.Ends max calls (n + 1) (read + outcome.packets.length)

/-! ### Buffers have one owner -/

/-- The buffers in `slots`, in the free list and in the hands of user code are
all different, and every buffer has the capacity asked for. -/
structure Stock (slots : List ℕ) (s : Receiver ρ) : Prop where
  distinct : (slots ++ (s.freeBuffers ++ s.held)).Nodup
  lt : ∀ a ∈ slots ++ (s.freeBuffers ++ s.held), a < s.next
  buffers : ∀ a < s.next, ∃ p, s.heap a = some p ∧ p.capacity = s.bufferSize

/-- The receiver is set up as before. -/
structure SameSetup (s s' : Receiver ρ) : Prop where
  maxPacketsPerRead : s'.maxPacketsPerRead = s.maxPacketsPerRead
  bufferSize : s'.bufferSize = s.bufferSize
  started : s'.started = s.started
  messageCallback : s'.messageCallback = s.messageCallback

theorem SameSetup.refl (s : Receiver ρ) : SameSetup s s := ⟨rfl, rfl, rfl, rfl⟩

theorem SameSetup.trans {s s' s'' : Receiver ρ} (h : SameSetup s s') (h' : SameSetup s' s'') : SameSetup s s'' where
  maxPacketsPerRead := h'.maxPacketsPerRead.trans h.maxPacketsPerRead
  bufferSize := h'.bufferSize.trans h.bufferSize
  started := h'.started.trans h.started
  messageCallback := h'.messageCallback.trans h.messageCallback

/-- Nothing but the pool has changed. -/
structure SameReads (s s' : Receiver ρ) : Prop extends SameSetup s s' where
  calls : s'.calls = s.calls
  delivered : s'.delivered = s.delivered

theorem SameReads.refl (s : Receiver ρ) : SameReads s s := ⟨.refl s, rfl, rfl⟩

theorem SameReads.trans {s s' s'' : Receiver ρ} (h : SameReads s s') (h' : SameReads s' s'') : SameReads s s'' where
  toSameSetup := h.toSameSetup.trans h'.toSameSetup
  calls := h'.calls.trans h.calls
  delivered := h'.delivered.trans h.delivered

namespace Stock

variable {slots : List ℕ} {s s' : Receiver ρ} {a : ℕ}

/-- Buffers change owners, and none changes its capacity. -/
theorem move (h : Stock slots s) {slots' : List ℕ}
    (hperm : (slots' ++ (s'.freeBuffers ++ s'.held)).Perm (slots ++ (s.freeBuffers ++ s.held)))
    (hnext : s'.next = s.next) (hsize : s'.bufferSize = s.bufferSize)
    (hheap : ∀ a p, s.heap a = some p → ∃ p', s'.heap a = some p' ∧ p'.capacity = p.capacity) : Stock slots' s' where
  distinct := hperm.nodup_iff.mpr h.distinct
  lt := by
    intro a ha
    rw [hnext]
    exact h.lt a (hperm.mem_iff.mp ha)
  buffers := by
    intro a ha
    rw [hnext] at ha
    obtain ⟨p, hp, hcap⟩ := h.buffers a ha
    obtain ⟨p', hp', hcap'⟩ := hheap a p hp
    exact ⟨p', hp', by rw [hcap', hcap, hsize]⟩

end Stock

/-- A change of one buffer that keeps its capacity. -/
theorem heap_update {heap : ℕ → Option PacketBuffer} {b : ℕ} {f : PacketBuffer → PacketBuffer}
    (hf : ∀ p, (f p).capacity = p.capacity) (a : ℕ) (p : PacketBuffer) (hp : heap a = some p) :
    ∃ p', Function.update heap b ((heap b).map f) a = some p' ∧ p'.capacity = p.capacity := by
  by_cases hab : a = b
  · subst hab
    exact ⟨f p, by simp [hp], hf p⟩
  · exact ⟨p, by rw [Function.update_of_ne hab, hp], rfl⟩

theorem giveBack_spec {slots : List ℕ} {s : Receiver ρ} (h : Stock slots s) (a : ℕ) :
    Stock slots (s.giveBack a) ∧ SameReads s (s.giveBack a) := by
  unfold Receiver.giveBack
  split
  case isTrue ha =>
    refine ⟨?_, ⟨⟨rfl, rfl, rfl, rfl⟩, rfl, rfl⟩⟩
    refine h.move ?_ rfl rfl (heap_update fun _ => rfl)
    have hperm : (a :: s.freeBuffers ++ s.held.erase a).Perm (s.freeBuffers ++ s.held) :=
      List.perm_middle.symm.trans ((List.perm_cons_erase ha).symm.append_left _)
    exact hperm.append_left slots
  case isFalse => exact ⟨h, .refl s⟩

theorem giveBacks_spec {slots : List ℕ} : ∀ (as : List ℕ) {s : Receiver ρ}, Stock slots s →
    Stock slots (as.foldl Receiver.giveBack s) ∧ SameReads s (as.foldl Receiver.giveBack s)
  | [], s, h => ⟨h, .refl s⟩
  | a :: as, s, h => by
    obtain ⟨h1, hsame1⟩ := giveBack_spec h a
    obtain ⟨h2, hsame2⟩ := giveBacks_spec as h1
    exact ⟨h2, hsame1.trans hsame2⟩

/-- `Acquire` gives a buffer that nobody has. -/
theorem acquire_spec {slots : List ℕ} {s : Receiver ρ} (h : Stock slots s) (env : Env ρ) :
    Stock (slots ++ [(s.acquire env).1]) (s.acquire env).2 ∧ SameReads s (s.acquire env).2 := by
  have h0 : Stock slots { s with acquires := s.acquires + 1 } := ⟨h.distinct, h.lt, h.buffers⟩
  have hcount : SameReads s { s with acquires := s.acquires + 1 } := ⟨⟨rfl, rfl, rfl, rfl⟩, rfl, rfl⟩
  obtain ⟨h1, hsame1⟩ := giveBacks_spec (env.released s.acquires) h0
  have hsame := hcount.trans hsame1
  unfold Receiver.acquire
  revert h1 hsame
  generalize (env.released s.acquires).foldl Receiver.giveBack { s with acquires := s.acquires + 1 } = s1
  intro h1 hsame
  dsimp only
  split
  case h_1 b rest hfree =>
    refine ⟨?_, hsame.trans ⟨⟨rfl, rfl, rfl, rfl⟩, rfl, rfl⟩⟩
    refine h1.move ?_ rfl rfl (heap_update fun _ => rfl)
    rw [hfree, List.append_assoc]
    exact List.Perm.refl _
  case h_2 hfree =>
    refine ⟨⟨?_, ?_, ?_⟩, hsame.trans ⟨⟨rfl, rfl, rfl, rfl⟩, rfl, rfl⟩⟩
    · have hnew : s1.next ∉ slots ++ (s1.freeBuffers ++ s1.held) := fun hin => Nat.lt_irrefl _ (h1.lt _ hin)
      rw [List.append_assoc]
      exact List.perm_middle.nodup_iff.mpr (List.nodup_cons.mpr ⟨hnew, h1.distinct⟩)
    · intro a ha
      rw [List.append_assoc] at ha
      rcases List.mem_cons.mp (List.perm_middle.mem_iff.mp ha) with rfl | ha
      · exact Nat.lt_succ_self _
      · exact Nat.lt_succ_of_lt (h1.lt a ha)
    · intro a ha
      by_cases hnext : a = s1.next
      · exact ⟨⟨s1.bufferSize, env.junk s1.next, 0⟩, by rw [hnext]; exact Function.update_self .., rfl⟩
      · obtain ⟨p, hp, hcap⟩ := h1.buffers a (by simp only at ha; omega)
        exact ⟨p, (Function.update_of_ne hnext ..).trans hp, hcap⟩

/-! ### The arrays are prepared -/

/-- A datagram that holds the buffer `a` and nothing else yet. -/
def Datagram.fresh (a : ℕ) : Datagram ρ := ⟨some a, none, 0, 0, false⟩

/-- The arrays of `n` elements are aligned: the `j`-th io-vector points at the
`j`-th buffer, and the headers from the `k`-th on at the address and the
io-vector of their own index. -/
structure Aligned (n k : ℕ) (slots : List ℕ) (b : Batch ρ) (s : Receiver ρ) : Prop where
  datagrams : b.datagrams = slots.map Datagram.fresh
  peers : b.peerAddresses.length = n
  headers : b.messages.length = n
  vectors : b.ioVectors.length = n
  iov : ∀ j a : ℕ, slots[j]? = some a → b.ioVectors[j]? = some (IoVec.mk a s.bufferSize)
  hdr : ∀ j, k ≤ j → j < slots.length → b.messages[j]? = some (MmsgHdr.mk j j 0 false)

theorem fill_spec (env : Env ρ) {n : ℕ} {slots : List ℕ} {b : Batch ρ} {s : Receiver ρ}
    (hstock : Stock slots s) (h : Aligned n 0 slots b s) (hlt : slots.length < n) :
    Aligned n 0 (slots ++ [(s.acquire env).1]) (fill env (b, s) slots.length).1 (s.acquire env).2 := by
  obtain ⟨hstock', hsame⟩ := acquire_spec hstock env
  have hcap : (s.acquire env).2.capacity (s.acquire env).1 = (s.acquire env).2.bufferSize := by
    have hmem : (s.acquire env).1 < (s.acquire env).2.next := hstock'.lt _ (by simp)
    obtain ⟨p, hp, hcap⟩ := hstock'.buffers _ hmem
    simp [Receiver.capacity, hp, hcap]
  constructor
  case datagrams => simp [fill, h.datagrams, Datagram.fresh]
  case peers => exact h.peers
  case headers => simp [fill, h.headers]
  case vectors => simp [fill, h.vectors]
  case iov =>
    intro j a hj
    simp only [fill, hcap]
    by_cases hlast : j = slots.length
    · subst hlast
      rw [List.getElem?_concat_length] at hj
      rw [List.getElem?_set_self (by rw [h.vectors]; exact hlt), Option.some.inj hj]
    · have hlt' : j < slots.length := by
        have hj' := (List.getElem?_eq_some_iff.mp hj).1
        simp only [List.length_append, List.length_singleton] at hj'
        omega
      rw [List.getElem?_append_left hlt'] at hj
      rw [List.getElem?_set_ne (by omega), h.iov j a hj, hsame.bufferSize]
  case hdr =>
    intro j _ hj
    simp only [List.length_append, List.length_singleton] at hj
    simp only [fill]
    by_cases hlast : j = slots.length
    · subst hlast
      rw [List.getElem?_set_self (by rw [h.headers]; exact hlt)]
    · rw [List.getElem?_set_ne (by omega)]
      exact h.hdr j (Nat.zero_le _) (by omega)

/-- The loop that prepares the arrays gives a buffer to each slot; what each
`Acquire` keeps, it keeps. -/
theorem prepare_keeps (env : Env ρ) {s : Receiver ρ} (hstock : Stock [] s) {n : ℕ} {P : List ℕ → Receiver ρ → Prop}
    (hstart : P [] s)
    (hstep : ∀ slots t, slots.length < n → SameReads s t → P slots t →
      P (slots ++ [(t.acquire env).1]) (t.acquire env).2) :
    ∃ slots, slots.length = n ∧ Stock slots (prepare env n s).2 ∧
      Aligned n 0 slots (prepare env n s).1 (prepare env n s).2 ∧ SameReads s (prepare env n s).2 ∧
      P slots (prepare env n s).2 := by
  have hloop : ∀ i ≤ n, ∃ slots : List ℕ, slots.length = i ∧
      Stock slots ((List.range i).foldl (fill env) (Batch.create n, s)).2 ∧
      Aligned n 0 slots ((List.range i).foldl (fill env) (Batch.create n, s)).1
        ((List.range i).foldl (fill env) (Batch.create n, s)).2 ∧
      SameReads s ((List.range i).foldl (fill env) (Batch.create n, s)).2 ∧
      P slots ((List.range i).foldl (fill env) (Batch.create n, s)).2 := by
    intro i
    induction i with
    | zero =>
      intro _
      refine ⟨[], rfl, hstock, ⟨rfl, ?_, ?_, ?_, ?_, ?_⟩, .refl s, hstart⟩
      · simp [Batch.create]
      · simp [Batch.create]
      · simp [Batch.create]
      · simp
      · simp
    | succ i ih =>
      intro hi
      obtain ⟨slots, hlen, hstock', halign, hsame, hP⟩ := ih (by omega)
      rw [List.range_succ, List.foldl_append, List.foldl_cons, List.foldl_nil]
      revert hstock' halign hsame hP
      generalize (List.range i).foldl (fill env) (Batch.create n, s) = x
      intro hstock' halign hsame hP
      obtain ⟨hstock'', hsame'⟩ := acquire_spec hstock' env
      have halign' := fill_spec env hstock' halign (by omega)
      rw [hlen] at halign'
      exact ⟨slots ++ [(x.2.acquire env).1], by simp [hlen], hstock'', halign', hsame.trans hsame',
        hstep slots x.2 (by omega) hsame hP⟩
  exact hloop n (Nat.le_refl n)

theorem prepare_spec (env : Env ρ) {s : Receiver ρ} (hstock : Stock [] s) (n : ℕ) :
    ∃ slots, slots.length = n ∧ Stock slots (prepare env n s).2 ∧
      Aligned n 0 slots (prepare env n s).1 (prepare env n s).2 ∧ SameReads s (prepare env n s).2 := by
  obtain ⟨slots, hlen, hstock', halign, hsame, -⟩ :=
    prepare_keeps env hstock (P := fun _ _ => True) trivial fun _ _ _ _ _ => trivial
  exact ⟨slots, hlen, hstock', halign, hsame⟩

/-! ### The kernel fills them -/

/-- The `j`-th slot holds a datagram as the kernel stores it. -/
structure Holds (slots : List ℕ) (b : Batch ρ) (s : Receiver ρ) (j : ℕ) (packet : Packet ρ) : Prop where
  header : b.messages[j]? = some (MmsgHdr.mk j j packet.bytes.length (s.bufferSize < packet.bytes.length))
  peer : b.peerAddresses[j]? = some (some packet.peer)
  bytes : ∃ a p, slots[j]? = some a ∧ s.heap a = some p ∧ p.capacity = s.bufferSize ∧
    p.data.take (min packet.bytes.length s.bufferSize) = packet.bytes.take s.bufferSize

/-- What `store` does where the arrays are aligned. -/
theorem store_eq {n k a : ℕ} {slots : List ℕ} {b : Batch ρ} {s : Receiver ρ} (h : Aligned n k slots b s)
    (ha : slots[k]? = some a) (packet : Packet ρ) :
    store (b, s) k packet =
      ({ b with
          peerAddresses := b.peerAddresses.set k (some packet.peer)
          messages := b.messages.set k ⟨k, k, packet.bytes.length, s.bufferSize < packet.bytes.length⟩ },
        { s with
          heap := Function.update s.heap a ((s.heap a).map fun p =>
            { p with data := overwrite p.data 0 (packet.bytes.take s.bufferSize) }) }) := by
  have hk : k < slots.length := (List.getElem?_eq_some_iff.mp ha).1
  simp only [store, h.hdr k (Nat.le_refl k) hk, h.iov k a ha]

/-- The bytes written from the start of a buffer are its first ones. -/
theorem take_overwrite_zero (v bytes : List UInt8) (c : ℕ) :
    (overwrite v 0 (bytes.take c)).take (min bytes.length c) = bytes.take c := by
  have hlen : (bytes.take c).length = min bytes.length c := by
    rw [List.length_take]
    omega
  simp only [overwrite, List.take_zero, List.nil_append]
  rw [← hlen, List.take_left]

theorem store_spec {n k : ℕ} {slots : List ℕ} {b : Batch ρ} {s : Receiver ρ} (hstock : Stock slots s)
    (h : Aligned n k slots b s) (hlen : slots.length = n) (hk : k < n) (packet : Packet ρ) :
    Stock slots (store (b, s) k packet).2 ∧
      Aligned n (k + 1) slots (store (b, s) k packet).1 (store (b, s) k packet).2 ∧
      Holds slots (store (b, s) k packet).1 (store (b, s) k packet).2 k packet ∧
      (∀ j < k, ∀ q, Holds slots b s j q → Holds slots (store (b, s) k packet).1 (store (b, s) k packet).2 j q) ∧
      SameReads s (store (b, s) k packet).2 := by
  obtain ⟨a, ha⟩ : ∃ a, slots[k]? = some a := ⟨_, List.getElem?_eq_getElem (hlen ▸ hk)⟩
  obtain ⟨p, hp, hcap⟩ := hstock.buffers a (hstock.lt a (List.mem_append_left _ (List.mem_of_getElem? ha)))
  rw [store_eq h ha packet]
  refine ⟨hstock.move (List.Perm.refl _) rfl rfl (heap_update fun _ => rfl), ?_, ?_, ?_,
    ⟨⟨rfl, rfl, rfl, rfl⟩, rfl, rfl⟩⟩
  · constructor
    case datagrams => exact h.datagrams
    case peers => simp [h.peers]
    case headers => simp [h.headers]
    case vectors => exact h.vectors
    case iov => exact h.iov
    case hdr =>
      intro j hj hjlen
      rw [List.getElem?_set_ne (by omega)]
      exact h.hdr j (by omega) hjlen
  · constructor
    case header => exact List.getElem?_set_self (by rw [h.headers]; exact hk)
    case peer => exact List.getElem?_set_self (by rw [h.peers]; exact hk)
    case bytes =>
      refine ⟨a, { p with data := overwrite p.data 0 (packet.bytes.take s.bufferSize) }, ha, ?_, hcap, ?_⟩
      · simp [hp]
      · exact take_overwrite_zero p.data packet.bytes s.bufferSize
  · intro j hj q hq
    obtain ⟨a', p', ha', hp', hcap', hbytes⟩ := hq.bytes
    have hne : a' ≠ a := by
      rintro rfl
      have hnodup : slots.Nodup := List.Nodup.of_append_left hstock.distinct
      have hjk : j = k := (List.getElem?_inj (by omega) hnodup).mp (ha'.trans ha.symm)
      omega
    constructor
    case header => exact (List.getElem?_set_ne (by omega)).trans hq.header
    case peer => exact (List.getElem?_set_ne (by omega)).trans hq.peer
    case bytes => exact ⟨a', p', ha', (Function.update_of_ne hne ..).trans hp', hcap', hbytes⟩

/-- `recvmmsg` stores every datagram in a slot of its own, in order. -/
theorem receive_spec {n : ℕ} {slots : List ℕ} (hlen : slots.length = n) :
    ∀ (packets done : List (Packet ρ)) {b : Batch ρ} {s : Receiver ρ}, Stock slots s →
    Aligned n done.length slots b s → done.length + packets.length ≤ n →
    (∀ j q, done[j]? = some q → Holds slots b s j q) →
    ∃ b' s', receive (b, s) done.length packets = (b', s') ∧ Stock slots s' ∧
      b'.datagrams = slots.map Datagram.fresh ∧
      (∀ j q, (done ++ packets)[j]? = some q → Holds slots b' s' j q) ∧ SameReads s s'
  | [], done, b, s, hstock, h, _, hdone => ⟨b, s, rfl, hstock, h.datagrams, by simpa using hdone, .refl s⟩
  | packet :: packets, done, b, s, hstock, h, hn, hdone => by
    rw [List.length_cons] at hn
    obtain ⟨hstock1, h1, hnew, hold, hsame1⟩ := store_spec hstock h hlen (by omega) packet
    have hlen1 : (done ++ [packet]).length = done.length + 1 := by simp
    have hdone1 : ∀ j q, (done ++ [packet])[j]? = some q →
        Holds slots (store (b, s) done.length packet).1 (store (b, s) done.length packet).2 j q := by
      intro j q hj
      have hlt := (List.getElem?_eq_some_iff.mp hj).1
      rw [hlen1] at hlt
      by_cases hlast : j = done.length
      · subst hlast
        rw [List.getElem?_concat_length] at hj
        rw [← Option.some.inj hj]
        exact hnew
      · rw [List.getElem?_append_left (by omega)] at hj
        exact hold j (by omega) q (hdone j q hj)
    rw [← hlen1] at h1
    obtain ⟨b', s', hrec, hstock', hdata, hall, hsame'⟩ :=
      receive_spec hlen packets (done ++ [packet]) hstock1 h1 (by rw [hlen1]; omega) hdone1
    rw [hlen1] at hrec
    refine ⟨b', s', hrec, hstock', hdata, ?_, hsame1.trans hsame'⟩
    rwa [List.append_assoc] at hall

/-! ### The callback gets them -/

/-- What the callback should see of a datagram that was read into a buffer of
`capacity` bytes. -/
def Packet.view (receiveTime : ℤ) (capacity : ℕ) (packet : Packet ρ) : View ρ where
  data := packet.bytes.take capacity
  size := min packet.bytes.length capacity
  originalSize := packet.bytes.length
  truncated := capacity < packet.bytes.length
  peer := some packet.peer
  receiveTime := receiveTime

/-- Nothing but the pool has changed, and `views` were delivered. -/
structure Delivers (views : List (View ρ)) (s s' : Receiver ρ) : Prop extends SameSetup s s' where
  calls : s'.calls = s.calls
  delivered : s'.delivered = s.delivered ++ views

/-- In the loop over the messages: the datagrams before the `i`-th are moved
from, the others hold the buffers of their slots. -/
structure Delivering (slots : List ℕ) (i : ℕ) (b : Batch ρ) (s : Receiver ρ) : Prop where
  distinct : slots.Nodup
  stock : Stock (slots.drop i) s
  datagrams : ∃ moved : List (Datagram ρ), b.datagrams = moved ++ (slots.drop i).map Datagram.fresh ∧
    moved.length = i ∧ moved.filterMap Datagram.buffer = []

theorem filterMap_fresh (slots : List ℕ) :
    (slots.map (Datagram.fresh : ℕ → Datagram ρ)).filterMap Datagram.buffer = slots := by
  rw [List.filterMap_map]
  exact List.filterMap_some

/-- The buffers that `datagrams` still has. -/
theorem Delivering.buffers {slots : List ℕ} {i : ℕ} {b : Batch ρ} {s : Receiver ρ} (h : Delivering slots i b s) :
    b.datagrams.filterMap Datagram.buffer = slots.drop i := by
  obtain ⟨moved, hb, -, hnone⟩ := h.datagrams
  rw [hb, List.filterMap_append, hnone, List.nil_append, filterMap_fresh]

/-- One delivery. -/
theorem deliver_spec {env : Env ρ} (hstops : ∀ n, env.stops n = false) {slots : List ℕ} {i : ℕ} {b : Batch ρ}
    {s : Receiver ρ} (h : Delivering slots i b s) (hcb : s.messageCallback = true) {packet : Packet ρ}
    (hh : Holds slots b s i packet) (receiveTime : ℤ) :
    ∃ b' s', deliver env receiveTime b s i = .ok (b', s') ∧ Delivering slots (i + 1) b' s' ∧
      Delivers [packet.view receiveTime s.bufferSize] s s' ∧
      ∀ j, i < j → ∀ q, Holds slots b s j q → Holds slots b' s' j q := by
  obtain ⟨a, p, ha, hp, hcap, hbytes⟩ := hh.bytes
  obtain ⟨moved, hb, hmoved, hnone⟩ := h.datagrams
  have hi : i < slots.length := (List.getElem?_eq_some_iff.mp ha).1
  have hdrop : slots.drop i = a :: slots.drop (i + 1) := by
    rw [List.drop_eq_getElem_cons hi, (List.getElem?_eq_some_iff.mp ha).2]
  have hdata : b.datagrams = moved ++ Datagram.fresh a :: (slots.drop (i + 1)).map Datagram.fresh := by
    rw [hb, hdrop, List.map_cons]
  have hdatagram : b.datagrams[i]? = some (Datagram.fresh a) := by
    rw [hdata, List.getElem?_append_right (by omega), hmoved, Nat.sub_self]
    rfl
  have hset : b.datagrams.set i { Datagram.fresh a with buffer := none } =
      (moved ++ [{ Datagram.fresh a with buffer := none }]) ++ (slots.drop (i + 1)).map Datagram.fresh := by
    rw [hdata, List.set_append_right _ _ (by omega), hmoved, Nat.sub_self, List.append_assoc]
    rfl
  have hle : min packet.bytes.length p.capacity ≤ p.capacity := Nat.min_le_right ..
  have hview : View.mk (p.data.take (min packet.bytes.length p.capacity)) (min packet.bytes.length p.capacity)
      packet.bytes.length (decide (s.bufferSize < packet.bytes.length) || decide (p.capacity < packet.bytes.length))
      (some packet.peer) receiveTime = packet.view receiveTime s.bufferSize := by
    rw [hcap, Bool.or_self, hbytes]
    rfl
  unfold deliver
  simp only [hdatagram, hh.header, hh.peer]
  simp only [Datagram.fresh] at hset ⊢
  simp only [hp, if_pos hle, hcb, if_true, hview, hset, hstops, Bool.not_false, Bool.and_true]
  refine ⟨_, _, rfl, ⟨h.distinct, ?_, moved ++ [⟨none, none, 0, 0, false⟩], rfl, by simp [hmoved], ?_⟩,
    ⟨⟨rfl, rfl, rfl, hcb.symm⟩, rfl, rfl⟩, ?_⟩
  · -- the buffer of this datagram is now in the hands of the callback
    refine h.stock.move ?_ rfl rfl ?_
    · rw [hdrop]
      have hfree : (s.freeBuffers ++ a :: s.held).Perm (a :: (s.freeBuffers ++ s.held)) := List.perm_middle
      exact (hfree.append_left _).trans List.perm_middle
    · intro c q hq
      by_cases hca : c = a
      · subst hca
        refine ⟨_, Function.update_self .., ?_⟩
        rw [Option.some.inj (hq.symm.trans hp)]
      · exact ⟨q, (Function.update_of_ne hca ..).trans hq, rfl⟩
  · simp [hnone]
  · intro j hj q hq
    obtain ⟨c, r, hc, hr, hrcap, hrbytes⟩ := hq.bytes
    have hne : c ≠ a := by
      rintro rfl
      have hij : j = i := (List.getElem?_inj (List.getElem?_eq_some_iff.mp hc).1 h.distinct).mp (hc.trans ha.symm)
      omega
    exact ⟨hq.header, hq.peer, c, r, hc, (Function.update_of_ne hne ..).trans hr, hrcap, hrbytes⟩

theorem Delivers.trans {views views' : List (View ρ)} {s s' s'' : Receiver ρ} (h : Delivers views s s')
    (h' : Delivers views' s' s'') : Delivers (views ++ views') s s'' where
  toSameSetup := h.toSameSetup.trans h'.toSameSetup
  calls := h'.calls.trans h.calls
  delivered := by rw [h'.delivered, h.delivered, List.append_assoc]

/-- The loop over the messages delivers what the slots hold, in order. -/
theorem deliverAll_spec {env : Env ρ} (hstops : ∀ n, env.stops n = false) (receiveTime : ℤ) {slots : List ℕ} :
    ∀ (packets : List (Packet ρ)) (i : ℕ) {b : Batch ρ} {s : Receiver ρ}, Delivering slots i b s →
    s.started = true → s.messageCallback = true → (∀ j q, packets[j]? = some q → Holds slots b s (i + j) q) →
    ∃ b' s', deliverAll env receiveTime packets.length i b s = .ok (b', s') ∧
      Delivering slots (i + packets.length) b' s' ∧
      Delivers (packets.map (Packet.view receiveTime s.bufferSize)) s s'
  | [], i, b, s, h, _, _, _ => ⟨b, s, rfl, h, ⟨.refl s, rfl, (List.append_nil _).symm⟩⟩
  | packet :: packets, i, b, s, h, hstarted, hcb, hholds => by
    obtain ⟨b1, s1, heq, h1, hdel1, hrest⟩ := deliver_spec hstops h hcb (hholds 0 packet rfl) receiveTime
    have hholds1 : ∀ j q, packets[j]? = some q → Holds slots b1 s1 (i + 1 + j) q := by
      intro j q hj
      apply hrest (i + 1 + j) (by omega) q
      rw [Nat.add_assoc, Nat.add_comm 1 j]
      exact hholds (j + 1) q hj
    have hstarted1 : s1.started = true := hdel1.started.trans hstarted
    obtain ⟨b2, s2, heq2, h2, hdel2⟩ :=
      deliverAll_spec hstops receiveTime packets (i + 1) h1 hstarted1 (hdel1.messageCallback.trans hcb) hholds1
    refine ⟨b2, s2, ?_, ?_, ?_⟩
    · rw [List.length_cons, deliverAll, heq]
      exact (if_pos hstarted1).trans heq2
    · rwa [List.length_cons, Nat.add_comm packets.length 1, ← Nat.add_assoc]
    · rw [hdel1.bufferSize] at hdel2
      exact hdel1.trans hdel2

/-! ### The end of a round -/

/-- The buffers that `datagrams` has go back to the free list. -/
theorem destroys_spec : ∀ (slots : List ℕ) {s : Receiver ρ}, Stock slots s →
    Stock [] (slots.foldl Receiver.release s) ∧ SameReads s (slots.foldl Receiver.release s)
  | [], s, h => ⟨h, .refl s⟩
  | a :: slots, s, h => by
    have h1 : Stock slots (s.release a) := h.move List.perm_middle rfl rfl (heap_update fun _ => rfl)
    have hsame1 : SameReads s (s.release a) := ⟨⟨rfl, rfl, rfl, rfl⟩, rfl, rfl⟩
    obtain ⟨h2, hsame2⟩ := destroys_spec slots h1
    exact ⟨h2, hsame1.trans hsame2⟩

theorem destroy_spec {slots : List ℕ} {b : Batch ρ} {s : Receiver ρ} (h : Stock slots s)
    (hb : b.datagrams.filterMap Datagram.buffer = slots) : Stock [] (destroy b s) ∧ SameReads s (destroy b s) := by
  unfold destroy
  rw [hb]
  exact destroys_spec slots h

/-- What calls of `recvmmsg` that took `packets` from the socket have done. -/
structure Progress (receiveTime : ℤ) (packets : List (Packet ρ)) (s s' : Receiver ρ) : Prop
    extends SameSetup s s' where
  delivered : s'.delivered = s.delivered ++ packets.map (Packet.view receiveTime s.bufferSize)

theorem Progress.refl (receiveTime : ℤ) (s : Receiver ρ) : Progress receiveTime [] s s :=
  ⟨.refl s, by simp⟩

theorem Progress.trans {receiveTime : ℤ} {packets packets' : List (Packet ρ)} {s s' s'' : Receiver ρ}
    (h : Progress receiveTime packets s s') (h' : Progress receiveTime packets' s' s'') :
    Progress receiveTime (packets ++ packets') s s'' where
  toSameSetup := h.toSameSetup.trans h'.toSameSetup
  delivered := by rw [h'.delivered, h.delivered, h.bufferSize, List.map_append, List.append_assoc]

section Round

variable {env : Env ρ} (receiveTime : ℤ) {s s1 : Receiver ρ} {b : Batch ρ} {n : ℕ} (hstock : Stock [] s)
  (hprep : prepare env n s = (b, s1))
include hstock hprep

/-- A round in which `recvmmsg` fails only moves buffers. -/
theorem failedRound_spec : Stock [] (destroy b { s1 with calls := s1.calls + 1 }) ∧
    (destroy b { s1 with calls := s1.calls + 1 }).calls = s.calls + 1 ∧
    Progress receiveTime [] s (destroy b { s1 with calls := s1.calls + 1 }) := by
  obtain ⟨slots, -, hstock1, halign, hsame1⟩ := prepare_spec env hstock n
  rw [hprep] at hstock1 halign hsame1
  have hstock2 : Stock slots { s1 with calls := s1.calls + 1 } := ⟨hstock1.distinct, hstock1.lt, hstock1.buffers⟩
  obtain ⟨hstock', hsame2⟩ := destroy_spec hstock2 (by rw [halign.datagrams, filterMap_fresh])
  refine ⟨hstock', ?_, ?_⟩
  · rw [hsame2.calls]
    exact congrArg (· + 1) hsame1.calls
  · have hsetup : SameSetup s1 { s1 with calls := s1.calls + 1 } := ⟨rfl, rfl, rfl, rfl⟩
    constructor
    case toSameSetup => exact hsame1.toSameSetup.trans (hsetup.trans hsame2.toSameSetup)
    case delivered =>
      rw [hsame2.delivered, List.map_nil, List.append_nil]
      exact hsame1.delivered

/-- A round delivers what `recvmmsg` took. -/
theorem receivedRound_spec (hstops : ∀ k, env.stops k = false) (hstarted : s.started = true)
    (hcb : s.messageCallback = true) {packets : List (Packet ρ)} (hle : packets.length ≤ n) :
    ∃ b2 s2 b3 s3, receive (b, { s1 with calls := s1.calls + 1 }) 0 packets = (b2, s2) ∧
      deliverAll env receiveTime packets.length 0 b2 s2 = .ok (b3, s3) ∧ Stock [] (destroy b3 s3) ∧
      (destroy b3 s3).calls = s.calls + 1 ∧ Progress receiveTime packets s (destroy b3 s3) := by
  obtain ⟨slots, hlen, hstock1, halign, hsame1⟩ := prepare_spec env hstock n
  rw [hprep] at hstock1 halign hsame1
  have hstock1' : Stock slots { s1 with calls := s1.calls + 1 } :=
    ⟨hstock1.distinct, hstock1.lt, hstock1.buffers⟩
  have halign' : Aligned n 0 slots b { s1 with calls := s1.calls + 1 } :=
    ⟨halign.datagrams, halign.peers, halign.headers, halign.vectors, halign.iov, halign.hdr⟩
  obtain ⟨b2, s2, hrec, hstock2, hdata, hholds, hsame2⟩ :=
    receive_spec hlen packets [] hstock1' halign' (by simpa using hle) (by simp)
  have hsize : s2.bufferSize = s.bufferSize := hsame2.bufferSize.trans hsame1.bufferSize
  have hdelivering : Delivering slots 0 b2 s2 :=
    ⟨List.Nodup.of_append_left hstock2.distinct, hstock2, [], hdata, rfl, rfl⟩
  obtain ⟨b3, s3, hdel, hdelivered, hviews⟩ := deliverAll_spec hstops receiveTime packets 0 hdelivering
    (hsame2.started.trans (hsame1.started.trans hstarted))
    (hsame2.messageCallback.trans (hsame1.messageCallback.trans hcb)) (by simpa using hholds)
  obtain ⟨hstock', hsame3⟩ := destroy_spec hdelivered.stock hdelivered.buffers
  refine ⟨b2, s2, b3, s3, hrec, hdel, hstock', ?_, ?_⟩
  · rw [hsame3.calls, hviews.calls, hsame2.calls]
    exact congrArg (· + 1) hsame1.calls
  · have hsetup : SameSetup s1 { s1 with calls := s1.calls + 1 } := ⟨rfl, rfl, rfl, rfl⟩
    have hround := hsame2.toSameSetup.trans (hviews.toSameSetup.trans hsame3.toSameSetup)
    constructor
    case toSameSetup => exact hsame1.toSameSetup.trans (hsetup.trans hround)
    case delivered =>
      rw [hsame3.delivered, hviews.delivered, hsame2.delivered, hsize]
      exact congrArg (· ++ packets.map (Packet.view receiveTime s.bufferSize)) hsame1.delivered

end Round

/-! ### HandleRead -/

/-- `HandleRead` ends without a fault after calls of `recvmmsg` that take at
most `budget` more datagrams, and has delivered each of them. -/
def Lossless (env : Env ρ) (receiveTime : ℤ) (enough budget read : ℕ) (s : Receiver ρ) : Prop :=
  ∃ s' calls, (∀ fuel ≥ enough, handleRead env receiveTime fuel read s = .ok (some s')) ∧
    s'.calls = s.calls + calls ∧ env.Ends s.maxPacketsPerRead calls s.calls read ∧
    (env.takes s.maxPacketsPerRead calls s.calls read).length ≤ budget ∧ Stock [] s' ∧
    Progress receiveTime (env.takes s.maxPacketsPerRead calls s.calls read) s s'

/-- A round that ends the loop. -/
theorem lossless_return {env : Env ρ} {receiveTime : ℤ} {enough budget read : ℕ} {s s' : Receiver ρ}
    (hread : read < s.maxPacketsPerRead) {outcome : Outcome ρ}
    (hout : env.recvmmsg s.calls (vlen s.maxPacketsPerRead read) = outcome)
    (hlast : outcome.last (vlen s.maxPacketsPerRead read) = true)
    (hround : ∀ fuel, handleRead env receiveTime (fuel + 1) read s = .ok (some s'))
    (hcalls : s'.calls = s.calls + 1) (hle : outcome.packets.length ≤ budget) (hstock : Stock [] s')
    (hprog : Progress receiveTime outcome.packets s s') : Lossless env receiveTime (enough + 1) budget read s := by
  have htakes : env.takes s.maxPacketsPerRead 1 s.calls read = outcome.packets := by simp [Env.takes, hout]
  refine ⟨s', 1, ?_, hcalls, ?_, by rwa [htakes], hstock, by rwa [htakes]⟩
  · intro fuel hfuel
    obtain ⟨k, rfl⟩ : ∃ k, fuel = k + 1 := ⟨fuel - 1, by omega⟩
    exact hround k
  · simp [Env.Ends, hout, hlast, hread]

/-- The budget is used up. -/
theorem lossless_stop {env : Env ρ} {receiveTime : ℤ} {enough read : ℕ} {s : Receiver ρ} (hstock : Stock [] s)
    (hread : s.maxPacketsPerRead ≤ read) :
    Lossless env receiveTime (enough + 1) (s.maxPacketsPerRead - read) read s := by
  refine ⟨s, 0, ?_, rfl, hread, Nat.zero_le _, hstock, Progress.refl receiveTime s⟩
  intro fuel hfuel
  obtain ⟨k, rfl⟩ : ∃ k, fuel = k + 1 := ⟨fuel - 1, by omega⟩
  rw [handleRead, if_neg (by omega)]

/-- A round after which the loop goes on. -/
theorem lossless_continue {env : Env ρ} {receiveTime : ℤ} {enough budget budget' read : ℕ} {s s1 : Receiver ρ}
    (hread : read < s.maxPacketsPerRead) {outcome : Outcome ρ}
    (hout : env.recvmmsg s.calls (vlen s.maxPacketsPerRead read) = outcome)
    (hlast : outcome.last (vlen s.maxPacketsPerRead read) = false)
    (hround : ∀ fuel, handleRead env receiveTime (fuel + 1) read s =
      handleRead env receiveTime fuel (read + outcome.packets.length) s1)
    (hcalls : s1.calls = s.calls + 1) (hprog : Progress receiveTime outcome.packets s s1)
    (hle : outcome.packets.length + budget' ≤ budget)
    (h : Lossless env receiveTime enough budget' (read + outcome.packets.length) s1) :
    Lossless env receiveTime (enough + 1) budget read s := by
  obtain ⟨s', calls, hruns, hcalls', hends, hle', hstock, hprog'⟩ := h
  rw [hprog.maxPacketsPerRead, hcalls] at hends hle' hprog'
  have htakes : env.takes s.maxPacketsPerRead (calls + 1) s.calls read =
      outcome.packets ++ env.takes s.maxPacketsPerRead calls (s.calls + 1) (read + outcome.packets.length) := by
    simp only [Env.takes, hout]
  refine ⟨s', calls + 1, ?_, ?_, ?_, ?_, hstock, ?_⟩
  · intro fuel hfuel
    obtain ⟨k, rfl⟩ : ∃ k, fuel = k + 1 := ⟨fuel - 1, by omega⟩
    rw [hround k]
    exact hruns k (by omega)
  · rw [hcalls', hcalls]
    omega
  · simp only [Env.Ends, hout, hlast, Bool.false_eq_true, if_false]
    exact ⟨hread, hends⟩
  · rw [htakes, List.length_append]
    omega
  · rw [htakes]
    exact hprog.trans hprog'

section Equations

variable {env : Env ρ} {receiveTime : ℤ} {s s1 : Receiver ρ} {b : Batch ρ} {n read : ℕ}
  (hread : read < s.maxPacketsPerRead)
  (hn : n = min (s.maxPacketsPerRead - read) UdpReceiver.kDefaultMaxPacketPerRead) (hprep : prepare env n s = (b, s1))
include hread hn hprep

/-- A round in which `recvmmsg` is interrupted is done again. -/
theorem handleRead_interrupted (hout : env.recvmmsg s1.calls n = .interrupted) (fuel : ℕ) :
    handleRead env receiveTime (fuel + 1) read s =
      handleRead env receiveTime fuel read (destroy b { s1 with calls := s1.calls + 1 }) := by
  rw [handleRead, if_pos hread]
  simp only [← hn, hprep, hout]

theorem handleRead_failed {errno : ℕ} (hout : env.recvmmsg s1.calls n = .failed errno) (fuel : ℕ) :
    handleRead env receiveTime (fuel + 1) read s = .ok (some (destroy b { s1 with calls := s1.calls + 1 })) := by
  rw [handleRead, if_pos hread]
  simp only [← hn, hprep, hout]

/-- A round that delivers is the last one when the batch was not full. -/
theorem handleRead_received {packets : List (Packet ρ)} {b2 b3 : Batch ρ} {s2 s3 : Receiver ρ} (hnpos : 0 < n)
    (hout : env.recvmmsg s1.calls n = .received packets)
    (hrec : receive (b, { s1 with calls := s1.calls + 1 }) 0 packets = (b2, s2))
    (hdel : deliverAll env receiveTime packets.length 0 b2 s2 = .ok (b3, s3))
    (hstarted : (destroy b3 s3).started = true) (fuel : ℕ) :
    handleRead env receiveTime (fuel + 1) read s =
      if packets.length < n then .ok (some (destroy b3 s3))
      else handleRead env receiveTime fuel (read + packets.length) (destroy b3 s3) := by
  rw [handleRead, if_pos hread]
  by_cases hnil : packets = []
  · subst hnil
    obtain ⟨rfl, rfl⟩ : b2 = b3 ∧ s2 = s3 := by simpa [deliverAll] using hdel
    simp only [← hn, hprep, hout, hrec, if_true]
    exact (if_pos hnpos).symm
  · simp only [← hn, hprep, hout, hrec, if_neg hnil, hdel]
    exact if_pos hstarted

end Equations

/-- A loop with `read` packets behind it ends, with fuel for the packets and
the interruptions that may still come. -/
theorem loop_lossless {env : Env ρ} (receiveTime : ℤ)
    (hvlen : ∀ n v packets, env.recvmmsg n v = .received packets → packets.length ≤ v) {calm : ℕ}
    (hcalm : ∀ n ≥ calm, ∀ v, env.recvmmsg n v ≠ .interrupted) (hstops : ∀ n, env.stops n = false) :
    ∀ (measure read : ℕ) (s : Receiver ρ), Stock [] s → s.started = true → s.messageCallback = true →
    (s.maxPacketsPerRead - read) + (calm - s.calls) ≤ measure →
    Lossless env receiveTime (measure + 1) (s.maxPacketsPerRead - read) read s := by
  intro measure
  induction measure with
  | zero =>
    intro read s hstock _ _ hm
    exact lossless_stop hstock (by omega)
  | succ measure ih =>
    intro read s hstock hstarted hcb hm
    by_cases hread : read < s.maxPacketsPerRead
    case neg => exact lossless_stop hstock (by omega)
    case pos =>
      obtain ⟨n, hn⟩ : ∃ n, n = vlen s.maxPacketsPerRead read := ⟨_, rfl⟩
      have hnle : n ≤ s.maxPacketsPerRead - read := hn ▸ Nat.min_le_left ..
      have hnpos : 0 < n := by
        rw [hn]
        exact Nat.lt_min.mpr ⟨by omega, by decide⟩
      rcases hprep : prepare env n s with ⟨b, s1⟩
      have hcalls : s1.calls = s.calls := by
        obtain ⟨-, -, -, -, hsame⟩ := prepare_spec env hstock n
        rw [hprep] at hsame
        exact hsame.calls
      have hcall : env.recvmmsg s.calls (vlen s.maxPacketsPerRead read) = env.recvmmsg s1.calls n := by
        rw [hcalls, hn]
      rcases hout : env.recvmmsg s1.calls n with _ | errno | packets
      case interrupted =>
        -- an interruption makes no progress, but it is one of finitely many
        obtain ⟨hstock', hcalls', hprog⟩ := failedRound_spec receiveTime hstock hprep
        have hbefore : s.calls < calm := by
          by_contra hge
          exact hcalm s1.calls (by omega) n hout
        have hih := ih read _ hstock' (hprog.started.trans hstarted) (hprog.messageCallback.trans hcb)
          (by rw [hprog.maxPacketsPerRead, hcalls']; omega)
        refine lossless_continue hread (hcall.trans hout) rfl (handleRead_interrupted hread hn hprep hout)
          hcalls' hprog ?_ hih
        rw [hprog.maxPacketsPerRead]
        exact Nat.le_of_eq (Nat.zero_add _)
      case failed =>
        obtain ⟨hstock', hcalls', hprog⟩ := failedRound_spec receiveTime hstock hprep
        exact lossless_return hread (hcall.trans hout) rfl (handleRead_failed hread hn hprep hout) hcalls'
          (Nat.zero_le _) hstock' hprog
      case received =>
        have hlen : packets.length ≤ n := hvlen _ _ _ hout
        obtain ⟨b2, s2, b3, s3, hrec, hdel, hstock', hcalls', hprog⟩ :=
          receivedRound_spec receiveTime hstock hprep hstops hstarted hcb hlen
        have hstarted' : (destroy b3 s3).started = true := hprog.started.trans hstarted
        have hround := handleRead_received hread hn hprep hnpos hout hrec hdel hstarted'
        by_cases hshort : packets.length < n
        · refine lossless_return hread (hcall.trans hout) ?_ ?_ hcalls' ?_ hstock' hprog
          · rw [← hn]
            exact decide_eq_true hshort
          · intro fuel
            rw [hround fuel, if_pos hshort]
          · show packets.length ≤ _
            omega
        · -- a full batch: the budget shrinks by what it took
          have hih := ih (read + packets.length) _ hstock' hstarted' (hprog.messageCallback.trans hcb)
            (by rw [hprog.maxPacketsPerRead, hcalls']; omega)
          refine lossless_continue hread (hcall.trans hout) ?_ ?_ hcalls' hprog ?_ hih
          · rw [← hn]
            exact decide_eq_false hshort
          · intro fuel
            rw [hround fuel, if_neg hshort]
            rfl
          · rw [hprog.maxPacketsPerRead]
            show packets.length + _ ≤ _
            omega

theorem stock_create (junk : ℕ → List UInt8) (bufferSize count max : ℕ) :
    Stock [] (Receiver.create junk bufferSize count max : Receiver ρ) where
  distinct := by
    simp only [Receiver.create, List.nil_append, List.append_nil]
    exact List.nodup_reverse.mpr List.nodup_range
  lt := by
    intro a ha
    simpa [Receiver.create] using ha
  buffers := by
    intro a ha
    exact ⟨_, if_pos ha, rfl⟩

/-- **`HandleRead` is bounded, ordered and lossless**: where `recvmmsg` returns
at most as many datagrams as it has headers, is interrupted finitely often, and
the callback is set and does not stop the receiver, it ends without a fault,
when the budget is used up or a call fails or does not fill its batch. The
calls of `recvmmsg` it made took at most `max_packets_per_read_` datagrams from
the socket, and each of these is shown to the callback once, in the order of
the kernel. The buffers keep one owner each. -/
theorem handleRead_lossless (env : Env ρ) (receiveTime : ℤ) (s : Receiver ρ)
    (hvlen : ∀ n v packets, env.recvmmsg n v = .received packets → packets.length ≤ v)
    (heintr : ∃ calm, ∀ n ≥ calm, ∀ v, env.recvmmsg n v ≠ .interrupted) (hstops : ∀ n, env.stops n = false)
    (hstock : Stock [] s) (hstarted : s.started = true) (hcb : s.messageCallback = true) :
    ∃ s' calls, (∃ enough, ∀ fuel ≥ enough, handleRead env receiveTime fuel 0 s = .ok (some s')) ∧
      s'.calls = s.calls + calls ∧ env.Ends s.maxPacketsPerRead calls s.calls 0 ∧
      (env.takes s.maxPacketsPerRead calls s.calls 0).length ≤ s.maxPacketsPerRead ∧
      s'.delivered = s.delivered ++
        (env.takes s.maxPacketsPerRead calls s.calls 0).map (Packet.view receiveTime s.bufferSize) ∧
      Stock [] s' := by
  obtain ⟨calm, hcalm⟩ := heintr
  obtain ⟨s', calls, hruns, hcalls, hends, hle, hstock', hprog⟩ :=
    loop_lossless receiveTime hvlen hcalm hstops _ 0 s hstock hstarted hcb (Nat.le_refl _)
  exact ⟨s', calls, ⟨_, hruns⟩, hcalls, hends, hle, hprog.delivered, hstock'⟩

/-- An interruption, then three datagrams: one that is cut, an empty one and
one that fits. -/
def threePackets : Env ℕ where
  recvmmsg n v :=
    if n = 0 then .interrupted
    else if n = 1 then .received (([⟨7, [1, 2, 3]⟩, ⟨8, []⟩, ⟨9, [4]⟩] : List (Packet ℕ)).take v)
    else .failed 11
  released _ := []
  junk _ := [0, 0]
  stops _ := false

/-- A started receiver with a budget of four. -/
def startedFour : Receiver ℕ :=
  { Receiver.create threePackets.junk 2 1 4 with started := true, messageCallback := true }

theorem handleRead_lossless_three :
    (∃ s' calls, (∃ enough, ∀ fuel ≥ enough, handleRead threePackets 5 fuel 0 startedFour = .ok (some s')) ∧
        s'.calls = 0 + calls ∧ threePackets.Ends 4 calls 0 0 ∧ (threePackets.takes 4 calls 0 0).length ≤ 4 ∧
        s'.delivered = [] ++ (threePackets.takes 4 calls 0 0).map (Packet.view 5 2) ∧ Stock [] s') ∧
      threePackets.takes 4 2 0 0 = [⟨7, [1, 2, 3]⟩, ⟨8, []⟩, ⟨9, [4]⟩] ∧ threePackets.Ends 4 2 0 0 ∧
      (handleRead threePackets 5 3 0 startedFour).toOption.bind (Option.map Receiver.delivered) =
        some [⟨[1, 2], 2, 3, true, some 7, 5⟩, ⟨[], 0, 0, false, some 8, 5⟩, ⟨[4], 1, 1, false, some 9, 5⟩] := by
  have hstock := stock_create (ρ := ℕ) threePackets.junk 2 1 4
  refine ⟨handleRead_lossless threePackets 5 startedFour ?_ ?_ (fun _ => rfl) ⟨hstock.1, hstock.2, hstock.3⟩ rfl rfl,
    by decide +kernel, ?_, by decide +kernel⟩
  · intro n v packets h
    simp only [threePackets] at h
    split_ifs at h
    rw [← Outcome.received.inj h]
    exact List.length_take_le ..
  · refine ⟨1, ?_⟩
    intro n hn v h
    simp only [threePackets, if_neg (by omega : ¬n = 0)] at h
    split_ifs at h
  · simp [Env.Ends, threePackets, vlen, Outcome.last, Outcome.packets, UdpReceiver.kDefaultMaxPacketPerRead]

end UdpBatch

end MiniMuduo
