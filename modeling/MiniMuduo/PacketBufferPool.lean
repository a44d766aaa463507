/-
# PacketBufferPool: packet buffers are conserved

`PacketBufferPool::Acquire` of `src/PacketBufferPool.cc`, the deleter it gives
every handle, and the constructor of `PacketBufferPool::State`. Any number of
threads call `Acquire` and drop handles. A step is what a thread does between
two points where another may come in: `Acquire` takes the lock once to pop,
and allocates and resets outside it; the deleter resets outside the lock and
takes it to push. `calls` has the calls that are under way, each with the
thread that runs it. A handle is the control block that its copies share.

What `new` returns (an address that is not in use, and any bytes) and what
the holders do with a buffer is the environment's choice. `new` does not fail
here, and the pool's state lives on: it ends with its last owner, when no
handle is left, and takes the free buffers with it.

`created` and `peak` are for the statements only: the buffers ever created,
and the most that were ever out of the free list at once.

Key definitions: `PacketBufferPool`, `PoolPc`, `PoolStep`, `poolMachine`,
`PacketBufferPool.holders`. Key theorems: `Conserved.step`, `Counted.step`,
`packetBuffers_conserved`.
-/
import Mathlib.Data.List.Count
import Mathlib.Data.List.Nodup
import MiniMuduo.UdpReceiver

namespace MiniMuduo

open Fallible Runs

/-- Where a thread is in `Acquire` or in the deleter of a handle. -/
inductive PoolPc
  /-- `Acquire`, before the locked section. -/
  | acquiring
  /-- `Acquire`, after the locked section: `buffer`. -/
  | popped (buffer : Option ℕ)
  /-- `Acquire`, after `buffer->reset()`. -/
  | ready (buffer : ℕ)
  /-- The deleter, before `buffer->reset()`. -/
  | dropped (buffer : ℕ)
  /-- The deleter, before the locked section. -/
  | cleared (buffer : ℕ)
  deriving DecidableEq, Repr

namespace PoolPc

/-- The buffer in the hands of the call. -/
def buffer : PoolPc → Option ℕ
  | .acquiring => none
  | .popped buffer => buffer
  | .ready b | .dropped b | .cleared b => some b

/-- An `Acquire` past its locked section, or a release not yet pushed. -/
def out : PoolPc → Bool
  | .acquiring => false
  | .popped _ | .ready _ | .dropped _ | .cleared _ => true

/-- An `Acquire` that is going to allocate. -/
def lacking : PoolPc → Bool
  | .popped none => true
  | .acquiring | .popped (some _) | .ready _ | .dropped _ | .cleared _ => false

def inAcquire : PoolPc → Bool
  | .acquiring | .popped _ | .ready _ => true
  | .dropped _ | .cleared _ => false

end PoolPc

/-- A live `std::shared_ptr<PacketBuffer>`, with the number of its copies. -/
structure Handle where
  buffer : ℕ
  copies : ℕ
  deriving DecidableEq, Repr

/-- The pool's state, the calls under way and the handles. -/
structure PacketBufferPool where
  bufferSize : ℕ
  heap : ℕ → Option PacketBuffer
  /-- `free_buffers`, its back first; a `unique_ptr` may be null. -/
  freeBuffers : List (Option ℕ)
  calls : List (ℕ × PoolPc)
  handles : List Handle
  /-- The `PacketBufferPool` object lives. -/
  alive : Bool
  created : List ℕ
  peak : ℕ

namespace PacketBufferPool

/-- `new PacketBuffer(buffer_size)`, at the address and with the bytes that
`new` gives. -/
def newBuffer (address : ℕ) (data : List UInt8) (s : PacketBufferPool) : PacketBufferPool :=
  { s with
    heap := Function.update s.heap address (some ⟨s.bufferSize, data, 0⟩)
    created := address :: s.created }

/-- One round of the loop in the constructor of `State`. -/
def pushNew (s : PacketBufferPool) (alloc : ℕ × List UInt8) : PacketBufferPool :=
  let s := s.newBuffer alloc.1 alloc.2
  { s with freeBuffers := some alloc.1 :: s.freeBuffers }

/-- `PacketBufferPool(buffer_size, initial_buffer_count)`: `allocs` is what
`new` gives for each of the `initial_buffer_count` buffers. -/
def create (bufferSize : ℕ) (allocs : List (ℕ × List UInt8)) : PacketBufferPool :=
  allocs.foldl pushNew ⟨bufferSize, fun _ => none, [], [], [], true, [], 0⟩

/-- Thread `t` goes from `pc` to `pc'`. -/
def move (t : ℕ) (pc pc' : PoolPc) (s : PacketBufferPool) : PacketBufferPool :=
  { s with calls := (t, pc') :: s.calls.erase (t, pc) }

/-- Change a buffer; there must be one. -/
def modify (b : ℕ) (f : PacketBuffer → Except Fault PacketBuffer) (s : PacketBufferPool) :
    Except Fault PacketBufferPool :=
  match s.heap b with
  | none => .error .useAfterFree
  | some buffer => do
    let buffer ← f buffer
    return { s with heap := Function.update s.heap b (some buffer) }

/-- `PacketBuffer::reset`. -/
def resetBuffer (b : ℕ) (s : PacketBufferPool) : Except Fault PacketBufferPool :=
  s.modify b fun p => .ok { p with size := 0 }

/-- `PacketBuffer::set_size`. -/
def setSize (b size : ℕ) (s : PacketBufferPool) : Except Fault PacketBufferPool :=
  s.modify b fun p => if size ≤ p.capacity then .ok { p with size := size } else .error .assertion

/-- A holder writes through `writable_data()`. -/
def write (b : ℕ) (data : List UInt8) (s : PacketBufferPool) : Except Fault PacketBufferPool :=
  s.modify b fun p => .ok { p with data := data }

/-- The locked section of `Acquire`. -/
def pop (t : ℕ) (s : PacketBufferPool) : PacketBufferPool :=
  match s.freeBuffers with
  | b :: rest => { s with freeBuffers := rest }.move t .acquiring (.popped b)
  | [] => s.move t .acquiring (.popped none)

/-- The locked section of the deleter. -/
def push (t b : ℕ) (s : PacketBufferPool) : PacketBufferPool :=
  { s with freeBuffers := some b :: s.freeBuffers, calls := s.calls.erase (t, .cleared b) }

/-- `Acquire` returns a handle. -/
def hand (t b : ℕ) (s : PacketBufferPool) : PacketBufferPool :=
  { s with handles := ⟨b, 1⟩ :: s.handles, calls := s.calls.erase (t, .ready b) }

/-- A copy of a handle is dropped by thread `t`; with the last one the
deleter begins. -/
def drop (t : ℕ) (h : Handle) (s : PacketBufferPool) : PacketBufferPool :=
  if h.copies ≤ 1 then
    { s with handles := s.handles.erase h, calls := (t, .dropped h.buffer) :: s.calls }
  else { s with handles := { h with copies := h.copies - 1 } :: s.handles.erase h }

/-- Live handles, Acquires past their locked section and releases not yet
pushed. -/
def outstanding (s : PacketBufferPool) : ℕ := s.handles.length + s.calls.countP fun c => c.2.out

/-- Acquires that are going to allocate. -/
def lacking (s : PacketBufferPool) : ℕ := s.calls.countP fun c => c.2.lacking

/-- How many of the calls have the buffer in their hands. -/
def held (calls : List (ℕ × PoolPc)) (b : ℕ) : ℕ := calls.countP fun c => c.2.buffer = some b

/-- How many of the handles own the buffer. -/
def owned (handles : List Handle) (b : ℕ) : ℕ := handles.countP fun h => h.buffer = b

/-- In how many places a buffer is: the free list, the calls under way, the
live handles. -/
def holders (s : PacketBufferPool) (b : ℕ) : ℕ :=
  s.freeBuffers.count (some b) + held s.calls b + owned s.handles b

end PacketBufferPool

/-- The steps of the threads. -/
inductive PoolStep
  | acquire (t : ℕ)
  | pop (t : ℕ)
  | allocate (t address : ℕ) (data : List UInt8)
  | reset (t b : ℕ)
  | hand (t b : ℕ)
  | copy (h : Handle)
  | drop (t : ℕ) (h : Handle)
  | clear (t b : ℕ)
  | push (t b : ℕ)
  /-- A holder of the buffer. -/
  | setSize (b size : ℕ)
  | write (b : ℕ) (data : List UInt8)
  /-- The pool object ends; its state lives on in the handles. -/
  | destroy
  deriving DecidableEq, Repr

open PacketBufferPool

/-- A thread is free to enter a call. -/
def PacketBufferPool.idle (s : PacketBufferPool) (t : ℕ) : Bool := s.calls.all fun c => c.1 ≠ t

/-- Which steps can come next. -/
def poolEnabled (s : PacketBufferPool) : PoolStep → Bool
  | .acquire t => s.alive && s.idle t
  | .pop t => (t, .acquiring) ∈ s.calls
  | .allocate t address data =>
    (t, .popped none) ∈ s.calls && (s.heap address).isNone && data.length = s.bufferSize
  | .reset t b => (t, .popped (some b)) ∈ s.calls
  | .hand t b => (t, .ready b) ∈ s.calls
  | .copy h => h ∈ s.handles
  | .drop t h => h ∈ s.handles && s.idle t
  | .clear t b => (t, .dropped b) ∈ s.calls
  | .push t b => (t, .cleared b) ∈ s.calls
  | .setSize b _ => s.handles.any fun h => h.buffer = b
  | .write b data => (s.handles.any fun h => h.buffer = b) && data.length = s.bufferSize
  | .destroy => s.alive && s.calls.all fun c => !c.2.inAcquire

/-- What a step does. -/
def poolAct (s : PacketBufferPool) : PoolStep → Except Fault PacketBufferPool
  | .acquire t => .ok { s with calls := (t, .acquiring) :: s.calls }
  | .pop t => .ok (s.pop t)
  | .allocate t address data => .ok ((s.newBuffer address data).move t (.popped none) (.popped (some address)))
  | .reset t b => return (← s.resetBuffer b).move t (.popped (some b)) (.ready b)
  | .hand t b => .ok (s.hand t b)
  | .copy h => .ok { s with handles := { h with copies := h.copies + 1 } :: s.handles.erase h }
  | .drop t h => .ok (s.drop t h)
  | .clear t b => return (← s.resetBuffer b).move t (.dropped b) (.cleared b)
  | .push t b => .ok (s.push t b)
  | .setSize b size => s.setSize b size
  | .write b data => s.write b data
  | .destroy => .ok { s with alive := false }

/-- One step, with `peak` brought up to date. -/
def poolStep (s : PacketBufferPool) (a : PoolStep) : Except Fault PacketBufferPool := do
  let s ← poolAct s a
  return { s with peak := max s.peak s.outstanding }

/-- The runs of a pool. -/
def poolMachine : Machine PacketBufferPool PoolStep Fault := ⟨fun s a => poolEnabled s a = true, poolStep⟩

instance (s : PacketBufferPool) (a : PoolStep) : Decidable (poolMachine.enabled s a) :=
  inferInstanceAs (Decidable (_ = true))

/-! ### Counting -/

section Count

variable {α : Type} [BEq α] [LawfulBEq α] {l : List α} {c : α}

theorem countP_erase_of_mem (p : α → Bool) (h : c ∈ l) :
    l.countP p = (l.erase c).countP p + if p c then 1 else 0 := by
  rw [(List.perm_cons_erase h).countP_eq p, List.countP_cons]

end Count

namespace PacketBufferPool

variable {s s' : PacketBufferPool} {t b : ℕ}

@[simp] theorem held_cons (c : ℕ × PoolPc) (calls : List (ℕ × PoolPc)) (b : ℕ) :
    held (c :: calls) b = held calls b + if c.2.buffer = some b then 1 else 0 := by
  simp [held, List.countP_cons]

theorem held_of_mem {calls : List (ℕ × PoolPc)} {c : ℕ × PoolPc} (h : c ∈ calls) (b : ℕ) :
    held calls b = held (calls.erase c) b + if c.2.buffer = some b then 1 else 0 := by
  unfold held
  rw [countP_erase_of_mem _ h]
  simp

@[simp] theorem owned_cons (h : Handle) (handles : List Handle) (b : ℕ) :
    owned (h :: handles) b = owned handles b + if h.buffer = b then 1 else 0 := by
  simp [owned, List.countP_cons]

theorem owned_of_mem {handles : List Handle} {h : Handle} (hmem : h ∈ handles) (b : ℕ) :
    owned handles b = owned (handles.erase h) b + if h.buffer = b then 1 else 0 := by
  unfold owned
  rw [countP_erase_of_mem _ hmem]
  simp

theorem count_some_cons (x : Option ℕ) (xs : List (Option ℕ)) (b : ℕ) :
    (x :: xs).count (some b) = xs.count (some b) + if x = some b then 1 else 0 := by
  simp [List.count_cons]

/-- A step of a thread that holds the same buffer before and after it. -/
theorem holders_move {pc pc' : PoolPc} (hmem : (t, pc) ∈ s.calls) (hbuf : pc'.buffer = pc.buffer) (b : ℕ) :
    (s.move t pc pc').holders b = s.holders b := by
  simp only [holders, move, held_cons, hbuf, held_of_mem hmem b]

/-- What changes when a buffer is changed. -/
theorem modify_ok {f : PacketBuffer → Except Fault PacketBuffer} (h : s.modify b f = .ok s') :
    ∃ p p', s.heap b = some p ∧ f p = .ok p' ∧ s' = { s with heap := Function.update s.heap b (some p') } := by
  unfold modify at h
  split at h
  · cases h
  case h_2 p hp =>
    obtain ⟨p', hf, h⟩ := bind_eq_ok h
    exact ⟨p, p', hp, hf, (Except.ok.inj h).symm⟩

end PacketBufferPool

/-! ### Every buffer is in one place -/

/-- Every buffer ever created is in one place, and is as `Acquire` promises. -/
structure Conserved (s : PacketBufferPool) : Prop where
  once : ∀ b, s.holders b = s.created.count b
  distinct : s.created.Nodup
  noNull : none ∉ s.freeBuffers
  fits : ∀ b ∈ s.created, ∃ p, s.heap b = some p ∧ p.capacity = s.bufferSize
  clean : ∀ t b, (t, .ready b) ∈ s.calls → ∃ p, s.heap b = some p ∧ p.size = 0

namespace Conserved

variable {s s' : PacketBufferPool} {t b : ℕ}

theorem holders_le (h : Conserved s) (b : ℕ) : s.holders b ≤ 1 := by
  rw [h.once b]
  exact List.nodup_iff_count_le_one.mp h.distinct b

/-- A buffer in somebody's hands was created. -/
theorem created_of_holders (h : Conserved s) (hb : 0 < s.holders b) : b ∈ s.created := by
  rw [h.once b] at hb
  exact List.count_pos_iff.mp hb

/-- A change of one buffer that keeps its capacity, while no `Acquire` has
made it ready, or a `reset`. -/
theorem setHeap (h : Conserved s) {p p' : PacketBuffer} (hp : s.heap b = some p)
    (hcap : p'.capacity = p.capacity) (hclean : p'.size = 0 ∨ p'.size = p.size ∨ ∀ t, (t, .ready b) ∉ s.calls) :
    Conserved { s with heap := Function.update s.heap b (some p') } where
  once := h.once
  distinct := h.distinct
  noNull := h.noNull
  fits := by
    intro b' hb'
    by_cases hbb : b' = b
    · subst hbb
      obtain ⟨q, hq, hfit⟩ := h.fits b' hb'
      obtain rfl : p = q := Option.some.inj (hp.symm.trans hq)
      exact ⟨p', Function.update_self .., hcap.trans hfit⟩
    · simp only [Function.update_of_ne hbb]
      exact h.fits b' hb'
  clean := by
    intro t b' hready
    obtain ⟨q, hq, hzero⟩ := h.clean t b' hready
    by_cases hbb : b' = b
    · subst hbb
      obtain rfl : p = q := Option.some.inj (hp.symm.trans hq)
      refine ⟨p', Function.update_self .., ?_⟩
      obtain hsize | hsize | hnone := hclean
      · exact hsize
      · exact hsize.trans hzero
      · exact absurd hready (hnone t)
    · simp only [Function.update_of_ne hbb]
      exact ⟨q, hq, hzero⟩

/-- Buffers change hands: what is held and what is created stay the same
buffers. -/
theorem shift (h : Conserved s) (hheap : s'.heap = s.heap) (hsize : s'.bufferSize = s.bufferSize)
    (hcreated : s'.created = s.created) (hheld : ∀ b, s'.holders b = s.holders b)
    (hnull : none ∉ s'.freeBuffers)
    (hready : ∀ t b, (t, .ready b) ∈ s'.calls → ∃ p, s.heap b = some p ∧ p.size = 0) : Conserved s' where
  once b := by rw [hheld b, hcreated, h.once b]
  distinct := hcreated ▸ h.distinct
  noNull := hnull
  fits := by
    rw [hcreated, hheap, hsize]
    exact h.fits
  clean := by
    rw [hheap]
    exact hready

/-- The calls that stay are ready as they were. -/
theorem ready_of_erase (h : Conserved s) {c : ℕ × PoolPc} (hc : (t, .ready b) ∈ s.calls.erase c) :
    ∃ p, s.heap b = some p ∧ p.size = 0 :=
  h.clean t b (List.mem_of_mem_erase hc)

theorem pop (h : Conserved s) (hmem : (t, .acquiring) ∈ s.calls) : Conserved (s.pop t) := by
  have hready : ∀ x t' b', (t', .ready b') ∈ (t, PoolPc.popped x) :: s.calls.erase (t, .acquiring) →
      ∃ p, s.heap b' = some p ∧ p.size = 0 := by
    intro x t' b' hc
    rcases List.mem_cons.mp hc with hc | hc
    · cases hc
    · exact h.ready_of_erase hc
  have hnull := h.noNull
  unfold PacketBufferPool.pop
  split
  case h_1 x rest hfree =>
    rw [hfree] at hnull
    refine h.shift rfl rfl rfl ?_ (fun hn => hnull (List.mem_cons_of_mem _ hn)) (hready x)
    intro b
    have hheld := held_of_mem hmem b
    have hnone : (if (t, PoolPc.acquiring).2.buffer = some b then 1 else 0) = 0 := rfl
    rw [hnone] at hheld
    simp only [holders, move, hfree, held_cons, count_some_cons, hheld]
    change rest.count (some b) + (held (s.calls.erase (t, .acquiring)) b + if x = some b then 1 else 0) +
      owned s.handles b = _
    omega
  case h_2 hfree =>
    refine h.shift rfl rfl rfl ?_ hnull (hready none)
    exact s.holders_move hmem rfl

theorem newBuffer (h : Conserved s) {data : List UInt8} (hfresh : s.heap b = none)
    (hmem : (t, .popped none) ∈ s.calls) :
    Conserved ((s.newBuffer b data).move t (.popped none) (.popped (some b))) := by
  have hnew : b ∉ s.created := by
    intro hb
    obtain ⟨p, hp, -⟩ := h.fits b hb
    rw [hfresh] at hp
    cases hp
  constructor
  case once =>
    intro b'
    have hheld := held_of_mem hmem b'
    have honce := h.once b'
    simp only [holders, move, PacketBufferPool.newBuffer, held_cons, hheld, PoolPc.buffer, reduceCtorEq, if_false,
      Option.some.injEq, List.count_cons, beq_iff_eq] at honce ⊢
    omega
  case distinct => exact List.nodup_cons.mpr ⟨hnew, h.distinct⟩
  case noNull => exact h.noNull
  case fits =>
    intro b' hb'
    rcases List.mem_cons.mp hb' with rfl | hb'
    · exact ⟨_, Function.update_self .., rfl⟩
    · have hne : b' ≠ b := fun heq => hnew (heq ▸ hb')
      obtain ⟨p, hp, hcap⟩ := h.fits b' hb'
      exact ⟨p, (Function.update_of_ne hne ..).trans hp, hcap⟩
  case clean =>
    intro t' b' hc
    rcases List.mem_cons.mp hc with hc | hc
    · cases hc
    · obtain ⟨p, hp, hzero⟩ := h.ready_of_erase hc
      have hne : b' ≠ b := by
        rintro rfl
        rw [hfresh] at hp
        cases hp
      exact ⟨p, (Function.update_of_ne hne ..).trans hp, hzero⟩

/-- `reset`, and the call goes on with the same buffer. -/
theorem resetMove (h : Conserved s) {pc pc' : PoolPc} (hmem : (t, pc) ∈ s.calls) (hbuf : pc'.buffer = pc.buffer)
    (hready : ∀ b', pc' = .ready b' → b' = b)
    (hst : (do return (← s.resetBuffer b).move t pc pc' : Except Fault PacketBufferPool) = .ok s') :
    Conserved s' := by
  obtain ⟨s1, hs1, hst⟩ := bind_eq_ok hst
  obtain rfl := Except.ok.inj hst
  obtain ⟨p, p', hp, hf, rfl⟩ := modify_ok hs1
  obtain rfl := Except.ok.inj hf
  have hset : Conserved { s with heap := Function.update s.heap b (some { p with size := 0 }) } :=
    h.setHeap hp rfl (.inl rfl)
  refine hset.shift rfl rfl rfl ?_ h.noNull ?_
  · exact holders_move (s := { s with heap := _ }) hmem hbuf
  · intro t' b' hc
    rcases List.mem_cons.mp hc with hc | hc
    · obtain rfl := hready b' (Prod.mk.inj hc).2.symm
      exact ⟨_, Function.update_self .., rfl⟩
    · exact hset.ready_of_erase hc

theorem hand (h : Conserved s) (hmem : (t, .ready b) ∈ s.calls) : Conserved (s.hand t b) := by
  refine h.shift rfl rfl rfl ?_ h.noNull fun _ _ hc => h.ready_of_erase hc
  intro b'
  have hheld := held_of_mem hmem b'
  simp only [PoolPc.buffer, Option.some.injEq] at hheld
  simp only [holders, PacketBufferPool.hand, owned_cons, hheld]
  omega

/-- The handles of a buffer are as many as before. -/
theorem relabel (h : Conserved s) {hd : Handle} {n : ℕ} (hmem : hd ∈ s.handles) :
    Conserved { s with handles := { hd with copies := n } :: s.handles.erase hd } := by
  refine h.shift rfl rfl rfl ?_ h.noNull h.clean
  intro b'
  simp only [holders, owned_cons, owned_of_mem hmem b']

theorem drop (h : Conserved s) {hd : Handle} (hmem : hd ∈ s.handles) : Conserved (s.drop t hd) := by
  unfold PacketBufferPool.drop
  split
  · refine h.shift rfl rfl rfl ?_ h.noNull ?_
    · intro b'
      simp only [holders, held_cons, owned_of_mem hmem b', PoolPc.buffer, Option.some.injEq]
      omega
    · intro t' b' hc
      rcases List.mem_cons.mp hc with hc | hc
      · cases hc
      · exact h.clean t' b' hc
  · exact h.relabel hmem

theorem push (h : Conserved s) (hmem : (t, .cleared b) ∈ s.calls) : Conserved (s.push t b) := by
  refine h.shift rfl rfl rfl ?_ ?_ fun _ _ hc => h.ready_of_erase hc
  · intro b'
    have hheld := held_of_mem hmem b'
    simp only [PoolPc.buffer, Option.some.injEq] at hheld
    simp only [holders, PacketBufferPool.push, count_some_cons, Option.some.injEq, hheld]
    omega
  · intro hn
    rcases List.mem_cons.mp hn with hn | hn
    · cases hn
    · exact h.noNull hn

/-- A buffer with a handle is not one that an `Acquire` is about to return. -/
theorem not_ready_of_handle (h : Conserved s) {hd : Handle} (hmem : hd ∈ s.handles) (t : ℕ) :
    (t, .ready hd.buffer) ∉ s.calls := by
  intro hc
  have hle := h.holders_le hd.buffer
  have hheld := held_of_mem hc hd.buffer
  have howned := owned_of_mem hmem hd.buffer
  simp only [PoolPc.buffer, if_true] at hheld howned
  unfold holders at hle
  omega

/-- A holder changes the size or the bytes. -/
theorem change (h : Conserved s) {f : PacketBuffer → Except Fault PacketBuffer}
    (hany : (s.handles.any fun hd => hd.buffer = b) = true)
    (hcap : ∀ p p', f p = .ok p' → p'.capacity = p.capacity) (hst : s.modify b f = .ok s') : Conserved s' := by
  obtain ⟨hd, hmem, hb⟩ := List.any_eq_true.mp hany
  obtain rfl : hd.buffer = b := by simpa using hb
  obtain ⟨p, p', hp, hf, rfl⟩ := modify_ok hst
  exact h.setHeap hp (hcap p p' hf) (.inr (.inr (h.not_ready_of_handle hmem)))

/-- **Every step keeps every buffer in one place.** -/
theorem act (h : Conserved s) {a : PoolStep} (hen : poolEnabled s a = true) (hst : poolAct s a = .ok s') :
    Conserved s' := by
  cases a with
  | acquire t =>
    obtain rfl := Except.ok.inj hst
    refine h.shift rfl rfl rfl ?_ h.noNull ?_
    · intro b
      simp [holders, PoolPc.buffer]
    · intro t' b' hc
      rcases List.mem_cons.mp hc with hc | hc
      · cases hc
      · exact h.clean t' b' hc
  | pop t =>
    obtain rfl := Except.ok.inj hst
    exact h.pop (of_decide_eq_true hen)
  | allocate t address data =>
    obtain rfl := Except.ok.inj hst
    simp only [poolEnabled, Bool.and_eq_true, decide_eq_true_eq, Option.isNone_iff_eq_none] at hen
    exact h.newBuffer hen.1.2 hen.1.1
  | reset t b =>
    have hbuf : (PoolPc.ready b).buffer = (PoolPc.popped (some b)).buffer := rfl
    exact h.resetMove (of_decide_eq_true hen) hbuf (by simp) hst
  | hand t b =>
    obtain rfl := Except.ok.inj hst
    exact h.hand (of_decide_eq_true hen)
  | copy hd =>
    obtain rfl := Except.ok.inj hst
    exact h.relabel (of_decide_eq_true hen)
  | drop t hd =>
    obtain rfl := Except.ok.inj hst
    simp only [poolEnabled, Bool.and_eq_true, decide_eq_true_eq] at hen
    exact h.drop hen.1
  | clear t b =>
    have hbuf : (PoolPc.cleared b).buffer = (PoolPc.dropped b).buffer := rfl
    exact h.resetMove (of_decide_eq_true hen) hbuf (by simp) hst
  | push t b =>
    obtain rfl := Except.ok.inj hst
    exact h.push (of_decide_eq_true hen)
  | setSize b size =>
    refine h.change hen ?_ hst
    intro p p' hf
    split at hf
    · rw [← Except.ok.inj hf]
    · cases hf
  | write b data =>
    simp only [poolEnabled, Bool.and_eq_true] at hen
    refine h.change hen.1 ?_ hst
    intro p p' hf
    rw [← Except.ok.inj hf]
  | destroy =>
    obtain rfl := Except.ok.inj hst
    exact h.shift rfl rfl rfl (fun _ => rfl) h.noNull h.clean

theorem step (h : Conserved s) {a : PoolStep} (hen : poolEnabled s a = true) (hst : poolStep s a = .ok s') :
    Conserved s' := by
  obtain ⟨s1, hact, hst⟩ := bind_eq_ok hst
  obtain rfl := Except.ok.inj hst
  have h1 := h.act hen hact
  exact h1.shift rfl rfl rfl (fun _ => rfl) h1.noNull h1.clean

end Conserved

/-! ### How many buffers are created -/

/-- What a step does to the numbers: the buffers created and those about to
be, less the ones in the free list and those out of it, stay the same; and
one more is needed only when the free list is empty. -/
structure Tallied (s s' : PacketBufferPool) : Prop where
  peak : s'.peak = s.peak
  balance : s'.freeBuffers.length + s'.outstanding + (s.created.length + s.lacking) =
    s.freeBuffers.length + s.outstanding + (s'.created.length + s'.lacking)
  grows : s'.created.length + s'.lacking = s.created.length + s.lacking ∨
    s'.freeBuffers = [] ∧ s'.created.length + s'.lacking = s.created.length + s.lacking + 1

namespace Tallied

variable {s s' : PacketBufferPool} {t b : ℕ}

/-- Nothing is created and nobody lacks a buffer who did not before. -/
theorem same (hpeak : s'.peak = s.peak) (hcreated : s'.created = s.created) (hlack : s'.lacking = s.lacking)
    (hout : s'.freeBuffers.length + s'.outstanding = s.freeBuffers.length + s.outstanding) : Tallied s s' where
  peak := hpeak
  balance := by rw [hcreated, hlack, hout]
  grows := .inl (by rw [hcreated, hlack])

theorem outstanding_move {pc : PoolPc} (hmem : (t, pc) ∈ s.calls) (pc' : PoolPc) :
    (s.move t pc pc').outstanding + (if pc.out then 1 else 0) = s.outstanding + if pc'.out then 1 else 0 := by
  have hcount := countP_erase_of_mem (fun c : ℕ × PoolPc => c.2.out) hmem
  simp only [outstanding, move, List.countP_cons, hcount]
  omega

theorem lacking_move {pc : PoolPc} (hmem : (t, pc) ∈ s.calls) (pc' : PoolPc) :
    (s.move t pc pc').lacking + (if pc.lacking then 1 else 0) = s.lacking + if pc'.lacking then 1 else 0 := by
  have hcount := countP_erase_of_mem (fun c : ℕ × PoolPc => c.2.lacking) hmem
  simp only [PacketBufferPool.lacking, move, List.countP_cons, hcount]
  omega

/-- A call with a buffer ends. -/
theorem leave {pc : PoolPc} (hmem : (t, pc) ∈ s.calls) (hout : pc.out = true) (hlack : pc.lacking = false) :
    (s.calls.countP fun c => c.2.out) = ((s.calls.erase (t, pc)).countP fun c => c.2.out) + 1 ∧
      ((s.calls.erase (t, pc)).countP fun c => c.2.lacking) = s.calls.countP fun c => c.2.lacking := by
  have h1 := countP_erase_of_mem (fun c : ℕ × PoolPc => c.2.out) hmem
  have h2 := countP_erase_of_mem (fun c : ℕ × PoolPc => c.2.lacking) hmem
  rw [if_pos hout] at h1
  rw [if_neg (by rw [hlack]; decide)] at h2
  exact ⟨h1, h2.symm⟩

theorem pop (hnull : none ∉ s.freeBuffers) (hmem : (t, .acquiring) ∈ s.calls) : Tallied s (s.pop t) := by
  unfold PacketBufferPool.pop
  split
  case h_1 x rest hfree =>
    obtain ⟨b, rfl⟩ : ∃ b, x = some b := by
      cases x with
      | none => exact absurd (hfree ▸ List.mem_cons_self) hnull
      | some b => exact ⟨b, rfl⟩
    have hmem' : (t, .acquiring) ∈ { s with freeBuffers := rest }.calls := hmem
    have hout := outstanding_move hmem' (.popped (some b))
    have hlack := lacking_move hmem' (.popped (some b))
    simp only [PoolPc.out, PoolPc.lacking, Bool.false_eq_true, if_false, if_true] at hout hlack
    refine same rfl rfl hlack ?_
    simp only [hfree, List.length_cons, Nat.add_zero] at hout ⊢
    rw [hout]
    simp only [move, outstanding]
    omega
  case h_2 hfree =>
    have hout := outstanding_move hmem (.popped none)
    have hlack := lacking_move hmem (.popped none)
    simp only [PoolPc.out, PoolPc.lacking, Bool.false_eq_true, if_false, if_true, Nat.add_zero] at hout hlack
    constructor
    case peak => rfl
    case balance =>
      rw [hout, hlack]
      simp only [move]
      omega
    case grows =>
      rw [hlack]
      exact .inr ⟨hfree, rfl⟩

theorem allocate {data : List UInt8} (hmem : (t, .popped none) ∈ s.calls) :
    Tallied s ((s.newBuffer b data).move t (.popped none) (.popped (some b))) := by
  have hmem' : (t, .popped none) ∈ (s.newBuffer b data).calls := hmem
  have hout := outstanding_move hmem' (.popped (some b))
  have hlack := lacking_move hmem' (.popped (some b))
  simp only [PoolPc.out, PoolPc.lacking, Bool.false_eq_true, if_false, if_true, Nat.add_right_cancel_iff,
    Nat.add_zero] at hout hlack
  have hout' : ((s.newBuffer b data).move t (.popped none) (.popped (some b))).outstanding = s.outstanding := hout
  have hlack' : ((s.newBuffer b data).move t (.popped none) (.popped (some b))).lacking + 1 = s.lacking := hlack
  have hcreated : ((s.newBuffer b data).move t (.popped none) (.popped (some b))).created.length =
    s.created.length + 1 := rfl
  constructor
  case peak => rfl
  case balance =>
    rw [hout', hcreated, ← hlack']
    simp only [move, newBuffer]
    omega
  case grows =>
    left
    omega

/-- The call goes on, on the same side of the locked sections. -/
theorem resetMove {pc pc' : PoolPc} (hmem : (t, pc) ∈ s.calls) (hout : pc'.out = pc.out)
    (hlack : pc'.lacking = pc.lacking)
    (hst : (do return (← s.resetBuffer b).move t pc pc' : Except Fault PacketBufferPool) = .ok s') :
    Tallied s s' := by
  obtain ⟨s1, hs1, hst⟩ := bind_eq_ok hst
  obtain rfl := Except.ok.inj hst
  obtain ⟨p, p', hp, hf, rfl⟩ := modify_ok hs1
  have h1 := outstanding_move hmem pc'
  have h2 := lacking_move hmem pc'
  rw [hout, Nat.add_right_cancel_iff] at h1
  rw [hlack, Nat.add_right_cancel_iff] at h2
  refine same rfl rfl h2 ?_
  rw [← h1]
  rfl

theorem hand (hmem : (t, .ready b) ∈ s.calls) : Tallied s (s.hand t b) := by
  obtain ⟨hout, hlack⟩ := leave hmem rfl rfl
  refine same rfl rfl hlack ?_
  simp only [outstanding, PacketBufferPool.hand, List.length_cons, hout]
  omega

theorem relabel {hd hd' : Handle} (hmem : hd ∈ s.handles) :
    Tallied s { s with handles := hd' :: s.handles.erase hd } := by
  have hlen := List.length_erase_add_one hmem
  refine same rfl rfl rfl ?_
  simp only [outstanding, List.length_cons]
  omega

theorem drop {hd : Handle} (hmem : hd ∈ s.handles) : Tallied s (s.drop t hd) := by
  unfold PacketBufferPool.drop
  split
  · have hlen := List.length_erase_add_one hmem
    refine same rfl rfl rfl ?_
    simp only [outstanding, List.countP_cons, PoolPc.out, if_true]
    omega
  · exact relabel hmem

theorem push (hmem : (t, .cleared b) ∈ s.calls) : Tallied s (s.push t b) := by
  obtain ⟨hout, hlack⟩ := leave hmem rfl rfl
  refine same rfl rfl hlack ?_
  simp only [outstanding, PacketBufferPool.push, List.length_cons, hout]
  omega

theorem change {f : PacketBuffer → Except Fault PacketBuffer} (hst : s.modify b f = .ok s') : Tallied s s' := by
  obtain ⟨p, p', hp, hf, rfl⟩ := modify_ok hst
  exact same rfl rfl rfl rfl

/-- Every step. -/
theorem act {a : PoolStep} (hnull : none ∉ s.freeBuffers) (hen : poolEnabled s a = true)
    (hst : poolAct s a = .ok s') : Tallied s s' := by
  cases a with
  | acquire t =>
    obtain rfl := Except.ok.inj hst
    exact same rfl rfl rfl rfl
  | pop t =>
    obtain rfl := Except.ok.inj hst
    exact pop hnull (of_decide_eq_true hen)
  | allocate t address data =>
    obtain rfl := Except.ok.inj hst
    simp only [poolEnabled, Bool.and_eq_true, decide_eq_true_eq] at hen
    exact allocate hen.1.1
  | reset t b =>
    have hout : (PoolPc.ready b).out = (PoolPc.popped (some b)).out := rfl
    exact resetMove (of_decide_eq_true hen) hout rfl hst
  | hand t b =>
    obtain rfl := Except.ok.inj hst
    exact hand (of_decide_eq_true hen)
  | copy hd =>
    obtain rfl := Except.ok.inj hst
    exact relabel (of_decide_eq_true hen)
  | drop t hd =>
    obtain rfl := Except.ok.inj hst
    simp only [poolEnabled, Bool.and_eq_true, decide_eq_true_eq] at hen
    exact drop hen.1
  | clear t b =>
    have hout : (PoolPc.cleared b).out = (PoolPc.dropped b).out := rfl
    exact resetMove (of_decide_eq_true hen) hout rfl hst
  | push t b =>
    obtain rfl := Except.ok.inj hst
    exact push (of_decide_eq_true hen)
  | setSize b size => exact change hst
  | write b data => exact change hst
  | destroy =>
    obtain rfl := Except.ok.inj hst
    exact same rfl rfl rfl rfl

end Tallied

/-- The buffers created, and those about to be, are as many as the pool began
with, or as many as were ever out at once. -/
structure Counted (n : ℕ) (s : PacketBufferPool) : Prop where
  balance : s.freeBuffers.length + s.outstanding = s.created.length + s.lacking
  total : s.created.length + s.lacking = max n s.peak

theorem Counted.step {n : ℕ} {s s' : PacketBufferPool} {a : PoolStep} (h : Counted n s)
    (hnull : none ∉ s.freeBuffers) (hen : poolEnabled s a = true) (hst : poolStep s a = .ok s') :
    Counted n s' := by
  obtain ⟨s1, hact, hst⟩ := bind_eq_ok hst
  obtain rfl := Except.ok.inj hst
  obtain ⟨hpeak, hbalance, hgrows⟩ := Tallied.act hnull hen hact
  obtain ⟨h1, h2⟩ := h
  have hbal : s1.freeBuffers.length + s1.outstanding = s1.created.length + s1.lacking := by omega
  refine ⟨hbal, ?_⟩
  change s1.created.length + s1.lacking = max n (max s1.peak s1.outstanding)
  rw [hpeak]
  obtain hsame | ⟨hempty, hmore⟩ := hgrows
  · omega
  · rw [hempty, List.length_nil] at hbal
    omega

/-! ### Runs -/

/-- What the constructor's loop keeps: all buffers are in the free list. -/
structure Stocked (s : PacketBufferPool) : Prop where
  conserved : Conserved s
  calls : s.calls = []
  handles : s.handles = []
  peak : s.peak = 0
  length : s.freeBuffers.length = s.created.length

theorem Stocked.pushNew {s : PacketBufferPool} (h : Stocked s) {alloc : ℕ × List UInt8}
    (hnew : alloc.1 ∉ s.created) : Stocked (s.pushNew alloc) where
  conserved := by
    obtain ⟨⟨honce, hdistinct, hnull, hfits, -⟩, hcalls, -, -, -⟩ := h
    constructor
    case once =>
      intro b
      have hb := honce b
      simp only [holders, PacketBufferPool.pushNew, newBuffer, List.count_cons, Option.some.injEq,
        beq_iff_eq] at hb ⊢
      omega
    case distinct => exact List.nodup_cons.mpr ⟨hnew, hdistinct⟩
    case noNull =>
      intro hn
      rcases List.mem_cons.mp hn with hn | hn
      · cases hn
      · exact hnull hn
    case fits =>
      intro b hb
      rcases List.mem_cons.mp hb with rfl | hb
      · exact ⟨_, Function.update_self .., rfl⟩
      · have hne : b ≠ alloc.1 := fun heq => hnew (heq ▸ hb)
        obtain ⟨p, hp, hcap⟩ := hfits b hb
        exact ⟨p, (Function.update_of_ne hne ..).trans hp, hcap⟩
    case clean =>
      intro t b hc
      replace hc : (t, PoolPc.ready b) ∈ s.calls := hc
      rw [hcalls] at hc
      cases hc
  calls := h.calls
  handles := h.handles
  peak := h.peak
  length := congrArg (· + 1) h.length

/-- The constructor. -/
theorem stocked_foldl : ∀ {allocs : List (ℕ × List UInt8)} {s : PacketBufferPool}, Stocked s →
    (allocs.map Prod.fst).Nodup → (∀ alloc ∈ allocs, alloc.1 ∉ s.created) →
    Stocked (allocs.foldl pushNew s) ∧
      (allocs.foldl pushNew s).created.length = s.created.length + allocs.length ∧
      (allocs.foldl pushNew s).bufferSize = s.bufferSize
  | [], _, h, _, _ => ⟨h, rfl, rfl⟩
  | alloc :: allocs, s, h, hnodup, hnew => by
    rw [List.map_cons, List.nodup_cons] at hnodup
    have hstep := h.pushNew (hnew alloc List.mem_cons_self)
    have hrest : ∀ alloc' ∈ allocs, alloc'.1 ∉ (s.pushNew alloc).created := by
      intro alloc' hmem hin
      rcases List.mem_cons.mp hin with heq | hin
      · exact hnodup.1 (heq ▸ List.mem_map_of_mem hmem)
      · exact hnew alloc' (List.mem_cons_of_mem _ hmem) hin
    obtain ⟨hstocked, hlen, hsize⟩ := stocked_foldl hstep hnodup.2 hrest
    refine ⟨hstocked, ?_, hsize⟩
    rw [List.foldl_cons, hlen, List.length_cons]
    simp only [PacketBufferPool.pushNew, newBuffer, List.length_cons]
    omega

theorem stocked_create (bufferSize : ℕ) {allocs : List (ℕ × List UInt8)} (hnodup : (allocs.map Prod.fst).Nodup) :
    Stocked (create bufferSize allocs) ∧ (create bufferSize allocs).created.length = allocs.length ∧
      (create bufferSize allocs).bufferSize = bufferSize := by
  have hempty : Stocked ⟨bufferSize, fun _ => none, [], [], [], true, [], 0⟩ :=
    ⟨⟨fun _ => rfl, List.nodup_nil, by simp, by simp, by simp⟩, rfl, rfl, rfl, rfl⟩
  obtain ⟨hstocked, hlen, hsize⟩ := stocked_foldl hempty hnodup (by simp)
  refine ⟨hstocked, ?_, hsize⟩
  rw [create, hlen]
  simp

theorem modify_bufferSize {s s' : PacketBufferPool} {b : ℕ} {f : PacketBuffer → Except Fault PacketBuffer}
    (h : s.modify b f = .ok s') : s'.bufferSize = s.bufferSize := by
  obtain ⟨p, p', -, -, rfl⟩ := modify_ok h
  rfl

theorem poolStep_bufferSize {s s' : PacketBufferPool} {a : PoolStep} (hst : poolStep s a = .ok s') :
    s'.bufferSize = s.bufferSize := by
  obtain ⟨s1, hact, hst⟩ := bind_eq_ok hst
  obtain rfl := Except.ok.inj hst
  change s1.bufferSize = s.bufferSize
  cases a with
  | pop t =>
    obtain rfl := Except.ok.inj hact
    unfold PacketBufferPool.pop
    split <;> rfl
  | reset t b =>
    obtain ⟨s2, hs2, hact⟩ := bind_eq_ok hact
    obtain rfl := Except.ok.inj hact
    have hsize : s2.bufferSize = s.bufferSize := modify_bufferSize hs2
    exact hsize
  | drop t hd =>
    obtain rfl := Except.ok.inj hact
    unfold PacketBufferPool.drop
    split <;> rfl
  | clear t b =>
    obtain ⟨s2, hs2, hact⟩ := bind_eq_ok hact
    obtain rfl := Except.ok.inj hact
    have hsize : s2.bufferSize = s.bufferSize := modify_bufferSize hs2
    exact hsize
  | setSize b size => exact modify_bufferSize hact
  | write b data => exact modify_bufferSize hact
  | acquire | allocate | hand | copy | push | destroy =>
    obtain rfl := Except.ok.inj hact
    rfl

/-- A buffer that is held can be changed. -/
theorem Conserved.modify_held {s : PacketBufferPool} (h : Conserved s) {b : ℕ} (hb : 0 < s.holders b)
    {f : PacketBuffer → Except Fault PacketBuffer} (hf : ∀ p, p.capacity = s.bufferSize → ∃ p', f p = .ok p') :
    ∃ s', s.modify b f = .ok s' := by
  obtain ⟨p, hp, hcap⟩ := h.fits b (h.created_of_holders hb)
  obtain ⟨p', hp'⟩ := hf p hcap
  refine ⟨{ s with heap := Function.update s.heap b (some p') }, ?_⟩
  simp [PacketBufferPool.modify, hp, hp']

theorem holders_of_call {s : PacketBufferPool} {t b : ℕ} {pc : PoolPc} (hmem : (t, pc) ∈ s.calls)
    (hb : pc.buffer = some b) : 0 < s.holders b := by
  have hheld := held_of_mem hmem b
  rw [if_pos hb] at hheld
  unfold holders
  omega

theorem holders_of_handle {s : PacketBufferPool} {b : ℕ} (hany : (s.handles.any fun hd => hd.buffer = b) = true) :
    0 < s.holders b := by
  obtain ⟨hd, hmem, hb⟩ := List.any_eq_true.mp hany
  have howned := owned_of_mem hmem b
  rw [if_pos (by simpa using hb)] at howned
  unfold holders
  omega

/-- No step faults, if nobody sets a size beyond the capacity. -/
theorem Conserved.step_ok {s : PacketBufferPool} (h : Conserved s) {a : PoolStep} (hen : poolEnabled s a = true)
    (hsize : ∀ b size, a = .setSize b size → size ≤ s.bufferSize) : ∃ s', poolStep s a = .ok s' := by
  have hact : ∃ s', poolAct s a = .ok s' := by
    cases a with
    | reset t b =>
      have hheld := holders_of_call (of_decide_eq_true hen) rfl
      obtain ⟨s', hs'⟩ := h.modify_held (f := fun p => .ok { p with size := 0 }) hheld fun p _ => ⟨_, rfl⟩
      exact ⟨s'.move t (.popped (some b)) (.ready b), by simp [poolAct, resetBuffer, hs']⟩
    | clear t b =>
      have hheld := holders_of_call (of_decide_eq_true hen) rfl
      obtain ⟨s', hs'⟩ := h.modify_held (f := fun p => .ok { p with size := 0 }) hheld fun p _ => ⟨_, rfl⟩
      exact ⟨s'.move t (.dropped b) (.cleared b), by simp [poolAct, resetBuffer, hs']⟩
    | setSize b size =>
      refine h.modify_held (holders_of_handle hen) fun p hcap => ?_
      have hle := hsize b size rfl
      exact ⟨_, if_pos (hcap ▸ hle)⟩
    | write b data =>
      simp only [poolEnabled, Bool.and_eq_true] at hen
      exact h.modify_held (holders_of_handle hen.1) fun p _ => ⟨_, rfl⟩
    | acquire | pop | allocate | hand | copy | drop | push | destroy => exact ⟨_, rfl⟩
  obtain ⟨s', hs'⟩ := hact
  exact ⟨_, by rw [poolStep, hs']; rfl⟩

/-- No `unique_ptr` of the free list owns another's buffer. -/
theorem Conserved.freeBuffers_nodup {s : PacketBufferPool} (h : Conserved s) : s.freeBuffers.Nodup := by
  rw [List.nodup_iff_count_le_one]
  intro x
  cases x with
  | none =>
    rw [List.count_eq_zero_of_not_mem h.noNull]
    exact Nat.zero_le 1
  | some b =>
    have hle := h.holders_le b
    unfold holders at hle
    omega

/-- What every run keeps. -/
structure Pooled (bufferSize n : ℕ) (s : PacketBufferPool) : Prop where
  conserved : Conserved s
  counted : Counted n s
  bufferSize : s.bufferSize = bufferSize

theorem Pooled.step {bufferSize n : ℕ} {s s' : PacketBufferPool} {a : PoolStep} (h : Pooled bufferSize n s)
    (hen : poolEnabled s a = true) (hst : poolStep s a = .ok s') : Pooled bufferSize n s' where
  conserved := h.conserved.step hen hst
  counted := h.counted.step h.conserved.noNull hen hst
  bufferSize := (poolStep_bufferSize hst).trans h.bufferSize

theorem pooled_create (bufferSize : ℕ) {allocs : List (ℕ × List UInt8)} (hnodup : (allocs.map Prod.fst).Nodup) :
    Pooled bufferSize allocs.length (create bufferSize allocs) := by
  obtain ⟨⟨hconserved, hcalls, hhandles, hpeak, hlength⟩, hlen, hsize⟩ := stocked_create bufferSize hnodup
  refine ⟨hconserved, ⟨?_, ?_⟩, hsize⟩
  · simp [outstanding, PacketBufferPool.lacking, hcalls, hhandles, hlength]
  · simp [PacketBufferPool.lacking, hcalls, hlen, hpeak]

/-- **Packet buffers are conserved.** For every buffer size, whatever number of
buffers the pool begins with, and whatever the threads do, in every state: each
buffer ever created is in one place; the free list has no null and no
duplicate; every buffer has the capacity asked for; an `Acquire` returns a
buffer of size 0; when no `Acquire` is under way, as many buffers were created
as the pool began with, or as were ever out of the free list at once if those
are more; and no step faults, unless a holder breaks `set_size`'s assertion. -/
theorem packetBuffers_conserved (bufferSize : ℕ) {allocs : List (ℕ × List UInt8)}
    (hallocs : (allocs.map Prod.fst).Nodup) {tr : List (PacketBufferPool × PoolStep)} {s : PacketBufferPool}
    (hr : Run poolMachine (create bufferSize allocs) tr s) :
    (s.created.Nodup ∧ ∀ b ∈ s.created, s.holders b = 1) ∧
    (none ∉ s.freeBuffers ∧ s.freeBuffers.Nodup) ∧
    (∀ b ∈ s.created, ∃ p, s.heap b = some p ∧ p.capacity = bufferSize) ∧
    (∀ t b u, poolMachine.enabled s (.hand t b) → poolMachine.step s (.hand t b) = .ok u →
      ∃ p, u.heap b = some p ∧ p.size = 0) ∧
    ((∀ c ∈ s.calls, c.2.inAcquire = false) → s.created.length = max allocs.length s.peak) ∧
    ∀ a, poolMachine.enabled s a → (∀ b size, a = .setSize b size → size ≤ bufferSize) →
      ∃ u, poolMachine.step s a = .ok u := by
  have hstep : ∀ t a u, Pooled bufferSize allocs.length t → poolMachine.enabled t a →
      poolMachine.step t a = .ok u → Pooled bufferSize allocs.length u := by
    intro t a u ht hen hst
    exact ht.step hen hst
  obtain ⟨hconserved, hcounted, hsize⟩ := hr.always hstep (pooled_create bufferSize hallocs)
  refine ⟨⟨hconserved.distinct, ?_⟩, ⟨hconserved.noNull, hconserved.freeBuffers_nodup⟩, ?_, ?_, ?_, ?_⟩
  · intro b hb
    rw [hconserved.once b]
    exact List.count_eq_one_of_mem hconserved.distinct hb
  · rw [← hsize]
    exact hconserved.fits
  · intro t b u hen hst
    obtain ⟨s1, hact, hst⟩ := bind_eq_ok hst
    obtain rfl := Except.ok.inj hst
    obtain rfl := Except.ok.inj hact
    exact hconserved.clean t b (of_decide_eq_true hen)
  · intro hnone
    have hlack : s.lacking = 0 := by
      refine List.countP_eq_zero.mpr fun c hc => ?_
      have hout := hnone c hc
      cases hpc : c.2 with
      | acquiring | popped | ready => rw [hpc] at hout; cases hout
      | dropped | cleared => simp [PoolPc.lacking]
    have htotal := hcounted.total
    rwa [hlack, Nat.add_zero] at htotal
  · intro a hen ha
    exact hconserved.step_ok hen (hsize ▸ ha)

/-- Two threads ask at once for the pool's only buffer; one of them gives its
buffer back. -/
theorem packetBuffers_conserved_two :
    let allocs : List (ℕ × List UInt8) := [(10, [7, 7])]
    let steps : List PoolStep := [.acquire 1, .acquire 2, .pop 2, .pop 1, .allocate 1 11 [9, 9], .reset 2 10,
      .reset 1 11, .hand 1 11, .hand 2 10, .setSize 10 2, .drop 3 ⟨10, 1⟩, .clear 3 10, .push 3 10]
    let s := final poolMachine (create 2 allocs) steps
    s.freeBuffers = [some 10] ∧ s.peak = 2 ∧ s.created.length = max allocs.length s.peak :=
  ⟨by decide +kernel, by decide +kernel,
    (packetBuffers_conserved 2 (by decide) (run_of_accepts _ _ (by decide +kernel))).2.2.2.2.1 (by decide +kernel)⟩

end MiniMuduo
