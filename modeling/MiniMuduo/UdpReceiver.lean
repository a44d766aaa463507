/-
# UdpReceiver and its pool of packet buffers

`UdpReceiver::HandleRead`, `Start` and `Stop` of `src/UdpReceiver.cc`,
`PacketBufferPool::Acquire` with its deleter, and the copies of `UdpDatagram`
that user code holds. Buffers are addresses in a heap. A buffer belongs to
the free list, to the `datagrams` of the running `HandleRead` (`slots`), to
the copies of one datagram (`handles`), or to a thread that has dropped the
last copy and has not yet pushed the buffer back (`returning`). A moved-from
`UdpDatagram` holds no buffer, so a move leaves the copies as they are.

A step of the loop's thread is what it does between two points where user
code or another thread may come in: one `Acquire`, the call of `recvmmsg`,
one delivery, the return of the message callback, the destruction of one
element of `datagrams`. Any thread may copy and drop the datagrams it holds,
at any time, also when the receiver is gone: the pool's state lives as long
as a copy does. What `recvmmsg` returns and what it writes into the buffers it
was given is the environment's choice.

The receiver's channel is in `activeChannels_` from `Poll` until its turn
comes (`active`); until then the callbacks of other channels may run, and
`Start` and `Stop` may be called by any user code of the loop's thread, the
message callback included. `trace` keeps these calls and the invocations of
the callback, newest first.

Key definitions: `PacketBuffer`, `UdpDatagram`, `UdpReceiver`, `ReadPc`,
`UdpStep`, `udpMachine`.
-/
import MiniMuduo.Channel
import MiniMuduo.Lib.Run
import MiniMuduo.TcpConnection

namespace MiniMuduo

open Fallible Runs

/-- `PacketBuffer`: `data` are the bytes behind `data_`. -/
structure PacketBuffer where
  capacity : ℕ
  data : List UInt8
  size : ℕ
  deriving DecidableEq, Repr

/-- What a copy of a datagram shows. -/
structure Shown where
  data : List UInt8
  size : ℕ
  originalSize : ℕ
  truncated : Bool
  deriving DecidableEq, Repr

/-- A copy of a `UdpDatagram` that holds its buffer; `delivered` remembers
what it showed when the callback received it. -/
structure UdpDatagram where
  buffer : ℕ
  originalSize : ℕ
  truncated : Bool
  delivered : Shown
  deriving DecidableEq, Repr

/-- What `recvmmsg` says about a received message: `msg_len` and MSG_TRUNC. -/
structure Message where
  len : ℕ
  trunc : Bool
  deriving DecidableEq, Repr

/-- What `recvmmsg` returns. -/
inductive RecvResult
  /-- -1 with EINTR. -/
  | interrupted
  /-- -1 with EAGAIN or any other error. -/
  | failed
  | received (messages : List Message)
  deriving DecidableEq, Repr

/-- Where the loop's thread is in `HandleRead`; `read` is `packets_read`. -/
inductive ReadPc
  | outside
  /-- Filling `datagrams`. -/
  | filling (read : ℕ) (slots : List ℕ)
  /-- In the loop over the received messages: the elements of `datagrams`
  behind it that still hold their buffers, those to come, the messages to
  come. -/
  | delivering (read : ℕ) (kept slots : List ℕ) (messages : List Message)
  /-- The message callback runs. -/
  | inCallback (read : ℕ) (kept slots : List ℕ) (messages : List Message)
  /-- `datagrams` is destroyed; then the next round of the `while` begins
  (`next` is its `packets_read`), or `HandleRead` returns. -/
  | unwinding (slots : List ℕ) (next : Option ℕ)
  deriving DecidableEq, Repr

/-- The buffers that the running `HandleRead` holds. -/
def ReadPc.slots : ReadPc → List ℕ
  | .outside => []
  | .filling _ slots => slots
  | .delivering _ kept slots _ => kept ++ slots
  | .inCallback _ kept slots _ => kept ++ slots
  | .unwinding slots _ => slots

/-- User code of the loop's thread may run: outside `HandleRead`, or in the
message callback. -/
def ReadPc.inUserCode : ReadPc → Bool
  | .outside | .inCallback .. => true
  | .filling .. | .delivering .. | .unwinding .. => false

/-- What a run of a receiver shows. -/
inductive UdpEvent
  /-- `Start()` has returned. -/
  | started
  /-- `Stop()` has returned. -/
  | stopped
  /-- `message_callback_` is invoked. -/
  | message
  deriving DecidableEq, Repr

/-- A `UdpReceiver`, its pool, and the datagrams in the hands of user code. -/
structure UdpReceiver where
  channel : Channel
  /-- The channel is in `activeChannels_`, its turn still to come. -/
  active : Bool
  started : Bool
  /-- `message_callback_` is set. -/
  messageCallback : Bool
  maxPacketsPerRead : ℕ
  bufferSize : ℕ
  heap : ℕ → Option PacketBuffer
  /-- `free_buffers`, its back first. -/
  freeBuffers : List ℕ
  returning : List ℕ
  handles : List UdpDatagram
  pc : ReadPc
  /-- The receiver has been destroyed. -/
  destroyed : Bool
  trace : List UdpEvent

namespace UdpReceiver

/-- `kDefaultMaxPacketPerRead`. -/
def kDefaultMaxPacketPerRead : ℕ := 64

/-- A new receiver on the socket `fd`, its pool filled with the buffers at
`addresses`. -/
def create (fd maxPacketsPerRead bufferSize : ℕ) (addresses : List ℕ) (data : List UInt8) : UdpReceiver where
  channel := .create fd
  active := false
  started := false
  messageCallback := false
  maxPacketsPerRead := maxPacketsPerRead
  bufferSize := bufferSize
  heap := fun a => if a ∈ addresses then some ⟨bufferSize, data, 0⟩ else none
  freeBuffers := addresses
  returning := []
  handles := []
  pc := .outside
  destroyed := false
  trace := []

/-- Change a buffer. -/
def setBuffer (a : ℕ) (f : PacketBuffer → PacketBuffer) (s : UdpReceiver) : UdpReceiver :=
  { s with heap := Function.update s.heap a ((s.heap a).map f) }

/-- `PacketBuffer::reset`. -/
def resetBuffer (a : ℕ) (s : UdpReceiver) : UdpReceiver := s.setBuffer a fun b => { b with size := 0 }

/-- `PacketBuffer::set_size`. -/
def setSize (a size : ℕ) (s : UdpReceiver) : UdpReceiver := s.setBuffer a fun b => { b with size := size }

def log (e : UdpEvent) (s : UdpReceiver) : UdpReceiver := { s with trace := e :: s.trace }

/-- What a copy shows now; a buffer that is gone cannot be read. -/
def shown (s : UdpReceiver) (d : UdpDatagram) : Option Shown :=
  (s.heap d.buffer).map fun b => ⟨b.data, b.size, d.originalSize, d.truncated⟩

/-! ### Start and Stop -/

/-- `Start`. -/
def start (s : UdpReceiver) : Except Fault UdpReceiver :=
  if s.started then .ok (s.log .started)
  else if !s.messageCallback then .error .logicError
  else do
    let channel ← s.channel.enableReading true
    return { s with channel, started := true }.log .started

/-- `Stop`. -/
def stop (s : UdpReceiver) : Except Fault UdpReceiver :=
  if !s.started then .ok (s.log .stopped)
  else do
    let channel ← s.channel.disableAll true
    let channel ← channel.remove true
    return { s with channel, started := false }.log .stopped

/-- `~UdpReceiver`. -/
def destroy (s : UdpReceiver) : Except Fault UdpReceiver := do
  let s ← s.stop
  return { s with destroyed := true }

/-! ### HandleRead -/

/-- `batch_size`. -/
def batchSize (s : UdpReceiver) (read : ℕ) : ℕ := min (s.maxPacketsPerRead - read) kDefaultMaxPacketPerRead

/-- The test of the `while`. -/
def round (s : UdpReceiver) (read : ℕ) : ReadPc :=
  if read < s.maxPacketsPerRead then .filling read [] else .outside

/-- `Channel::HandleEvent`: of the four callbacks only the read callback is
set, and it is `HandleRead`. -/
def handleEvent (s : UdpReceiver) : Except Fault UdpReceiver :=
  let s := { s with active := false }
  if s.destroyed then .error .useAfterFree
  else if .read ∈ TcpConnection.handlers s.channel.revents then .ok { s with pc := s.round 0 }
  else .ok s

/-- `Acquire` into the next element of `datagrams`: the last free buffer, or
a new one at the address and with the bytes that `new` happens to give. -/
def acquire (read : ℕ) (slots : List ℕ) (address : ℕ) (data : List UInt8) (s : UdpReceiver) : UdpReceiver :=
  match s.freeBuffers with
  | b :: rest => { s.resetBuffer b with freeBuffers := rest, pc := .filling read (slots ++ [b]) }
  | [] =>
    { s with
      heap := Function.update s.heap address (some ⟨s.bufferSize, data, 0⟩)
      pc := .filling read (slots ++ [address]) }

/-- The kernel writes `data` into the buffers. -/
def write (s : UdpReceiver) (slots : List ℕ) (data : List (List UInt8)) : UdpReceiver :=
  (slots.zip data).foldl (fun s p => s.setBuffer p.1 fun b => { b with data := p.2 }) s

/-- `recvmmsg` and the tests of its result. -/
def recvmmsg (read : ℕ) (slots : List ℕ) (res : RecvResult) (data : List (List UInt8)) (s : UdpReceiver) :
    UdpReceiver :=
  let s := s.write slots data
  match res with
  | .interrupted => { s with pc := .unwinding slots (some read) }
  | .failed => { s with pc := .unwinding slots none }
  | .received messages =>
    if messages = [] then { s with pc := .unwinding slots none }
    else { s with pc := .delivering (read + messages.length) [] slots messages }

/-- `if (!started_) return;` after a delivery. -/
def afterDelivery (read : ℕ) (kept slots : List ℕ) (messages : List Message) (s : UdpReceiver) : UdpReceiver :=
  if s.started then { s with pc := .delivering read kept slots messages }
  else { s with pc := .unwinding (kept ++ slots) none }

/-- The body of the loop over the messages, up to the callback. -/
def deliver (read : ℕ) (kept : List ℕ) (b : ℕ) (slots : List ℕ) (m : Message) (messages : List Message)
    (s : UdpReceiver) : Except Fault UdpReceiver :=
  match s.heap b with
  | none => .error .useAfterFree
  | some buffer =>
    let originalSize := m.len
    let readableSize := min originalSize buffer.capacity
    let truncated := m.trunc || buffer.capacity < originalSize
    let s := s.setSize b readableSize
    if s.messageCallback then
      let d : UdpDatagram := ⟨b, originalSize, truncated, ⟨buffer.data, readableSize, originalSize, truncated⟩⟩
      .ok ({ s with handles := d :: s.handles, pc := .inCallback read kept slots messages }.log .message)
    else .ok (s.afterDelivery read (kept ++ [b]) slots messages)

/-- The message callback returns. -/
def returnCallback (read : ℕ) (kept slots : List ℕ) (messages : List Message) (s : UdpReceiver) :
    Except Fault UdpReceiver :=
  if s.destroyed then .error .useAfterFree else .ok (s.afterDelivery read kept slots messages)

/-- The loop over the messages is done: a batch that was not filled is the
last. -/
def finishBatch (read : ℕ) (kept slots : List ℕ) (s : UdpReceiver) : UdpReceiver :=
  { s with pc := .unwinding (kept ++ slots) (if slots = [] then some read else none) }

/-- An element of `datagrams` that holds a buffer is destroyed: the deleter
resets the buffer and pushes it back. -/
def unwind (b : ℕ) (slots : List ℕ) (next : Option ℕ) (s : UdpReceiver) : UdpReceiver :=
  { s.resetBuffer b with freeBuffers := b :: s.freeBuffers, pc := .unwinding slots next }

/-- `datagrams` is gone. -/
def leaveRound (next : Option ℕ) (s : UdpReceiver) : UdpReceiver :=
  { s with pc := match next with
                 | some read => s.round read
                 | none => .outside }

/-! ### The copies of a datagram -/

/-- A copy is dropped; with the last one the deleter begins. -/
def drop (d : UdpDatagram) (s : UdpReceiver) : UdpReceiver :=
  let handles := s.handles.erase d
  if handles.any fun d' => d'.buffer = d.buffer then { s with handles }
  else { s.resetBuffer d.buffer with handles, returning := d.buffer :: s.returning }

/-- The deleter pushes the buffer back. -/
def giveBack (b : ℕ) (s : UdpReceiver) : UdpReceiver :=
  { s with returning := s.returning.erase b, freeBuffers := b :: s.freeBuffers }

/-- The pool's state ends with its last owner, and its free buffers with it. -/
def freeState (s : UdpReceiver) : UdpReceiver :=
  { s with heap := fun a => if a ∈ s.freeBuffers then none else s.heap a, freeBuffers := [] }

end UdpReceiver

/-- The steps of the loop's thread and of the threads that hold datagrams. -/
inductive UdpStep
  /-- `Poll` returns, with the receiver's channel among the active ones or
  not. -/
  | poll (revents : Option Events)
  | handleEvent
  | acquire (address : ℕ) (data : List UInt8)
  | recvmmsg (res : RecvResult) (data : List (List UInt8))
  | deliver
  | returnCallback
  | finishBatch
  | unwind
  | leaveRound
  /-- User code on the loop's thread. -/
  | start
  | stop
  | setMessageCallback (set : Bool)
  | destroy
  /-- Any thread. -/
  | copy (d : UdpDatagram)
  | drop (d : UdpDatagram)
  | giveBack (b : ℕ)
  | freeState

/-- Epoll can report `mask` for the channel. -/
def Channel.reports (ch : Channel) (mask : Events) : Bool :=
  match ch.registered with
  | some interest => mask.Within interest
  | none => false

/-- `recvmmsg` fills at most as many messages as it was given. -/
def RecvResult.fits (n : ℕ) : RecvResult → Bool
  | .received messages => messages.length ≤ n
  | .interrupted | .failed => true

/-- Which steps can come next. -/
def udpEnabled (s : UdpReceiver) : UdpStep → Bool
  | .poll revents => s.pc = .outside && !s.active && revents.all s.channel.reports
  | .handleEvent => s.pc = .outside && s.active
  | .acquire address data =>
    match s.pc with
    | .filling read slots =>
      slots.length < s.batchSize read && (s.heap address).isNone && data.length = s.bufferSize
    | _ => false
  | .recvmmsg res data =>
    match s.pc with
    | .filling read slots => slots.length = s.batchSize read && res.fits slots.length &&
        data.all fun bytes => bytes.length = s.bufferSize
    | _ => false
  | .deliver => (s.pc matches .delivering _ _ (_ :: _) (_ :: _))
  | .returnCallback => (s.pc matches .inCallback ..)
  | .finishBatch => (s.pc matches .delivering _ _ _ [])
  | .unwind => (s.pc matches .unwinding (_ :: _) _)
  | .leaveRound => (s.pc matches .unwinding [] _)
  | .start => s.pc.inUserCode && !s.destroyed
  | .stop => s.pc.inUserCode && !s.destroyed
  | .setMessageCallback _ => s.pc = .outside && !s.destroyed
  | .destroy => s.pc.inUserCode && !s.destroyed
  | .copy d => d ∈ s.handles
  | .drop d => d ∈ s.handles
  | .giveBack b => b ∈ s.returning
  | .freeState => s.destroyed && s.pc.slots = [] && s.handles = [] && s.returning = []

/-- One step. -/
def udpStep (s : UdpReceiver) : UdpStep → Except Fault UdpReceiver
  | .poll revents =>
    match revents with
    | some mask => .ok { s with channel := { s.channel with revents := mask }, active := true }
    | none => .ok s
  | .handleEvent => s.handleEvent
  | .acquire address data =>
    match s.pc with
    | .filling read slots => .ok (s.acquire read slots address data)
    | _ => .ok s
  | .recvmmsg res data =>
    match s.pc with
    | .filling read slots => .ok (s.recvmmsg read slots res data)
    | _ => .ok s
  | .deliver =>
    match s.pc with
    | .delivering read kept (b :: slots) (m :: messages) => s.deliver read kept b slots m messages
    | _ => .ok s
  | .returnCallback =>
    match s.pc with
    | .inCallback read kept slots messages => s.returnCallback read kept slots messages
    | _ => .ok s
  | .finishBatch =>
    match s.pc with
    | .delivering read kept slots [] => .ok (s.finishBatch read kept slots)
    | _ => .ok s
  | .unwind =>
    match s.pc with
    | .unwinding (b :: slots) next => .ok (s.unwind b slots next)
    | _ => .ok s
  | .leaveRound =>
    match s.pc with
    | .unwinding [] next => .ok (s.leaveRound next)
    | _ => .ok s
  | .start => s.start
  | .stop => s.stop
  | .setMessageCallback set => .ok { s with messageCallback := set }
  | .destroy => s.destroy
  | .copy d => .ok { s with handles := d :: s.handles }
  | .drop d => .ok (s.drop d)
  | .giveBack b => .ok (s.giveBack b)
  | .freeState => .ok s.freeState

/-- The runs of a receiver. -/
def udpMachine : Machine UdpReceiver UdpStep Fault := ⟨fun s a => udpEnabled s a = true, udpStep⟩

instance (s : UdpReceiver) (a : UdpStep) : Decidable (udpMachine.enabled s a) :=
  inferInstanceAs (Decidable (_ = true))

/-- Two receivers have the same buffers, in the same hands. -/
structure SameBuffers (s s' : UdpReceiver) : Prop where
  heap : s'.heap = s.heap
  freeBuffers : s'.freeBuffers = s.freeBuffers
  returning : s'.returning = s.returning
  handles : s'.handles = s.handles

/-- What `Start` can do. -/
theorem UdpReceiver.start_ok {s s' : UdpReceiver} (h : s.start = .ok s') :
    SameBuffers s s' ∧ s'.pc = s.pc ∧ s'.started = true ∧ s'.trace = .started :: s.trace := by
  unfold start at h
  split at h
  case isTrue hstarted =>
    obtain rfl := Except.ok.inj h
    exact ⟨⟨rfl, rfl, rfl, rfl⟩, rfl, hstarted, rfl⟩
  split at h
  · cases h
  · obtain ⟨ch, -, h⟩ := bind_eq_ok h
    obtain rfl := Except.ok.inj h
    exact ⟨⟨rfl, rfl, rfl, rfl⟩, rfl, rfl, rfl⟩

/-- What `Stop` can do. -/
theorem UdpReceiver.stop_ok {s s' : UdpReceiver} (h : s.stop = .ok s') :
    SameBuffers s s' ∧ s'.pc = s.pc ∧ s'.started = false ∧ s'.trace = .stopped :: s.trace := by
  unfold stop at h
  split at h
  case isTrue hstopped =>
    obtain rfl := Except.ok.inj h
    have hoff : s.started = false := by simpa using hstopped
    exact ⟨⟨rfl, rfl, rfl, rfl⟩, rfl, hoff, rfl⟩
  · obtain ⟨ch, -, h⟩ := bind_eq_ok h
    obtain ⟨ch', -, h⟩ := bind_eq_ok h
    obtain rfl := Except.ok.inj h
    exact ⟨⟨rfl, rfl, rfl, rfl⟩, rfl, rfl, rfl⟩

/-- What a delivery can do. -/
theorem UdpReceiver.deliver_ok {s s' : UdpReceiver} {read b : ℕ} {kept slots : List ℕ} {m : Message}
    {messages : List Message} (h : s.deliver read kept b slots m messages = .ok s') :
    ∃ size, (s.messageCallback = false ∧
        s' = (s.setSize b size).afterDelivery read (kept ++ [b]) slots messages) ∨
      (s.messageCallback = true ∧ ∃ d : UdpDatagram, d.buffer = b ∧
        (s.setSize b size).shown d = some d.delivered ∧
        s' = { s.setSize b size with handles := d :: s.handles, pc := .inCallback read kept slots messages }.log
          .message) := by
  unfold deliver at h
  split at h
  · cases h
  rename_i buffer hb
  refine ⟨min m.len buffer.capacity, ?_⟩
  dsimp only at h
  have hset : (s.setSize b (min m.len buffer.capacity)).messageCallback = s.messageCallback := rfl
  rw [hset] at h
  cases hcb : s.messageCallback with
  | false =>
    rw [if_neg (by rw [hcb]; decide)] at h
    exact .inl ⟨rfl, (Except.ok.inj h).symm⟩
  | true =>
    rw [if_pos hcb] at h
    refine .inr ⟨rfl, ⟨b, m.len, _, _⟩, rfl, ?_, (Except.ok.inj h).symm⟩
    simp [shown, setSize, setBuffer, hb]

/-- What the steps can do. -/
inductive UdpMove (s : UdpReceiver) : UdpStep → UdpReceiver → Prop
  | pollReady (mask : Events) : s.pc = .outside → UdpMove s (.poll (some mask))
      { s with channel := { s.channel with revents := mask }, active := true }
  | pollIdle : UdpMove s (.poll none) s
  | handleEvent {s' : UdpReceiver} : s.pc = .outside → s.handleEvent = .ok s' → UdpMove s .handleEvent s'
  | acquire {read : ℕ} {slots : List ℕ} (address : ℕ) (data : List UInt8) : s.pc = .filling read slots →
      s.heap address = none → UdpMove s (.acquire address data) (s.acquire read slots address data)
  | recvmmsg {read : ℕ} {slots : List ℕ} (res : RecvResult) (data : List (List UInt8)) :
      s.pc = .filling read slots → UdpMove s (.recvmmsg res data) (s.recvmmsg read slots res data)
  | deliver {read : ℕ} {kept : List ℕ} {b : ℕ} {slots : List ℕ} {m : Message} {messages : List Message}
      {s' : UdpReceiver} : s.pc = .delivering read kept (b :: slots) (m :: messages) →
      s.deliver read kept b slots m messages = .ok s' → UdpMove s .deliver s'
  | returnCallback {read : ℕ} {kept slots : List ℕ} {messages : List Message} :
      s.pc = .inCallback read kept slots messages →
      UdpMove s .returnCallback (s.afterDelivery read kept slots messages)
  | finishBatch {read : ℕ} {kept slots : List ℕ} : s.pc = .delivering read kept slots [] →
      UdpMove s .finishBatch (s.finishBatch read kept slots)
  | unwind {b : ℕ} {slots : List ℕ} {next : Option ℕ} : s.pc = .unwinding (b :: slots) next →
      UdpMove s .unwind (s.unwind b slots next)
  | leaveRound {next : Option ℕ} : s.pc = .unwinding [] next → UdpMove s .leaveRound (s.leaveRound next)
  | start {s' : UdpReceiver} : s.pc.inUserCode = true → s.start = .ok s' → UdpMove s .start s'
  | stop {s' : UdpReceiver} : s.pc.inUserCode = true → s.stop = .ok s' → UdpMove s .stop s'
  | setMessageCallback (set : Bool) : s.pc = .outside →
      UdpMove s (.setMessageCallback set) { s with messageCallback := set }
  | destroy {s' : UdpReceiver} : s.pc.inUserCode = true → s.stop = .ok s' →
      UdpMove s .destroy { s' with destroyed := true }
  | copy {d : UdpDatagram} : d ∈ s.handles → UdpMove s (.copy d) { s with handles := d :: s.handles }
  | drop {d : UdpDatagram} : d ∈ s.handles → UdpMove s (.drop d) (s.drop d)
  | giveBack {b : ℕ} : b ∈ s.returning → UdpMove s (.giveBack b) (s.giveBack b)
  | freeState : s.handles = [] → s.pc.slots = [] → s.returning = [] → UdpMove s .freeState s.freeState

theorem udpMove_of_step {s s' : UdpReceiver} {a : UdpStep} (hen : udpEnabled s a = true)
    (hst : udpStep s a = .ok s') : UdpMove s a s' := by
  unfold udpEnabled at hen
  unfold udpStep at hst
  cases a with
  | poll revents =>
    simp only [Bool.and_eq_true, decide_eq_true_eq] at hen
    cases revents with
    | none =>
      obtain rfl := Except.ok.inj hst
      exact .pollIdle
    | some mask =>
      obtain rfl := Except.ok.inj hst
      exact .pollReady mask hen.1.1
  | handleEvent =>
    simp only [Bool.and_eq_true, decide_eq_true_eq] at hen
    exact .handleEvent hen.1 hst
  | acquire address data =>
    simp only at hen hst
    split at hen
    · rename_i read slots hpc
      simp only [hpc] at hst
      obtain rfl := Except.ok.inj hst
      simp only [Bool.and_eq_true, Option.isNone_iff_eq_none] at hen
      exact .acquire address data hpc hen.1.2
    · cases hen
  | recvmmsg res data =>
    simp only at hen hst
    split at hen
    · rename_i read slots hpc
      simp only [hpc] at hst
      obtain rfl := Except.ok.inj hst
      exact .recvmmsg res data hpc
    · cases hen
  | deliver =>
    simp only at hen hst
    split at hen
    · rename_i hpc
      simp only [hpc] at hst
      exact .deliver hpc hst
    · cases hen
  | returnCallback =>
    simp only at hen hst
    split at hen
    · rename_i hpc
      simp only [hpc, UdpReceiver.returnCallback] at hst
      split at hst
      · cases hst
      · obtain rfl := Except.ok.inj hst
        exact .returnCallback hpc
    · cases hen
  | finishBatch =>
    simp only at hen hst
    split at hen
    · rename_i hpc
      simp only [hpc] at hst
      obtain rfl := Except.ok.inj hst
      exact .finishBatch hpc
    · cases hen
  | unwind =>
    simp only at hen hst
    split at hen
    · rename_i hpc
      simp only [hpc] at hst
      obtain rfl := Except.ok.inj hst
      exact .unwind hpc
    · cases hen
  | leaveRound =>
    simp only at hen hst
    split at hen
    · rename_i hpc
      simp only [hpc] at hst
      obtain rfl := Except.ok.inj hst
      exact .leaveRound hpc
    · cases hen
  | start => exact .start (Bool.and_eq_true_iff.mp hen).1 hst
  | stop => exact .stop (Bool.and_eq_true_iff.mp hen).1 hst
  | setMessageCallback set =>
    simp only [Bool.and_eq_true, decide_eq_true_eq] at hen
    obtain rfl := Except.ok.inj hst
    exact .setMessageCallback set hen.1
  | destroy =>
    obtain ⟨s1, hstop, h⟩ := bind_eq_ok hst
    obtain rfl := Except.ok.inj h
    exact .destroy (Bool.and_eq_true_iff.mp hen).1 hstop
  | copy d =>
    obtain rfl := Except.ok.inj hst
    exact .copy (of_decide_eq_true hen)
  | drop d =>
    obtain rfl := Except.ok.inj hst
    exact .drop (of_decide_eq_true hen)
  | giveBack b =>
    obtain rfl := Except.ok.inj hst
    exact .giveBack (of_decide_eq_true hen)
  | freeState =>
    obtain rfl := Except.ok.inj hst
    simp only [Bool.and_eq_true, decide_eq_true_eq] at hen
    exact .freeState hen.1.2 hen.1.1.2 hen.2

end MiniMuduo
