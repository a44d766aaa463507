/-
# No stranded output, no forgotten half-close

A connection that is up has bytes in `output_buffer_` exactly while its
channel is writing (`Tidy`), and then its fd is in epoll (`Listening`), so
EPOLLOUT is asked for exactly while bytes wait. A connection that is shutting
down with nothing queued has been half-closed (`Released`). The drain of
`HandleWrite` breaks this last fact until the end of `HandleWrite` tests
`kDisconnecting`, after the callback, and restores it; every other part of a
call keeps it.

Key definitions: `Listening`, `Released`, `Afloat`.
Key theorems: `callPart_listening`, `quietPart_released`, `call_afloat`,
`no_stranded_output`.
-/
import MiniMuduo.Interest

namespace MiniMuduo

open Fallible Runs TcpConnection

/-- The fd of a connection that is up is in epoll, reading. -/
def Listening (c : TcpConnection) : Prop :=
  c.Up → c.channel.index = .kAdded ∧ c.channel.events.epollIn = true

/-- `ShutdownWrite()` has been called. -/
def HalfClosed (c : TcpConnection) : Prop := ∃ queued, Event.shutdownWrite queued ∈ c.trace

/-- A connection that is shutting down with nothing queued is half-closed. -/
def Released (c : TcpConnection) : Prop :=
  c.state = .kDisconnecting → c.outputBuffer.readable = [] → HalfClosed c

section parts

variable {tid : ℕ} {b : Bool} {c c' : TcpConnection}

/-! ### The entry in epoll -/

theorem Listening.wired (h : Listening c) (hup : c.Up) : Wired c := ⟨h, fun hdown => absurd hup hdown⟩

theorem listening_of_down (hdown : ¬ c.Up) : Listening c := fun hup => absurd hup hdown

theorem Listening.congr (h : Listening c) (hst : c'.state = c.state) (hch : c'.channel = c.channel) :
    Listening c' := by
  unfold Listening Up
  rw [hst, hch]
  exact h

theorem closeCore_down (hcore : closeCore tid c = .ok c') : ¬ c'.Up := by
  obtain ⟨ch, -, rfl⟩ := onChannel_ok hcore
  simp [Up, log, setState]

/-- Every part of a call leaves the fd of a connection that is up in epoll. -/
theorem callPart_listening (ht : Tidy tid b c) (h : Listening c) (hp : CallPart tid c c') : Listening c' := by
  cases hp with
  | act ha =>
    by_cases hup : c.Up
    · exact ((h.wired hup).actPart ht ha).listening
    · exact listening_of_down (actPart_down hup ha)
  | drains hd =>
    rcases ht.drains_up hd with hup | ⟨rfl, -⟩
    · exact ((h.wired hup).drains ht hd).listening
    · exact h
  | callback cb => exact h.congr rfl rfl
  | close hcore => exact listening_of_down (closeCore_down hcore)
  | closeReturned => exact h.congr rfl rfl
  | read _ => exact h.congr rfl rfl
  | error => exact h.congr rfl rfl
  | establish _ hcore => exact (Wired.establish ht hcore).listening

/-- Epoll is asked for EPOLLOUT exactly while the channel is writing. -/
theorem isWriting_iff_registered (ht : Tidy tid b c) (h : Listening c) (hup : c.Up) :
    c.channel.isWriting = true ↔ ∃ ev, c.channel.registered = some ev ∧ ev.epollOut = true := by
  have hreg : c.channel.registered = some c.channel.events := by
    have hsync := ht.synced
    unfold Channel.Synced at hsync
    rw [hsync, if_pos (h hup).1]
  rw [hreg]
  constructor
  · intro hw
    exact ⟨c.channel.events, rfl, hw⟩
  · rintro ⟨ev, hev, hout⟩
    obtain rfl := Option.some.inj hev
    exact hout

/-! ### The pending half-close -/

theorem HalfClosed.adds {p : Event → Prop} (h : HalfClosed c) (ha : Adds p c c') : HalfClosed c' := by
  obtain ⟨queued, hq⟩ := h
  obtain ⟨es, -, htr⟩ := ha
  refine ⟨queued, ?_⟩
  rw [htr]
  exact List.mem_append_right es hq

theorem shutdownWrite_halfClosed (c : TcpConnection) : HalfClosed c.shutdownWrite :=
  ⟨c.outputBuffer.readable, List.mem_cons_self⟩

theorem released_of_state (hst : c.state ≠ .kDisconnecting) : Released c := fun h => absurd h hst

theorem released_of_down (hdown : ¬ c.Up) : Released c :=
  released_of_state fun hst => hdown (.inr hst)

theorem Released.congr (h : Released c) {p : Event → Prop} (hst : c'.state = c.state)
    (hout : c'.outputBuffer = c.outputBuffer) (ha : Adds p c c') : Released c' := by
  unfold Released
  rw [hst, hout]
  exact fun hd hread => (h hd hread).adds ha

theorem Released.log (h : Released c) (e : Event) : Released (c.log e) :=
  h.congr (p := fun _ => True) rfl rfl (Adds.log trivial)

/-- `send` does nothing once the connection is shutting down. -/
theorem Released.sends (h : Released c) {message : List UInt8} {res : WriteResult} {k : Bool}
    (hs : Sends tid message res c c' k) : Released c' := by
  have hconn : ∀ {c0 : TcpConnection}, c0.state = .kConnected → Released c0 := fun h0 =>
    released_of_state (by rw [h0]; decide)
  have hqueue : ∀ {c0 c1 : TcpConnection} {rest : List UInt8}, c0.queue tid rest = .ok c1 →
      c0.state = .kConnected → Released c1 := by
    intro c0 c1 rest hq h0
    obtain ⟨out, -, ⟨-, rfl⟩ | ⟨-, ch, -, rfl⟩⟩ := queue_ok hq
    · exact hconn h0
    · exact hconn h0
  cases hs with
  | ignored _ => exact h
  | whole hst => exact hconn hst
  | complete hst => exact hconn hst
  | fault hst => exact hconn hst
  | nothing hst => exact hconn hst
  | part hst _ _ _ hq => exact hqueue hq hst
  | queued hst _ _ _ hq => exact hqueue hq hst

/-- `ShutDown` half-closes at once, or leaves bytes queued that a drain will
find. -/
theorem Released.shutDown (ht : Tidy tid b c) (h : Released c) : Released (shutDown .self c) := by
  rcases shutDown_cases c with ⟨-, hc⟩ | ⟨hst, hw, hc⟩ | ⟨-, -, hc⟩
  · rwa [hc]
  · rw [hc]
    intro _ hread
    exact absurd hread ((ht.writing (.inl hst)).mp hw)
  · rw [hc]
    intro _ _
    exact shutdownWrite_halfClosed _

/-- Every part of a call but the drain keeps a connection released. -/
theorem quietPart_released (ht : Tidy tid b c) (h : Released c) (hp : QuietPart tid c c') : Released c' := by
  cases hp with
  | act ha =>
    by_cases hup : c.Up
    swap
    · exact released_of_down (actPart_down hup ha)
    cases ha with
    | sends hs => exact h.sends hs
    | shutDown => exact h.shutDown ht
    | retrieve _ => exact h
    | destroyDown _ _ => exact h.log _
    | destroyUp _ _ hcore => exact released_of_down (destroyCore_down hcore)
    | destroyTail _ hdown _ => exact absurd hup hdown
  | callback cb => exact h.log _
  | close hcore => exact released_of_down (closeCore_down hcore)
  | closeReturned => exact h.log _
  | read _ => exact h
  | error => exact h.log _
  | establish _ hcore =>
    obtain ⟨c1, hop, hc⟩ := bind_eq_ok hcore
    cases hc
    obtain ⟨ch, -, rfl⟩ := onChannel_ok hop
    exact released_of_state (by simp [TcpConnection.log, setState])

/-- A drain that leaves bytes queued, or did nothing. -/
theorem Released.undrained (ht : Tidy tid b c) (h : Released c) {res : WriteResult}
    (hd : Drains tid res c c' false) : Released c' := by
  cases hd with
  | idle _ => exact h
  | @part n out _ _ _ hlt _ hread =>
    intro _ hnil
    have hlen := ht.wf.length_readable
    have hdrop : c.outputBuffer.readable.drop n = [] := hread.symm.trans hnil
    rw [List.drop_eq_nil_iff] at hdrop
    omega

/-- Whatever the callback of a drain did, the end of `HandleWrite` half-closes
a connection that is shutting down. -/
theorem finishWrite_released (c : TcpConnection) : Released c.finishWrite := by
  unfold finishWrite
  split
  case isTrue hst => exact fun _ _ => shutdownWrite_halfClosed c
  case isFalse hst => exact released_of_state hst

end parts

/-! ### Calls and runs -/

/-- What holds of a connection between two calls. -/
structure Afloat (tid : ℕ) (b : Bool) (c : TcpConnection) : Prop where
  tidy : Tidy tid b c
  listening : Listening c
  released : Released c

/-- One call. -/
theorem call_afloat {tid : ℕ} {b : Bool} {c c' : TcpConnection} {a : Call} (h : Afloat tid b c)
    (hen : callEnabled c a) (hst : call tid c a = .ok c') : Afloat tid b c' := by
  have hquiet : ∀ c0 c1, Afloat tid b c0 → QuietPart tid c0 c1 → Afloat tid b c1 := fun c0 c1 h0 hp =>
    ⟨callPart_tidy h0.tidy hp.callPart, callPart_listening h0.tidy h0.listening hp.callPart,
      quietPart_released h0.tidy h0.released hp⟩
  refine call_keeps_of_handleWrite hquiet h hen (fun res script _ hw => ?_) hst
  obtain ⟨c1, ⟨hd, rfl⟩ | ⟨hd, c2, hn, rfl⟩⟩ := handleWrite_self h.tidy.wf hw
  · exact ⟨h.tidy.drains hd, callPart_listening h.tidy h.listening (.drains hd), h.released.undrained h.tidy hd⟩
  · -- between the drain and the end of `HandleWrite` the half-close may be owed
    have hkeep : ∀ c0 c1, Tidy tid b c0 ∧ Listening c0 → QuietPart tid c0 c1 → Tidy tid b c1 ∧ Listening c1 :=
      fun c0 c1 h0 hp => ⟨callPart_tidy h0.1 hp.callPart, callPart_listening h0.1 h0.2 hp.callPart⟩
    have h1 : Tidy tid b c1 ∧ Listening c1 :=
      ⟨h.tidy.drains hd, callPart_listening h.tidy h.listening (.drains hd)⟩
    obtain ⟨ht2, hl2⟩ := notify_keeps hkeep h1 hn
    refine ⟨finishWrite_tidy ht2, ?_, finishWrite_released c2⟩
    unfold finishWrite
    split
    · exact hl2.congr rfl rfl
    · exact hl2

theorem newConnection_afloat (tid : ℕ) (name : String) (sockfd : ℕ) (cbs : Callbacks) :
    Afloat tid cbs.writeComplete (newConnection tid name sockfd cbs) := by
  refine ⟨newConnection_tidy tid name sockfd cbs, (newConnection_wired tid name sockfd cbs).listening, ?_⟩
  have hst : (newConnection tid name sockfd cbs).state = .kConnecting := rfl
  exact released_of_state (by rw [hst]; decide)

/-- **No stranded output, no forgotten half-close.** After any calls on a
connection, with any results of `::write` and any callbacks, if `state_` is
`kConnected` or `kDisconnecting`: `output_buffer_` is non-empty exactly when
the channel is writing, which is exactly when epoll's interest in the fd
contains EPOLLOUT; and if the state is `kDisconnecting` and nothing is queued,
`ShutdownWrite()` has been called. -/
theorem no_stranded_output (tid : ℕ) (name : String) (sockfd : ℕ) (cbs : Callbacks)
    {tr : List (TcpConnection × Call)} {c : TcpConnection}
    (hr : Run (callMachine tid) (newConnection tid name sockfd cbs) tr c)
    (hup : c.state = .kConnected ∨ c.state = .kDisconnecting) :
    (c.outputBuffer.readable ≠ [] ↔ c.channel.isWriting = true) ∧
      (c.channel.isWriting = true ↔ ∃ ev, c.channel.registered = some ev ∧ ev.epollOut = true) ∧
      (c.state = .kDisconnecting → c.outputBuffer.readable = [] →
        ∃ queued, Event.shutdownWrite queued ∈ c.trace) := by
  have h : Afloat tid cbs.writeComplete c :=
    hr.always (fun _ _ _ ht hen hst => call_afloat ht hen hst) (newConnection_afloat tid name sockfd cbs)
  refine ⟨(h.tidy.writing hup).symm, ?_, h.released⟩
  exact isWriting_iff_registered h.tidy h.listening hup

/-- Three bytes sent of which one is written, a drain whose callback queues
another byte, then `ShutDown` and the last drain. -/
theorem no_stranded_output_last_drain :
    let start := newConnection 0 "a" 5 ⟨true, true, true, true⟩
    let calls : List Call := [.connectEstablished [], .send [1, 2, 3] (.wrote 1) [],
      .handleWrite (.wrote 2) [.send () [4, 5] (.wrote 1) []], .shutDown, .handleWrite (.wrote 1) []]
    let c := final (callMachine 0) start calls
    (c.state = .kDisconnecting ∧ c.outputBuffer.readable = []) ∧
      ∃ queued, Event.shutdownWrite queued ∈ c.trace :=
  ⟨by decide +kernel,
    (no_stranded_output 0 "a" 5 ⟨true, true, true, true⟩ (run_of_accepts _ _ (by decide +kernel))
      (by decide +kernel)).2.2 (by decide +kernel) (by decide +kernel)⟩

end MiniMuduo
