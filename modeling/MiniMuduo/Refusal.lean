/-
# Channel updates off the loop's thread

`EnableReading`, `EnableWriting`, `DisableWriting` and `DisableAll` of a
`Channel`, called by the loop's thread or by another. Each changes `events_`
first and then goes through `EventLoop::UpdateChannel`, which off the loop's
thread logs a line and returns. The change of `events_` stays, and the kernel
does not hear of it: the mask in epoll and `events_` agree after every call
exactly when no refused call asks for a change (`refused_update_harmless_iff`).

`TcpConnection::send` tests no thread. From another thread its `EnableWriting`
is refused, and leaves `is_writing()` true with no EPOLLOUT in epoll
(`send_writing_iff`): the bytes it queued are not sent, and later calls of
`send` and `ShutDown` take the channel for one that is writing.

Key definitions: `InterestOp`, `channelMachine`, `Channel.Agrees`,
`TcpConnection.enablesWriting`. Key theorems: `updateChannel_agrees`,
`interest_agrees_iff`, `send_writing_iff`.
-/
import MiniMuduo.Lib.Run
import MiniMuduo.Reentry

namespace MiniMuduo

open Fallible Runs

/-- The operations of a channel that change its interest. -/
inductive InterestOp
  | enableReading
  | enableWriting
  | disableWriting
  | disableAll
  deriving DecidableEq, Repr

namespace InterestOp

/-- What the operation does to `events_`. -/
def mask (ev : Events) : InterestOp → Events
  | .enableReading => { ev with epollIn := true, epollPri := true }
  | .enableWriting => { ev with epollOut := true }
  | .disableWriting => { ev with epollOut := false }
  | .disableAll => Events.kNoneEvent

/-- The operation. -/
def run (inLoop : Bool) (ch : Channel) : InterestOp → Except Fault Channel
  | .enableReading => ch.enableReading inLoop
  | .enableWriting => ch.enableWriting inLoop
  | .disableWriting => ch.disableWriting inLoop
  | .disableAll => ch.disableAll inLoop

theorem run_eq (op : InterestOp) (inLoop : Bool) (ch : Channel) :
    op.run inLoop ch = EventLoop.updateChannel inLoop { ch with events := op.mask ch.events } := by
  cases op <;> rfl

end InterestOp

/-- A call, by the loop's thread or by another. -/
structure InterestCall where
  inLoop : Bool
  op : InterestOp
  deriving DecidableEq, Repr

/-- A channel and the calls on it. -/
def channelMachine : Machine Channel InterestCall Fault := ⟨fun _ _ => True, fun ch call => call.op.run call.inLoop ch⟩

instance (ch : Channel) (call : InterestCall) : Decidable (channelMachine.enabled ch call) :=
  inferInstanceAs (Decidable True)

namespace Channel

/-- The mask that the kernel holds for the fd; an fd that is not registered
has none. -/
def mask (ch : Channel) : Events := ch.registered.getD Events.kNoneEvent

/-- `events_` is the mask that the kernel holds. -/
def Agrees (ch : Channel) : Prop := ch.events = ch.mask

instance (ch : Channel) : Decidable ch.Agrees := inferInstanceAs (Decidable (_ = _))

end Channel

/-! ### One call -/

theorem update_agrees {op : CtlOp} {ch ch' : Channel} (h : EpollPoller.update op ch = .ok ch')
    (hdel : op = .del → ch.events = Events.kNoneEvent) : ch'.Agrees := by
  unfold EpollPoller.update at h
  split at h
  case h_1 registered hctl =>
    obtain rfl := Except.ok.inj h
    unfold Channel.Agrees Channel.mask
    cases op with
    | add | mod =>
      cases hreg : ch.registered <;> rw [hreg] at hctl <;>
        simp only [epollCtl, reduceCtorEq, Option.some.injEq] at hctl
      rw [← hctl]
      rfl
    | del =>
      cases hreg : ch.registered <;> rw [hreg] at hctl <;>
        simp only [epollCtl, reduceCtorEq, Option.some.injEq] at hctl
      rw [← hctl]
      exact hdel rfl
  case h_2 hctl =>
    split at h
    case isTrue hop =>
      -- the DEL failed: nothing was registered
      obtain rfl := Except.ok.inj h
      unfold Channel.Agrees Channel.mask
      cases hreg : ch.registered with
      | none => exact hdel hop
      | some ev => simp [hop, epollCtl, hreg] at hctl
    · cases h

/-- Whatever the channel's state, a call that the loop's thread makes leaves
`events_` and the kernel's mask in agreement. -/
theorem updateChannel_agrees {ch ch' : Channel} (h : EventLoop.updateChannel true ch = .ok ch') : ch'.Agrees := by
  simp only [EventLoop.updateChannel, EpollPoller.updateChannel, Bool.not_true, Bool.false_eq_true, if_false] at h
  split at h
  · exact update_agrees h (by simp)
  · split at h
    case isTrue hnone =>
      obtain ⟨ch1, hdel, h⟩ := bind_eq_ok h
      obtain rfl := Except.ok.inj h
      have hag : ch1.Agrees := update_agrees hdel fun _ => of_decide_eq_true hnone
      exact hag
    · exact update_agrees h (by simp)

theorem run_refused (op : InterestOp) (ch : Channel) :
    op.run false ch = .ok { ch with events := op.mask ch.events } := by
  rw [op.run_eq]
  rfl

/-! ### Runs of calls -/

/-- What is said of a call: refused, it leaves `events_` as it was, and
`events_` and the kernel's mask still agree if they did at the start. -/
def Harmless (start ch : Channel) (call : InterestCall) : Prop :=
  ∀ ch', channelMachine.step ch call = .ok ch' →
    (call.inLoop = false → ch'.events = ch.events) ∧ (start.Agrees → ch'.Agrees)

/-- The call asks for no change, or is made by the loop's thread. -/
def NotRefusedChange (ch : Channel) (call : InterestCall) : Prop :=
  call.inLoop = false → call.op.mask ch.events = ch.events

instance (ch : Channel) (call : InterestCall) : Decidable (NotRefusedChange ch call) :=
  inferInstanceAs (Decidable (_ → _))

theorem agrees_step {ch ch' : Channel} {call : InterestCall} (h : ch.Agrees) (hcall : NotRefusedChange ch call)
    (hst : channelMachine.step ch call = .ok ch') : ch'.Agrees := by
  obtain ⟨inLoop, op⟩ := call
  replace hst : op.run inLoop ch = .ok ch' := hst
  cases inLoop with
  | true =>
    rw [op.run_eq] at hst
    exact updateChannel_agrees hst
  | false =>
    have hsame : op.mask ch.events = ch.events := hcall rfl
    rw [run_refused, hsame] at hst
    obtain rfl := Except.ok.inj hst
    exact h

theorem interest_agrees_iff {start ch : Channel} {tr : List (Channel × InterestCall)}
    (hr : Run channelMachine start tr ch) :
    (∀ p ∈ tr, Harmless start p.1 p.2) ↔ ∀ p ∈ tr, NotRefusedChange p.1 p.2 := by
  constructor
  · intro h p hp hout
    obtain ⟨ch0, inLoop, op⟩ := p
    obtain rfl : inLoop = false := hout
    exact (h _ hp _ (run_refused op ch0)).1 rfl
  · intro h p hp ch' hst
    have hstep : ∀ t call u, (start.Agrees → t.Agrees) → channelMachine.enabled t call → NotRefusedChange t call →
        channelMachine.step t call = .ok u → (start.Agrees → u.Agrees) := by
      intro t call u ht _ hcall hst' hstart
      exact agrees_step (ht hstart) hcall hst'
    have hbefore := hr.invariant_trace hstep id h p hp
    refine ⟨fun hout => ?_, fun hstart => agrees_step (hbefore hstart) (h p hp) hst⟩
    obtain ⟨ch0, inLoop, op⟩ := p
    obtain rfl : inLoop = false := hout
    obtain rfl := Except.ok.inj ((run_refused op ch0).symm.trans hst)
    exact h _ hp rfl

/-! ### TcpConnection::send -/

namespace TcpConnection

/-- `send` comes to its `EnableWriting`: bytes are left, and the channel is
not writing yet. -/
def enablesWriting (c : TcpConnection) (message : List UInt8) (res : WriteResult) : Bool :=
  c.state = .kConnected && !c.channel.isWriting &&
    if c.outputBuffer.readableBytes = 0 then
      match res with
      | .wrote n => n < message.length
      | .failed errno => errno ≠ .epipe && 0 < message.length
    else 0 < message.length

/-- If the channel is writing, EPOLLOUT is in epoll. -/
def WritingRegistered (c : TcpConnection) : Prop := c.channel.isWriting = true → c.channel.mask.epollOut = true

theorem writingRegistered_of_agrees {c : TcpConnection} (h : c.channel.Agrees) : c.WritingRegistered := by
  intro hw
  rw [← h]
  exact hw

/-- `EnableWriting` by thread `tid` registers EPOLLOUT exactly on the loop's
thread. -/
theorem queue_writing {tid : ℕ} {rest : List UInt8} {c c' : TcpConnection} (hag : c.channel.Agrees)
    (h : c.queue tid rest = .ok c') : c'.WritingRegistered ↔ tid = c.loop ∨ c.channel.isWriting = true := by
  obtain ⟨out, -, ⟨hw, rfl⟩ | ⟨hw, ch, hop, rfl⟩⟩ := queue_ok h
  · exact iff_of_true (writingRegistered_of_agrees hag) (.inr hw)
  · by_cases htid : tid = c.loop
    · rw [decide_eq_true htid] at hop
      exact iff_of_true (writingRegistered_of_agrees (updateChannel_agrees hop)) (.inl htid)
    · rw [decide_eq_false htid] at hop
      obtain rfl := Except.ok.inj hop
      have hout : c.channel.events.epollOut = false := hw
      refine iff_of_false (fun hreg => ?_) (by simp [htid, hw])
      have hmask : c.channel.mask.epollOut = true := hreg rfl
      rw [← hag, hout] at hmask
      cases hmask

theorem enablesWriting_of_sends {tid : ℕ} {message : List UInt8} {res : WriteResult} {c c' : TcpConnection} {b : Bool}
    (hag : c.channel.Agrees) (h : Sends tid message res c c' b) :
    (b = true → c'.channel = c.channel ∧ c.enablesWriting message res = false) ∧
      (c'.WritingRegistered ↔ tid = c.loop ∨ c.enablesWriting message res = false) := by
  have hkeep : ∀ c'' : TcpConnection, c''.channel = c.channel → c''.WritingRegistered :=
    fun c'' hch => writingRegistered_of_agrees (hch ▸ hag)
  cases h with
  | ignored hst => exact ⟨by simp, iff_of_true (hkeep _ rfl) (.inr (by simp [enablesWriting, hst]))⟩
  | whole hst hd hres hn hcb =>
    have hnone : c.enablesWriting message res = false := by simp [enablesWriting, hd.2, hres, hn]
    exact ⟨by simp, iff_of_true (hkeep _ rfl) (.inr hnone)⟩
  | complete hst hd hres hn hcb =>
    have hnone : c.enablesWriting message res = false := by simp [enablesWriting, hd.2, hres, hn]
    exact ⟨fun _ => ⟨rfl, hnone⟩, iff_of_true (hkeep _ rfl) (.inr hnone)⟩
  | fault hst hd hres =>
    have hnone : c.enablesWriting message res = false := by simp [enablesWriting, hd.2, hres]
    exact ⟨by simp, iff_of_true (hkeep _ rfl) (.inr hnone)⟩
  | nothing hst hm hw hp =>
    have hnone : c.enablesWriting message res = false := by
      subst hm
      cases res <;> simp [enablesWriting]
    exact ⟨by simp, iff_of_true (hkeep _ rfl) (.inr hnone)⟩
  | @part n _ hst hd hres hn hq =>
    have hsome : c.enablesWriting message res = true := by simp [enablesWriting, hst, hd.1, hd.2, hres, hn]
    have hag' : ((c.log (.wrote (message.take n))).log (.sent message false)).channel.Agrees := hag
    have hqueue := queue_writing hag' hq
    have hiff : c'.WritingRegistered ↔ tid = c.loop ∨ c.channel.isWriting = true := hqueue
    refine ⟨by simp, ?_⟩
    rw [hiff, hsome, hd.1]
    simp
  | queued hst hm hw hp hq =>
    have hag' : (c.log (.sent message false)).channel.Agrees := hag
    have hqueue := queue_writing hag' hq
    have hiff : c'.WritingRegistered ↔ tid = c.loop ∨ c.channel.isWriting = true := hqueue
    have hsome : c.enablesWriting message res = !c.channel.isWriting := by
      cases hwr : c.channel.isWriting with
      | true => simp [enablesWriting, hwr]
      | false =>
        by_cases hempty : c.outputBuffer.readableBytes = 0
        · cases res with
          | wrote n => exact absurd rfl (hw n ⟨hwr, hempty⟩)
          | failed errno =>
            have hne : errno ≠ .epipe := fun he => hp ⟨hwr, hempty⟩ (he ▸ rfl)
            simp [enablesWriting, hst, hwr, hempty, hne, List.length_pos_iff.mpr hm]
        · simp [enablesWriting, hst, hwr, hempty, List.length_pos_iff.mpr hm]
    refine ⟨by simp, ?_⟩
    rw [hiff, hsome]
    simp

/-- **A refused `EnableWriting` in `send`.** If nothing is amiss before a
`send`, and the write-complete callback leaves the channel alone, then after
it `is_writing()` is true only with EPOLLOUT in epoll, exactly when the loop's
thread made the call or it did not come to its `EnableWriting`. -/
theorem send_writing_iff {tid : ℕ} {k : TcpConnection → Except Fault TcpConnection} {message : List UInt8}
    {res : WriteResult} {c c' : TcpConnection} (hag : c.channel.Agrees)
    (hk : ∀ s s', k s = .ok s' → s'.channel = s.channel)
    (h : send tid Lens.self k message res c = .ok c') :
    c'.WritingRegistered ↔ tid = c.loop ∨ c.enablesWriting message res = false := by
  obtain ⟨c1, ⟨hs, rfl⟩ | ⟨hs, hk1⟩⟩ := send_cases h
  · exact (enablesWriting_of_sends hag hs).2
  · obtain ⟨hsame, hnone⟩ := (enablesWriting_of_sends hag hs).1 rfl
    have hch : c'.channel = c.channel := (hk _ _ hk1).trans hsame
    exact iff_of_true (writingRegistered_of_agrees (hch ▸ hag)) (.inr hnone)

end TcpConnection

/-- **A refused channel update changes nothing, if it asks for nothing.** For
every state of a channel and every run of calls on it, by the loop's thread or
by others: the refused calls leave `events_` as it was, and `events_` and the
kernel's mask agree after every call if they did at the start, exactly when no
refused call asks for a change. And a `send` leaves `is_writing()` true only
with EPOLLOUT in epoll exactly when the loop's thread makes it, or it does not
come to its `EnableWriting`. -/
theorem refused_update_harmless_iff {start ch : Channel} {tr : List (Channel × InterestCall)}
    (hr : Run channelMachine start tr ch) :
    ((∀ p ∈ tr, Harmless start p.1 p.2) ↔ ∀ p ∈ tr, NotRefusedChange p.1 p.2) ∧
    ∀ (tid : ℕ) (k : TcpConnection → Except Fault TcpConnection) (message : List UInt8) (res : WriteResult)
      (c c' : TcpConnection), c.channel.Agrees → (∀ s s', k s = .ok s' → s'.channel = s.channel) →
      TcpConnection.send tid Lens.self k message res c = .ok c' →
      (c'.WritingRegistered ↔ tid = c.loop ∨ c.enablesWriting message res = false) := by
  refine ⟨interest_agrees_iff hr, ?_⟩
  intro tid k message res c c' hag hk h
  exact TcpConnection.send_writing_iff hag hk h

/-- A connection on the loop of thread 1 that is up and reading. -/
def upAndReading : TcpConnection :=
  { TcpConnection.create 1 "conn" 5 with
    state := .kConnected
    channel := ⟨5, { epollIn := true, epollPri := true }, {}, .kAdded, true,
      some { epollIn := true, epollPri := true }⟩ }

/-- The loop's thread enables both, another thread enables reading once more;
and the loop's thread sends two bytes of three. -/
theorem refused_update_harmless_same :
    let calls : List InterestCall := [⟨true, .enableReading⟩, ⟨false, .enableReading⟩, ⟨true, .enableWriting⟩]
    let sent := TcpConnection.send 1 Lens.self .ok [7, 8, 9] (.wrote 2) upAndReading
    (∀ p ∈ trace channelMachine (.create 3) calls, Harmless (.create 3) p.1 p.2) ∧
      ∀ c', sent = .ok c' → c'.WritingRegistered := by
  obtain ⟨hcalls, hsend⟩ := refused_update_harmless_iff (run_of_accepts
    [⟨true, .enableReading⟩, ⟨false, .enableReading⟩, ⟨true, .enableWriting⟩] (.create 3) (by decide +kernel))
  refine ⟨hcalls.mpr (by decide +kernel), ?_⟩
  · intro c' h
    have hk : ∀ s s' : TcpConnection, Except.ok s = (.ok s' : Except Fault TcpConnection) →
        s'.channel = s.channel := by
      intro s s' hs
      rw [Except.ok.inj hs]
    exact (hsend 1 _ _ _ _ _ (by decide +kernel) hk h).mpr (.inl rfl)

/-- Another thread enables writing: `events_` has EPOLLOUT, the kernel's mask
does not. So it is after a `send` by another thread that could not write. -/
theorem refused_update_lingers :
    let ch : Channel := upAndReading.channel
    let sent := TcpConnection.send 2 Lens.self .ok [7, 8, 9] (.failed .ewouldblock) upAndReading
    ¬ (∀ p ∈ trace channelMachine ch [⟨false, .enableWriting⟩], Harmless ch p.1 p.2) ∧
      (sent.toOption.map fun c' => (c'.channel.isWriting, c'.channel.mask.epollOut)) = some (true, false) := by
  intro ch sent
  refine ⟨fun h => ?_, by decide +kernel⟩
  have hrun : Run channelMachine ch (trace channelMachine ch [⟨false, .enableWriting⟩])
      (final channelMachine ch [⟨false, .enableWriting⟩]) := run_of_accepts _ _ (by decide +kernel)
  have hcond := (interest_agrees_iff hrun).mp h
  revert hcond
  decide +kernel

end MiniMuduo
