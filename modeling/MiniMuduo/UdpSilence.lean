/-
# When a stopped receiver is silent

`Stop` takes the receiver's channel out of epoll, but not out of the
`activeChannels_` that `Loop` is going through, and `HandleRead` tests
`started_` only after a delivery. So a datagram that `recvmmsg` hands to a
stopped receiver reaches the message callback. Where `recvmmsg` hands over
datagrams to started receivers only, no callback comes after `Stop()` and
before the next `Start()` (`stopped_receiver_silent`).

Key definitions: `stoppedLast`, `Silent`, `Quiet`, `FedWhileStarted`.
Key theorems: `move_quiet`, `stopped_receiver_silent`.
-/
import MiniMuduo.UdpRetention

namespace MiniMuduo

open Fallible Runs UdpReceiver

/-- The last call of `Start` or `Stop` was `Stop`; the newest event comes
first. -/
def stoppedLast : List UdpEvent → Bool
  | [] => false
  | .started :: _ => false
  | .stopped :: _ => true
  | .message :: earlier => stoppedLast earlier

/-- The message callback was never invoked between a `Stop` and the next
`Start`. -/
def Silent (trace : List UdpEvent) : Prop :=
  ∀ later earlier, trace = later ++ .message :: earlier → stoppedLast earlier = false

theorem silent_nil : Silent [] := by
  intro later earlier h
  cases later with
  | nil => cases h
  | cons _ _ => cases h

theorem Silent.cons {trace : List UdpEvent} (h : Silent trace) {e : UdpEvent}
    (he : e = .message → stoppedLast trace = false) : Silent (e :: trace) := by
  intro later earlier heq
  cases later with
  | nil =>
    obtain ⟨rfl, rfl⟩ := List.cons.inj heq
    exact he rfl
  | cons e' later => exact h later earlier (List.cons.inj heq).2

/-- A receiver in the loop over received messages is started, or has nobody
to tell. -/
structure Quiet (s : UdpReceiver) : Prop where
  started : s.started = true → stoppedLast s.trace = false
  delivering : ∀ read kept slots messages, s.pc = .delivering read kept slots messages →
    s.started = true ∨ s.messageCallback = false
  silent : Silent s.trace

/-- `recvmmsg` returns a datagram. -/
def UdpStep.receives : UdpStep → Bool
  | .recvmmsg (.received messages) _ => messages ≠ []
  | _ => false

/-- `recvmmsg` hands datagrams only to a started receiver, or to one with no
callback set. -/
def FedWhileStarted (s : UdpReceiver) (a : UdpStep) : Prop :=
  a.receives = true → s.started = true ∨ s.messageCallback = false

instance (s : UdpReceiver) (a : UdpStep) : Decidable (FedWhileStarted s a) := inferInstanceAs (Decidable (_ → _))

section moves

variable {s s' : UdpReceiver}

/-- A step that only moves on in `HandleRead`, and not into the loop over the
messages. -/
theorem Quiet.move (h : Quiet s) (hstarted : s'.started = s.started) (htrace : s'.trace = s.trace)
    (hpc : ∀ read kept slots messages, s'.pc ≠ .delivering read kept slots messages) : Quiet s' := by
  refine ⟨fun hs => ?_, fun read kept slots messages hd => absurd hd (hpc _ _ _ _), ?_⟩
  · rw [htrace]
    exact h.started (hstarted ▸ hs)
  · rw [htrace]
    exact h.silent

/-- A step that does not concern the receiver's thread. -/
theorem Quiet.same (h : Quiet s) (hstarted : s'.started = s.started) (htrace : s'.trace = s.trace)
    (hcb : s'.messageCallback = s.messageCallback) (hpc : s'.pc = s.pc) : Quiet s' := by
  refine ⟨fun hs => ?_, fun read kept slots messages hd => ?_, ?_⟩
  · rw [htrace]
    exact h.started (hstarted ▸ hs)
  · rw [hstarted, hcb]
    exact h.delivering read kept slots messages (hpc.symm.trans hd)
  · rw [htrace]
    exact h.silent

theorem round_ne_delivering (s : UdpReceiver) (r read : ℕ) (kept slots : List ℕ) (messages : List Message) :
    s.round r ≠ .delivering read kept slots messages := by
  unfold UdpReceiver.round
  split
  · exact ReadPc.noConfusion
  · exact ReadPc.noConfusion

/-- The test of `started_` after a delivery. -/
theorem afterDelivery_quiet (h : Quiet s) (read : ℕ) (kept slots : List ℕ) (messages : List Message) :
    Quiet (s.afterDelivery read kept slots messages) := by
  unfold UdpReceiver.afterDelivery
  split
  case isTrue hstarted => exact ⟨h.started, fun _ _ _ _ _ => .inl hstarted, h.silent⟩
  case isFalse _ => exact h.move rfl rfl fun _ _ _ _ => ReadPc.noConfusion

theorem inUserCode_ne_delivering {pc : ReadPc} (h : pc.inUserCode = true) (read : ℕ) (kept slots : List ℕ)
    (messages : List Message) : pc ≠ .delivering read kept slots messages := by
  rintro rfl
  cases h

/-- `Stop` and `~UdpReceiver`. -/
theorem stop_quiet (h : Quiet s) (huser : s.pc.inUserCode = true) (hst : s.stop = .ok s') : Quiet s' := by
  obtain ⟨-, hpc, hoff, htrace⟩ := stop_ok hst
  refine ⟨fun hs => ?_, fun read kept slots messages hd => ?_, ?_⟩
  · rw [hoff] at hs
    cases hs
  · exact absurd (hpc.symm.trans hd) (inUserCode_ne_delivering huser _ _ _ _)
  · rw [htrace]
    exact h.silent.cons nofun

theorem start_quiet (h : Quiet s) (huser : s.pc.inUserCode = true) (hst : s.start = .ok s') : Quiet s' := by
  obtain ⟨-, hpc, -, htrace⟩ := start_ok hst
  refine ⟨fun _ => ?_, fun read kept slots messages hd => ?_, ?_⟩
  · rw [htrace]
    rfl
  · exact absurd (hpc.symm.trans hd) (inUserCode_ne_delivering huser _ _ _ _)
  · rw [htrace]
    exact h.silent.cons nofun

/-- A delivery: the callback is invoked on a started receiver. -/
theorem deliver_quiet (h : Quiet s) {read b : ℕ} {kept slots : List ℕ} {m : Message} {messages : List Message}
    (hpc : s.pc = .delivering read kept (b :: slots) (m :: messages))
    (hst : s.deliver read kept b slots m messages = .ok s') : Quiet s' := by
  obtain ⟨size, ⟨-, rfl⟩ | ⟨hcb, d, -, -, rfl⟩⟩ := deliver_ok hst
  · have hset : Quiet (s.setSize b size) := h.same rfl rfl rfl rfl
    exact afterDelivery_quiet hset read _ slots messages
  · have hstarted : s.started = true := by
      rcases h.delivering _ _ _ _ hpc with hs | hno
      · exact hs
      · rw [hcb] at hno
        cases hno
    have hlast := h.started hstarted
    refine ⟨fun _ => hlast, fun _ _ _ _ hd => ?_, h.silent.cons fun _ => hlast⟩
    cases hd

theorem recvmmsg_quiet (h : Quiet s) {read : ℕ} {slots : List ℕ} {res : RecvResult} {data : List (List UInt8)}
    (hfed : FedWhileStarted s (.recvmmsg res data)) : Quiet (s.recvmmsg read slots res data) := by
  obtain ⟨-, -, hrest⟩ := write_spec slots data s
  have hwritten : Quiet (s.write slots data) :=
    h.same (congrArg UdpReceiver.started hrest :) (congrArg UdpReceiver.trace hrest :)
      (congrArg UdpReceiver.messageCallback hrest :) (congrArg UdpReceiver.pc hrest :)
  unfold UdpReceiver.recvmmsg
  simp only
  split
  · exact hwritten.move rfl rfl fun _ _ _ _ => ReadPc.noConfusion
  · exact hwritten.move rfl rfl fun _ _ _ _ => ReadPc.noConfusion
  rename_i messages
  split
  · exact hwritten.move rfl rfl fun _ _ _ _ => ReadPc.noConfusion
  case isFalse hne =>
    refine ⟨hwritten.started, fun _ _ _ _ _ => ?_, hwritten.silent⟩
    have hstarted : (s.write slots data).started = s.started := (congrArg UdpReceiver.started hrest :)
    have hcb : (s.write slots data).messageCallback = s.messageCallback :=
      (congrArg UdpReceiver.messageCallback hrest :)
    show (s.write slots data).started = true ∨ (s.write slots data).messageCallback = false
    rw [hstarted, hcb]
    exact hfed (decide_eq_true hne)

/-- One step. -/
theorem move_quiet (h : Quiet s) {a : UdpStep} (hfed : FedWhileStarted s a) (hm : UdpMove s a s') : Quiet s' := by
  cases hm with
  | pollReady mask _ => exact h.same rfl rfl rfl rfl
  | pollIdle => exact h
  | handleEvent hpc hst =>
    unfold UdpReceiver.handleEvent at hst
    simp only at hst
    split at hst
    · cases hst
    split at hst
    · obtain rfl := Except.ok.inj hst
      exact h.move rfl rfl fun _ _ _ _ => round_ne_delivering _ _ _ _ _ _
    · obtain rfl := Except.ok.inj hst
      exact h.same rfl rfl rfl rfl
  | @acquire read slots address data _ _ =>
    unfold UdpReceiver.acquire
    split
    · exact h.move rfl rfl fun _ _ _ _ => ReadPc.noConfusion
    · exact h.move rfl rfl fun _ _ _ _ => ReadPc.noConfusion
  | recvmmsg res data _ => exact recvmmsg_quiet h hfed
  | deliver hpc hst => exact deliver_quiet h hpc hst
  | returnCallback _ => exact afterDelivery_quiet h _ _ _ _
  | finishBatch _ => exact h.move rfl rfl fun _ _ _ _ => ReadPc.noConfusion
  | unwind _ => exact h.move rfl rfl fun _ _ _ _ => ReadPc.noConfusion
  | @leaveRound next _ =>
    refine h.move rfl rfl fun _ _ _ _ => ?_
    cases next with
    | none => exact ReadPc.noConfusion
    | some read => exact round_ne_delivering _ _ _ _ _ _
  | start huser hst => exact start_quiet h huser hst
  | stop huser hst => exact stop_quiet h huser hst
  | setMessageCallback set hpc =>
    refine ⟨h.started, fun _ _ _ _ hd => ?_, h.silent⟩
    cases hpc.symm.trans hd
  | destroy huser hst => exact (stop_quiet h huser hst).same rfl rfl rfl rfl
  | copy _ => exact h.same rfl rfl rfl rfl
  | @drop d _ =>
    unfold UdpReceiver.drop
    simp only
    split
    · exact h.same rfl rfl rfl rfl
    · exact h.same rfl rfl rfl rfl
  | giveBack _ => exact h.same rfl rfl rfl rfl
  | freeState _ _ _ => exact h.same rfl rfl rfl rfl

end moves

theorem create_quiet (fd maxPacketsPerRead bufferSize : ℕ) (addresses : List ℕ) (data : List UInt8) :
    Quiet (create fd maxPacketsPerRead bufferSize addresses data) := by
  refine ⟨fun _ => rfl, fun _ _ _ _ hd => ?_, silent_nil⟩
  cases hd

/-- **When a stopped receiver is silent.** In every run of a loop in which
`recvmmsg` hands datagrams to the receiver only while it is started (or has no
callback), whoever calls `Start` and `Stop` and when: the message callback is
never invoked after a `Stop()` has returned and before `Start()` is called
again. -/
theorem stopped_receiver_silent (fd maxPacketsPerRead bufferSize : ℕ) (addresses : List ℕ) (data : List UInt8)
    {tr : List (UdpReceiver × UdpStep)} {s : UdpReceiver}
    (hr : Run udpMachine (create fd maxPacketsPerRead bufferSize addresses data) tr s)
    (hfed : ∀ p ∈ tr, FedWhileStarted p.1 p.2) : Silent s.trace := by
  have hstep : ∀ t a u, Quiet t → udpEnabled t a = true → FedWhileStarted t a → udpStep t a = .ok u → Quiet u :=
    fun _ _ _ ht hen hP hst => move_quiet ht hP (udpMove_of_step hen hst)
  exact (hr.invariant hstep (create_quiet fd maxPacketsPerRead bufferSize addresses data) hfed).silent

/-- The channel is dispatched after `Stop()`, but its socket is empty by
then; later the receiver is started again and gets a datagram. -/
theorem stopped_receiver_silent_empty_socket :
    let steps : List UdpStep := [.setMessageCallback true, .start, .poll (some { epollIn := true }), .stop,
      .handleEvent, .acquire 1 [0], .recvmmsg .failed [[0]], .unwind, .leaveRound, .start,
      .poll (some { epollIn := true }), .handleEvent, .acquire 1 [0], .recvmmsg (.received [⟨1, false⟩]) [[3]],
      .deliver]
    let s := final udpMachine (create 5 1 1 [0] [0]) steps
    s.trace = [.message, .started, .stopped, .started] ∧ Silent s.trace :=
  ⟨by decide +kernel,
    stopped_receiver_silent 5 1 1 [0] [0] (run_of_accepts _ _ (by decide +kernel)) (by decide +kernel)⟩

/-- A callback that runs earlier in the same `Poll` batch calls `Stop()`; the
receiver's channel is still dispatched, and its datagram is delivered. -/
theorem stopped_receiver_speaks :
    ∃ tr s, Run udpMachine (create 5 1 1 [0] [0]) tr s ∧ ¬ Silent s.trace :=
  let steps : List UdpStep := [.setMessageCallback true, .start, .poll (some { epollIn := true }), .stop,
    .handleEvent, .acquire 1 [0], .recvmmsg (.received [⟨1, false⟩]) [[3]], .deliver]
  ⟨trace udpMachine (create 5 1 1 [0] [0]) steps, final udpMachine (create 5 1 1 [0] [0]) steps,
    run_of_accepts _ _ (by decide +kernel), fun h => absurd (h [] [.stopped, .started] (by decide +kernel)) (by decide)⟩

end MiniMuduo
