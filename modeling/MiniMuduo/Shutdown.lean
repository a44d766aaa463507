/-
# The half-close of a connection

`socket_->ShutdownWrite()` is called by `ShutDown` when nothing is being
written, and by `HandleWrite` when it finds `kDisconnecting` after a drain
and its callback. Bytes still queued at that moment are cut off.

What user code does to a connection is followed on its `phase`: whether it
is up, was asked to shut down, and has bytes queued. A script moves the
phase by itself (`runActs_phase`), so whether a drain's callback leaves
queued bytes on a connection that is shutting down can be read off the
script (`scan`). Exactly those drains cut bytes off (`uncut_iff`).

Key definitions: `Tidy`, `Phase`, `scan`, `CutsOff`.
Key theorems: `callPart_tidy`, `runActs_phase`, `call_uncut`, `uncut_iff`.
-/
import MiniMuduo.Calls

namespace MiniMuduo

open Fallible Runs TcpConnection

/-! ### Bytes are queued exactly while the channel is writing -/

/-- A connection on its own thread whose channel writes exactly while bytes
are queued; `b` says that the write-complete callback is set. -/
structure Tidy (tid : ℕ) (b : Bool) (c : TcpConnection) : Prop where
  loop : c.loop = tid
  notifies : c.writeCompleteCallback = b
  wf : c.outputBuffer.WF
  synced : c.channel.Synced
  writing : c.Up → (c.channel.isWriting = true ↔ c.outputBuffer.readable ≠ [])
  stopped : ¬ c.Up → c.channel.isWriting = false
  fresh : c.state = .kConnecting → c.outputBuffer.readable = []

namespace Tidy

variable {tid : ℕ} {b : Bool} {c c' : TcpConnection}

theorem log (h : Tidy tid b c) (e : Event) : Tidy tid b (c.log e) :=
  ⟨h.loop, h.notifies, h.wf, h.synced, h.writing, h.stopped, h.fresh⟩

theorem readable_eq_nil (h : Tidy tid b c) (hup : c.Up) (hw : c.channel.isWriting = false) :
    c.outputBuffer.readable = [] := by
  by_contra hne
  have hwr := (h.writing hup).mpr hne
  rw [hw] at hwr
  cases hwr

theorem inLoop (h : Tidy tid b c) : decide (tid = c.loop) = true := decide_eq_true h.loop.symm

theorem update (h : Tidy tid b c) (ev : Events) {ch : Channel}
    (hop : EventLoop.updateChannel (tid = c.loop) { c.channel with events := ev } = .ok ch) :
    ch.Synced ∧ ch.events = ev ∧
      ch.index = if c.channel.index = .kAdded ∧ ev = Events.kNoneEvent then .kDeleted else .kAdded := by
  rw [h.inLoop] at hop
  obtain ⟨ch', hop', hsync, -, hev, -, -, hindex⟩ := Channel.update_spec h.synced ev
  rw [hop] at hop'
  cases hop'
  exact ⟨hsync, hev, hindex⟩

/-- Bytes go to the back of the buffer: now the channel writes. -/
theorem queue (h : Tidy tid b c) {rest : List UInt8} (hne : rest ≠ []) (hst : c.state = .kConnected)
    (hq : c.queue tid rest = .ok c') :
    Tidy tid b c' ∧ c'.state = .kConnected ∧ c'.outputBuffer.readable ≠ [] := by
  obtain ⟨out, happ, hcase⟩ := queue_ok hq
  obtain ⟨hwf, hread⟩ := h.wf.append_spec happ
  have hout : out.readable ≠ [] := by
    rw [hread]
    exact List.append_ne_nil_of_right_ne_nil _ hne
  have hup : c.Up := .inl hst
  rcases hcase with ⟨hw, rfl⟩ | ⟨-, ch, hop, rfl⟩
  · refine ⟨⟨h.loop, h.notifies, hwf, h.synced, fun _ => ⟨fun _ => hout, fun _ => hw⟩, ?_, ?_⟩, hst, hout⟩
    · exact fun hdown => absurd hup hdown
    · exact fun h' => absurd h' hup.ne_connecting
  · obtain ⟨hsync, hev, -⟩ := h.update _ hop
    have hwr : ch.isWriting = true := congrArg Events.epollOut hev
    refine ⟨⟨h.loop, h.notifies, hwf, hsync, fun _ => ⟨fun _ => hout, fun _ => hwr⟩, ?_, ?_⟩, hst, hout⟩
    · exact fun hdown => absurd hup hdown
    · exact fun h' => absurd h' hup.ne_connecting

/-- The connection goes down: its channel stops. -/
theorem goDown (h : Tidy tid b c)
    (hop : (c.setState .kDisconnected).onChannel tid Channel.disableAll = .ok c') : Tidy tid b c' := by
  obtain ⟨ch, hch, rfl⟩ := onChannel_ok hop
  obtain ⟨hsync, hev, -⟩ := h.update Events.kNoneEvent hch
  refine ⟨h.loop, h.notifies, h.wf, hsync, fun hup => ?_, fun _ => congrArg Events.epollOut hev, fun h' => ?_⟩
  · rcases hup with h' | h' <;> cases h'
  · cases h'

theorem removed_spec {ch ch' : Channel} (hsync : ch.Synced) (hev : ch.events = Events.kNoneEvent)
    {loop : ℕ} (hloop : loop = tid) (hrm : ch.remove (tid = loop) = .ok ch') :
    ch'.Synced ∧ ch'.events = ch.events ∧ ch'.registered = none := by
  have hin : decide (tid = loop) = true := decide_eq_true hloop.symm
  obtain ⟨ch1, hrm1, hsync1, -, hev1, hreg⟩ := Channel.remove_spec hsync hev
  rw [hin, hrm1] at hrm
  cases hrm
  exact ⟨hsync1, hev1, hreg⟩

/-- The end of `ConnectDestroyed`, on a connection that is down. -/
theorem destroyTail (h : Tidy tid b c) (hdown : ¬ c.Up) (ht : destroyTail tid c = .ok c') :
    Tidy tid b c' := by
  obtain ⟨c1, hop, hrm⟩ := bind_eq_ok ht
  obtain ⟨ch, hch, rfl⟩ := onChannel_ok hop
  obtain ⟨hsync, hev, -⟩ := h.update Events.kNoneEvent hch
  obtain ⟨ch', hrm', hc⟩ := bind_eq_ok hrm
  cases hc
  obtain ⟨hsync1, hev1, -⟩ := removed_spec hsync hev h.loop hrm'
  have hwr : ch'.isWriting = false := congrArg Events.epollOut (hev1.trans hev)
  exact ⟨h.loop, h.notifies, h.wf, hsync1, fun hup => absurd hup hdown, fun _ => hwr, h.fresh⟩

theorem sends (h : Tidy tid b c) {message : List UInt8} {res : WriteResult} {k : Bool}
    (hs : Sends tid message res c c' k) : Tidy tid b c' := by
  cases hs with
  | ignored _ => exact h
  | whole => exact (h.log _).log _
  | complete => exact ((h.log _).log _).log _
  | fault => exact h.log _
  | nothing => exact h.log _
  | @part n _ hst _ _ hlt hq =>
    have hne : message.drop n ≠ [] := List.drop_eq_nil_iff.not.mpr (by omega)
    exact (((h.log _).log _).queue hne hst hq).1
  | queued hst hne _ _ hq => exact ((h.log _).queue hne hst hq).1

theorem shutDown (h : Tidy tid b c) : Tidy tid b (shutDown .self c) := by
  have hset : c.state = .kConnected → Tidy tid b (c.setState .kDisconnecting) := fun hst =>
    ⟨h.loop, h.notifies, h.wf, h.synced, fun _ => h.writing (.inl hst),
      fun hdown => absurd (.inr rfl) hdown, fun h' => by cases h'⟩
  rcases shutDown_cases c with ⟨-, hc⟩ | ⟨hst, -, hc⟩ | ⟨hst, -, hc⟩
  · rwa [hc]
  · rw [hc]
    exact hset hst
  · rw [hc]
    exact (hset hst).log _

theorem drains (h : Tidy tid b c) {res : WriteResult} {k : Bool} (hd : Drains tid res c c' k) :
    Tidy tid b c' := by
  cases hd with
  | idle _ => exact h
  | @part n out hw _ _ hlt hwf hread =>
    have hne : out.readable ≠ [] := by
      rw [hread]
      exact List.drop_eq_nil_iff.not.mpr (by have := h.wf.length_readable; omega)
    have hup : c.Up := by
      by_contra hdown
      rw [h.stopped hdown] at hw
      cases hw
    refine ⟨h.loop, h.notifies, hwf, h.synced, fun _ => ⟨fun _ => hne, fun _ => hw⟩, ?_, fun h' => ?_⟩
    · exact fun hdown => absurd hup hdown
    · exact absurd h' hup.ne_connecting
  | @whole n out ch _ _ _ _ hwf hread hop =>
    obtain ⟨hsync, hev, -⟩ := h.update _ hop
    have hwr : ch.isWriting = false := congrArg Events.epollOut hev
    refine ⟨h.loop, h.notifies, hwf, hsync, fun _ => ?_, fun _ => hwr, fun _ => hread⟩
    show ch.isWriting = true ↔ out.readable ≠ []
    simp [hwr, hread]

end Tidy

theorem Tidy.drains_up {tid : ℕ} {b k : Bool} {c c' : TcpConnection} (h : Tidy tid b c) {res : WriteResult}
    (hd : Drains tid res c c' k) : c.Up ∨ (c' = c ∧ k = false) := by
  have hup : c.channel.isWriting = true → c.Up := by
    intro hw
    by_contra hdown
    rw [h.stopped hdown] at hw
    cases hw
  cases hd with
  | idle _ => exact .inr ⟨rfl, rfl⟩
  | part hw => exact .inl (hup hw)
  | whole hw => exact .inl (hup hw)

theorem Tidy.actPart {tid : ℕ} {b d : Bool} {c c' : TcpConnection} (h : Tidy tid b c)
    (hp : ActPart tid d c c') : Tidy tid b c' := by
  cases hp with
  | sends hs => exact h.sends hs
  | shutDown => exact h.shutDown
  | retrieve _ => exact ⟨h.loop, h.notifies, h.wf, h.synced, h.writing, h.stopped, h.fresh⟩
  | destroyDown _ _ => exact h.log _
  | destroyUp _ _ hcore =>
    obtain ⟨c1, hop, hc⟩ := bind_eq_ok hcore
    cases hc
    exact ((h.log _).goDown hop).log _
  | destroyTail _ hdown htail => exact h.destroyTail hdown htail

theorem callPart_tidy {tid : ℕ} {b : Bool} {c c' : TcpConnection} (h : Tidy tid b c)
    (hp : CallPart tid c c') : Tidy tid b c' := by
  cases hp with
  | act ha => exact h.actPart ha
  | drains hd => exact h.drains hd
  | callback cb => exact h.log _
  | close hcore => exact (h.log _).goDown hcore
  | closeReturned => exact h.log _
  | read _ => exact ⟨h.loop, h.notifies, h.wf, h.synced, h.writing, h.stopped, h.fresh⟩
  | error => exact h.log _
  | establish hst hcore =>
    obtain ⟨c1, hop, hc⟩ := bind_eq_ok hcore
    cases hc
    obtain ⟨ch, hch, rfl⟩ := onChannel_ok hop
    obtain ⟨hsync, hev, -⟩ := h.update _ hch
    have hread := h.fresh hst
    have hdown : ¬ c.Up := fun hup => hup.ne_connecting hst
    have hwr : ch.isWriting = false := (congrArg Events.epollOut hev).trans (h.stopped hdown)
    refine ⟨h.loop, h.notifies, h.wf, hsync, fun _ => ?_, fun _ => hwr, fun _ => hread⟩
    show ch.isWriting = true ↔ c.outputBuffer.readable ≠ []
    simp [hwr, hread]

theorem finishWrite_tidy {tid : ℕ} {b : Bool} {c : TcpConnection} (h : Tidy tid b c) :
    Tidy tid b c.finishWrite := by
  unfold finishWrite
  split
  · exact h.log _
  · exact h

theorem newConnection_tidy (tid : ℕ) (name : String) (sockfd : ℕ) (cbs : Callbacks) :
    Tidy tid cbs.writeComplete (newConnection tid name sockfd cbs) := by
  have hcreate : Buffer.create Buffer.kInitialSize = .ok initialBuffer := rfl
  obtain ⟨hwf, hread⟩ := Buffer.create_spec hcreate
  refine ⟨rfl, rfl, hwf, Channel.create_synced sockfd, fun hup => ?_, fun _ => rfl, fun _ => hread⟩
  rcases hup with h' | h' <;> cases h'

/-! ### Phases -/

/-- Where a connection stands: not up, or up with nothing queued (`idle`) or
something (`pending`), and the same two after `ShutDown`. -/
inductive Phase
  | down
  | idle
  | pending
  | shut
  | shutPending
  deriving DecidableEq, Repr

/-- The phase of a connection. -/
def TcpConnection.phase (c : TcpConnection) : Phase :=
  match c.state with
  | .kConnected => if c.outputBuffer.readable = [] then .idle else .pending
  | .kDisconnecting => if c.outputBuffer.readable = [] then .shut else .shutPending
  | .kConnecting | .kDisconnected => .down

/-- The phase after the part of `send` before its callback. -/
def sendPhase (message : List UInt8) (res : WriteResult) : Phase → Phase
  | .idle =>
    match res with
    | .wrote n => if message.length ≤ n then .idle else .pending
    | .failed errno => if errno = .epipe ∨ message = [] then .idle else .pending
  | p => p

/-- `send` writes the whole message at once. -/
def completes (message : List UInt8) : WriteResult → Phase → Bool
  | .wrote n, .idle => message.length ≤ n
  | _, _ => false

mutual

/-- What an act does to the phase; `b` says that the write-complete callback
is set. -/
def scanAct (b : Bool) : Act Unit → Phase → Phase
  | .send _ message res writeComplete, p =>
    if b && completes message res p then scan b writeComplete (sendPhase message res p)
    else sendPhase message res p
  | .shutDown _, .idle => .shut
  | .shutDown _, .pending => .shutPending
  | .shutDown _, p => p
  | .retrieve _ _, p => p
  | .destroy _ _, _ => .down

/-- What a script does to the phase. -/
def scan (b : Bool) : Script → Phase → Phase
  | [], p => p
  | a :: as, p => scan b as (scanAct b a p)

end

namespace TcpConnection

variable {tid : ℕ} {b : Bool} {c c' : TcpConnection}

theorem phase_congr (hst : c'.state = c.state) (hout : c'.outputBuffer = c.outputBuffer) :
    c'.phase = c.phase := by
  unfold phase
  rw [hst, hout]

theorem phase_eq_down_iff : c.phase = .down ↔ ¬ c.Up := by
  unfold phase Up
  cases c.state with
  | kDisconnected => simp
  | kConnecting => simp
  | kConnected => by_cases hread : c.outputBuffer.readable = [] <;> simp [hread]
  | kDisconnecting => by_cases hread : c.outputBuffer.readable = [] <;> simp [hread]

theorem phase_idle (hst : c.state = .kConnected) (hread : c.outputBuffer.readable = []) :
    c.phase = .idle := by
  simp [phase, hst, hread]

theorem phase_pending (hst : c.state = .kConnected) (hread : c.outputBuffer.readable ≠ []) :
    c.phase = .pending := by
  simp [phase, hst, hread]

/-- `send` and `ShutDown` leave these phases as they are. -/
theorem phase_of_ne_connected (hst : c.state ≠ .kConnected) :
    c.phase = .down ∨ c.phase = .shut ∨ c.phase = .shutPending := by
  unfold phase
  cases hcase : c.state with
  | kDisconnected => exact .inl rfl
  | kConnecting => exact .inl rfl
  | kConnected => exact absurd hcase hst
  | kDisconnecting =>
    by_cases hread : c.outputBuffer.readable = []
    · simp [hread]
    · simp [hread]

/-- A tidy connection that is up can write at once exactly when it is idle. -/
theorem direct_iff (h : Tidy tid b c) (hst : c.state = .kConnected) :
    c.Direct ↔ c.outputBuffer.readable = [] := by
  have hwr := h.writing (.inl hst)
  have hzero := h.wf.readable_eq_nil_iff
  constructor
  · intro hd
    exact hzero.mpr hd.2
  · intro hread
    refine ⟨?_, hzero.mp hread⟩
    cases hw : c.channel.isWriting with
    | false => rfl
    | true => exact absurd hread (hwr.mp hw)

/-- What `send` does to the phase before its callback, and when it invokes
it. -/
theorem Sends.phase (h : Tidy tid b c) {message : List UInt8} {res : WriteResult} {k : Bool}
    (hs : Sends tid message res c c' k) :
    c'.phase = sendPhase message res c.phase ∧ k = (b && completes message res c.phase) := by
  have hb := h.notifies
  cases hs with
  | ignored hst =>
    rcases phase_of_ne_connected hst with hp | hp | hp <;> rw [hp]
    all_goals exact ⟨rfl, by cases res <;> simp [completes]⟩
  | @whole n hst hd hres hle hcb =>
    have hp := phase_idle hst ((direct_iff h hst).mp hd)
    subst hres
    refine ⟨?_, by simp [← hb, hcb]⟩
    rw [hp]
    simp only [sendPhase, hle, if_true]
    exact hp
  | @complete n hst hd hres hle hcb =>
    have hp := phase_idle hst ((direct_iff h hst).mp hd)
    subst hres
    refine ⟨?_, by simp [← hb, hcb, hp, completes, hle]⟩
    rw [hp]
    simp only [sendPhase, hle, if_true]
    exact hp
  | fault hst hd hres =>
    have hp := phase_idle hst ((direct_iff h hst).mp hd)
    subst hres
    rw [hp]
    exact ⟨hp, by simp [completes]⟩
  | nothing hst hm hw hpipe =>
    subst hm
    by_cases hd : c.Direct
    · have hp := phase_idle hst ((direct_iff h hst).mp hd)
      cases res with
      | wrote n => exact absurd rfl (hw n hd)
      | failed errno =>
        rw [hp]
        refine ⟨?_, by simp [completes]⟩
        simp only [sendPhase, or_true, if_true]
        exact hp
    · have hp := phase_pending hst ((direct_iff h hst).not.mp hd)
      rw [hp]
      exact ⟨hp, by cases res <;> simp [completes]⟩
  | @part n _ hst hd hres hlt hq =>
    have hp := phase_idle hst ((direct_iff h hst).mp hd)
    have hne : message.drop n ≠ [] := List.drop_eq_nil_iff.not.mpr (by omega)
    obtain ⟨-, hst', hne'⟩ := Tidy.queue ((h.log _).log _) hne hst hq
    subst hres
    rw [phase_pending hst' hne', hp]
    have hlt' : ¬ message.length ≤ n := by omega
    exact ⟨by simp [sendPhase, hlt'], by simp [completes, hlt']⟩
  | queued hst hne hw hpipe hq =>
    obtain ⟨-, hst', hne'⟩ := Tidy.queue (h.log _) hne hst hq
    rw [phase_pending hst' hne']
    by_cases hd : c.Direct
    · have hp := phase_idle hst ((direct_iff h hst).mp hd)
      cases res with
      | wrote n => exact absurd rfl (hw n hd)
      | failed errno =>
        have herr : errno ≠ .epipe := fun h' => hpipe hd (by rw [h'])
        rw [hp]
        exact ⟨by simp [sendPhase, herr, hne], by simp [completes]⟩
    · have hp := phase_pending hst ((direct_iff h hst).not.mp hd)
      rw [hp]
      exact ⟨rfl, by cases res <;> simp [completes]⟩

theorem shutDown_phase (c : TcpConnection) :
    (shutDown .self c).phase = scanAct b (.shutDown ()) c.phase := by
  have hset : c.state = .kConnected → (c.setState .kDisconnecting).phase = scanAct b (.shutDown ()) c.phase := by
    intro hst
    by_cases hread : c.outputBuffer.readable = []
    · rw [phase_idle hst hread]
      simp [phase, setState, hread, scanAct]
    · rw [phase_pending hst hread]
      simp [phase, setState, hread, scanAct]
  rcases shutDown_cases c with ⟨hst, hc⟩ | ⟨hst, -, hc⟩ | ⟨hst, -, hc⟩
  · rw [hc]
    rcases phase_of_ne_connected hst with hp | hp | hp <;> rw [hp] <;> simp [scanAct]
  · rw [hc]
    exact hset hst
  · rw [hc]
    exact hset hst

end TcpConnection

theorem connectDestroyed_down {tid : ℕ} {script : Script} {c c' : TcpConnection}
    (h : connectDestroyed tid .self (runScript tid script) c = .ok c') : ¬ c'.Up := by
  obtain ⟨c1, c2, htail, hset, hcase⟩ := connectDestroyed_cases h
  obtain rfl : c' = c2 := hset
  have hdown : ¬ c1.Up := by
    rcases hcase with ⟨hdown, rfl⟩ | ⟨-, c3, hcore, hk⟩
    · exact hdown
    · have hdown3 : ¬ c3.Up := destroyCore_down hcore
      exact runActs_keeps apart_self script (scriptAllowed_all script) (keptBy_down apart_self ()) c3 c1
        hdown3 hk
  exact actPart_down hdown (.destroyTail (d := true) rfl hdown htail)

section runActs

variable {tid : ℕ} {b : Bool}

mutual

theorem runAct_phase : ∀ (a : Act Unit) {c c' : TcpConnection}, Tidy tid b c →
    runAct tid (fun _ => Lens.self) a c = .ok c' → c'.phase = scanAct b a c.phase
  | .send i message res writeComplete, c, c', h, hr => by
    unfold runAct at hr
    unfold scanAct
    obtain ⟨c1, ⟨hsend, hset⟩ | ⟨hsend, hk⟩⟩ := send_cases hr
    · obtain ⟨hp, hflag⟩ := Sends.phase h hsend
      obtain rfl : c' = c1 := hset
      rw [← hflag, hp]
      rfl
    · obtain ⟨hp, hflag⟩ := Sends.phase h hsend
      rw [← hflag, ← hp]
      exact runActs_phase writeComplete (h.sends hsend) hk
  | .shutDown i, c, c', h, hr => by
    unfold runAct at hr
    cases hr
    exact shutDown_phase c
  | .retrieve i len, c, c', h, hr => by
    unfold runAct retrieveInput at hr
    obtain ⟨buf, -, hc⟩ := bind_eq_ok hr
    cases hc
    unfold scanAct
    exact phase_congr rfl rfl
  | .destroy i connection, c, c', h, hr => by
    unfold runAct at hr
    unfold scanAct
    exact phase_eq_down_iff.mpr (connectDestroyed_down hr)

theorem runActs_phase : ∀ (as : Script) {c c' : TcpConnection}, Tidy tid b c →
    runActs tid (fun _ => Lens.self) as c = .ok c' → c'.phase = scan b as c.phase
  | [], c, c', _, hr => by
    unfold runActs at hr
    unfold scan
    cases hr
    rfl
  | a :: as, c, c', h, hr => by
    unfold runActs at hr
    unfold scan
    obtain ⟨c1, ha, hr⟩ := bind_eq_ok hr
    have h1 : Tidy tid b c1 :=
      runAct_keeps apart_self a a.allowed_all (fun s _ c' _ hs hp => callPart_tidy hs (.act hp)) c c1 h ha
    rw [runActs_phase as h1 hr, runAct_phase a h ha]

end

end runActs

mutual

/-- A connection that is shutting down with nothing queued takes nothing more. -/
theorem scanAct_shut (b : Bool) : ∀ (a : Act Unit) {p : Phase}, p = .shut ∨ p = .down →
    scanAct b a p = .shut ∨ scanAct b a p = .down
  | .send i message res writeComplete, p, hp => by
    have hcomp : completes message res p = false := by
      rcases hp with rfl | rfl <;> cases res <;> rfl
    unfold scanAct
    rw [hcomp, Bool.and_false]
    rcases hp with rfl | rfl
    · exact .inl rfl
    · exact .inr rfl
  | .shutDown i, p, hp => by
    rcases hp with rfl | rfl <;> simp [scanAct]
  | .retrieve i len, p, hp => by
    unfold scanAct
    exact hp
  | .destroy i connection, p, _ => by
    unfold scanAct
    exact .inr rfl

theorem scan_shut (b : Bool) : ∀ (as : Script) {p : Phase}, p = .shut ∨ p = .down →
    scan b as p = .shut ∨ scan b as p = .down
  | [], p, hp => by
    unfold scan
    exact hp
  | a :: as, p, hp => by
    unfold scan
    exact scan_shut b as (scanAct_shut b a hp)

end

/-! ### When bytes are cut off -/

/-- The event is a half-close that cuts bytes off. -/
def Event.cuts : Event → Bool
  | .shutdownWrite (_ :: _) => true
  | _ => false

/-- No half-close cut bytes off. -/
def Uncut (trace : List Event) : Prop := ∀ e ∈ trace, e.cuts = false

theorem uncut_cons (e : Event) (trace : List Event) :
    Uncut (e :: trace) ↔ e.cuts = false ∧ Uncut trace := by
  simp [Uncut]

/-- The write takes everything that is queued. -/
def takesAll (queued : ℕ) : WriteResult → Bool
  | .wrote n => queued ≤ n
  | .failed _ => false

/-- A drain whose callback sends, leaves bytes queued, and shuts down. -/
def CutsOff (c : TcpConnection) : Call → Prop
  | .handleWrite res writeComplete =>
    c.state = .kConnected ∧ c.channel.isWriting = true ∧
      takesAll c.outputBuffer.readableBytes res = true ∧ c.writeCompleteCallback = true ∧
      scan true writeComplete .idle = .shutPending
  | _ => False

instance (c : TcpConnection) : ∀ a, Decidable (CutsOff c a)
  | .handleWrite _ _ => inferInstanceAs (Decidable (_ ∧ _))
  | .connectEstablished _ | .send .. | .shutDown | .handleRead .. | .handleClose _ | .connectDestroyed _ =>
    inferInstanceAs (Decidable False)

section uncut

variable {tid : ℕ} {b : Bool} {c c' : TcpConnection}

/-- `ShutDown` half-closes only with nothing queued, and no other part of a
call but the end of `HandleWrite` half-closes. -/
theorem callPart_adds (h : Tidy tid b c) (hp : CallPart tid c c') :
    Adds (fun e => e.cuts = false) c c' := by
  have hroutine : ∀ e : Event, e.routine = true → e.cuts = false := by
    intro e he
    cases e <;> first | rfl | cases he
  cases hp with
  | act ha =>
    refine Adds.actPart hroutine (fun _ _ _ => rfl) (fun hst hw => ?_) ha
    rw [h.readable_eq_nil (.inl hst) hw]
    rfl
  | drains hd => exact Adds.drains hroutine hd
  | callback cb => exact Adds.log rfl
  | close hcore => exact Adds.close hroutine rfl hcore
  | closeReturned => exact Adds.log rfl
  | read _ => exact Adds.of_eq rfl
  | error => exact Adds.log rfl
  | establish _ hcore => exact Adds.establish hroutine hcore

theorem callPart_uncut (h : Tidy tid b c) (hp : CallPart tid c c') : Uncut c'.trace ↔ Uncut c.trace :=
  (callPart_adds h hp).forall_mem

/-- The end of `HandleWrite` cuts bytes off exactly in the phase
`shutPending`. -/
theorem finishWrite_uncut (c : TcpConnection) :
    Uncut c.finishWrite.trace ↔ Uncut c.trace ∧ c.phase ≠ .shutPending := by
  unfold finishWrite
  by_cases hst : c.state = .kDisconnecting
  · rw [if_pos hst]
    show Uncut (.shutdownWrite c.outputBuffer.readable :: c.trace) ↔ _
    rw [uncut_cons]
    cases hread : c.outputBuffer.readable with
    | nil => simp [Event.cuts, phase, hst, hread]
    | cons x xs => simp [Event.cuts, phase, hst, hread]
  · rw [if_neg hst]
    have hne : c.phase ≠ .shutPending := by
      unfold phase
      split
      · split <;> decide
      · exact absurd ‹_› hst
      · decide
      · decide
    exact ⟨fun h => ⟨h, hne⟩, fun h => h.1⟩

/-- The phase of a connection whose buffer has just been drained. -/
def drainedPhase (c : TcpConnection) : Phase :=
  match c.state with
  | .kConnected => .idle
  | .kDisconnecting => .shut
  | .kConnecting | .kDisconnected => .down

/-- The phase after a drain and its callback. -/
theorem drained_phase (h : Tidy tid b c) {res : WriteResult} {script : Script} {c1 c2 : TcpConnection}
    (hd : Drains tid res c c1 true) (hn : notify .self .writeComplete (runScript tid script) c1 = .ok c2) :
    c2.phase = if c.writeCompleteCallback then scan true script (drainedPhase c) else drainedPhase c := by
  have h1 := h.drains hd
  cases hd with
  | @whole n out ch hw hres _ hle _ hread _ =>
    set c1 := ({ c with outputBuffer := out, channel := ch }.log (.wrote c.outputBuffer.readable)).log
      (.updateChannel tid) with hc1
    have hphase : c1.phase = drainedPhase c := by
      have hst : c1.state = c.state := rfl
      have hout : c1.outputBuffer.readable = [] := hread
      unfold phase drainedPhase
      rw [hst, hout]
      rfl
    rw [← hphase]
    rcases notify_ok hn with ⟨hcb, rfl⟩ | ⟨hcb, hk⟩
    · have hcb' : c.writeCompleteCallback = false := hcb
      rw [hcb', if_neg (by decide)]
    · have hcb' : c.writeCompleteCallback = true := hcb
      have hb : b = true := h.notifies.symm.trans hcb'
      subst hb
      have hrun := runActs_phase script (c := c1.logCallback .writeComplete) (h1.log _) hk
      rw [hcb', if_pos rfl, hrun]
      rfl

/-- Bytes are left on a connection that is shutting down exactly when the
callback put them there. -/
theorem drained_shutPending (h : Tidy tid b c) {res : WriteResult} {script : Script}
    {c1 c2 : TcpConnection} (hd : Drains tid res c c1 true)
    (hn : notify .self .writeComplete (runScript tid script) c1 = .ok c2) :
    c2.phase = .shutPending ↔ CutsOff c (.handleWrite res script) := by
  rw [drained_phase h hd hn]
  cases hd with
  | @whole n out ch hw hres _ hle _ _ _ =>
    have hall : takesAll c.outputBuffer.readableBytes res = true := by
      rw [hres]
      simpa [takesAll] using hle
    by_cases hst : c.state = .kConnected
    · have hidle : drainedPhase c = .idle := by
        unfold drainedPhase
        rw [hst]
      rw [hidle]
      cases hcb : c.writeCompleteCallback with
      | false => simp [CutsOff, hcb]
      | true => simp [CutsOff, hcb, hst, hw, hall]
    · have hquiet : drainedPhase c = .shut ∨ drainedPhase c = .down := by
        unfold drainedPhase
        cases hcase : c.state with
        | kConnected => exact absurd hcase hst
        | kDisconnecting => exact .inl rfl
        | kConnecting => exact .inr rfl
        | kDisconnected => exact .inr rfl
      refine iff_of_false (fun hbad => ?_) (fun hcut => hst hcut.1)
      have hscan := scan_shut true script hquiet
      split at hbad
      · rw [hbad] at hscan
        rcases hscan with h' | h' <;> cases h'
      · rw [hbad] at hquiet
        rcases hquiet with h' | h' <;> cases h'

/-- A write that does not drain the buffer did not take all of it. -/
theorem not_takesAll_of_not_drained {res : WriteResult} {c1 : TcpConnection}
    (hd : Drains tid res c c1 false) (hw : c.channel.isWriting = true)
    (hpos : 0 < c.outputBuffer.readableBytes) : takesAll c.outputBuffer.readableBytes res ≠ true := by
  intro hall
  cases res with
  | failed errno => cases hall
  | wrote n =>
    have hle : c.outputBuffer.readableBytes ≤ n := by simpa [takesAll] using hall
    cases hd with
    | idle hidle =>
      have hn := hidle n hw hpos rfl
      omega
    | part _ hres _ hlt _ _ =>
      cases hres
      omega

theorem Tidy.readable_pos (h : Tidy tid b c) (hup : c.Up) (hw : c.channel.isWriting = true) :
    0 < c.outputBuffer.readableBytes :=
  Nat.pos_of_ne_zero (h.wf.readable_eq_nil_iff.not.mp ((h.writing hup).mp hw))

theorem not_cutsOff_of_not_drained (h : Tidy tid b c) {res : WriteResult} (script : Script)
    {c1 : TcpConnection} (hd : Drains tid res c c1 false) : ¬ CutsOff c (.handleWrite res script) := by
  rintro ⟨hst, hw, hall, -, -⟩
  exact not_takesAll_of_not_drained hd hw (h.readable_pos (.inl hst) hw) hall

/-- One call: bytes are cut off exactly by the drains that `CutsOff` names. -/
theorem call_uncut (h : Tidy tid b c) {a : Call} (hen : callEnabled c a) (hst : call tid c a = .ok c') :
    Tidy tid b c' ∧ (Uncut c'.trace ↔ Uncut c.trace ∧ ¬ CutsOff c a) := by
  have hpart : ∀ c0 c1, (Tidy tid b c0 ∧ (Uncut c0.trace ↔ Uncut c.trace)) → CallPart tid c0 c1 →
      Tidy tid b c1 ∧ (Uncut c1.trace ↔ Uncut c.trace) := fun c0 c1 h0 hp =>
    ⟨callPart_tidy h0.1 hp, (callPart_uncut h0.1 hp).trans h0.2⟩
  by_cases hwrite : ∃ res script, a = .handleWrite res script
  · obtain ⟨res, script, rfl⟩ := hwrite
    obtain ⟨c1, ⟨hd, hset⟩ | ⟨hd, c2, hn, hset⟩⟩ := handleWrite_self h.wf hst
    · obtain rfl : c' = c1 := hset
      have hno := not_cutsOff_of_not_drained h script hd
      have hun := callPart_uncut h (.drains hd)
      exact ⟨h.drains hd, hun.trans ⟨fun h' => ⟨h', hno⟩, fun h' => h'.1⟩⟩
    · obtain rfl : c' = c2.finishWrite := hset
      obtain ⟨h2, hun⟩ := notify_keeps (fun c0 c1 h0 hp => hpart c0 c1 h0 hp.callPart)
        (hpart c c1 ⟨h, Iff.rfl⟩ (.drains hd)) hn
      refine ⟨finishWrite_tidy h2, ?_⟩
      rw [finishWrite_uncut, hun, ne_eq, drained_shutPending h hd hn]
  · obtain ⟨h', hun⟩ := call_keeps (fun c0 h0 => h0.1.wf) hpart ⟨h, Iff.rfl⟩ hen
      (fun res script heq => absurd ⟨res, script, heq⟩ hwrite) hst
    have hno : ¬ CutsOff c a := by
      cases a with
      | handleWrite res script => exact absurd ⟨res, script, rfl⟩ hwrite
      | _ => exact id
    exact ⟨h', hun.trans ⟨fun h' => ⟨h', hno⟩, fun h' => h'.1⟩⟩

end uncut

/-- The run lemma: bytes were cut off exactly when some step was such a
drain. -/
theorem run_uncut {tid : ℕ} {b : Bool} {s c : TcpConnection} {tr : List (TcpConnection × Call)}
    (hr : Run (callMachine tid) s tr c) (hs : Tidy tid b s) (h0 : Uncut s.trace) :
    Tidy tid b c ∧ (Uncut c.trace ↔ ∀ p ∈ tr, ¬ CutsOff p.1 p.2) := by
  induction hr with
  | nil => exact ⟨hs, by simpa using h0⟩
  | @snoc tr t u a _ hen hst ih =>
    obtain ⟨ht, hiff⟩ := ih
    obtain ⟨hu, hstep⟩ := call_uncut ht hen hst
    refine ⟨hu, ?_⟩
    rw [hstep, hiff]
    simp only [List.mem_append, List.mem_singleton, or_imp, forall_and, forall_eq]

/-- **Which drains cut off accepted bytes.** In every run of calls on a
connection, with any results of `::write` and any callbacks: no
`ShutdownWrite` found readable bytes in `output_buffer_` if and only if no
`HandleWrite` of the run emptied the buffer of a `kConnected` connection and
then ran a write-complete callback that left new bytes queued and called
`ShutDown`. -/
theorem uncut_iff (tid : ℕ) (name : String) (sockfd : ℕ) (cbs : Callbacks)
    {tr : List (TcpConnection × Call)} {c : TcpConnection}
    (hr : Run (callMachine tid) (newConnection tid name sockfd cbs) tr c) :
    (∀ queued, Event.shutdownWrite queued ∈ c.trace → queued = []) ↔ ∀ p ∈ tr, ¬ CutsOff p.1 p.2 := by
  rw [← (run_uncut hr (newConnection_tidy tid name sockfd cbs) (by simp [Uncut, newConnection, create])).2]
  constructor
  · intro h e he
    cases e with
    | shutdownWrite queued =>
      rw [h queued he]
      rfl
    | _ => rfl
  · intro h queued hq
    cases queued with
    | nil => rfl
    | cons x xs => exact absurd (h _ hq) (by simp [Event.cuts])

/-- A connection with a queued byte is shut down, and its drain half-closes. -/
theorem uncut_iff_one_byte :
    let calls : List Call := [.connectEstablished [], .send [1] (.failed .ewouldblock) [], .shutDown,
      .handleWrite (.wrote 1) [.send () [2] (.wrote 1) []]]
    let c := final (callMachine 1) (newConnection 1 "s#0" 5 ⟨true, true, true, true⟩) calls
    ∀ queued, Event.shutdownWrite queued ∈ c.trace → queued = [] :=
  (uncut_iff 1 "s#0" 5 ⟨true, true, true, true⟩ (run_of_accepts _ _ (by decide +kernel))).mpr
    (by decide +kernel)

/-- A drain's callback sends two bytes that are not written and shuts down:
`HandleWrite` half-closes with both queued. -/
theorem drain_cuts_two_bytes :
    ¬ ∀ (tid : ℕ) (name : String) (sockfd : ℕ) (cbs : Callbacks) (tr : List (TcpConnection × Call))
      (c : TcpConnection), Run (callMachine tid) (newConnection tid name sockfd cbs) tr c →
      ∀ queued, Event.shutdownWrite queued ∈ c.trace → queued = [] := by
  intro h
  have hr := run_of_accepts (M := callMachine 1) [.connectEstablished [], .send [1] (.failed .ewouldblock) [],
    .handleWrite (.wrote 1) [.send () [2, 3] (.failed .ewouldblock) [], .shutDown ()]]
    (newConnection 1 "s#0" 5 ⟨true, true, true, true⟩) (by decide +kernel)
  exact absurd (h _ _ _ _ _ _ hr [2, 3] (by decide +kernel)) (by decide)

end MiniMuduo
