/-
# A connection is reported down once

`HandleEventWithGuard` runs up to four handlers from one ready mask, and two
of them can end in `HandleClose`. A session is one connection with its loop:
`Poll` reports a mask within the registered interest, `HandleEvent` comes
later in the same round, and the loop's other work (`ConnectEstablished`,
`send`, `ShutDown`, `ConnectDestroyed` by the server's destructor) may come
between the two.

A dispatch repeats the end of a connection in three ways (`Repeats`):
EPOLLHUP without EPOLLIN closes it and EPOLLPRI or EPOLLRDHUP then reads from
it; the server destroyed it after `Poll` reported it; or its write-complete
callback destroyed it before the read. In the runs without such a dispatch,
and only in them, `HandleClose` runs at most once, with the connection up,
and no callback comes after it (`closes_once_iff`).

Key definitions: `Session`, `sessionMachine`, `Repeats`.
Key theorems: `handleEvent_cases`, `handleEvent_orderly`, `closes_once_iff`.
-/
import MiniMuduo.CloseOnce

namespace MiniMuduo

open Fallible Runs TcpConnection

/-- The reaction of a connection on its own: the close callback does nothing
to it. -/
def Decisions.alone (tid : ℕ) (re : Decisions Unit) : Reaction TcpConnection :=
  re.reaction tid (fun _ => Lens.self) .ok

/-- A connection and whether its channel is in `activeChannels_`, reported
by `Poll` and not handled yet. -/
structure Session where
  conn : TcpConnection
  active : Bool

/-- What the loop's thread does next: `Poll` reports the channel, the
reported channel is handled, or something else calls the connection. -/
inductive SessionStep
  | poll (revents : Events)
  | handleEvent (re : Handler → Decisions Unit)
  | call (a : Call)

/-- The calls that do not come from the channel. -/
def Call.outside : Call → Bool
  | .connectEstablished _ | .send .. | .shutDown | .connectDestroyed _ => true
  | .handleRead .. | .handleWrite .. | .handleClose _ => false

/-- Epoll reports masks within the registered interest; a reported channel
is handled once; handlers are called by the channel only. -/
def sessionEnabled (s : Session) : SessionStep → Prop
  | .poll revents => s.active = false ∧ ∃ interest ∈ s.conn.channel.registered, revents.Within interest
  | .handleEvent _ => s.active = true
  | .call a => a.outside = true ∧ callEnabled s.conn a

instance (s : Session) : ∀ a, Decidable (sessionEnabled s a)
  | .poll revents =>
    match h : s.conn.channel.registered with
    | none => isFalse (by simp [sessionEnabled, h])
    | some interest => decidable_of_iff (s.active = false ∧ revents.Within interest)
        (by simp [sessionEnabled, h])
  | .handleEvent _ => inferInstanceAs (Decidable (_ = _))
  | .call _ => inferInstanceAs (Decidable (_ ∧ _))

/-- One step. -/
def sessionStep (tid : ℕ) (s : Session) : SessionStep → Except Fault Session
  | .poll revents => .ok ⟨{ s.conn with channel := { s.conn.channel with revents } }, true⟩
  | .handleEvent re => do
    let reactions := fun h => (re h).alone tid
    let conn ← handleEventWithGuard tid .self reactions s.conn.channel.revents s.conn
    return ⟨conn, false⟩
  | .call a => do
    let conn ← call tid s.conn a
    return { s with conn }

/-- The runs of a session on the thread `tid`. -/
def sessionMachine (tid : ℕ) : Machine Session SessionStep Fault := ⟨sessionEnabled, sessionStep tid⟩

instance (tid : ℕ) (s : Session) (a : SessionStep) : Decidable ((sessionMachine tid).enabled s a) :=
  inferInstanceAs (Decidable (sessionEnabled s a))

/-! ### One dispatch -/

/-- A handler ran, or was not called. -/
def Stage {σ : Type} (called : Bool) (x : Except Fault σ) (s s' : σ) : Prop :=
  (called = true ∧ x = .ok s') ∨ (called = false ∧ s' = s)

/-- The mask calls the close handler. -/
def Events.closes (revents : Events) : Bool := revents.epollHup && !revents.epollIn

/-- The mask calls the read handler. -/
def Events.reads (revents : Events) : Bool := revents.epollIn || revents.epollPri || revents.epollRdhup

theorem handleEvent_cases {σ : Type} {tid : ℕ} {conn : Lens σ TcpConnection} {re : Handler → Reaction σ}
    {revents : Events} {s s' : σ} (h : handleEventWithGuard tid conn re revents s = .ok s') :
    ∃ s1 s2 s3, Stage revents.closes (handle tid conn (re .close) .close s) s s1 ∧
      Stage revents.epollErr (handle tid conn (re .error) .error s1) s1 s2 ∧
      Stage revents.epollOut (handle tid conn (re .write) .write s2) s2 s3 ∧
      Stage revents.reads (handle tid conn (re .read) .read s3) s3 s' := by
  have hstage : ∀ (called : Bool) (h : Handler) (s s' : σ),
      (if called then [h] else []).foldlM (fun s h => handle tid conn (re h) h s) s = .ok s' →
      Stage called (handle tid conn (re h) h s) s s' := by
    intro called h s s' hf
    cases called with
    | false => exact .inr ⟨rfl, (Except.ok.inj hf).symm⟩
    | true =>
      refine .inl ⟨rfl, ?_⟩
      simpa using hf
  unfold handleEventWithGuard handlers at h
  rw [List.foldlM_append, List.foldlM_append, List.foldlM_append] at h
  obtain ⟨s3, h, h4⟩ := bind_eq_ok h
  obtain ⟨s2, h, h3⟩ := bind_eq_ok h
  obtain ⟨s1, h1, h2⟩ := bind_eq_ok h
  exact ⟨s1, s2, s3, hstage _ _ _ _ h1, hstage _ _ _ _ h2, hstage _ _ _ _ h3, hstage _ _ _ _ h4⟩

/-- The write-complete callback of this dispatch destroys the connection. -/
def DestroyedInWrite (c : TcpConnection) (revents : Events) (re : Handler → Decisions Unit) : Prop :=
  revents.epollOut = true ∧ c.channel.isWriting = true ∧
    takesAll c.outputBuffer.readableBytes (re .write).write = true ∧ c.writeCompleteCallback = true ∧
    scan true (re .write).writeComplete (drainedPhase c) = .down

/-- The dispatch closes a connection that is not up, or goes on with one that
it has closed. -/
def DispatchRepeats (c : TcpConnection) (revents : Events) (re : Handler → Decisions Unit) : Prop :=
  (revents.closes = true ∧ ¬ c.Up) ∨
    (revents.reads = true ∧ revents.closes = true ∧ 0 ≤ (re .read).read.count) ∨
    (revents.reads = true ∧ (re .read).read.count = 0 ∧ (¬ c.Up ∨ DestroyedInWrite c revents re))

/-- The step repeats the end of the connection. -/
def Repeats (s : Session) : SessionStep → Prop
  | .handleEvent re => DispatchRepeats s.conn s.conn.channel.revents re
  | .poll _ | .call _ => False

instance (c : TcpConnection) (revents : Events) (re : Handler → Decisions Unit) :
    Decidable (DestroyedInWrite c revents re) := inferInstanceAs (Decidable (_ ∧ _))

instance (c : TcpConnection) (revents : Events) (re : Handler → Decisions Unit) :
    Decidable (DispatchRepeats c revents re) := inferInstanceAs (Decidable (_ ∨ _))

instance (s : Session) : ∀ a, Decidable (Repeats s a)
  | .handleEvent _ => inferInstanceAs (Decidable (DispatchRepeats _ _ _))
  | .poll _ | .call _ => inferInstanceAs (Decidable False)

section dispatch

variable {tid : ℕ} {b : Bool} {c c' : TcpConnection}

theorem handle_keeps {I : TcpConnection → Prop} (hwf : ∀ c, I c → c.outputBuffer.WF)
    (hpart : ∀ c c', I c → CallPart tid c c' → I c') (hlog : ∀ c e, I c → I (c.log e)) (h : I c)
    {re : Decisions Unit} {hd : Handler} (hh : handle tid .self (re.alone tid) hd c = .ok c') : I c' := by
  have hcall : ∀ a, callEnabled (c.log (.handler hd)) a → call tid (c.log (.handler hd)) a = .ok c' →
      I c' := by
    intro a hen hst
    refine call_keeps hwf hpart (hlog c _ h) hen (fun _ _ _ _ c2 _ _ h2 => ?_) hst
    unfold finishWrite
    split
    · exact hlog c2 _ h2
    · exact h2
  cases hd with
  | close => exact hcall (.handleClose re.connection) trivial hh
  | error =>
    cases hh
    exact hlog _ _ (hlog c _ h)
  | write => exact hcall (.handleWrite re.write re.writeComplete) trivial hh
  | read => exact hcall (.handleRead re.read re.message re.connection) trivial hh

theorem stage_tidy (h : Tidy tid b c) {called : Bool} {re : Decisions Unit} {hd : Handler}
    (hs : Stage called (handle tid .self (re.alone tid) hd c) c c') : Tidy tid b c' := by
  rcases hs with ⟨-, hh⟩ | ⟨-, rfl⟩
  · exact handle_keeps (fun _ h0 => h0.wf) (fun _ _ => callPart_tidy) (fun _ e h0 => h0.log e) h hh
  · exact h

theorem stage_disorder (ht : Tidy tid b c) (h : ¬ Orderly c.trace) {called : Bool} {re : Decisions Unit}
    {hd : Handler} (hs : Stage called (handle tid .self (re.alone tid) hd c) c c') :
    ¬ Orderly c'.trace := by
  rcases hs with ⟨-, hh⟩ | ⟨-, rfl⟩
  · refine (handle_keeps (I := fun c => Tidy tid b c ∧ ¬ Orderly c.trace) (fun _ h0 => h0.1.wf) ?_ ?_
      ⟨ht, h⟩ hh).2
    · exact fun c0 c1 h0 hp => ⟨callPart_tidy h0.1 hp, callPart_disorder h0.2 hp⟩
    · exact fun c0 e h0 => ⟨h0.1.log e, fun ho => h0.2 (orderly_tail ho)⟩
  · exact h

theorem error_stage {called : Bool} {re : Decisions Unit}
    (hs : Stage called (handle tid .self (re.alone tid) .error c) c c') :
    c' = c ∨ c' = (c.log (.handler .error)).log .handleError := by
  rcases hs with ⟨-, hh⟩ | ⟨-, rfl⟩
  · exact .inr (Except.ok.inj hh).symm
  · exact .inl rfl

/-- The write handler before `HandleClose` has begun. -/
theorem write_stage (h : Settled tid b c) (hopen : ¬ Closed c.trace) {called : Bool} {re : Decisions Unit}
    (hs : Stage called (handle tid .self (re.alone tid) .write c) c c') :
    Settled tid b c' ∧ SameEnds c c' ∧
      (c.Up → (¬ c'.Up ↔ called = true ∧ c.channel.isWriting = true ∧
        takesAll c.outputBuffer.readableBytes re.write = true ∧ c.writeCompleteCallback = true ∧
        scan true re.writeComplete (drainedPhase c) = .down)) := by
  rcases hs with ⟨hcalled, hh⟩ | ⟨hcalled, rfl⟩
  · have hlog := h.log (e := .handler .write) rfl
    have hsame := SameEnds.log c (e := .handler .write) rfl
    have hopen' : ¬ Closed (c.log (.handler .write)).trace := fun h' => hopen (hsame.closed.mp h')
    obtain ⟨h', hsame'⟩ := handleWrite_settled hlog hopen' hh
    refine ⟨h', hsame.trans hsame', fun hup => ?_⟩
    rw [handleWrite_up_iff hlog.tidy hup hh]
    exact ⟨fun hx => ⟨hcalled, hx⟩, fun hx => hx.2⟩
  · refine ⟨h, ⟨Iff.rfl, Iff.rfl, id⟩, fun hup => iff_of_false (fun h' => h' hup) ?_⟩
    rintro ⟨hcalled', -⟩
    rw [hcalled] at hcalled'
    cases hcalled'

theorem write_stage_down (h : Settled tid b c) (hdown : ¬ c.Up) {called : Bool} {re : Decisions Unit}
    (hs : Stage called (handle tid .self (re.alone tid) .write c) c c') :
    Settled tid b c' ∧ SameEnds c c' := by
  rcases hs with ⟨-, hh⟩ | ⟨-, rfl⟩
  · have hlog := h.log (e := .handler .write) rfl
    obtain rfl : c' = c.log (.handler .write) := handleWrite_down hlog.tidy hdown hh
    exact ⟨hlog, SameEnds.log c rfl⟩
  · exact ⟨h, Iff.rfl, Iff.rfl, id⟩

/-- The read handler is in order when it neither closes a connection that is
not up nor runs a callback after `HandleClose` returned. -/
theorem read_handler (h : Settled tid b c) {re : Decisions Unit}
    (hh : handle tid .self (re.alone tid) .read c = .ok c') :
    ((re.read.count = 0 → c.Up) → (0 < re.read.count → .handleCloseReturned ∉ c.trace) →
        Settled tid b c') ∧
      ((re.read.count = 0 ∧ ¬ c.Up) ∨ (0 < re.read.count ∧ .handleCloseReturned ∈ c.trace) →
        ¬ Orderly c'.trace) := by
  obtain ⟨n, e, buf, hr, hcase⟩ := handleRead_cases hh
  have hn : n = re.read.count := Buffer.readFd_count hr
  rw [← hn]
  have hsame : SameEnds c (c.log (.handler .read)) := SameEnds.log c rfl
  have hlog := h.log (e := .handler .read) rfl
  -- the read changes the input buffer only
  set c1 : TcpConnection := { c.log (.handler .read) with inputBuffer := buf } with hc1
  have hs1 : Settled tid b c1 :=
    ⟨callPart_tidy hlog.tidy (.read hr), hlog.wired.congr rfl rfl, hlog.orderly, hlog.returned, hlog.down⟩
  rcases hcase with ⟨hpos, hk⟩ | ⟨rfl, hclose⟩ | ⟨hneg, hset⟩
  · refine ⟨fun _ hret => ?_, fun hbad => ?_⟩
    · have hret1 : .handleCloseReturned ∉ c1.trace := fun h' => hret hpos (hsame.returned.mp h')
      exact ((hs1.callback hret1 .message).runScript hk).1
    · rcases hbad with ⟨h0, -⟩ | ⟨-, hret⟩
      · omega
      · have hdis : ¬ Orderly (c1.logCallback .message).trace := fun ho => ho.1 (hsame.returned.mpr hret)
        exact runScript_keeps (fun _ _ h hp => callPart_disorder h hp.callPart) hdis hk
  · refine ⟨fun hup _ => ?_, fun hbad => ?_⟩
    · have hup1 : c1.Up := hup rfl
      exact (handleClose_settled hs1 hup1 hclose).1
    · rcases hbad with ⟨-, hdown⟩ | ⟨hpos, -⟩
      · have hdown1 : ¬ c1.Up := hdown
        exact handleClose_disorder hdown1 hclose
      · omega
  · refine ⟨fun _ _ => ?_, fun hbad => ?_⟩
    · obtain rfl : c' = c1.log .handleError := hset
      exact hs1.log rfl
    · rcases hbad with ⟨h0, -⟩ | ⟨hpos, -⟩
      · omega
      · omega

theorem error_stage_settled (h : Settled tid b c) {called : Bool} {re : Decisions Unit}
    (hs : Stage called (handle tid .self (re.alone tid) .error c) c c') :
    Settled tid b c' ∧ SameEnds c c' := by
  rcases error_stage hs with rfl | rfl
  · exact ⟨h, Iff.rfl, Iff.rfl, id⟩
  · exact ⟨(h.log rfl).log rfl, (SameEnds.log c rfl).trans (SameEnds.log _ rfl)⟩

/-- The rest of a dispatch whose close handler ran: only a read that fails is
in order. -/
theorem closed_dispatch {c1 c2 : TcpConnection} (h : Settled tid b c) (hdown : ¬ c.Up)
    (hret : .handleCloseReturned ∈ c.trace) {re : Handler → Decisions Unit} {revents : Events}
    (herror : Stage revents.epollErr (handle tid .self ((re .error).alone tid) .error c) c c1)
    (hwrite : Stage revents.epollOut (handle tid .self ((re .write).alone tid) .write c1) c1 c2)
    (hread : Stage revents.reads (handle tid .self ((re .read).alone tid) .read c2) c2 c') :
    (¬ (revents.reads = true ∧ 0 ≤ (re .read).read.count) → Settled tid b c') ∧
      (revents.reads = true ∧ 0 ≤ (re .read).read.count → ¬ Orderly c'.trace) := by
  obtain ⟨hs1, hsame1⟩ := error_stage_settled h herror
  obtain ⟨hs2, hsame2⟩ := write_stage_down hs1 (hsame1.down hdown) hwrite
  have hdown2 : ¬ c2.Up := hsame2.down (hsame1.down hdown)
  have hret2 : .handleCloseReturned ∈ c2.trace := hsame2.returned.mpr (hsame1.returned.mpr hret)
  rcases hread with ⟨hrd, hread⟩ | ⟨hrd, rfl⟩
  · obtain ⟨hgood, hbad⟩ := read_handler hs2 hread
    refine ⟨fun hno => ?_, fun hrep => ?_⟩
    · have hneg : ¬ 0 ≤ (re .read).read.count := fun h' => hno ⟨hrd, h'⟩
      exact hgood (fun h0 => by omega) (fun hpos => by omega)
    · apply hbad
      rcases Int.lt_or_eq_of_le hrep.2 with hpos | h0
      · exact .inr ⟨hpos, hret2⟩
      · exact .inl ⟨h0.symm, hdown2⟩
  · refine ⟨fun _ => hs2, fun hrep => ?_⟩
    rw [hrd] at hrep
    cases hrep.1

/-- A dispatch without the close handler: only a read of end of file from a
connection that is not up any more is out of order. -/
theorem open_dispatch {c1 c2 : TcpConnection} (h : Settled tid b c) (hopen : ¬ Closed c.trace)
    {re : Handler → Decisions Unit} {revents : Events}
    (herror : Stage revents.epollErr (handle tid .self ((re .error).alone tid) .error c) c c1)
    (hwrite : Stage revents.epollOut (handle tid .self ((re .write).alone tid) .write c1) c1 c2)
    (hread : Stage revents.reads (handle tid .self ((re .read).alone tid) .read c2) c2 c') :
    let repeats := revents.reads = true ∧ (re .read).read.count = 0 ∧
      (¬ c.Up ∨ DestroyedInWrite c revents re)
    (¬ repeats → Settled tid b c') ∧ (repeats → ¬ Orderly c'.trace) := by
  intro repeats
  obtain ⟨hs1, hsame1⟩ := error_stage_settled h herror
  have hopen1 : ¬ Closed c1.trace := fun h' => hopen (hsame1.closed.mp h')
  obtain ⟨hs2, hsame2, hup2⟩ := write_stage hs1 hopen1 hwrite
  have hret2 : .handleCloseReturned ∉ c2.trace := hs2.not_returned fun h' => hopen1 (hsame2.closed.mp h')
  have hdown2 : ¬ c2.Up ↔ ¬ c.Up ∨ DestroyedInWrite c revents re := by
    by_cases hup : c.Up
    · have hdes : ¬ c2.Up ↔ DestroyedInWrite c revents re := by
        rcases error_stage herror with rfl | rfl
        · exact hup2 hup
        · exact hup2 hup
      rw [hdes]
      exact ⟨.inr, fun h' => h'.resolve_left fun h'' => h'' hup⟩
    · exact ⟨fun _ => .inl hup, fun _ => hsame2.down (hsame1.down hup)⟩
  rcases hread with ⟨hrd, hread⟩ | ⟨hrd, rfl⟩
  · obtain ⟨hgood, hbad⟩ := read_handler hs2 hread
    refine ⟨fun hno => hgood (fun h0 => ?_) (fun _ => hret2), fun hrep => hbad (.inl ⟨hrep.2.1, ?_⟩)⟩
    · by_contra hdown
      exact hno ⟨hrd, h0, hdown2.mp hdown⟩
    · exact hdown2.mpr hrep.2.2
  · refine ⟨fun _ => hs2, fun hrep => ?_⟩
    have hrd' := hrep.1
    rw [hrd] at hrd'
    cases hrd'

/-- One dispatch of a connection not closed yet keeps the trace orderly
exactly when it does not repeat the connection's end. -/
theorem handleEvent_orderly (h : Settled tid b c) (hopen : ¬ Closed c.trace) {re : Handler → Decisions Unit}
    {revents : Events}
    (hh : handleEventWithGuard tid .self (fun h => (re h).alone tid) revents c = .ok c') :
    Tidy tid b c' ∧ (¬ DispatchRepeats c revents re → Settled tid b c') ∧
      (DispatchRepeats c revents re → ¬ Orderly c'.trace) := by
  obtain ⟨c1, c2, c3, hclose, herror, hwrite, hread⟩ := handleEvent_cases hh
  have ht1 := stage_tidy h.tidy hclose
  have ht2 := stage_tidy ht1 herror
  have ht3 := stage_tidy ht2 hwrite
  refine ⟨stage_tidy ht3 hread, ?_⟩
  rcases hclose with ⟨hcl, hclose⟩ | ⟨hcl, rfl⟩
  · by_cases hup : c.Up
    · obtain ⟨hs1, hdown1, hret1⟩ := handleClose_settled (h.log (e := .handler .close) rfl) hup hclose
      obtain ⟨hgood, hbad⟩ := closed_dispatch hs1 hdown1 hret1 herror hwrite hread
      refine ⟨fun hno => hgood fun h' => hno (.inr (.inl ⟨h'.1, hcl, h'.2⟩)), fun hrep => hbad ?_⟩
      rcases hrep with ⟨-, h'⟩ | ⟨hrd, -, hge⟩ | ⟨hrd, h0, -⟩
      · exact absurd hup h'
      · exact ⟨hrd, hge⟩
      · exact ⟨hrd, by omega⟩
    · -- the connection was destroyed after `Poll` reported it
      have hdis : ¬ Orderly c1.trace := handleClose_disorder (c := c.log (.handler .close)) hup hclose
      have hdis2 := stage_disorder ht1 hdis herror
      have hdis3 := stage_disorder ht2 hdis2 hwrite
      exact ⟨fun hno => absurd (.inl ⟨hcl, hup⟩) hno, fun _ => stage_disorder ht3 hdis3 hread⟩
  · obtain ⟨hgood, hbad⟩ := open_dispatch h hopen herror hwrite hread
    refine ⟨fun hno => hgood fun h' => hno (.inr (.inr h')), fun hrep => hbad ?_⟩
    rcases hrep with ⟨h', -⟩ | ⟨-, h', -⟩ | h'
    · rw [hcl] at h'
      cases h'
    · rw [hcl] at h'
      cases h'
    · exact h'

end dispatch

/-! ### Runs of a session -/

section run

variable {tid : ℕ} {b : Bool} {s s' : Session}

/-- A session in order: a reported channel has not been closed. -/
def Session.InOrder (tid : ℕ) (b : Bool) (s : Session) : Prop :=
  Settled tid b s.conn ∧ (s.active = true → ¬ Closed s.conn.trace)

theorem call_outside (tid : ℕ) (c : TcpConnection) {a : Call} (hout : a.outside = true) :
    (∃ connection, a = .connectEstablished connection) ∨
      ∃ script, call tid c a = runScript tid script c := by
  cases a with
  | connectEstablished connection => exact .inl ⟨connection, rfl⟩
  | send message res writeComplete =>
    refine .inr ⟨[.send () message res writeComplete], ?_⟩
    unfold runScript runActs runAct runActs
    simp only [call, bind_ok]
    rfl
  | shutDown =>
    refine .inr ⟨[.shutDown ()], ?_⟩
    unfold runScript runActs runAct runActs
    rfl
  | connectDestroyed connection =>
    refine .inr ⟨[.destroy () connection], ?_⟩
    unfold runScript runActs runAct runActs
    simp only [call, bind_ok]
    rfl
  | handleRead => cases hout
  | handleWrite => cases hout
  | handleClose => cases hout

theorem call_settled {c c' : TcpConnection} (h : Settled tid b c) {a : Call} (hout : a.outside = true)
    (hen : callEnabled c a) (hst : call tid c a = .ok c') :
    Settled tid b c' ∧ (Closed c'.trace ↔ Closed c.trace) := by
  rcases call_outside tid c hout with ⟨connection, rfl⟩ | ⟨script, hscript⟩
  · have hnew : c.state = .kConnecting := hen
    obtain ⟨c1, hcore, hn⟩ := connectEstablished_cases hst
    have hopen : ¬ Closed c.trace := fun hcl => by
      have hdown := h.down hcl
      rw [hnew] at hdown
      cases hdown
    have hret := h.not_returned hopen
    have hroutine : ∀ e : Event, e.routine = true → e.ends = false := by
      intro e he
      cases e <;> first | rfl | cases he
    have hadds : Adds (fun e => e.ends = false) c c1 := Adds.establish hroutine hcore
    obtain ⟨hcl, hret1⟩ := hadds.same_ends
    have h1 : Settled tid b c1 :=
      ⟨callPart_tidy h.tidy (.establish hnew hcore), Wired.establish h.tidy hcore,
        hadds.orderly_of_open hret h.orderly, fun h' => absurd (hret1.mp h') hret,
        fun h' => absurd (hcl.mp h') hopen⟩
    obtain ⟨h', hsame⟩ := h1.notify (fun h' => hret (hret1.mp h')) hn
    exact ⟨h', hsame.closed.trans hcl⟩
  · rw [hscript] at hst
    obtain ⟨h', hsame⟩ := h.runScript hst
    exact ⟨h', hsame.closed⟩

theorem poll_settled {c : TcpConnection} (h : Settled tid b c) (revents : Events) :
    Settled tid b { c with channel := { c.channel with revents } } := by
  obtain ⟨ht, hw, ho, hret, hdown⟩ := h
  exact ⟨⟨ht.loop, ht.notifies, ht.wf, ht.synced, ht.writing, ht.stopped, ht.fresh⟩,
    ⟨hw.listening, hw.gone⟩, ho, hret, hdown⟩

/-- One step of a session in order: it stays in order, or the step repeats
the connection's end. -/
theorem sessionStep_inOrder (h : s.InOrder tid b) {a : SessionStep} (hen : sessionEnabled s a)
    (hst : sessionStep tid s a = .ok s') :
    Tidy tid b s'.conn ∧ (¬ Repeats s a → s'.InOrder tid b) ∧
      (Repeats s a → ¬ Orderly s'.conn.trace) := by
  obtain ⟨hs, hact⟩ := h
  cases a with
  | poll revents =>
    cases hst
    have hs' := poll_settled hs revents
    obtain ⟨-, interest, hreg, -⟩ := hen
    have hup : s.conn.Up := hs.wired.up_of_registered hreg
    exact ⟨hs'.tidy, fun _ => ⟨hs', fun _ => hs.not_closed hup⟩, fun hrep => absurd hrep id⟩
  | handleEvent re =>
    obtain ⟨conn, hh, hst⟩ := bind_eq_ok hst
    cases hst
    obtain ⟨ht, hgood, hbad⟩ := handleEvent_orderly hs (hact hen) hh
    exact ⟨ht, fun hno => ⟨hgood hno, fun h' => by cases h'⟩, hbad⟩
  | call a =>
    obtain ⟨conn, hcall, hst⟩ := bind_eq_ok hst
    cases hst
    obtain ⟨hs', hcl⟩ := call_settled hs hen.1 hen.2 hcall
    exact ⟨hs'.tidy, fun _ => ⟨hs', fun h' hclosed => hact h' (hcl.mp hclosed)⟩, fun hrep => absurd hrep id⟩

theorem sessionStep_disorder (ht : Tidy tid b s.conn) (h : ¬ Orderly s.conn.trace) {a : SessionStep}
    (hen : sessionEnabled s a) (hst : sessionStep tid s a = .ok s') :
    Tidy tid b s'.conn ∧ ¬ Orderly s'.conn.trace := by
  cases a with
  | poll revents =>
    cases hst
    exact ⟨⟨ht.loop, ht.notifies, ht.wf, ht.synced, ht.writing, ht.stopped, ht.fresh⟩, h⟩
  | handleEvent re =>
    obtain ⟨conn, hh, hst⟩ := bind_eq_ok hst
    cases hst
    obtain ⟨c1, c2, c3, hclose, herror, hwrite, hread⟩ := handleEvent_cases hh
    have ht1 := stage_tidy ht hclose
    have ht2 := stage_tidy ht1 herror
    have ht3 := stage_tidy ht2 hwrite
    have h1 := stage_disorder ht h hclose
    have h2 := stage_disorder ht1 h1 herror
    have h3 := stage_disorder ht2 h2 hwrite
    exact ⟨stage_tidy ht3 hread, stage_disorder ht3 h3 hread⟩
  | call a =>
    obtain ⟨conn, hcall, hst⟩ := bind_eq_ok hst
    cases hst
    refine call_keeps (I := fun c => Tidy tid b c ∧ ¬ Orderly c.trace) (fun _ h0 => h0.1.wf) ?_ ⟨ht, h⟩
      hen.2 ?_ hcall
    · exact fun c0 c1 h0 hp => ⟨callPart_tidy h0.1 hp, callPart_disorder h0.2 hp⟩
    · rintro res script rfl
      cases hen.1

/-- The run lemma: a session is in order while no step repeats the
connection's end, and out of order after one that does. -/
theorem run_inOrder {tr : List (Session × SessionStep)} {t : Session} (hr : Run (sessionMachine tid) s tr t)
    (hs : s.InOrder tid b) :
    Tidy tid b t.conn ∧ (((∀ p ∈ tr, ¬ Repeats p.1 p.2) ∧ t.InOrder tid b) ∨
      ((∃ p ∈ tr, Repeats p.1 p.2) ∧ ¬ Orderly t.conn.trace)) := by
  induction hr with
  | nil => exact ⟨hs.1.tidy, .inl ⟨by simp, hs⟩⟩
  | @snoc tr t u a _ hen hst ih =>
    obtain ⟨ht, ⟨hno, hin⟩ | ⟨⟨p, hp, hrep⟩, hdis⟩⟩ := ih
    · obtain ⟨hu, hgood, hbad⟩ := sessionStep_inOrder hin hen hst
      refine ⟨hu, ?_⟩
      by_cases hrep : Repeats t a
      · exact .inr ⟨⟨(t, a), by simp, hrep⟩, hbad hrep⟩
      · refine .inl ⟨fun p hp => ?_, hgood hrep⟩
        rcases List.mem_append.mp hp with hp | hp
        · exact hno p hp
        · obtain rfl : p = (t, a) := by simpa using hp
          exact hrep
    · obtain ⟨hu, hdis'⟩ := sessionStep_disorder ht hdis hen hst
      exact ⟨hu, .inr ⟨⟨p, List.mem_append_left _ hp, hrep⟩, hdis'⟩⟩

end run

/-- A connection before its loop has heard of it. -/
def newSession (tid : ℕ) (name : String) (sockfd : ℕ) (cbs : Callbacks) : Session :=
  ⟨newConnection tid name sockfd cbs, false⟩

/-- **When a connection is reported down once, and silent afterwards.** In
every run of a session, with any masks within the registered interest and
any results of `readv` and `::write`: `HandleClose` was executed at most
once, with `state_` as its assertion wants it, and no callback was invoked
after it returned, if and only if no dispatch of the run repeats the
connection's end: none calls `HandleRead` after the close handler with a
`readv` that does not fail, none closes a connection that
`ConnectDestroyed` took down after `Poll` or inside the dispatch. -/
theorem closes_once_iff (tid : ℕ) (name : String) (sockfd : ℕ) (cbs : Callbacks)
    {tr : List (Session × SessionStep)} {s : Session}
    (hr : Run (sessionMachine tid) (newSession tid name sockfd cbs) tr s) :
    ((∀ st, .handleClose st ∈ s.conn.trace → st = .kConnected ∨ st = .kDisconnecting) ∧
      s.conn.trace.countP Event.isClose ≤ 1 ∧
      ∀ later cb st queued earlier, s.conn.trace = later ++ .callback cb st queued :: earlier →
        .handleCloseReturned ∉ earlier) ↔
    ∀ p ∈ tr, ¬ Repeats p.1 p.2 := by
  rw [← orderly_spec]
  have hstart : (newSession tid name sockfd cbs).InOrder tid cbs.writeComplete := by
    refine ⟨⟨newConnection_tidy tid name sockfd cbs, newConnection_wired tid name sockfd cbs, trivial, ?_, ?_⟩,
      ?_⟩
    · intro h
      cases h
    · rintro ⟨e, he, -⟩
      cases he
    · intro h
      cases h
  obtain ⟨-, ⟨hno, hin⟩ | ⟨⟨p, hp, hrep⟩, hdis⟩⟩ := run_inOrder hr hstart
  · exact iff_of_true hin.1.orderly hno
  · exact iff_of_false hdis fun hno => hno p hp hrep

/-- The peer sends a request and closes; the reply of the message callback
is still queued when the end of file is read. -/
theorem closes_once_iff_request :
    let steps : List SessionStep := [.call (.connectEstablished []),
      .poll { epollIn := true }, .handleEvent fun _ =>
        { read := .read [1], message := [.send () [2] (.failed .ewouldblock) []] },
      .poll { epollIn := true, epollHup := true }, .handleEvent fun _ => { read := .read [] },
      .call (.connectDestroyed [])]
    let s := final (sessionMachine 1) (newSession 1 "s#0" 5 ⟨true, true, true, true⟩) steps
    s.conn.trace.countP Event.isClose ≤ 1 :=
  (((closes_once_iff 1 "s#0" 5 ⟨true, true, true, true⟩ (run_of_accepts _ _ (by decide +kernel))).mpr
    (by decide +kernel)).2).1

/-- EPOLLHUP and EPOLLPRI without EPOLLIN: the close handler runs, then the
read handler reads end of file and closes again. -/
theorem hup_pri_closes_twice :
    ¬ ∀ (tid : ℕ) (name : String) (sockfd : ℕ) (cbs : Callbacks) (tr : List (Session × SessionStep))
      (s : Session), Run (sessionMachine tid) (newSession tid name sockfd cbs) tr s →
      (∀ st, .handleClose st ∈ s.conn.trace → st = .kConnected ∨ st = .kDisconnecting) ∧
      s.conn.trace.countP Event.isClose ≤ 1 ∧
      ∀ later cb st queued earlier, s.conn.trace = later ++ .callback cb st queued :: earlier →
        .handleCloseReturned ∉ earlier := by
  intro h
  have hr := run_of_accepts (M := sessionMachine 1) [.call (.connectEstablished []),
    .poll { epollHup := true, epollPri := true }, .handleEvent fun _ => { read := .read [] }]
    (newSession 1 "s#0" 5 ⟨true, true, true, true⟩) (by decide +kernel)
  exact absurd (h _ _ _ _ _ _ hr).2.1 (by decide +kernel)

end MiniMuduo
