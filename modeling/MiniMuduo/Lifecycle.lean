/-
# The life of a connection

What a connection goes through from its `accept` on, stage by stage: made
(`fresh`), `up`, `HandleClose` running (`closing`) and done (`closed`), taken
out of `connections_` (`removed`), `destroyed`. The events of its trace that
tell of it (`life`) are the same in every run, but for whether `ShutDown` was
called and whether a connection callback is set (`history`). `Lived` ties a
connection to its stage; each function moves it to the next one, and what
user code does leaves it there.

From the history one reads off what the stages mean (`Lifecycle`):
`state_` goes forward, `ConnectEstablished` and `ConnectDestroyed` happen
once at most and on the connection's loop, the connection callback reports
up and then down.

Key definitions: `LifeEvent`, `LifeStage`, `history`, `Lived`, `Lifecycle`.
Key theorems: `callPart_face`, `Lived.actPart`, `Lived.establish`,
`Lived.close`, `Lived.destroy`, `Lived.lifecycle`.
-/
import MiniMuduo.CloseOnce

namespace MiniMuduo

open Fallible Runs TcpConnection

/-! ### What does not change -/

/-- What a connection is made with and keeps. -/
structure SameFace (c c' : TcpConnection) : Prop where
  loop : c'.loop = c.loop
  name : c'.name = c.name
  fd : c'.channel.fd = c.channel.fd
  connectionCallback : c'.connectionCallback = c.connectionCallback
  closeCallback : c'.closeCallback = c.closeCallback
  writeCompleteCallback : c'.writeCompleteCallback = c.writeCompleteCallback

theorem SameFace.refl (c : TcpConnection) : SameFace c c := ⟨rfl, rfl, rfl, rfl, rfl, rfl⟩

theorem SameFace.trans {c c1 c' : TcpConnection} (h : SameFace c c1) (h' : SameFace c1 c') : SameFace c c' :=
  ⟨h'.loop.trans h.loop, h'.name.trans h.name, h'.fd.trans h.fd,
    h'.connectionCallback.trans h.connectionCallback, h'.closeCallback.trans h.closeCallback,
    h'.writeCompleteCallback.trans h.writeCompleteCallback⟩

theorem SameFace.log (c : TcpConnection) (e : Event) : SameFace c (c.log e) := ⟨rfl, rfl, rfl, rfl, rfl, rfl⟩

theorem SameFace.setState (c : TcpConnection) (new : StateE) : SameFace c (c.setState new) :=
  ⟨rfl, rfl, rfl, rfl, rfl, rfl⟩

theorem epollUpdate_fd {op : CtlOp} {ch ch' : Channel} (h : EpollPoller.update op ch = .ok ch') :
    ch'.fd = ch.fd := by
  unfold EpollPoller.update at h
  split at h
  · cases h
    rfl
  · split at h
    · cases h
      rfl
    · cases h

theorem updateChannel_fd {inLoop : Bool} {ch ch' : Channel} (h : EventLoop.updateChannel inLoop ch = .ok ch') :
    ch'.fd = ch.fd := by
  unfold EventLoop.updateChannel at h
  cases inLoop with
  | false =>
    cases h
    rfl
  | true =>
    simp only [Bool.not_true, Bool.false_eq_true, if_false, EpollPoller.updateChannel] at h
    split at h
    · exact (epollUpdate_fd h :)
    · split at h
      · obtain ⟨ch1, hup, h⟩ := bind_eq_ok h
        cases h
        exact (epollUpdate_fd hup :)
      · exact epollUpdate_fd h

/-- An update after a change of `events_`. -/
theorem update_fd {inLoop : Bool} {ch ch' : Channel} (ev : Events)
    (h : EventLoop.updateChannel inLoop { ch with events := ev } = .ok ch') : ch'.fd = ch.fd :=
  (updateChannel_fd h :)

theorem remove_fd {inLoop : Bool} {ch ch' : Channel} (h : ch.remove inLoop = .ok ch') : ch'.fd = ch.fd := by
  unfold Channel.remove EventLoop.removeChannel EpollPoller.removeChannel at h
  split at h
  · split at h
    · cases h
    · split at h
      · obtain ⟨ch1, hup, h⟩ := bind_eq_ok h
        cases h
        exact (epollUpdate_fd hup :)
      · cases h
        rfl
  · cases h

section face

variable {tid : ℕ} {c c' : TcpConnection}

theorem queue_face {rest : List UInt8} (h : c.queue tid rest = .ok c') : SameFace c c' := by
  obtain ⟨out, -, ⟨-, rfl⟩ | ⟨-, ch, hop, rfl⟩⟩ := queue_ok h
  · exact ⟨rfl, rfl, rfl, rfl, rfl, rfl⟩
  · have hfd : ch.fd = c.channel.fd := update_fd _ hop
    exact ⟨rfl, rfl, hfd, rfl, rfl, rfl⟩

theorem sends_face {message : List UInt8} {res : WriteResult} {k : Bool} (h : Sends tid message res c c' k) :
    SameFace c c' := by
  cases h with
  | ignored _ => exact .refl c
  | whole => exact ⟨rfl, rfl, rfl, rfl, rfl, rfl⟩
  | complete => exact ⟨rfl, rfl, rfl, rfl, rfl, rfl⟩
  | fault => exact ⟨rfl, rfl, rfl, rfl, rfl, rfl⟩
  | nothing => exact ⟨rfl, rfl, rfl, rfl, rfl, rfl⟩
  | part _ _ _ _ hq => exact ((SameFace.log c _).trans (SameFace.log _ _)).trans (queue_face hq)
  | queued _ _ _ _ hq => exact (SameFace.log c _).trans (queue_face hq)

theorem shutDown_face (c : TcpConnection) : SameFace c (shutDown .self c) := by
  rcases shutDown_cases c with ⟨-, hc⟩ | ⟨-, -, hc⟩ | ⟨-, -, hc⟩
  · rw [hc]
    exact .refl c
  · rw [hc]
    exact ⟨rfl, rfl, rfl, rfl, rfl, rfl⟩
  · rw [hc]
    exact ⟨rfl, rfl, rfl, rfl, rfl, rfl⟩

/-- An update of the channel. -/
theorem onChannel_face {op : Bool → Channel → Except Fault Channel}
    (hfd : ∀ inLoop ch ch', op inLoop ch = .ok ch' → ch'.fd = ch.fd) (h : c.onChannel tid op = .ok c') :
    SameFace c c' := by
  obtain ⟨ch, hch, rfl⟩ := onChannel_ok h
  exact ⟨rfl, rfl, hfd _ _ _ hch, rfl, rfl, rfl⟩

theorem disableAll_face (h : c.onChannel tid Channel.disableAll = .ok c') : SameFace c c' :=
  onChannel_face (fun _ _ _ hch => update_fd _ hch) h

theorem destroyTail_face (h : destroyTail tid c = .ok c') : SameFace c c' := by
  obtain ⟨c1, hop, hrm⟩ := bind_eq_ok h
  obtain ⟨ch, hch, hc⟩ := bind_eq_ok hrm
  cases hc
  have hface : SameFace c c1 := disableAll_face hop
  exact hface.trans ⟨rfl, rfl, remove_fd hch, rfl, rfl, rfl⟩

/-- User code that does not destroy is user code. -/
theorem ActPart.weaken (h : ActPart tid false c c') : ActPart tid true c c' := by
  cases h with
  | sends hs => exact .sends hs
  | shutDown => exact .shutDown
  | retrieve hb => exact .retrieve hb
  | destroyDown hd => cases hd
  | destroyUp hd => cases hd
  | destroyTail hd => cases hd

/-- Every part of a call keeps them. -/
theorem callPart_face (h : CallPart tid c c') : SameFace c c' := by
  cases h with
  | act ha =>
    cases ha with
    | sends hs => exact sends_face hs
    | shutDown => exact shutDown_face c
    | retrieve _ => exact ⟨rfl, rfl, rfl, rfl, rfl, rfl⟩
    | destroyDown _ _ => exact ⟨rfl, rfl, rfl, rfl, rfl, rfl⟩
    | destroyUp _ _ hcore =>
      obtain ⟨c1, hop, hc⟩ := bind_eq_ok hcore
      cases hc
      exact (((SameFace.log c _).trans (.setState _ _)).trans (disableAll_face hop)).trans (SameFace.log c1 _)
    | destroyTail _ _ htail => exact destroyTail_face htail
  | drains hd =>
    cases hd with
    | idle _ => exact .refl c
    | part => exact ⟨rfl, rfl, rfl, rfl, rfl, rfl⟩
    | @whole _ _ ch _ _ _ _ _ _ hop =>
      have hfd : ch.fd = c.channel.fd := update_fd _ hop
      exact ⟨rfl, rfl, hfd, rfl, rfl, rfl⟩
  | callback cb => exact ⟨rfl, rfl, rfl, rfl, rfl, rfl⟩
  | close hcore =>
    exact ((SameFace.log c _).trans (.setState _ _)).trans (disableAll_face hcore)
  | closeReturned => exact ⟨rfl, rfl, rfl, rfl, rfl, rfl⟩
  | read _ => exact ⟨rfl, rfl, rfl, rfl, rfl, rfl⟩
  | error => exact ⟨rfl, rfl, rfl, rfl, rfl, rfl⟩
  | establish _ hcore =>
    obtain ⟨c1, hop, hc⟩ := bind_eq_ok hcore
    cases hc
    have hface : SameFace c c1 := ((SameFace.log c _).trans (.setState _ _)).trans
      (onChannel_face (fun _ _ _ hch => update_fd _ hch) hop)
    exact hface.trans ⟨rfl, rfl, rfl, rfl, rfl, rfl⟩

end face

/-! ### Stages -/

/-- The events of a trace that tell of the connection's life. -/
inductive LifeEvent
  | established (tid : ℕ)
  | moved (old new : StateE)
  /-- The connection callback, with `state_`. -/
  | reported (state : StateE)
  | closing (state : StateE)
  | closed
  | destroyed (tid : ℕ)
  deriving DecidableEq, Repr

def Event.life? : Event → Option LifeEvent
  | .connectEstablished tid => some (.established tid)
  | .setState old new => some (.moved old new)
  | .callback .connection state _ => some (.reported state)
  | .handleClose state => some (.closing state)
  | .handleCloseReturned => some .closed
  | .connectDestroyed tid => some (.destroyed tid)
  | _ => none

/-- The life of a connection so far, newest first. -/
def TcpConnection.life (c : TcpConnection) : List LifeEvent := c.trace.filterMap Event.life?

/-- Where a connection of a living server is. -/
inductive LifeStage
  | fresh
  | up
  | closing
  | closed
  | removed
  | destroyed
  deriving DecidableEq, Repr

/-- `state_` of a connection that is up; `shut` says that `ShutDown` was
called. -/
def upState (shut : Bool) : StateE := if shut then .kDisconnecting else .kConnected

def LifeStage.state (shut : Bool) : LifeStage → StateE
  | .fresh => .kConnecting
  | .up => upState shut
  | .closing | .closed | .removed | .destroyed => .kDisconnected

/-- The life of a connection of the loop `tid` that is up; `reports` says that
the connection callback is set. -/
def upHistory (tid : ℕ) (reports shut : Bool) : List LifeEvent :=
  (if shut then [.moved .kConnected .kDisconnecting] else []) ++
    (if reports then [.reported .kConnected] else []) ++ [.moved .kConnecting .kConnected, .established tid]

/-- Its life in `HandleClose`, after the report. -/
def closingHistory (tid : ℕ) (reports shut : Bool) : List LifeEvent :=
  (if reports then [.reported .kDisconnected] else []) ++
    [.moved (upState shut) .kDisconnected, .closing (upState shut)] ++ upHistory tid reports shut

def history (tid : ℕ) (reports shut : Bool) : LifeStage → List LifeEvent
  | .fresh => []
  | .up => upHistory tid reports shut
  | .closing => closingHistory tid reports shut
  | .closed | .removed => .closed :: closingHistory tid reports shut
  | .destroyed => .destroyed tid :: .closed :: closingHistory tid reports shut

/-- A connection at a stage of its life. -/
structure Lived (reports : Bool) (stage : LifeStage) (c : TcpConnection) : Prop where
  tidy : Tidy c.loop c.writeCompleteCallback c
  wired : Wired c
  connectionCallback : c.connectionCallback = reports
  closeCallback : c.closeCallback = true
  story : ∃ shut, c.state = stage.state shut ∧ c.life = history c.loop reports shut stage
  silent : stage = .fresh → c.trace = []
  first : stage ≠ .fresh → c.trace.getLast? = some (.connectEstablished c.loop)

section life

variable {tid : ℕ} {c c' : TcpConnection}

theorem life_log {e : Event} (he : e.life? = none) : (c.log e).life = c.life :=
  List.filterMap_cons_none he

theorem queue_life {rest : List UInt8} (h : c.queue tid rest = .ok c') : c'.life = c.life := by
  obtain ⟨out, -, ⟨-, rfl⟩ | ⟨-, ch, -, rfl⟩⟩ := queue_ok h
  · rfl
  · rfl

theorem sends_life {message : List UInt8} {res : WriteResult} {k : Bool} (h : Sends tid message res c c' k) :
    c'.life = c.life := by
  cases h with
  | ignored _ => rfl
  | whole => rfl
  | complete => rfl
  | fault => rfl
  | nothing => rfl
  | part _ _ _ _ hq => exact (queue_life hq :)
  | queued _ _ _ _ hq => exact (queue_life hq :)

theorem drains_life {res : WriteResult} {k : Bool} (h : Drains tid res c c' k) : c'.life = c.life := by
  cases h with
  | idle _ => rfl
  | part => rfl
  | whole => rfl

theorem queue_state {rest : List UInt8} (h : c.queue tid rest = .ok c') : c'.state = c.state := by
  obtain ⟨out, -, ⟨-, rfl⟩ | ⟨-, ch, -, rfl⟩⟩ := queue_ok h
  · rfl
  · rfl

theorem sends_state {message : List UInt8} {res : WriteResult} {k : Bool} (h : Sends tid message res c c' k) :
    c'.state = c.state := by
  cases h with
  | ignored _ => rfl
  | whole => rfl
  | complete => rfl
  | fault => rfl
  | nothing => rfl
  | part _ _ _ _ hq => exact (queue_state hq :)
  | queued _ _ _ _ hq => exact (queue_state hq :)

/-- The first event of a trace stays the first. -/
theorem Adds.getLast? {p : Event → Prop} {e : Event} (h : Adds p c c') (he : c.trace.getLast? = some e) :
    c'.trace.getLast? = some e := by
  obtain ⟨es, -, htr⟩ := h
  rw [htr, List.getLast?_append, he]
  rfl

end life

namespace Lived

variable {reports : Bool} {stage : LifeStage} {c c' : TcpConnection}

theorem up_iff (h : Lived reports stage c) : c.Up ↔ stage = .up := by
  obtain ⟨shut, hstate, -⟩ := h.story
  unfold Up
  rw [hstate]
  cases stage <;> cases shut <;> simp [LifeStage.state, upState]

/-- A change that the story does not tell of. -/
theorem keep (h : Lived reports stage c) (hface : SameFace c c') (ht : Tidy c.loop c.writeCompleteCallback c')
    (hw : Wired c') (hstate : c'.state = c.state) (hlife : c'.life = c.life)
    (hgrows : Adds (fun _ => True) c c') (hsilent : stage = .fresh → c'.trace = c.trace) :
    Lived reports stage c' := by
  refine ⟨?_, hw, hface.connectionCallback.trans h.connectionCallback, hface.closeCallback.trans h.closeCallback,
    ?_, fun hst => (hsilent hst).trans (h.silent hst), fun hst => ?_⟩
  · rw [hface.loop, hface.writeCompleteCallback]
    exact ht
  · obtain ⟨shut, hst, hlf⟩ := h.story
    rw [hface.loop]
    exact ⟨shut, hstate.trans hst, hlife.trans hlf⟩
  · rw [hface.loop]
    exact hgrows.getLast? (h.first hst)

/-- An event that the story does not tell of. -/
theorem log (h : Lived reports stage c) (hst : stage ≠ .fresh) {e : Event} (he : e.life? = none) :
    Lived reports stage (c.log e) :=
  h.keep (SameFace.log c e) (h.tidy.log e) (h.wired.log e) rfl (life_log he) (Adds.log trivial)
    fun h' => absurd h' hst

/-- What user code does leaves a connection at its stage. -/
theorem actPart (h : Lived reports stage c) (hp : ActPart c.loop false c c') : Lived reports stage c' := by
  have ht := h.tidy.actPart hp
  have hw := h.wired.actPart h.tidy hp
  have hface := callPart_face (.act hp.weaken)
  have hgrows := callPart_grows (.act hp.weaken)
  cases hp with
  | sends hs =>
    refine h.keep hface ht hw (sends_state hs) (sends_life hs) hgrows fun hst => ?_
    have hdown : c.state ≠ .kConnected := by
      obtain ⟨shut, hstate, -⟩ := h.story
      rw [hstate, hst]
      intro h'
      cases h'
    cases hs with
    | ignored _ => rfl
    | whole h' => exact absurd h' hdown
    | complete h' => exact absurd h' hdown
    | fault h' => exact absurd h' hdown
    | nothing h' => exact absurd h' hdown
    | part h' => exact absurd h' hdown
    | queued h' => exact absurd h' hdown
  | shutDown =>
    rcases shutDown_cases c with ⟨-, hc⟩ | hcase
    · rwa [hc]
    · have hst : c.state = .kConnected := by
        rcases hcase with ⟨hst, -⟩ | ⟨hst, -⟩
        · exact hst
        · exact hst
      have hup : stage = .up := h.up_iff.mp (.inl hst)
      have hstate : (TcpConnection.shutDown .self c).state = .kDisconnecting := by
        rcases hcase with ⟨-, -, hc⟩ | ⟨-, -, hc⟩ <;> rw [hc] <;> rfl
      have hlife : (TcpConnection.shutDown .self c).life = .moved .kConnected .kDisconnecting :: c.life := by
        rcases hcase with ⟨-, -, hc⟩ | ⟨-, -, hc⟩ <;> rw [hc, ← hst] <;> rfl
      obtain ⟨shut, hs, hlf⟩ := h.story
      have hshut : shut = false := by
        rw [hst, hup] at hs
        cases shut with
        | false => rfl
        | true => cases hs
      refine ⟨?_, hw, hface.connectionCallback.trans h.connectionCallback,
        hface.closeCallback.trans h.closeCallback, ⟨true, ?_, ?_⟩, fun h' => ?_, fun h' => ?_⟩
      · rw [hface.loop, hface.writeCompleteCallback]
        exact ht
      · rw [hstate, hup]
        rfl
      · rw [hlife, hlf, hup, hshut, hface.loop]
        rfl
      · rw [hup] at h'
        cases h'
      · rw [hface.loop]
        exact hgrows.getLast? (h.first h')
  | retrieve _ => exact h.keep hface ht hw rfl rfl hgrows fun _ => rfl
  | destroyDown hd => cases hd
  | destroyUp hd => cases hd
  | destroyTail hd => cases hd

/-- `ReadFd` fills the input buffer. -/
theorem read (h : Lived reports stage c) {r : Buffer.ReadvResult} {n : ℤ} {e : ℕ} {b : Buffer}
    (hr : c.inputBuffer.readFd r 0 = .ok (n, e, b)) : Lived reports stage { c with inputBuffer := b } := by
  have hpart : CallPart c.loop c { c with inputBuffer := b } := .read hr
  exact h.keep (callPart_face hpart) (callPart_tidy h.tidy hpart) (h.wired.congr rfl rfl) rfl rfl
    (callPart_grows hpart) fun _ => rfl

/-- The part of `HandleWrite` before its callback. -/
theorem drains (h : Lived reports stage c) (hst : stage ≠ .fresh) {res : WriteResult} {k : Bool}
    (hd : Drains c.loop res c c' k) : Lived reports stage c' := by
  have hstate : c'.state = c.state := by
    cases hd with
    | idle _ => rfl
    | part => rfl
    | whole => rfl
  exact h.keep (callPart_face (.drains hd)) (h.tidy.drains hd) (h.wired.drains h.tidy hd) hstate (drains_life hd)
    (callPart_grows (.drains hd)) fun h' => absurd h' hst

theorem finishWrite (h : Lived reports stage c) (hst : stage ≠ .fresh) : Lived reports stage c.finishWrite := by
  unfold TcpConnection.finishWrite
  split
  · exact h.log hst rfl
  · exact h

/-- The connection moves to another stage: `cs` are the changes of its
parts up to there. -/
theorem move {stage' : LifeStage} (h : Lived reports stage c) (hface : SameFace c c')
    (ht : Tidy c.loop c.writeCompleteCallback c') (hw : Wired c')
    (hstory : ∀ shut, c.state = stage.state shut → c.life = history c.loop reports shut stage →
      c'.state = stage'.state shut ∧ c'.life = history c.loop reports shut stage')
    (hst' : stage' ≠ .fresh) (hfirst : c'.trace.getLast? = some (.connectEstablished c.loop)) :
    Lived reports stage' c' := by
  refine ⟨?_, hw, hface.connectionCallback.trans h.connectionCallback, hface.closeCallback.trans h.closeCallback,
    ?_, fun h' => absurd h' hst', fun _ => ?_⟩
  · rw [hface.loop, hface.writeCompleteCallback]
    exact ht
  · obtain ⟨shut, hst, hlf⟩ := h.story
    rw [hface.loop]
    exact ⟨shut, hstory shut hst hlf⟩
  · rw [hface.loop]
    exact hfirst

/-- The end of `HandleClose`. -/
theorem closeReturned (h : Lived reports .closing c) : Lived reports .closed (c.log .handleCloseReturned) := by
  refine h.move (SameFace.log c _) (h.tidy.log _) (h.wired.log _)
    (fun shut hst hlf => ⟨hst, ?_⟩) (by decide) ?_
  · show LifeEvent.closed :: c.life = _
    rw [hlf]
    rfl
  · exact (Adds.log (p := fun _ => True) trivial).getLast? (h.first (by decide))

/-- `connections_` is not a part of the connection. -/
theorem remove (h : Lived reports .closed c) : Lived reports .removed c :=
  h.move (.refl c) h.tidy h.wired (fun shut hst hlf => ⟨hst, hlf⟩) (by decide) (h.first (by decide))

/-- `ConnectDestroyed` of a connection that is down. -/
theorem destroy (h : Lived reports .removed c)
    (htail : destroyTail c.loop (c.log (.connectDestroyed c.loop)) = .ok c') : Lived reports .destroyed c' := by
  have hdown : ¬ c.Up := fun hup => by cases h.up_iff.mp hup
  have hpart : CallPart c.loop c (c.log (.connectDestroyed c.loop)) := .act (.destroyDown rfl hdown)
  have hpart' : CallPart c.loop (c.log (.connectDestroyed c.loop)) c' := .act (.destroyTail rfl hdown htail)
  have ht := h.tidy.log (.connectDestroyed c.loop)
  have hlife : c'.life = .destroyed c.loop :: c.life := by
    obtain ⟨c1, hop, hrm⟩ := bind_eq_ok htail
    obtain ⟨ch, -, rfl⟩ := onChannel_ok hop
    obtain ⟨ch', -, hc⟩ := bind_eq_ok hrm
    cases hc
    rfl
  have hstate : c'.state = c.state := actPart_state (c := c.log (.connectDestroyed c.loop)) hdown
    (.destroyTail (d := true) rfl hdown htail)
  refine h.move ((callPart_face hpart).trans (callPart_face hpart')) (ht.destroyTail hdown htail)
    (Wired.destroyTail ht hdown htail) (fun shut hst hlf => ⟨hstate.trans hst, ?_⟩) (by decide) ?_
  · rw [hlife, hlf]
    rfl
  · exact ((callPart_grows hpart).trans (callPart_grows hpart')).getLast? (h.first (by decide))

/-- `ConnectEstablished` of a new connection, with its report. -/
theorem establish (h : Lived reports .fresh c) {c1 : TcpConnection} (hcore : establishCore c.loop c = .ok c1) :
    (reports = false → Lived reports .up c1) ∧ (reports = true → Lived reports .up (c1.logCallback .connection)) := by
  obtain ⟨shut, hst, -⟩ := h.story
  have hnew : c.state = .kConnecting := hst
  have hpart : CallPart c.loop c c1 := .establish hnew hcore
  have ht := callPart_tidy h.tidy hpart
  have hw := Wired.establish h.tidy hcore
  have hface := callPart_face hpart
  have htr : c1.trace = [.updateChannel c.loop, .setState .kConnecting .kConnected, .connectEstablished c.loop] := by
    obtain ⟨c0, hop, hc⟩ := bind_eq_ok hcore
    cases hc
    obtain ⟨ch, -, rfl⟩ := onChannel_ok hop
    show [Event.updateChannel c.loop, .setState c.state .kConnected, .connectEstablished c.loop] ++ c.trace = _
    rw [h.silent rfl, hnew]
    rfl
  have hstate : c1.state = .kConnected := by
    obtain ⟨c0, hop, hc⟩ := bind_eq_ok hcore
    cases hc
    obtain ⟨ch, -, rfl⟩ := onChannel_ok hop
    rfl
  have hup : ∀ c' : TcpConnection, SameFace c1 c' → Tidy c.loop c.writeCompleteCallback c' → Wired c' →
      c'.state = .kConnected → c'.life = upHistory c.loop reports false →
      c'.trace.getLast? = some (.connectEstablished c.loop) → Lived reports .up c' := by
    intro c' hface' ht' hw' hst' hlife' hfirst'
    have hsame := hface.trans hface'
    refine ⟨?_, hw', hsame.connectionCallback.trans h.connectionCallback,
      hsame.closeCallback.trans h.closeCallback, ⟨false, hst', ?_⟩, fun h' => (by cases h'), fun _ => ?_⟩
    · rw [hsame.loop, hsame.writeCompleteCallback]
      exact ht'
    · rw [hsame.loop]
      exact hlife'
    · rw [hsame.loop]
      exact hfirst'
  refine ⟨fun hrep => hup c1 (.refl c1) ht hw hstate ?_ ?_, fun hrep => ?_⟩
  · unfold TcpConnection.life
    rw [htr, hrep]
    rfl
  · rw [htr]
    rfl
  · refine hup _ (SameFace.log c1 _) (ht.log _) (hw.log _) hstate ?_ ?_
    · show (Event.callback .connection c1.state c1.outputBuffer.readable :: c1.trace).filterMap Event.life? = _
      rw [htr, hrep, hstate]
      rfl
    · show (Event.callback .connection c1.state c1.outputBuffer.readable :: c1.trace).getLast? = _
      rw [htr]
      rfl

/-- `HandleClose` up to its callbacks, with its report. -/
theorem close (h : Lived reports .up c) {c1 : TcpConnection} (hcore : closeCore c.loop c = .ok c1) :
    (reports = false → Lived reports .closing c1) ∧
      (reports = true → Lived reports .closing (c1.logCallback .connection)) := by
  have hup : c.Up := h.up_iff.mpr rfl
  have hpart : CallPart c.loop c c1 := .close hcore
  have ht := callPart_tidy h.tidy hpart
  have hw := h.wired.close h.tidy hup hcore
  have hface := callPart_face hpart
  have hgrows := callPart_grows hpart
  have hfirst := h.first (by decide)
  have hlife : c1.life = .moved c.state .kDisconnected :: .closing c.state :: c.life := by
    obtain ⟨ch, -, rfl⟩ := onChannel_ok hcore
    rfl
  have hstate : c1.state = .kDisconnected := by
    obtain ⟨ch, -, rfl⟩ := onChannel_ok hcore
    rfl
  refine ⟨fun hrep => ?_, fun hrep => ?_⟩
  · refine h.move hface ht hw (fun shut hst hlf => ⟨hstate, ?_⟩) (by decide) (hgrows.getLast? hfirst)
    rw [hlife, hlf, hst, hrep]
    rfl
  · refine h.move (hface.trans (SameFace.log c1 _)) (ht.log _) (hw.log _)
      (fun shut hst hlf => ⟨hstate, ?_⟩) (by decide) ?_
    · show LifeEvent.reported c1.state :: c1.life = _
      rw [hlife, hlf, hst, hstate, hrep]
      rfl
    · exact (hgrows.trans (Adds.log trivial)).getLast? hfirst

end Lived

/-! ### What the stages mean -/

def LifeEvent.move? : LifeEvent → Option (StateE × StateE)
  | .moved old new => some (old, new)
  | _ => none

def LifeEvent.report? : LifeEvent → Option StateE
  | .reported state => some state
  | _ => none

/-- The moves of `state_`, oldest first. -/
def TcpConnection.moves (c : TcpConnection) : List (StateE × StateE) := (c.life.filterMap LifeEvent.move?).reverse

/-- What the connection callback was told, oldest first. -/
def TcpConnection.reports (c : TcpConnection) : List StateE := (c.life.filterMap LifeEvent.report?).reverse

def Event.isEstablished : Event → Bool
  | .connectEstablished _ => true
  | _ => false

def Event.isDestroyed : Event → Bool
  | .connectDestroyed _ => true
  | _ => false

/-- A connection that lives as it should. -/
structure Lifecycle (c : TcpConnection) : Prop where
  /-- `state_` goes forward, over `kDisconnecting` or not. -/
  forward : c.moves <+: [(.kConnecting, .kConnected), (.kConnected, .kDisconnected)] ∨
    c.moves <+: [(.kConnecting, .kConnected), (.kConnected, .kDisconnecting), (.kDisconnecting, .kDisconnected)]
  state : c.state = (c.moves.getLast?.map Prod.snd).getD .kConnecting
  established : c.trace.countP Event.isEstablished ≤ 1 ∧
    ∀ tid, .connectEstablished tid ∈ c.trace → tid = c.loop
  beforeHandlers : ∀ later h earlier, c.trace = later ++ .handler h :: earlier → .connectEstablished c.loop ∈ earlier
  reported : c.reports <+: [.kConnected, .kDisconnected]
  destroyed : c.trace.countP Event.isDestroyed ≤ 1 ∧
    ∀ later tid earlier, c.trace = later ++ .connectDestroyed tid :: earlier →
      tid = c.loop ∧ .handleCloseReturned ∈ earlier

section lifecycle

variable {reports : Bool} {stage : LifeStage} {c : TcpConnection}

theorem mem_life {e : Event} {le : LifeEvent} (he : e.life? = some le) (h : e ∈ c.trace) : le ∈ c.life :=
  List.mem_filterMap.mpr ⟨e, h, he⟩

/-- The events that the count is about are told by the life. -/
theorem countP_life {p : Event → Bool} {q : LifeEvent → Bool}
    (hpq : ∀ e, p e = (e.life?.any q)) : c.trace.countP p = c.life.countP q := by
  unfold TcpConnection.life
  rw [List.countP_filterMap]
  congr 1
  funext e
  rw [hpq e]
  cases e.life? <;> rfl

def LifeEvent.isEstablished : LifeEvent → Bool
  | .established _ => true
  | _ => false

def LifeEvent.isDestroyed : LifeEvent → Bool
  | .destroyed _ => true
  | _ => false

theorem isEstablished_life (e : Event) : e.isEstablished = e.life?.any LifeEvent.isEstablished := by
  cases e with
  | callback cb => cases cb <;> rfl
  | _ => rfl

theorem isDestroyed_life (e : Event) : e.isDestroyed = e.life?.any LifeEvent.isDestroyed := by
  cases e with
  | callback cb => cases cb <;> rfl
  | _ => rfl

/-- The moves in a history. -/
theorem history_moves (tid : ℕ) (reports shut : Bool) (stage : LifeStage) :
    ((history tid reports shut stage).filterMap LifeEvent.move?).reverse =
      match stage with
      | .fresh => []
      | .up => (.kConnecting, .kConnected) :: if shut then [(.kConnected, .kDisconnecting)] else []
      | .closing | .closed | .removed | .destroyed => (.kConnecting, .kConnected) ::
        if shut then [(.kConnected, .kDisconnecting), (.kDisconnecting, .kDisconnected)]
        else [(.kConnected, .kDisconnected)] := by
  cases stage <;> cases shut <;> cases reports <;> rfl

/-- The reports in a history. -/
theorem history_reports (tid : ℕ) (reports shut : Bool) (stage : LifeStage) :
    ((history tid reports shut stage).filterMap LifeEvent.report?).reverse <+: [.kConnected, .kDisconnected] := by
  cases stage <;> cases shut <;> cases reports <;> exact ⟨_, rfl⟩

theorem history_established (tid : ℕ) (reports shut : Bool) (stage : LifeStage) :
    (history tid reports shut stage).countP LifeEvent.isEstablished ≤ 1 ∧
      ∀ t, .established t ∈ history tid reports shut stage → t = tid := by
  cases stage <;> cases shut <;> cases reports <;>
    simp [history, upHistory, closingHistory, LifeEvent.isEstablished]

/-- Only `destroyed` has a `ConnectDestroyed`, as its last event. -/
theorem history_destroyed (tid : ℕ) (reports shut : Bool) (stage : LifeStage) :
    (history tid reports shut stage).countP LifeEvent.isDestroyed ≤ 1 ∧
      ∀ later t earlier, history tid reports shut stage = later ++ .destroyed t :: earlier →
        t = tid ∧ .closed ∈ earlier := by
  have hnot : ∀ t, stage ≠ .destroyed → .destroyed t ∉ history tid reports shut stage := by
    intro t hst
    cases stage <;> cases shut <;> cases reports <;> simp [history, upHistory, closingHistory] at hst ⊢
  have hnot' : ∀ t, .destroyed t ∉ history tid reports shut .closed := by
    intro t
    cases shut <;> cases reports <;> simp [history, upHistory, closingHistory]
  refine ⟨?_, fun later t earlier heq => ?_⟩
  · cases stage <;> cases shut <;> cases reports <;> first | exact Nat.zero_le 1 | exact Nat.le_refl 1
  · have hmem : LifeEvent.destroyed t ∈ history tid reports shut stage := by
      rw [heq]
      simp
    have hst : stage = .destroyed := by
      by_contra hst
      exact hnot t hst hmem
    rw [hst] at heq
    have heq' : LifeEvent.destroyed tid :: history tid reports shut .closed = later ++ .destroyed t :: earlier := heq
    rcases later with _ | ⟨e, later⟩
    · obtain ⟨htid, hearlier⟩ := List.cons.inj heq'
      rw [← hearlier]
      exact ⟨(LifeEvent.destroyed.inj htid).symm, List.mem_cons_self⟩
    · have hrest := (List.cons.inj heq').2
      refine absurd ?_ (hnot' t)
      rw [hrest]
      simp

/-- A connection of a living server lives as it should. -/
theorem Lived.lifecycle (h : Lived reports stage c) : Lifecycle c := by
  obtain ⟨shut, hst, hlf⟩ := h.story
  have hmoves := history_moves c.loop reports shut stage
  have hest := history_established c.loop reports shut stage
  have hdes := history_destroyed c.loop reports shut stage
  rw [← hlf] at hmoves hest hdes
  refine ⟨?_, ?_, ⟨?_, fun tid hmem => ?_⟩, fun later hd earlier htr => ?_, ?_, ⟨?_, fun later tid earlier htr => ?_⟩⟩
  · unfold TcpConnection.moves
    rw [hmoves]
    cases stage <;> cases shut <;> simp
  · unfold TcpConnection.moves
    rw [hmoves, hst]
    cases stage <;> cases shut <;> rfl
  · rw [countP_life isEstablished_life]
    exact hest.1
  · exact hest.2 tid (mem_life rfl hmem)
  · -- the first event of all is `ConnectEstablished`
    have hfirst : c.trace.getLast? = some (.connectEstablished c.loop) := by
      apply h.first
      intro hfresh
      have hnil := h.silent hfresh
      rw [htr] at hnil
      simp at hnil
    rw [htr, List.getLast?_append_cons] at hfirst
    cases earlier with
    | nil => cases hfirst
    | cons e earlier =>
      rw [List.getLast?_cons_cons] at hfirst
      exact List.mem_of_getLast? hfirst
  · unfold TcpConnection.reports
    rw [hlf]
    exact history_reports c.loop reports shut stage
  · rw [countP_life isDestroyed_life]
    exact hdes.1
  · have hsplit : c.life = later.filterMap Event.life? ++ .destroyed tid :: earlier.filterMap Event.life? := by
      unfold TcpConnection.life
      rw [htr, List.filterMap_append]
      rfl
    obtain ⟨htid, hclosed⟩ := hdes.2 _ _ _ hsplit
    obtain ⟨e, he, hlife⟩ := List.mem_filterMap.mp hclosed
    have heq : e = .handleCloseReturned := by
      cases e with
      | callback cb => cases cb <;> cases hlife
      | handleCloseReturned => rfl
      | _ => cases hlife
    exact ⟨htid, heq ▸ he⟩

end lifecycle

end MiniMuduo
