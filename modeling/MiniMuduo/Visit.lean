/-
# A connection comes and goes

A server without IO threads and without callbacks accepts a connection, brings
it up, and its peer hangs up: two rounds of the loop, after which the loop is
idle again and `connections_` is as it was (`visit`). So a server can have
accepted any number of connections, and have few.

`Visited base round pending c s`: the server `s` is in the middle of that. It
was `base` before the accept, `c` is the visitor's connection, and loop 0 is in
`round` with `pending` queued.

Key definitions: `TcpServer.Idle`, `TcpServer.Visited`.
Key theorems: `TcpServer.visit`.
-/
import MiniMuduo.Registry

namespace MiniMuduo

open Fallible Runs Word TcpConnection

/-- The peer has gone. -/
def Events.hangUp : Events := { epollHup := true }

namespace TcpConnection

/-- Where a visitor gets to: it is up, it is closed, it is destroyed. -/
theorem visitor_life (name : String) : ∃ c1 c2 c3,
    establishCore 0 (newConnection 0 name 8 ⟨false, false, false, true⟩) = .ok c1 ∧ c1.loop = 0 ∧
    c1.connectionCallback = false ∧ (c1.channel.registered.any fun interest => Events.hangUp.Within interest) = true ∧
    closeCore 0 ({ c1 with channel := { c1.channel with revents := Events.hangUp } }.log (.handler .close)) = .ok c2 ∧
    c2.loop = 0 ∧ c2.name = name ∧ c2.connectionCallback = false ∧ c2.closeCallback = true ∧
    c2.state = .kDisconnected ∧
    destroyTail 0 (((c2.logCallback .close).log .handleCloseReturned).log (.connectDestroyed 0)) = .ok c3 :=
  ⟨_, _, _, rfl, rfl, rfl, rfl, rfl, rfl, rfl, rfl, rfl, rfl, rfl⟩

variable {σ : Type} {tid : ℕ} {conn : Lens σ TcpConnection} {k kc : σ → Except Fault σ} {s : σ} {c : TcpConnection}

theorem connectEstablished_silent (hcore : establishCore tid (conn.get s) = .ok c)
    (hcb : c.connectionCallback = false) : connectEstablished tid conn k s = .ok (conn.set s c) := by
  obtain ⟨c1, hop, hc⟩ := bind_eq_ok hcore
  cases hc
  simp only [connectEstablished, hop, ok_bind, notify, Lens.get_set, isSet]
  exact if_neg (by simpa using hcb)

theorem connectDestroyed_silent (hdown : ¬ (conn.get s).Up)
    (htail : destroyTail tid ((conn.get s).log (.connectDestroyed tid)) = .ok c) :
    connectDestroyed tid conn k s = .ok (conn.set s c) := by
  obtain ⟨c1, hop, hremove⟩ := bind_eq_ok htail
  have hdown' : ¬ (((conn.get s).log (.connectDestroyed tid)).state = .kConnected ∨
      ((conn.get s).log (.connectDestroyed tid)).state = .kDisconnecting) := hdown
  simp only [connectDestroyed, if_neg hdown', ok_bind, Lens.get_set, hop, hremove, Lens.set_set]
  rfl

/-- `HandleClose` with a close callback only. -/
theorem handleClose_silent (hcore : closeCore tid (conn.get s) = .ok c) (hcb : c.connectionCallback = false)
    (hclose : c.closeCallback = true) : handleClose tid conn k kc s = do
      let s ← kc (conn.set s (c.logCallback .close))
      return conn.modify (log .handleCloseReturned) s := by
  have hfirst : notify conn .connection k (conn.set s c) = .ok (conn.set s c) := by
    simp only [notify, Lens.get_set, isSet]
    exact if_neg (by simpa using hcb)
  have hsecond : notify conn .close kc (conn.set s c) = kc (conn.set s (c.logCallback .close)) := by
    simp only [notify, Lens.get_set, isSet, Lens.modify_set]
    exact if_pos hclose
  unfold closeCore at hcore
  simp only [handleClose, hcore, ok_bind, hfirst, hsecond]

end TcpConnection

namespace TcpServer

/-- A server without IO threads and callbacks, between two rounds of its loop
and with nothing queued. -/
structure Idle (s : TcpServer) : Prop where
  connectionCallback : s.connectionCallback = false
  messageCallback : s.messageCallback = false
  numThreads : s.numThreads = 0
  destroyed : s.destroyed = false
  round : s.round 0 = .polling
  pending : s.pending 0 = []

/-- The server during a visit. -/
structure Visited (base : TcpServer) (round : Round) (pending : List ServerTask) (c : TcpConnection)
    (s : TcpServer) : Prop where
  name : s.name = base.name
  connectionCallback : s.connectionCallback = false
  messageCallback : s.messageCallback = false
  numThreads : s.numThreads = 0
  destroyed : s.destroyed = false
  round : s.round 0 = round
  pending : s.pending 0 = pending
  accepted : s.accepted = base.accepted ++ [8]
  nextConnId : s.nextConnId = int32 (base.nextConnId + 1)
  visitor : s.conns base.accepted.length = c
  others : ∀ i < base.accepted.length, s.conns i = base.conns i
  entries : ∀ e, e ∈ s.connections.entries ↔
    e ∈ base.connections.entries ∨ e = (base.connName, base.accepted.length)

/-- `RemoveConnectionInLoop` of a connection of the base loop that has its
entry. -/
theorem removeConnectionInLoop_own {s : TcpServer} {i : ℕ} {connection : List (Act ℕ)}
    (hcount : (s.connections.erase (s.conns i).name).1 = 1) (hloop : (s.conns i).loop = 0) :
    s.removeConnectionInLoop 0 i connection =
      connectDestroyed 0 (connAt i) (runActs 0 connAt connection) (s.erased i) := by
  unfold removeConnectionInLoop
  simp only [ne_eq, not_true_eq_false, if_false, hcount, hloop, pure_eq_ok, if_true]
  rfl

namespace Visited

variable {base s : TcpServer} {round : Round} {pending : List ServerTask} {c : TcpConnection}

theorem setRound (h : Visited base round pending c s) (r : Round) : Visited base r pending c (s.setRound 0 r) :=
  { h with round := by rw [setRound_round, if_pos rfl] }

theorem queue (h : Visited base round pending c s) (t : ServerTask) :
    Visited base round (pending ++ [t]) c (s.queueInLoop 0 t) :=
  { h with
    pending := by
      show Function.update s.pending 0 (s.pending 0 ++ [t]) 0 = _
      rw [Function.update_self, h.pending] }

theorem setConn (h : Visited base round pending c s) (c' : TcpConnection) :
    Visited base round pending c' ((connAt base.accepted.length).set s c') :=
  { h with
    visitor := Function.update_self ..
    others := fun i hi => (Function.update_of_ne (Nat.ne_of_lt hi) ..).trans (h.others i hi) }

theorem onLoop (h : Visited base round pending c s) (hloop : c.loop = 0) :
    s.onLoop 0 base.accepted.length = true := by
  rw [onLoop_iff, h.accepted, h.visitor, List.length_append]
  exact ⟨Nat.lt_succ_self _, hloop⟩

theorem swap (h : Visited base (.handling []) pending c s) :
    serverMachine.enabled s (.swap 0) ∧
      ∃ s', serverMachine.step s (.swap 0) = .ok s' ∧ Visited base (.running pending) [] c s' := by
  obtain rfl := h.pending
  have h1 := h.setRound (.running (s.pending 0))
  refine ⟨?_, _, rfl, { h1 with pending := ?_ }⟩
  · show s.enabled (.swap 0) = true
    simp [enabled, h.destroyed, h.round]
  · show Function.update s.pending 0 [] 0 = []
    rw [Function.update_self]

theorem finish (h : Visited base (.running []) pending c s) :
    serverMachine.enabled s (.finish 0) ∧
      ∃ s', serverMachine.step s (.finish 0) = .ok s' ∧ Visited base .polling pending c s' := by
  refine ⟨?_, _, rfl, h.setRound .polling⟩
  show s.enabled (.finish 0) = true
  simp [enabled, h.destroyed, h.round]

theorem establish {c1 : TcpConnection}
    (h : Visited base (.running [.connectEstablished base.accepted.length]) pending c s)
    (hcore : establishCore 0 c = .ok c1) (hcb : c1.connectionCallback = false) :
    serverMachine.enabled s (.runTask 0 []) ∧
      ∃ s', serverMachine.step s (.runTask 0 []) = .ok s' ∧ Visited base (.running []) pending c1 s' := by
  have h1 := h.setRound (.running [])
  have hcore1 : establishCore 0 ((connAt base.accepted.length).get (s.setRound 0 (.running []))) = .ok c1 := by
    rw [← hcore]
    exact congrArg (establishCore 0) h1.visitor
  refine ⟨?_, _, ?_, h1.setConn c1⟩
  · show s.enabled (.runTask 0 []) = true
    simp [enabled, h.destroyed, h.round, scriptOn, scriptAllowed]
  · show s.step (.runTask 0 []) = _
    simp only [step, h.round, TcpServer.runTask]
    exact connectEstablished_silent hcore1 hcb

/-- `Poll` reports that the peer hung up. -/
theorem poll (h : Visited base .polling pending c s) (hloop : c.loop = 0)
    (hreg : (c.channel.registered.any fun interest => Events.hangUp.Within interest) = true) :
    serverMachine.enabled s (.poll 0 [(.connection base.accepted.length, Events.hangUp)]) ∧
      ∃ s', serverMachine.step s (.poll 0 [(.connection base.accepted.length, Events.hangUp)]) = .ok s' ∧
        Visited base (.handling [.handler base.accepted.length .close]) pending
          { c with channel := { c.channel with revents := Events.hangUp } } s' := by
  obtain rfl := h.visitor
  have h1 := h.setConn { s.conns base.accepted.length with
    channel := { (s.conns base.accepted.length).channel with revents := Events.hangUp } }
  refine ⟨?_, _, rfl, h1.setRound (.handling [.handler base.accepted.length .close])⟩
  show s.enabled _ = true
  simp [enabled, h.destroyed, h.round, canReport, h.onLoop hloop, hreg]

theorem close {c2 : TcpConnection} (h : Visited base (.handling [.handler base.accepted.length .close]) pending c s)
    (hcore : closeCore 0 (c.log (.handler .close)) = .ok c2) (hcb : c2.connectionCallback = false)
    (hclose : c2.closeCallback = true) :
    serverMachine.enabled s (.handle 0 {}) ∧
      ∃ s', serverMachine.step s (.handle 0 {}) = .ok s' ∧
        Visited base (.handling []) (pending ++ [.removeConnectionInLoop base.accepted.length])
          ((c2.logCallback .close).log .handleCloseReturned) s' := by
  have h1 := (h.setRound (.handling [])).setConn (c.log (.handler .close))
  have h2 := (h1.setConn (c2.logCallback .close)).queue (.removeConnectionInLoop base.accepted.length)
  have hlog : (connAt base.accepted.length).modify (log (.handler .close)) (s.setRound 0 (.handling [])) =
      (connAt base.accepted.length).set (s.setRound 0 (.handling [])) (c.log (.handler .close)) := by
    rw [← h.visitor]
    rfl
  have hcore1 : closeCore 0 ((connAt base.accepted.length).get
      ((connAt base.accepted.length).set (s.setRound 0 (.handling [])) (c.log (.handler .close)))) = .ok c2 := by
    rw [Lens.get_set]
    exact hcore
  refine ⟨?_, _, ?_, h2.setConn ((c2.logCallback .close).log .handleCloseReturned)⟩
  · show s.enabled (.handle 0 {}) = true
    simp [enabled, h.destroyed, h.round, scriptOn, scriptAllowed]
  · show s.step (.handle 0 {}) = _
    simp only [step, h.round, TcpConnection.handle, hlog]
    rw [handleClose_silent hcore1 hcb hclose]
    show Except.ok _ = _
    congr 1
    exact congrArg ((connAt base.accepted.length).set _) (congrArg (log .handleCloseReturned) h2.visitor)

/-- `RemoveConnectionInLoop` and `ConnectDestroyed`: the visitor is gone. -/
theorem remove {c3 : TcpConnection}
    (h : Visited base (.running [.removeConnectionInLoop base.accepted.length]) pending c s)
    (hfree : ∀ i, (base.connName, i) ∉ base.connections.entries) (hname : c.name = base.connName)
    (hloop : c.loop = 0) (hdown : ¬ c.Up) (htail : destroyTail 0 (c.log (.connectDestroyed 0)) = .ok c3) :
    serverMachine.enabled s (.runTask 0 []) ∧
      ∃ s', serverMachine.step s (.runTask 0 []) = .ok s' ∧ s'.name = s.name ∧ s'.connectionCallback = false ∧
        s'.messageCallback = false ∧ s'.numThreads = 0 ∧ s'.destroyed = false ∧ s'.round 0 = .running [] ∧
        s'.pending 0 = pending ∧ s'.accepted = s.accepted ∧ s'.nextConnId = s.nextConnId ∧
        (∀ i < base.accepted.length, s'.conns i = base.conns i) ∧
        ∀ e, e ∈ s'.connections.entries ↔ e ∈ base.connections.entries := by
  have h1 := h.setRound (.running [])
  have hcount : ((s.setRound 0 (.running [])).connections.erase
      ((s.setRound 0 (.running [])).conns base.accepted.length).name).1 = 1 := by
    rw [h1.visitor, hname]
    exact OrderedMap.erase_count _ ((h1.entries _).mpr (.inr rfl))
  have hget : (connAt base.accepted.length).get ((s.setRound 0 (.running [])).erased base.accepted.length) = c :=
    h.visitor
  have hdown1 : ¬ ((connAt base.accepted.length).get
      ((s.setRound 0 (.running [])).erased base.accepted.length)).Up := by
    rw [hget]
    exact hdown
  have htail1 : destroyTail 0 (((connAt base.accepted.length).get
      ((s.setRound 0 (.running [])).erased base.accepted.length)).log (.connectDestroyed 0)) = .ok c3 := by
    rw [hget]
    exact htail
  refine ⟨?_, (connAt base.accepted.length).set ((s.setRound 0 (.running [])).erased base.accepted.length) c3,
    ?_, rfl, h.connectionCallback, h.messageCallback, h.numThreads, h.destroyed, h1.round, h.pending, rfl, rfl,
    ?_, ?_⟩
  · show s.enabled (.runTask 0 []) = true
    simp [enabled, h.destroyed, h.round, scriptOn, scriptAllowed]
  · show s.step (.runTask 0 []) = _
    have hbase : ((s.setRound 0 (.running [])).conns base.accepted.length).loop = 0 := by rw [h1.visitor, hloop]
    simp only [step, h.round, TcpServer.runTask]
    rw [removeConnectionInLoop_own hcount hbase]
    exact connectDestroyed_silent hdown1 htail1
  · intro i hi
    exact (h1.setConn c3).others i hi
  · intro e
    show e ∈ (s.connections.erase (s.conns base.accepted.length).name).2.entries ↔ _
    rw [OrderedMap.mem_erase, h.entries, h.visitor, hname]
    constructor
    · rintro ⟨he | rfl, hne⟩
      · exact he
      · exact absurd rfl hne
    · intro he
      refine ⟨.inl he, ?_⟩
      intro hkey
      exact hfree e.2 (hkey ▸ he)

end Visited

/-- The server while it handles the acceptor. -/
def accepting (base : TcpServer) : TcpServer := (base.setRound 0 (.handling [.accept])).setRound 0 (.handling [])

namespace Idle

variable {base : TcpServer}

theorem getNextLoop (h : Idle base) : base.accepting.getNextLoop.1 = 0 := by
  rw [getNextLoop_fst]
  exact if_pos h.numThreads

theorem poll_acceptor (h : Idle base) : serverMachine.enabled base (.poll 0 [(.acceptor, { epollIn := true })]) := by
  show base.enabled _ = true
  simp [enabled, h.destroyed, h.round, canReport]

theorem accept_enabled (h : Idle base) :
    serverMachine.enabled (base.setRound 0 (.handling [.accept])) (.accept (some 8) false) := by
  show TcpServer.enabled _ _ = true
  simp only [enabled, setRound_round, if_true, Bool.and_true]
  exact congrArg (! ·) h.destroyed

end Idle

theorem accept_step (base : TcpServer) : (base.setRound 0 (.handling [.accept])).step (.accept (some 8) false) =
    .ok (base.accepting.newConnectionCallback 8 false) := by
  simp only [step, setRound_round, if_true]
  rfl

/-- The connection is there, and its `ConnectEstablished` is queued. -/
theorem added_visited {base : TcpServer} (h : Idle base) (hfree : ∀ i, (base.connName, i) ∉ base.connections.entries) :
    Visited base (.handling []) [.connectEstablished base.accepted.length]
      (newConnection 0 base.connName 8 ⟨false, false, false, true⟩)
      ((base.accepting.added 8 false).queueInLoop 0 (.connectEstablished base.accepted.length)) := by
  constructor
  case name => rfl
  case connectionCallback => exact h.connectionCallback
  case messageCallback => exact h.messageCallback
  case numThreads => exact h.numThreads
  case destroyed => exact h.destroyed
  case round =>
    show base.accepting.round 0 = _
    unfold accepting
    rw [setRound_round, if_pos rfl]
  case pending =>
    show Function.update base.pending 0 (base.pending 0 ++ [.connectEstablished base.accepted.length]) 0 = _
    rw [Function.update_self, h.pending]
    rfl
  case accepted => rfl
  case nextConnId => rfl
  case visitor =>
    have hconn : (base.accepting.added 8 false).conns base.accepting.accepted.length =
        newConnection base.accepting.getNextLoop.1 base.connName 8
          ⟨base.connectionCallback, base.messageCallback, false, true⟩ := added_conns_new
    rw [h.getNextLoop, h.connectionCallback, h.messageCallback] at hconn
    exact hconn
  case others =>
    intro i hi
    exact added_conns_old (s := base.accepting) hi
  case entries =>
    intro e
    show e ∈ (base.connections.emplace base.connName base.accepted.length).entries ↔ _
    rw [OrderedMap.mem_emplace]
    refine or_congr_right (and_iff_left ?_)
    intro e' he' hkey
    exact hfree e'.2 (hkey ▸ he')

/-- `Poll` reports the acceptor, and a connection is accepted. -/
theorem begin_visit {base : TcpServer} (h : Idle base) (hfree : ∀ i, (base.connName, i) ∉ base.connections.entries) :
    ∃ tr s, Run serverMachine base tr s ∧
      Visited base (.handling []) [.connectEstablished base.accepted.length]
        (newConnection 0 base.connName 8 ⟨false, false, false, true⟩) s := by
  have hnone : base.accepting.connections.find base.accepting.connName = none := by
    apply Option.eq_none_iff_forall_ne_some.mpr
    intro i hi
    exact hfree i ((OrderedMap.find_eq_some_iff _).mp hi)
  have hstep : serverMachine.step (base.setRound 0 (.handling [.accept])) (.accept (some 8) false) =
      .ok ((base.accepting.added 8 false).queueInLoop 0 (.connectEstablished base.accepted.length)) := by
    refine (accept_step base).trans ?_
    rw [newConnectionCallback_added hnone, h.getNextLoop]
    rfl
  exact ⟨_, _, (Run.nil.snoc h.poll_acceptor rfl).snoc h.accept_enabled hstep, added_visited h hfree⟩

/-- **A visit.** An idle server accepts a connection under a free name, whose
peer then hangs up: it is idle again, with the same `connections_` and the same
connections, and has accepted one more. -/
theorem visit {base : TcpServer} (h : Idle base) (hfree : ∀ i, (base.connName, i) ∉ base.connections.entries) :
    ∃ tr s, Run serverMachine base tr s ∧ Idle s ∧ s.name = base.name ∧ s.accepted = base.accepted ++ [8] ∧
      s.nextConnId = int32 (base.nextConnId + 1) ∧ (∀ i < base.accepted.length, s.conns i = base.conns i) ∧
      ∀ e, e ∈ s.connections.entries ↔ e ∈ base.connections.entries := by
  obtain ⟨c1, c2, c3, hup, hloop1, hcb1, hreg, hclosed, hloop2, hname2, hcb2, hclose2, hdown, hgone⟩ :=
    visitor_life base.connName
  have hdown2 : ¬ ((c2.logCallback .close).log .handleCloseReturned).Up := by
    show ¬ (c2.state = .kConnected ∨ c2.state = .kDisconnecting)
    rw [hdown]
    decide
  obtain ⟨tr, s2, hrun, h2⟩ := begin_visit h hfree
  obtain ⟨hen3, s3, hst3, h3⟩ := h2.swap
  obtain ⟨hen4, s4, hst4, h4⟩ := h3.establish hup hcb1
  obtain ⟨hen5, s5, hst5, h5⟩ := h4.finish
  obtain ⟨hen6, s6, hst6, h6⟩ := h5.poll hloop1 hreg
  obtain ⟨hen7, s7, hst7, h7⟩ := h6.close hclosed hcb2 hclose2
  obtain ⟨hen8, s8, hst8, h8⟩ := h7.swap
  obtain ⟨hen9, s9, hst9, hname, hcb, hmcb, hthreads, halive, hround, hpending, haccepted, hid, hothers, hentries⟩ :=
    h8.remove hfree hname2 hloop2 hdown2 hgone
  have hen10 : serverMachine.enabled s9 (.finish 0) := by
    show s9.enabled (.finish 0) = true
    simp [enabled, halive, hround]
  refine ⟨_, s9.setRound 0 .polling, ((((((((hrun.snoc hen3 hst3).snoc hen4 hst4).snoc hen5 hst5).snoc hen6 hst6).snoc
    hen7 hst7).snoc hen8 hst8).snoc hen9 hst9).snoc hen10 rfl), ?_, hname.trans h8.name, haccepted.trans h8.accepted,
    hid.trans h8.nextConnId, hothers, hentries⟩
  refine ⟨hcb, hmcb, hthreads, halive, ?_, hpending⟩
  rw [setRound_round, if_pos rfl]

end TcpServer

end MiniMuduo
