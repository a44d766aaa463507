/-
# The connections of a living server

All connections of a server at once: each is at a stage of its life
(`Population`), given by a function from their numbers. A function that runs
on a loop moves one connection to another stage and changes nothing else of
the server but connections (`Framed`); user code inside it leaves every
connection at its stage. `HandleClose` also queues `RemoveConnectionInLoop`.

Key definitions: `Population`, `Framed`.
Key theorems: `script_framed`, `connectEstablished_framed`,
`handleClose_framed`, `handle_framed`, `connectDestroyed_framed`.
-/
import MiniMuduo.Lifecycle
import MiniMuduo.TcpServer

namespace MiniMuduo

open Fallible Runs TcpConnection

/-- The handlers that can close the connection. -/
def Handler.closes : Handler → Bool
  | .close | .read => true
  | .error | .write => false

namespace TcpServer

/-- Every connection is at its stage. -/
def Population (f : ℕ → LifeStage) (s : TcpServer) : Prop :=
  ∀ i < s.accepted.length, Lived s.connectionCallback (f i) (s.conns i)

/-- Only connections have changed, and not what they were made with. -/
structure Framed (s s' : TcpServer) : Prop where
  rest : s' = { s with conns := s'.conns }
  face : ∀ i, SameFace (s.conns i) (s'.conns i)

namespace Framed

variable {s s1 s' : TcpServer} {l i : ℕ}

theorem refl (s : TcpServer) : Framed s s := ⟨rfl, fun _ => .refl _⟩

theorem trans (h : Framed s s1) (h' : Framed s1 s') : Framed s s' := by
  refine ⟨?_, fun i => (h.face i).trans (h'.face i)⟩
  rw [h'.rest, h.rest]

theorem set {c : TcpConnection} (hc : SameFace (s.conns i) c) : Framed s ((connAt i).set s c) := by
  refine ⟨rfl, fun j => ?_⟩
  show SameFace (s.conns j) (Function.update s.conns i c j)
  by_cases hj : j = i
  · rw [hj, Function.update_self]
    exact hc
  · rw [Function.update_of_ne hj]
    exact .refl _

theorem accepted (h : Framed s s') : s'.accepted = s.accepted := by rw [h.rest]

theorem onLoop (h : Framed s s') (l i : ℕ) : s'.onLoop l i = s.onLoop l i := by
  unfold TcpServer.onLoop
  rw [h.accepted, (h.face i).loop]

theorem scriptOn (h : Framed s s') (l : ℕ) (script : List (Act ℕ)) : s'.scriptOn l script = s.scriptOn l script := by
  unfold TcpServer.scriptOn
  have heq : s'.onLoop l = s.onLoop l := funext (h.onLoop l)
  rw [heq]

theorem queueInLoop (h : Framed s s') (l : ℕ) (t : ServerTask) : Framed (s.queueInLoop l t) (s'.queueInLoop l t) := by
  refine ⟨?_, h.face⟩
  unfold TcpServer.queueInLoop
  rw [h.rest]

end Framed

variable {f : ℕ → LifeStage} {s s' : TcpServer} {l i : ℕ}

namespace Population

/-- A connection moves to the stage `stage`. -/
theorem set (h : Population f s) {stage : LifeStage} {c : TcpConnection}
    (hc : Lived s.connectionCallback stage c) : Population (Function.update f i stage) ((connAt i).set s c) := by
  intro j hj
  show Lived s.connectionCallback (Function.update f i stage j) (Function.update s.conns i c j)
  by_cases hji : j = i
  · rw [hji, Function.update_self, Function.update_self]
    exact hc
  · rw [Function.update_of_ne hji, Function.update_of_ne hji]
    exact h j hj

/-- A connection changes and stays at its stage. -/
theorem keep (h : Population f s) {c : TcpConnection} (hc : Lived s.connectionCallback (f i) c) :
    Population f ((connAt i).set s c) := by
  have hset := h.set (i := i) hc
  rwa [Function.update_eq_self] at hset

/-- The connection of the loop `l` with its stage. -/
theorem lived (h : Population f s) (hi : s.onLoop l i = true) :
    Lived s.connectionCallback (f i) (s.conns i) ∧ (s.conns i).loop = l := by
  obtain ⟨hlt, hloop⟩ := onLoop_iff.mp hi
  exact ⟨h i hlt, hloop⟩

end Population

/-! ### User code -/

/-- A callback's script leaves every connection at its stage. -/
theorem script_framed (h : Population f s) {script : List (Act ℕ)} (hscript : s.scriptOn l script = true)
    (hrun : runActs l connAt script s = .ok s') : Population f s' ∧ Framed s s' := by
  have hkept : KeptBy l false (s.onLoop l) connAt fun s' => Population f s' ∧ Framed s s' := by
    rintro s1 i c' hi ⟨h1, hframe⟩ hp
    obtain ⟨hlived, hloop⟩ := h1.lived ((hframe.onLoop l i).trans hi)
    have hp' : ActPart (s1.conns i).loop false (s1.conns i) c' := by
      rw [hloop]
      exact hp
    exact ⟨h1.keep (hlived.actPart hp'), hframe.trans (.set (callPart_face (.act hp'.weaken)))⟩
  exact runActs_keeps connAt_apart script hscript hkept s s' ⟨h, .refl s⟩ hrun

/-- A callback that is not the connection callback. -/
theorem notify_framed (h : Population f s) (hi : s.onLoop l i = true) (hst : f i ≠ .fresh) {cb : Callback}
    (hcb : cb ≠ .connection) {script : List (Act ℕ)} (hscript : s.scriptOn l script = true)
    (hrun : notify (connAt i) cb (runActs l connAt script) s = .ok s') : Population f s' ∧ Framed s s' := by
  rcases notify_ok hrun with ⟨-, rfl⟩ | ⟨-, hk⟩
  · exact ⟨h, .refl _⟩
  · obtain ⟨hlived, -⟩ := h.lived hi
    have hlog : Event.life? (.callback cb (s.conns i).state (s.conns i).outputBuffer.readable) = none := by
      cases cb with
      | connection => exact absurd rfl hcb
      | message => rfl
      | writeComplete => rfl
      | close => rfl
    have h1 : Population f ((connAt i).modify (logCallback cb) s) := h.keep (hlived.log hst hlog)
    have hframe : Framed s ((connAt i).modify (logCallback cb) s) := .set (SameFace.log _ _)
    obtain ⟨h2, hframe2⟩ := script_framed h1 ((hframe.scriptOn l script).trans hscript) hk
    exact ⟨h2, hframe.trans hframe2⟩

/-- A part of a function moves a connection to the stage `stage`, and the
connection callback reports it. -/
theorem report_framed (h : Population f s) {stage : LifeStage} {c : TcpConnection}
    (hface : SameFace (s.conns i) c) (hreports : c.connectionCallback = s.connectionCallback)
    (hquiet : s.connectionCallback = false → Lived s.connectionCallback stage c)
    (hreport : s.connectionCallback = true → Lived s.connectionCallback stage (c.logCallback .connection))
    {script : List (Act ℕ)} (hscript : s.scriptOn l script = true)
    (hrun : notify (connAt i) .connection (runActs l connAt script) ((connAt i).set s c) = .ok s') :
    Population (Function.update f i stage) s' ∧ Framed s s' := by
  have hget : ((connAt i).get ((connAt i).set s c)).isSet .connection = s.connectionCallback := by
    rw [Lens.get_set]
    exact hreports
  rcases notify_ok hrun with ⟨hset, rfl⟩ | ⟨hset, hk⟩
  · rw [hget] at hset
    exact ⟨h.set (hquiet hset), .set hface⟩
  · rw [hget] at hset
    rw [Lens.modify_set] at hk
    have hframe : Framed s ((connAt i).set s (c.logCallback .connection)) := .set (hface.trans (SameFace.log c _))
    obtain ⟨h2, hframe2⟩ := script_framed (h.set (hreport hset)) ((hframe.scriptOn l script).trans hscript) hk
    exact ⟨h2, hframe.trans hframe2⟩

/-! ### The connection's functions -/

theorem connectEstablished_framed (h : Population f s) (hi : s.onLoop l i = true) (hst : f i = .fresh)
    {script : List (Act ℕ)} (hscript : s.scriptOn l script = true)
    (hrun : connectEstablished l (connAt i) (runActs l connAt script) s = .ok s') :
    Population (Function.update f i .up) s' ∧ Framed s s' := by
  obtain ⟨hlived, hloop⟩ := h.lived hi
  rw [hst] at hlived
  obtain ⟨c, hcore, hn⟩ := connectEstablished_cases hrun
  have hcore' : establishCore (s.conns i).loop (s.conns i) = .ok c := by
    rw [hloop]
    exact hcore
  obtain ⟨shut, hnew, -⟩ := hlived.story
  have hface : SameFace (s.conns i) c := callPart_face (.establish hnew hcore')
  obtain ⟨hquiet, hreport⟩ := hlived.establish hcore'
  exact report_framed h hface (hface.connectionCallback.trans hlived.connectionCallback) hquiet hreport hscript hn

/-- `ConnectDestroyed` of a removed connection. -/
theorem connectDestroyed_framed (h : Population f s) (hi : s.onLoop l i = true) (hst : f i = .removed)
    {k : TcpServer → Except Fault TcpServer} (hrun : connectDestroyed l (connAt i) k s = .ok s') :
    Population (Function.update f i .destroyed) s' ∧ Framed s s' := by
  obtain ⟨hlived, hloop⟩ := h.lived hi
  rw [hst] at hlived
  have hdown : ¬ (s.conns i).Up := fun hup => by cases hlived.up_iff.mp hup
  obtain ⟨s1, c', htail, rfl, hcase⟩ := connectDestroyed_cases hrun
  rcases hcase with ⟨-, rfl⟩ | ⟨hup, -⟩
  · rw [Lens.get_set] at htail
    have htail' : destroyTail (s.conns i).loop ((s.conns i).log (.connectDestroyed (s.conns i).loop)) = .ok c' := by
      rw [hloop]
      exact htail
    rw [Lens.set_set]
    have hface : SameFace (s.conns i) c' := (SameFace.log _ _).trans (destroyTail_face htail')
    exact ⟨h.set (hlived.destroy htail'), .set hface⟩
  · exact absurd hup hdown

/-- `HandleClose` takes a connection down and queues its removal. -/
theorem handleClose_framed (h : Population f s) (hi : s.onLoop l i = true) (hst : f i = .up)
    {script : List (Act ℕ)} (hscript : s.scriptOn l script = true)
    (hrun : handleClose l (connAt i) (runActs l connAt script) (removeConnection i) s = .ok s') :
    Population (Function.update f i .closed) s' ∧ Framed (s.queueInLoop 0 (.removeConnectionInLoop i)) s' := by
  obtain ⟨hlived, hloop⟩ := h.lived hi
  rw [hst] at hlived
  obtain ⟨c, s1, s2, hcore, hn, hclose, rfl⟩ := handleClose_cases hrun
  have hcore' : closeCore (s.conns i).loop (s.conns i) = .ok c := by
    rw [hloop]
    exact hcore
  have hface : SameFace (s.conns i) c := callPart_face (.close hcore')
  obtain ⟨hquiet, hreport⟩ := hlived.close hcore'
  obtain ⟨h1, hframe⟩ := report_framed h hface (hface.connectionCallback.trans hlived.connectionCallback)
    hquiet hreport hscript hn
  obtain ⟨hlived1, -⟩ := h1.lived ((hframe.onLoop l i).trans hi)
  rw [Function.update_self] at hlived1
  -- the close callback is the server's and only queues a task
  rcases notify_ok hclose with ⟨hset, -⟩ | ⟨-, hk⟩
  · have hset' : (s1.conns i).closeCallback = false := hset
    rw [hlived1.closeCallback] at hset'
    cases hset'
  · cases hk
    have hlived2 : Lived s1.connectionCallback .closing ((s1.conns i).logCallback .close) :=
      hlived1.log (by decide) rfl
    have h2 := h1.set (i := i) hlived2.closeReturned
    rw [Function.update_idem] at h2
    have hframe2 : Framed s ((connAt i).set s1 (((s1.conns i).logCallback .close).log .handleCloseReturned)) :=
      hframe.trans (.set ((SameFace.log _ _).trans (SameFace.log _ _)))
    have heq : (connAt i).modify (log .handleCloseReturned)
        (((connAt i).modify (logCallback .close) s1).queueInLoop 0 (.removeConnectionInLoop i)) =
        ((connAt i).set s1 (((s1.conns i).logCallback .close).log .handleCloseReturned)).queueInLoop 0
          (.removeConnectionInLoop i) := by
      show (connAt i).modify (log .handleCloseReturned)
        ((connAt i).set (s1.queueInLoop 0 (.removeConnectionInLoop i)) ((s1.conns i).logCallback .close)) = _
      rw [Lens.modify_set]
      rfl
    rw [heq]
    exact ⟨h2, hframe2.queueInLoop 0 _⟩

/-- A step on the connection `i` that is up takes it down and queues its
removal. -/
structure Closes (f : ℕ → LifeStage) (s : TcpServer) (i : ℕ) (s' : TcpServer) : Prop where
  up : f i = .up
  population : Population (Function.update f i .closed) s'
  framed : Framed (s.queueInLoop 0 (.removeConnectionInLoop i)) s'

theorem handleWrite_framed (h : Population f s) (hi : s.onLoop l i = true) (hst : f i ≠ .fresh)
    {script : List (Act ℕ)} (hscript : s.scriptOn l script = true) {res : WriteResult}
    (hrun : handleWrite l (connAt i) (runActs l connAt script) res s = .ok s') : Population f s' ∧ Framed s s' := by
  obtain ⟨hlived, hloop⟩ := h.lived hi
  have hwf : ((connAt i).get s).outputBuffer.WF := hlived.tidy.wf
  obtain ⟨c, hcase⟩ := handleWrite_cases hwf hrun
  have hdrains : ∀ {k : Bool}, Drains l res (s.conns i) c k →
      Population f ((connAt i).set s c) ∧ Framed s ((connAt i).set s c) := by
    intro k hd
    rw [← hloop] at hd
    exact ⟨h.keep (hlived.drains hst hd), .set (callPart_face (.drains hd))⟩
  rcases hcase with ⟨hd, rfl⟩ | ⟨hd, s1, hn, rfl⟩
  · exact hdrains hd
  · obtain ⟨h1, hframe⟩ := hdrains hd
    have hscript1 := (hframe.scriptOn l script).trans hscript
    obtain ⟨h2, hframe2⟩ := notify_framed h1 ((hframe.onLoop l i).trans hi) hst (by decide) hscript1 hn
    have hframe' := hframe.trans hframe2
    obtain ⟨hlived2, -⟩ := h2.lived ((hframe'.onLoop l i).trans hi)
    refine ⟨h2.keep (hlived2.finishWrite hst), hframe'.trans (.set ?_)⟩
    unfold TcpConnection.finishWrite
    split
    · exact SameFace.log _ _
    · exact .refl _

theorem handleRead_framed (h : Population f s) (hi : s.onLoop l i = true) (hst : f i = .up)
    {message connection : List (Act ℕ)} (hm : s.scriptOn l message = true) (hk : s.scriptOn l connection = true)
    {r : Buffer.ReadvResult}
    (hrun : handleRead l (connAt i) (runActs l connAt message) (runActs l connAt connection) (removeConnection i) r s =
      .ok s') : (Population f s' ∧ Framed s s') ∨ Closes f s i s' := by
  obtain ⟨hlived, -⟩ := h.lived hi
  obtain ⟨n, e, b, hr, hcase⟩ := handleRead_cases hrun
  set c : TcpConnection := { s.conns i with inputBuffer := b } with hc
  have hlivedc : Lived s.connectionCallback (f i) c := hlived.read hr
  have hpart : CallPart l (s.conns i) c := .read hr
  have hface : SameFace (s.conns i) c := callPart_face hpart
  have hlog : ∀ {e : Event}, e.life? = none →
      Population f ((connAt i).set s (c.log e)) ∧ Framed s ((connAt i).set s (c.log e)) := by
    intro e he
    have hne : f i ≠ .fresh := by
      rw [hst]
      decide
    exact ⟨h.keep (hlivedc.log hne he), .set (hface.trans (SameFace.log c e))⟩
  rcases hcase with ⟨-, hmsg⟩ | ⟨-, hclose⟩ | ⟨-, rfl⟩
  · obtain ⟨h1, hframe⟩ := hlog (e := .callback .message c.state c.outputBuffer.readable) rfl
    obtain ⟨h2, hframe2⟩ := script_framed h1 ((hframe.scriptOn l message).trans hm) hmsg
    exact .inl ⟨h2, hframe.trans hframe2⟩
  · have hframe : Framed s ((connAt i).set s c) := .set hface
    obtain ⟨h2, hframe2⟩ := handleClose_framed (h.keep hlivedc) ((hframe.onLoop l i).trans hi) hst
      ((hframe.scriptOn l connection).trans hk) hclose
    exact .inr ⟨hst, h2, (hframe.queueInLoop 0 _).trans hframe2⟩
  · exact .inl (hlog rfl)

/-- A handler of a connection leaves every connection at its stage, or closes
this one. -/
theorem handle_framed (h : Population f s) (hi : s.onLoop l i = true) {hd : Handler} (hst : f i ≠ .fresh)
    (hup : hd.closes = true → f i = .up) {re : Decisions ℕ} (hw : s.scriptOn l re.writeComplete = true)
    (hm : s.scriptOn l re.message = true) (hk : s.scriptOn l re.connection = true)
    (hrun : handle l (connAt i) (re.reaction l connAt (removeConnection i)) hd s = .ok s') :
    (Population f s' ∧ Framed s s') ∨ (hd.closes = true ∧ Closes f s i s') := by
  obtain ⟨hlived, -⟩ := h.lived hi
  have h1 : Population f ((connAt i).modify (log (.handler hd)) s) := h.keep (hlived.log hst rfl)
  have hframe : Framed s ((connAt i).modify (log (.handler hd)) s) := .set (SameFace.log _ _)
  have hi1 := (hframe.onLoop l i).trans hi
  have hk1 := (hframe.scriptOn l re.connection).trans hk
  cases hd with
  | close =>
    obtain ⟨h2, hframe2⟩ := handleClose_framed h1 hi1 (hup rfl) hk1 hrun
    exact .inr ⟨rfl, hup rfl, h2, (hframe.queueInLoop 0 _).trans hframe2⟩
  | error =>
    cases hrun
    obtain ⟨hlived1, -⟩ := h1.lived hi1
    exact .inl ⟨h1.keep (hlived1.log hst rfl), hframe.trans (.set (SameFace.log _ _))⟩
  | write =>
    obtain ⟨h2, hframe2⟩ := handleWrite_framed h1 hi1 hst ((hframe.scriptOn l _).trans hw) hrun
    exact .inl ⟨h2, hframe.trans hframe2⟩
  | read =>
    rcases handleRead_framed h1 hi1 (hup rfl) ((hframe.scriptOn l _).trans hm) hk1 hrun with ⟨h2, hframe2⟩ | hc
    · exact .inl ⟨h2, hframe.trans hframe2⟩
    · exact .inr ⟨rfl, hc.up, hc.population, (hframe.queueInLoop 0 _).trans hc.framed⟩

end TcpServer

end MiniMuduo
