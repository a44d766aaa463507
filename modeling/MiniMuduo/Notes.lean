/-
# Callers who take notes

The functions of a connection are written over a state that it lives in. Let
that state also hold what the connection's callers know: the bytes they passed
to `send`, and the connection as each callback found it. Whoever calls `send`
notes the message before the call, if the connection is `kConnected` and the
call will not take its `fault_error` branch; every callback first notes the
connection. `noteCall` is a call on the connection by such callers.

Taking notes changes nothing about the connection: every run of its calls is
one with notes (`run_noted`).

Key definitions: `Noted`, `TcpConnection.takes`, `noteActs`, `noteCall`, `noteMachine`.
Key theorems: `Follows.send`, `follows_noteActs`, `run_noted`.
-/
import MiniMuduo.Upkeep

namespace MiniMuduo

open Fallible Runs TcpConnection

/-- A connection, and what its callers noted. -/
structure Noted where
  conn : TcpConnection
  /-- The bytes passed to `send`, without those it does not take. -/
  passed : List UInt8 := []
  /-- The connection as each callback found it, latest first, with what had
  been passed until then. -/
  seen : List (TcpConnection × List UInt8) := []
  deriving DecidableEq, Repr

/-- What `send` takes of a message. -/
def TcpConnection.takes (c : TcpConnection) (message : List UInt8) (res : WriteResult) : List UInt8 :=
  if c.state = .kConnected ∧ ¬ c.FaultError res then message else []

namespace Noted

/-- The connection, among the notes. -/
def lens : Lens Noted TcpConnection where
  get := conn
  set s c := { s with conn := c }
  get_set _ _ := rfl
  set_get _ := rfl
  set_set _ _ _ := rfl

/-- The caller is about to `send`. -/
def pass (message : List UInt8) (res : WriteResult) (s : Noted) : Noted :=
  { s with passed := s.passed ++ s.conn.takes message res }

/-- A callback begins. -/
def see (s : Noted) : Noted := { s with seen := (s.conn, s.passed) :: s.seen }

@[simp] theorem lens_get (s : Noted) : lens.get s = s.conn := rfl

end Noted

section notes

variable (tid : ℕ)

mutual

/-- One act of a caller who takes notes. -/
def noteAct : Act Unit → Noted → Except Fault Noted
  | .send _ message res writeComplete, s =>
    send tid Noted.lens (fun s => noteActs writeComplete s.see) message res (s.pass message res)
  | .shutDown _, s => .ok (shutDown Noted.lens s)
  | .retrieve _ len, s => retrieveInput Noted.lens len s
  | .destroy _ connection, s => connectDestroyed tid Noted.lens (fun s => noteActs connection s.see) s

/-- The acts of a callback, in order. -/
def noteActs : List (Act Unit) → Noted → Except Fault Noted
  | [], s => .ok s
  | a :: as, s => do noteActs as (← noteAct a s)

end

/-- A callback notes what it finds and runs its script. -/
def noteScript (script : Script) (s : Noted) : Except Fault Noted := noteActs tid script s.see

/-- One call; the close callback only takes its note. -/
def noteCall (s : Noted) : Call → Except Fault Noted
  | .connectEstablished connection => connectEstablished tid Noted.lens (noteScript tid connection) s
  | .send message res writeComplete =>
    send tid Noted.lens (noteScript tid writeComplete) message res (s.pass message res)
  | .shutDown => .ok (shutDown Noted.lens s)
  | .handleRead r message connection => handleRead tid Noted.lens (noteScript tid message)
    (noteScript tid connection) (noteScript tid []) r s
  | .handleWrite res writeComplete => handleWrite tid Noted.lens (noteScript tid writeComplete) res s
  | .handleClose connection => handleClose tid Noted.lens (noteScript tid connection) (noteScript tid []) s
  | .connectDestroyed connection => connectDestroyed tid Noted.lens (noteScript tid connection) s

/-- The runs of one connection whose callers take notes. -/
def noteMachine : Machine Noted Call Fault := ⟨fun s a => callEnabled s.conn a, noteCall tid⟩

end notes

/-! ### The connection does not notice -/

/-- On the connection, `k` does what `k₀` does. -/
def Follows {σ : Type} (conn : Lens σ TcpConnection) (k : σ → Except Fault σ)
    (k₀ : TcpConnection → Except Fault TcpConnection) : Prop :=
  ∀ s, (k s).map conn.get = k₀ (conn.get s)

theorem map_bind_ok {ε α β γ : Type} (x : Except ε α) (f : α → Except ε β) (g : β → γ) :
    (x >>= f).map g = x >>= fun a => (f a).map g := by
  cases x <;> rfl

namespace Follows

variable {σ : Type} {conn : Lens σ TcpConnection} {tid : ℕ} {k l km kc : σ → Except Fault σ}
  {k₀ l₀ km₀ kc₀ : TcpConnection → Except Fault TcpConnection}

theorem bind (hk : Follows conn k k₀) (hl : Follows conn l l₀) :
    Follows conn (fun s => k s >>= l) (fun c => k₀ c >>= l₀) := by
  intro s
  show (k s >>= l).map conn.get = k₀ (conn.get s) >>= l₀
  rw [← hk s]
  cases k s with
  | error e => rfl
  | ok s1 => exact hl s1

theorem notify (hk : Follows conn k k₀) (cb : Callback) :
    Follows conn (notify conn cb k) (notify .self cb k₀) := by
  intro s
  unfold TcpConnection.notify
  rw [Lens.self_get]
  split
  · rw [hk, Lens.get_modify]
    rfl
  · rfl

theorem invoke (hk : Follows conn k k₀) (cb : Callback) :
    Follows conn (invoke conn cb k) (invoke .self cb k₀) := by
  intro s
  unfold TcpConnection.invoke
  rw [Lens.self_get]
  split
  · rw [hk, Lens.get_modify]
    rfl
  · rfl

theorem send (tid : ℕ) (hk : Follows conn k k₀) (message : List UInt8) (res : WriteResult) :
    Follows conn (send tid conn k message res) (send tid .self k₀ message res) := by
  intro s
  rw [send_eq, send_eq, map_bind_ok]
  refine congrArg _ (funext fun p => ?_)
  obtain ⟨c, complete⟩ := p
  cases complete with
  | false => exact congrArg Except.ok (conn.get_set s c)
  | true =>
    have h := hk (conn.set s c)
    rwa [Lens.get_set] at h

theorem shutDown (conn : Lens σ TcpConnection) :
    Follows conn (fun s => .ok (shutDown conn s)) (fun c => .ok (shutDown .self c)) := by
  intro s
  show Except.ok (conn.get (TcpConnection.shutDown conn s)) = _
  rw [shutDown_eq, Lens.get_set]

theorem retrieveInput (len : ℕ) : Follows conn (retrieveInput conn len) (retrieveInput .self len) := by
  intro s
  unfold TcpConnection.retrieveInput
  rw [map_bind_ok]
  exact congrArg _ (funext fun b => congrArg Except.ok (conn.get_set s _))

theorem handleWrite (hk : Follows conn k k₀) (res : WriteResult) :
    Follows conn (handleWrite tid conn k res) (handleWrite tid .self k₀ res) := by
  intro s
  rw [handleWrite_eq, handleWrite_eq, map_bind_ok]
  refine congrArg _ (funext fun p => ?_)
  obtain ⟨c, drained⟩ := p
  cases drained with
  | false => exact congrArg Except.ok (conn.get_set s c)
  | true =>
    have hfinish : Follows conn (fun s => .ok (conn.modify finishWrite s)) (fun c => .ok (finishWrite c)) :=
      fun s => congrArg Except.ok (conn.get_modify _ s)
    have h := (hk.notify .writeComplete).bind hfinish (conn.set s c)
    rwa [Lens.get_set] at h

theorem handleClose (tid : ℕ) (hk : Follows conn k k₀) (hkc : Follows conn kc kc₀) :
    Follows conn (handleClose tid conn k kc) (handleClose tid .self k₀ kc₀) := by
  intro s
  unfold TcpConnection.handleClose
  rw [map_bind_ok]
  refine congrArg _ (funext fun c => ?_)
  have hreturn : Follows conn (fun s => .ok (conn.modify (log .handleCloseReturned) s))
      (fun c => .ok (c.log .handleCloseReturned)) := fun s => congrArg Except.ok (conn.get_modify _ s)
  have h := (hk.notify .connection).bind ((hkc.notify .close).bind hreturn) (conn.set s c)
  rwa [Lens.get_set] at h

theorem handleRead (hm : Follows conn km km₀) (hk : Follows conn k k₀) (hkc : Follows conn kc kc₀)
    (r : Buffer.ReadvResult) :
    Follows conn (handleRead tid conn km k kc r) (handleRead tid .self km₀ k₀ kc₀ r) := by
  intro s
  unfold TcpConnection.handleRead
  rw [map_bind_ok]
  refine congrArg _ (funext fun p => ?_)
  obtain ⟨n, e, b⟩ := p
  have hget : conn.get (conn.set s { conn.get s with inputBuffer := b }) = { conn.get s with inputBuffer := b } :=
    conn.get_set s _
  dsimp only [Lens.self_get, Lens.self_set]
  split
  · have h := hm.invoke .message (conn.set s { conn.get s with inputBuffer := b })
    rwa [hget] at h
  · split
    · have h := hk.handleClose tid hkc (conn.set s { conn.get s with inputBuffer := b })
      rwa [hget] at h
    · refine congrArg Except.ok ((conn.get_modify _ _).trans ?_)
      rw [hget]
      rfl

theorem connectEstablished (hk : Follows conn k k₀) :
    Follows conn (connectEstablished tid conn k) (connectEstablished tid .self k₀) := by
  intro s
  unfold TcpConnection.connectEstablished
  rw [map_bind_ok]
  refine congrArg _ (funext fun c => ?_)
  have h := hk.notify .connection (conn.set s { c with channel := c.channel.tie })
  rwa [Lens.get_set] at h

theorem connectDestroyed (hk : Follows conn k k₀) :
    Follows conn (connectDestroyed tid conn k) (connectDestroyed tid .self k₀) := by
  have htail : Follows conn
      (fun s => do
        let c ← (conn.get s).onChannel tid Channel.disableAll
        let c ← c.removeChannel tid
        return conn.set s c)
      (fun c => c.onChannel tid Channel.disableAll >>= fun c => c.removeChannel tid >>= pure) := by
    intro s
    rw [map_bind_ok]
    refine congrArg _ (funext fun c => ?_)
    rw [map_bind_ok]
    exact congrArg _ (funext fun c => congrArg Except.ok (conn.get_set s c))
  intro s
  unfold TcpConnection.connectDestroyed
  dsimp only [Lens.self_get, Lens.self_set]
  split
  · rw [map_bind_ok]
    refine congrArg _ (funext fun c => ?_)
    have h := (hk.invoke .connection).bind htail (conn.set s c)
    rwa [Lens.get_set] at h
  · have h := htail (conn.set s ((conn.get s).log (.connectDestroyed tid)))
    rwa [Lens.get_set] at h

/-- A callback's note does not change the connection. -/
theorem see {k : Noted → Except Fault Noted} (hk : Follows Noted.lens k k₀) :
    Follows Noted.lens (fun s => k s.see) k₀ := fun s => hk s.see

end Follows

mutual

theorem follows_noteAct (tid : ℕ) : ∀ a : Act Unit,
    Follows Noted.lens (noteAct tid a) (runAct tid (fun _ => Lens.self) a)
  | .send _ message res writeComplete => by
    intro s
    have h := (follows_noteActs tid writeComplete).see.send tid message res (s.pass message res)
    unfold noteAct runAct
    exact h
  | .shutDown _ => by
    intro s
    unfold noteAct runAct
    exact Follows.shutDown Noted.lens s
  | .retrieve _ len => by
    intro s
    unfold noteAct runAct
    exact Follows.retrieveInput len s
  | .destroy _ connection => by
    intro s
    unfold noteAct runAct
    exact (follows_noteActs tid connection).see.connectDestroyed s

theorem follows_noteActs (tid : ℕ) : ∀ as : List (Act Unit),
    Follows Noted.lens (noteActs tid as) (runActs tid (fun _ => Lens.self) as)
  | [] => by
    intro s
    unfold noteActs runActs
    rfl
  | a :: as => by
    intro s
    unfold noteActs runActs
    exact (follows_noteAct tid a).bind (follows_noteActs tid as) s

end

theorem follows_noteScript (tid : ℕ) (script : Script) :
    Follows Noted.lens (noteScript tid script) (runScript tid script) := (follows_noteActs tid script).see

/-- A call with notes is the call. -/
theorem follows_noteCall (tid : ℕ) (a : Call) (s : Noted) :
    (noteCall tid s a).map Noted.conn = call tid s.conn a := by
  have hscript := follows_noteScript tid
  have hnone : Follows Noted.lens (noteScript tid []) .ok := by
    intro s
    unfold noteScript noteActs
    rfl
  cases a with
  | connectEstablished connection => exact (hscript connection).connectEstablished s
  | send message res writeComplete => exact (hscript writeComplete).send tid message res (s.pass message res)
  | shutDown => exact Follows.shutDown Noted.lens s
  | handleRead r message connection => exact (hscript message).handleRead (hscript connection) hnone r s
  | handleWrite res writeComplete => exact (hscript writeComplete).handleWrite res s
  | handleClose connection => exact (hscript connection).handleClose tid hnone s
  | connectDestroyed connection => exact (hscript connection).connectDestroyed s

/-- Every run of calls is one whose callers take notes. -/
theorem run_noted {tid : ℕ} {s : Noted} {tr : List (TcpConnection × Call)} {c : TcpConnection}
    (h : Run (callMachine tid) s.conn tr c) : ∃ s', Takes (noteMachine tid) s (tr.map Prod.snd) s' ∧ s'.conn = c := by
  induction h with
  | nil => exact ⟨s, Takes.none, rfl⟩
  | @snoc tr c c' a _ hen hst ih =>
    obtain ⟨s1, htakes, rfl⟩ := ih
    have hfollows := follows_noteCall tid a s1
    rw [show call tid s1.conn a = .ok c' from hst] at hfollows
    cases hs2 : noteCall tid s1 a with
    | error e =>
      rw [hs2] at hfollows
      cases hfollows
    | ok s2 =>
      rw [hs2] at hfollows
      rw [List.map_append]
      exact ⟨s2, htakes.trans (Takes.one hen hs2), Except.ok.inj hfollows⟩

end MiniMuduo
