/-
# What the functions of a connection do by themselves

Between the callbacks of a connection, its functions change it one part at a
time. `Upkeep` are the parts that are not user code and do not read from the
socket. A property of a state that they keep (`Kept`) is kept by every
function of the connection, wherever the connection lives, if the callbacks
keep it.

Key definitions: `Upkeep`, `Kept`.
Key theorems: `Kept.connectDestroyed`, `Kept.handle`.
-/
import MiniMuduo.Calls

namespace MiniMuduo

open Fallible TcpConnection

/-- The events that neither move bytes nor run a callback. -/
def Event.neutral : Event → Bool
  | .sent .. | .wrote _ | .callback .. => false
  | _ => true

/-- One part of what the functions of a connection do to it by themselves:
no user code, and no bytes from the socket. -/
inductive Upkeep (c : TcpConnection) : TcpConnection → Prop
  | log {e : Event} : e.neutral = true → Upkeep c (c.log e)
  | callback (cb : Callback) : Upkeep c (c.logCallback cb)
  | revents (ev : Events) : Upkeep c { c with channel := { c.channel with revents := ev } }
  | establish {tid : ℕ} {c' : TcpConnection} : establishCore tid c = .ok c' → Upkeep c c'
  | close {tid : ℕ} {c' : TcpConnection} : closeCore tid c = .ok c' → Upkeep c c'
  | destroyCore {tid : ℕ} {c' : TcpConnection} : destroyCore tid c = .ok c' → Upkeep c c'
  | destroyTail {tid : ℕ} {c' : TcpConnection} : destroyTail tid c = .ok c' → Upkeep c c'
  | drain {tid : ℕ} {res : WriteResult} {c' : TcpConnection} {b : Bool} : drain tid res c = .ok (c', b) → Upkeep c c'
  | finishWrite : Upkeep c c.finishWrite

/-- `P` is kept by upkeep of this connection. -/
def Kept {σ : Type} (conn : Lens σ TcpConnection) (P : σ → Prop) : Prop :=
  ∀ s c, P s → Upkeep (conn.get s) c → P (conn.set s c)

namespace Kept

variable {σ : Type} {conn : Lens σ TcpConnection} {P : σ → Prop} (hP : Kept conn P) {tid : ℕ} {s s' : σ}

include hP

theorem notify {cb : Callback} {k : σ → Except Fault σ} (hk : ∀ s s', P s → k s = .ok s' → P s') (hs : P s)
    (h : TcpConnection.notify conn cb k s = .ok s') : P s' := by
  rcases notify_ok h with ⟨-, rfl⟩ | ⟨-, h⟩
  · exact hs
  · exact hk _ _ (hP s _ hs (.callback cb)) h

theorem connectEstablished {k : σ → Except Fault σ} (hk : ∀ s s', P s → k s = .ok s' → P s') (hs : P s)
    (h : TcpConnection.connectEstablished tid conn k s = .ok s') : P s' := by
  obtain ⟨c, hcore, h⟩ := connectEstablished_cases h
  exact hP.notify hk (hP s c hs (.establish hcore)) h

theorem connectDestroyed {k : σ → Except Fault σ} (hk : ∀ s s', P s → k s = .ok s' → P s') (hs : P s)
    (h : TcpConnection.connectDestroyed tid conn k s = .ok s') : P s' := by
  obtain ⟨s1, c', htail, rfl, ⟨-, rfl⟩ | ⟨-, c, hcore, h⟩⟩ := connectDestroyed_cases h
  · exact hP _ c' (hP s _ hs (.log rfl)) (.destroyTail htail)
  · have hs1 : P s1 := hk _ _ (hP s c hs (.destroyCore hcore)) h
    exact hP s1 c' hs1 (.destroyTail htail)

theorem handleClose {k kc : σ → Except Fault σ} (hk : ∀ s s', P s → k s = .ok s' → P s')
    (hkc : ∀ s s', P s → kc s = .ok s' → P s') (hs : P s)
    (h : TcpConnection.handleClose tid conn k kc s = .ok s') : P s' := by
  obtain ⟨c, s1, s2, hcore, h1, h2, rfl⟩ := handleClose_cases h
  have hs2 : P s2 := hP.notify hkc (hP.notify hk (hP s c hs (.close hcore)) h1) h2
  exact hP s2 _ hs2 (.log rfl)

theorem handleWrite {k : σ → Except Fault σ} (hk : ∀ s s', P s → k s = .ok s' → P s') {res : WriteResult}
    (hs : P s) (h : TcpConnection.handleWrite tid conn k res s = .ok s') : P s' := by
  rw [handleWrite_eq] at h
  obtain ⟨⟨c, drained⟩, hdrain, h⟩ := bind_eq_ok h
  have hs1 := hP s c hs (.drain hdrain)
  cases drained with
  | false =>
    cases h
    exact hs1
  | true =>
    obtain ⟨s2, h2, h⟩ := bind_eq_ok h
    cases h
    exact hP s2 _ (hP.notify hk hs1 h2) .finishWrite

/-- `HandleRead`, if what is read keeps `P` too. -/
theorem handleRead {km k kc : σ → Except Fault σ} (hm : ∀ s s', P s → km s = .ok s' → P s')
    (hk : ∀ s s', P s → k s = .ok s' → P s') (hkc : ∀ s s', P s → kc s = .ok s' → P s') {r : Buffer.ReadvResult}
    (hread : ∀ n e b, (conn.get s).inputBuffer.readFd r 0 = .ok (n, e, b) →
      P (conn.set s { conn.get s with inputBuffer := b }))
    (h : TcpConnection.handleRead tid conn km k kc r s = .ok s') : P s' := by
  obtain ⟨n, e, b, hr, h⟩ := handleRead_cases h
  have hs1 := hread n e b hr
  rcases h with ⟨-, h⟩ | ⟨-, h⟩ | ⟨-, rfl⟩
  · have hs2 := hP _ _ hs1 (.callback .message)
    rw [Lens.get_set, Lens.set_set] at hs2
    exact hm _ _ hs2 h
  · exact hP.handleClose hk hkc hs1 h
  · have hs2 := hP _ _ hs1 (.log (e := .handleError) rfl)
    rwa [Lens.get_set, Lens.set_set] at hs2

/-- One handler, if its reads are kept too. -/
theorem handle {re : Reaction σ} (hw : ∀ s s', P s → re.writeComplete s = .ok s' → P s')
    (hk : ∀ s s', P s → re.connection s = .ok s' → P s') (hkc : ∀ s s', P s → re.close s = .ok s' → P s')
    (hd : Handler) (hs : P s)
    (hread : hd = .read → ∀ s', P (conn.modify (log (.handler .read)) s) → TcpConnection.handleRead tid conn
      re.message re.connection re.close re.read (conn.modify (log (.handler .read)) s) = .ok s' → P s')
    (h : TcpConnection.handle tid conn re hd s = .ok s') : P s' := by
  have hs1 : P (conn.modify (log (.handler hd)) s) := hP s _ hs (.log rfl)
  unfold TcpConnection.handle at h
  cases hd with
  | close => exact hP.handleClose hk hkc hs1 h
  | error =>
    cases h
    exact hP _ _ hs1 (.log rfl)
  | write => exact hP.handleWrite hw hs1 h
  | read => exact hread rfl s' hs1 h

end Kept

end MiniMuduo
