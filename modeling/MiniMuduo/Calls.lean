/-
# What user code keeps, and the runs of one connection

Everything a callback can do to a connection is a sequence of parts, each on
one connection and with no callback inside (`ActPart`): the part of `send`
before its callback, `ShutDown`, a `retrieve` on the input buffer, and the
two halves of `ConnectDestroyed`. So what every part keeps, every script of a
callback keeps, however deep it re-enters (`runActs_keeps`).

`Call` are the calls the loop's thread makes on one connection, in any
order, and `callMachine` its runs; `call_keeps` is the same rule for them,
and `call_keeps_of_handleWrite` the one for what the drain of `HandleWrite`
breaks and its end restores.

Key definitions: `ActPart`, `Call`, `callMachine`, `CallPart`, `QuietPart`.
Key theorems: `runActs_keeps`, `call_keeps`, `handleClose_cases`,
`connectDestroyed_cases`.
-/
import MiniMuduo.Lib.Run
import MiniMuduo.Reentry

namespace MiniMuduo

open Fallible Runs

namespace TcpConnection

variable {σ : Type} {tid : ℕ} {conn : Lens σ TcpConnection}

/-- The connection is up: `kConnected` or `kDisconnecting`. -/
def Up (c : TcpConnection) : Prop := c.state = .kConnected ∨ c.state = .kDisconnecting

instance (c : TcpConnection) : Decidable c.Up := inferInstanceAs (Decidable (_ ∨ _))

theorem Up.ne_connecting {c : TcpConnection} (h : c.Up) : c.state ≠ .kConnecting := by
  rcases h with h | h <;> rw [h] <;> decide

theorem Up.ne_disconnected {c : TcpConnection} (h : c.Up) : c.state ≠ .kDisconnected := by
  rcases h with h | h <;> rw [h] <;> decide

/-- A callback called without a test was set. -/
theorem invoke_ok {cb : Callback} {k : σ → Except Fault σ} {s s' : σ} {c : TcpConnection}
    (h : invoke conn cb k (conn.set s c) = .ok s') : k (conn.set s (c.logCallback cb)) = .ok s' := by
  unfold invoke at h
  split at h
  · simpa using h
  · cases h

/-- A callback called after a test ran, or was not set. -/
theorem notify_ok {cb : Callback} {k : σ → Except Fault σ} {s s' : σ}
    (h : notify conn cb k s = .ok s') :
    ((conn.get s).isSet cb = false ∧ s' = s) ∨
      ((conn.get s).isSet cb = true ∧ k (conn.modify (logCallback cb) s) = .ok s') := by
  unfold notify at h
  split at h
  case isTrue hset => exact .inr ⟨hset, h⟩
  case isFalse hset => exact .inl ⟨Bool.not_eq_true _ ▸ hset, (Except.ok.inj h).symm⟩

/-! ### ConnectDestroyed -/

/-- `ConnectDestroyed` of a connection that is up, up to its callback. -/
def destroyCore (tid : ℕ) (c : TcpConnection) : Except Fault TcpConnection := do
  let c ← ((c.log (.connectDestroyed tid)).setState .kDisconnected).onChannel tid Channel.disableAll
  return c.logCallback .connection

/-- The end of `ConnectDestroyed`. -/
def destroyTail (tid : ℕ) (c : TcpConnection) : Except Fault TcpConnection := do
  let c ← c.onChannel tid Channel.disableAll
  c.removeChannel tid

theorem destroyCore_down {c c' : TcpConnection} (h : destroyCore tid c = .ok c') : ¬ c'.Up := by
  obtain ⟨c1, hop, hc⟩ := bind_eq_ok h
  obtain ⟨ch, -, rfl⟩ := onChannel_ok hop
  cases hc
  simp [Up, logCallback, log, setState]

/-- What `ConnectDestroyed` can do. -/
theorem connectDestroyed_cases {k : σ → Except Fault σ} {s s' : σ}
    (h : connectDestroyed tid conn k s = .ok s') :
    ∃ s1 c', destroyTail tid (conn.get s1) = .ok c' ∧ s' = conn.set s1 c' ∧
      ((¬ (conn.get s).Up ∧ s1 = conn.set s ((conn.get s).log (.connectDestroyed tid))) ∨
        ((conn.get s).Up ∧ ∃ c, destroyCore tid (conn.get s) = .ok c ∧ k (conn.set s c) = .ok s1)) := by
  unfold connectDestroyed at h
  by_cases hup : (conn.get s).Up
  · have hup' : ((conn.get s).log (.connectDestroyed tid)).state = .kConnected ∨
        ((conn.get s).log (.connectDestroyed tid)).state = .kDisconnecting := hup
    simp only [if_pos hup'] at h
    obtain ⟨c, hop, h⟩ := bind_eq_ok h
    obtain ⟨s1, hk, h⟩ := bind_eq_ok h
    obtain ⟨c1, hc1, h⟩ := bind_eq_ok h
    obtain ⟨c2, hc2, h⟩ := bind_eq_ok h
    refine ⟨s1, c2, ?_, (Except.ok.inj h).symm, .inr ⟨hup, c.logCallback .connection, ?_, ?_⟩⟩
    · simp [destroyTail, hc1, hc2]
    · simp [destroyCore, hop]
    · exact invoke_ok hk
  · have hup' : ¬ (((conn.get s).log (.connectDestroyed tid)).state = .kConnected ∨
        ((conn.get s).log (.connectDestroyed tid)).state = .kDisconnecting) := hup
    simp only [if_neg hup', ok_bind, Lens.get_set] at h
    obtain ⟨c1, hc1, h⟩ := bind_eq_ok h
    obtain ⟨c2, hc2, h⟩ := bind_eq_ok h
    refine ⟨_, c2, ?_, (Except.ok.inj h).symm, .inl ⟨hup, rfl⟩⟩
    simp [destroyTail, hc1, hc2]

/-! ### HandleClose -/

/-- `HandleClose` up to its callbacks. -/
def closeCore (tid : ℕ) (c : TcpConnection) : Except Fault TcpConnection :=
  ((c.log (.handleClose c.state)).setState .kDisconnected).onChannel tid Channel.disableAll

/-- What `HandleClose` can do. -/
theorem handleClose_cases {k kc : σ → Except Fault σ} {s s' : σ}
    (h : handleClose tid conn k kc s = .ok s') :
    ∃ c s1 s2, closeCore tid (conn.get s) = .ok c ∧ notify conn .connection k (conn.set s c) = .ok s1 ∧
      notify conn .close kc s1 = .ok s2 ∧ s' = conn.modify (log .handleCloseReturned) s2 := by
  unfold handleClose at h
  obtain ⟨c, hop, h⟩ := bind_eq_ok h
  obtain ⟨s1, hs1, h⟩ := bind_eq_ok h
  obtain ⟨s2, hs2, h⟩ := bind_eq_ok h
  exact ⟨c, s1, s2, hop, hs1, hs2, (Except.ok.inj h).symm⟩

/-! ### HandleRead and ConnectEstablished -/

/-- What `HandleRead` can do. -/
theorem handleRead_cases {km k kc : σ → Except Fault σ} {r : Buffer.ReadvResult} {s s' : σ}
    (h : handleRead tid conn km k kc r s = .ok s') :
    ∃ n e b, (conn.get s).inputBuffer.readFd r 0 = .ok (n, e, b) ∧
      ((0 < n ∧ km (conn.set s ({ conn.get s with inputBuffer := b }.logCallback .message)) = .ok s') ∨
        (n = 0 ∧ handleClose tid conn k kc (conn.set s { conn.get s with inputBuffer := b }) = .ok s') ∨
        (n < 0 ∧ s' = conn.set s ({ conn.get s with inputBuffer := b }.log .handleError))) := by
  unfold handleRead at h
  obtain ⟨⟨n, e, b⟩, hr, h⟩ := bind_eq_ok h
  refine ⟨n, e, b, hr, ?_⟩
  rcases Int.lt_trichotomy n 0 with hn | hn | hn
  · have h1 : ¬ 0 < n := by omega
    have h2 : ¬ n = 0 := by omega
    simp only [h1, h2, if_false, handleError, Lens.modify_set] at h
    exact .inr (.inr ⟨hn, (Except.ok.inj h).symm⟩)
  · subst hn
    exact .inr (.inl ⟨rfl, h⟩)
  · simp only [hn, if_true] at h
    exact .inl ⟨hn, invoke_ok h⟩

/-- `ConnectEstablished` up to its callback. -/
def establishCore (tid : ℕ) (c : TcpConnection) : Except Fault TcpConnection := do
  let c ← ((c.log (.connectEstablished tid)).setState .kConnected).onChannel tid Channel.enableReading
  return { c with channel := c.channel.tie }

/-- What `ConnectEstablished` can do. -/
theorem connectEstablished_cases {k : σ → Except Fault σ} {s s' : σ}
    (h : connectEstablished tid conn k s = .ok s') :
    ∃ c, establishCore tid (conn.get s) = .ok c ∧
      notify conn .connection k (conn.set s c) = .ok s' := by
  unfold connectEstablished at h
  obtain ⟨c, hop, h⟩ := bind_eq_ok h
  refine ⟨{ c with channel := c.channel.tie }, ?_, h⟩
  simp [establishCore, hop]

end TcpConnection

open TcpConnection

/-! ### Scripts -/

mutual

/-- The act is on connections `on` only, the callbacks inside it too, and
destroys one only where `d` allows it. -/
def Act.allowed {ι : Type} (d : Bool) (on : ι → Bool) : Act ι → Bool
  | .send i _ _ writeComplete => on i && scriptAllowed d on writeComplete
  | .shutDown i => on i
  | .retrieve i _ => on i
  | .destroy i connection => d && on i && scriptAllowed d on connection

/-- Every act of the script is allowed. -/
def scriptAllowed {ι : Type} (d : Bool) (on : ι → Bool) : List (Act ι) → Bool
  | [] => true
  | a :: as => a.allowed d on && scriptAllowed d on as

end

/-- One part of what user code does to a connection; `d` allows the parts of
`ConnectDestroyed`. -/
inductive ActPart (tid : ℕ) (d : Bool) (c : TcpConnection) : TcpConnection → Prop
  | sends {message : List UInt8} {res : WriteResult} {c' : TcpConnection} {b : Bool} :
      Sends tid message res c c' b → ActPart tid d c c'
  | shutDown : ActPart tid d c (TcpConnection.shutDown .self c)
  | retrieve {len : ℕ} {b : Buffer} : c.inputBuffer.retrieve len = .ok b →
      ActPart tid d c { c with inputBuffer := b }
  | destroyDown : d = true → ¬ c.Up → ActPart tid d c (c.log (.connectDestroyed tid))
  | destroyUp {c' : TcpConnection} : d = true → c.Up → destroyCore tid c = .ok c' → ActPart tid d c c'
  | destroyTail {c' : TcpConnection} : d = true → ¬ c.Up → destroyTail tid c = .ok c' → ActPart tid d c c'

theorem shutDown_eq {σ : Type} (conn : Lens σ TcpConnection) (s : σ) :
    TcpConnection.shutDown conn s = conn.set s (TcpConnection.shutDown .self (conn.get s)) := by
  unfold TcpConnection.shutDown
  by_cases h : (conn.get s).state = .kConnected
  · simp only [Lens.self_get, Lens.self_set, h, if_true]
    rfl
  · simp [h]

/-- What `ShutDown` can do. -/
theorem shutDown_cases (c : TcpConnection) :
    (c.state ≠ .kConnected ∧ TcpConnection.shutDown .self c = c) ∨
      (c.state = .kConnected ∧ c.channel.isWriting = true ∧
        TcpConnection.shutDown .self c = c.setState .kDisconnecting) ∨
      (c.state = .kConnected ∧ c.channel.isWriting = false ∧
        TcpConnection.shutDown .self c = (c.setState .kDisconnecting).shutdownWrite) := by
  by_cases hst : c.state = .kConnected
  · have hw : (c.setState .kDisconnecting).channel.isWriting = c.channel.isWriting := rfl
    cases h : c.channel.isWriting with
    | true => exact .inr (.inl ⟨hst, rfl, by simp [TcpConnection.shutDown, hst, hw, h]⟩)
    | false => exact .inr (.inr ⟨hst, rfl, by simp [TcpConnection.shutDown, hst, hw, h]⟩)
  · exact .inl ⟨hst, by simp [TcpConnection.shutDown, hst]⟩

/-- No part moves the state of a connection that is not up. -/
theorem actPart_state {tid : ℕ} {d : Bool} {c c' : TcpConnection} (hdown : ¬ c.Up)
    (h : ActPart tid d c c') : c'.state = c.state := by
  have hst : c.state ≠ .kConnected := fun h' => hdown (.inl h')
  cases h with
  | sends hs =>
    cases hs with
    | ignored _ => rfl
    | whole h' => exact absurd h' hst
    | complete h' => exact absurd h' hst
    | fault h' => exact absurd h' hst
    | nothing h' => exact absurd h' hst
    | part h' => exact absurd h' hst
    | queued h' => exact absurd h' hst
  | shutDown =>
    rcases shutDown_cases c with ⟨-, hc⟩ | ⟨h', -⟩ | ⟨h', -⟩
    · rw [hc]
    · exact absurd h' hst
    · exact absurd h' hst
  | retrieve _ => rfl
  | destroyDown _ _ => rfl
  | destroyUp _ hup _ => exact absurd hup hdown
  | destroyTail _ _ htail =>
    obtain ⟨c1, hop, hrm⟩ := bind_eq_ok htail
    obtain ⟨ch, -, rfl⟩ := onChannel_ok hop
    obtain ⟨ch', -, hc⟩ := bind_eq_ok hrm
    cases hc
    rfl

theorem actPart_down {tid : ℕ} {d : Bool} {c c' : TcpConnection} (hdown : ¬ c.Up)
    (h : ActPart tid d c c') : ¬ c'.Up := by
  unfold Up
  rw [actPart_state hdown h]
  exact hdown

/-! ### What the parts write into the trace -/

/-- `c'` has the trace of `c` with more events in front, all of them `p`. -/
def Adds (p : Event → Prop) (c c' : TcpConnection) : Prop :=
  ∃ es, (∀ e ∈ es, p e) ∧ c'.trace = es ++ c.trace

/-- The events of bytes, states and channels: all but the callbacks, the
half-close and the two ends of `HandleClose`. -/
def Event.routine : Event → Bool
  | .callback .. | .shutdownWrite _ | .handleClose _ | .handleCloseReturned => false
  | _ => true

namespace Adds

variable {p : Event → Prop} {tid : ℕ} {d : Bool} {c c1 c' : TcpConnection}

theorem of_eq (h : c'.trace = c.trace) : Adds p c c' := ⟨[], by simp, h⟩

theorem cons {e : Event} (he : p e) (h : c'.trace = e :: c.trace) : Adds p c c' :=
  ⟨[e], by simpa using he, h⟩

theorem trans (h : Adds p c c1) (h' : Adds p c1 c') : Adds p c c' := by
  obtain ⟨es, hes, htr⟩ := h
  obtain ⟨es', hes', htr'⟩ := h'
  refine ⟨es' ++ es, fun e he => ?_, ?_⟩
  · rcases List.mem_append.mp he with he | he
    · exact hes' e he
    · exact hes e he
  · rw [htr', htr, List.append_assoc]

/-- The events of one trace satisfy what those of its end and the new ones
satisfy. -/
theorem forall_mem (h : Adds p c c') : (∀ e ∈ c'.trace, p e) ↔ ∀ e ∈ c.trace, p e := by
  obtain ⟨es, hes, htr⟩ := h
  rw [htr]
  constructor
  · intro hall e he
    exact hall e (List.mem_append_right _ he)
  · intro hall e he
    rcases List.mem_append.mp he with he | he
    · exact hes e he
    · exact hall e he

theorem log {e : Event} (he : p e) : Adds p c (c.log e) := cons he rfl

variable (hp : ∀ e : Event, e.routine = true → p e)

include hp

theorem setState (new : StateE) : Adds p c (c.setState new) := cons (hp (.setState c.state new) rfl) rfl

theorem onChannel {op : Bool → Channel → Except Fault Channel} (h : c.onChannel tid op = .ok c') :
    Adds p c c' := by
  obtain ⟨ch, -, rfl⟩ := onChannel_ok h
  exact cons (hp (.updateChannel tid) rfl) rfl

theorem queue {rest : List UInt8} (h : c.queue tid rest = .ok c') : Adds p c c' := by
  obtain ⟨out, -, ⟨-, rfl⟩ | ⟨-, ch, -, rfl⟩⟩ := queue_ok h
  · exact of_eq rfl
  · exact cons (hp (.updateChannel tid) rfl) rfl

theorem sends {message : List UInt8} {res : WriteResult} {k : Bool}
    (hcb : c.state = .kConnected → p (.callback .writeComplete c.state c.outputBuffer.readable))
    (hs : Sends tid message res c c' k) : Adds p c c' := by
  have htwo : ∀ bytes, Adds p c ((c.log (.wrote bytes)).log (.sent message false)) :=
    fun bytes => (log (hp (.wrote bytes) rfl)).trans (log (hp (.sent message false) rfl))
  cases hs with
  | ignored _ => exact of_eq rfl
  | whole => exact htwo message
  | complete hst => exact (htwo message).trans (cons (hcb hst) rfl)
  | fault => exact log (hp (.sent message true) rfl)
  | nothing => exact log (hp (.sent message false) rfl)
  | part _ _ _ _ hq => exact (htwo _).trans (queue hp hq)
  | queued _ _ _ _ hq => exact (log (hp (.sent message false) rfl)).trans (queue hp hq)

theorem shutDown
    (hshut : c.state = .kConnected → c.channel.isWriting = false → p (.shutdownWrite c.outputBuffer.readable)) :
    Adds p c (shutDown .self c) := by
  rcases shutDown_cases c with ⟨-, hc⟩ | ⟨-, -, hc⟩ | ⟨hst, hw, hc⟩
  · rw [hc]
    exact of_eq rfl
  · rw [hc]
    exact setState hp _
  · rw [hc]
    exact (setState hp .kDisconnecting).trans (cons (hshut hst hw) rfl)

theorem destroyTail (h : destroyTail tid c = .ok c') : Adds p c c' := by
  obtain ⟨c1, hop, hrm⟩ := bind_eq_ok h
  obtain ⟨ch, -, hc⟩ := bind_eq_ok hrm
  cases hc
  exact (onChannel hp hop).trans (cons (hp (.removeChannel tid) rfl) rfl)

/-- User code invokes callbacks of connections that are up, and half-closes
in `ShutDown`. -/
theorem actPart
    (hcb : c.Up → ∀ cb st, p (.callback cb st c.outputBuffer.readable))
    (hshut : c.state = .kConnected → c.channel.isWriting = false → p (.shutdownWrite c.outputBuffer.readable))
    (h : ActPart tid d c c') : Adds p c c' := by
  cases h with
  | sends hs => exact sends hp (fun hst => hcb (.inl hst) _ _) hs
  | shutDown => exact shutDown hp hshut
  | retrieve _ => exact of_eq rfl
  | destroyDown _ _ => exact log (hp (.connectDestroyed tid) rfl)
  | destroyUp _ hup hcore =>
    obtain ⟨c1, hop, hc⟩ := bind_eq_ok hcore
    cases hc
    have hlog : Adds p c (c.log (.connectDestroyed tid)) := log (hp _ rfl)
    obtain ⟨ch, -, rfl⟩ := onChannel_ok hop
    exact hlog.trans ((setState hp .kDisconnected).trans ((onChannel hp hop).trans
      (cons (hcb hup .connection .kDisconnected) rfl)))
  | destroyTail _ _ htail => exact destroyTail hp htail

theorem close (hclose : p (.handleClose c.state)) (h : closeCore tid c = .ok c') : Adds p c c' :=
  (log hclose).trans ((setState hp .kDisconnected).trans (onChannel hp h))

theorem establish (h : establishCore tid c = .ok c') : Adds p c c' := by
  obtain ⟨c1, hop, hc⟩ := bind_eq_ok h
  cases hc
  have hlog : Adds p c (c.log (.connectEstablished tid)) := log (hp _ rfl)
  exact (hlog.trans ((setState hp .kConnected).trans (onChannel hp hop))).trans (of_eq rfl)

theorem drains {res : WriteResult} {k : Bool} (h : Drains tid res c c' k) : Adds p c c' := by
  cases h with
  | idle _ => exact of_eq rfl
  | @part n _ => exact cons (hp (.wrote (c.outputBuffer.readable.take n)) rfl) rfl
  | whole =>
    have hlog : Adds p c (c.log (.wrote c.outputBuffer.readable)) := log (hp _ rfl)
    exact hlog.trans (cons (hp (.updateChannel tid) rfl) rfl)

end Adds

section keeps

variable {σ ι : Type} {tid : ℕ} {d : Bool} {on : ι → Bool} {conn : ι → Lens σ TcpConnection}

/-- Two connections of the state are the same one or do not touch. -/
def Apart (conn : ι → Lens σ TcpConnection) : Prop :=
  ∀ i j s c, ((conn i).get s = (conn j).get s ∧ (conn i).get ((conn j).set s c) = c) ∨
    (conn i).get ((conn j).set s c) = (conn i).get s

/-- `P` is kept by every part on the connections `on`. -/
def KeptBy (tid : ℕ) (d : Bool) (on : ι → Bool) (conn : ι → Lens σ TcpConnection) (P : σ → Prop) : Prop :=
  ∀ s i c', on i = true → P s → ActPart tid d ((conn i).get s) c' → P ((conn i).set s c')

theorem keptBy_down (hsep : Apart conn) (i : ι) : KeptBy tid d on conn fun s => ¬ ((conn i).get s).Up := by
  intro s j c' _ hdown hp
  rcases hsep i j s c' with ⟨hsame, hget⟩ | hget
  · rw [hget]
    exact actPart_down (hsame ▸ hdown) hp
  · rwa [hget]

mutual

/-- What every part keeps, every act keeps. -/
theorem runAct_keeps (hsep : Apart conn) : ∀ (a : Act ι), a.allowed d on = true → ∀ {P : σ → Prop},
    KeptBy tid d on conn P → ∀ s s', P s → runAct tid conn a s = .ok s' → P s'
  | .send i message res writeComplete, ha, P, hpart, s, s', hs, h => by
    unfold Act.allowed at ha
    obtain ⟨hi, hscript⟩ := Bool.and_eq_true_iff.mp ha
    unfold runAct at h
    obtain ⟨c, ⟨hsend, rfl⟩ | ⟨hsend, hk⟩⟩ := send_cases h
    · exact hpart s i c hi hs (.sends hsend)
    · exact runActs_keeps hsep writeComplete hscript hpart _ s' (hpart s i c hi hs (.sends hsend)) hk
  | .shutDown i, ha, P, hpart, s, s', hs, h => by
    unfold Act.allowed at ha
    unfold runAct at h
    rw [shutDown_eq] at h
    cases h
    exact hpart s i _ ha hs .shutDown
  | .retrieve i len, ha, P, hpart, s, s', hs, h => by
    unfold Act.allowed at ha
    unfold runAct retrieveInput at h
    obtain ⟨b, hb, h⟩ := bind_eq_ok h
    cases h
    exact hpart s i _ ha hs (.retrieve hb)
  | .destroy i connection, ha, P, hpart, s, s', hs, h => by
    unfold Act.allowed at ha
    obtain ⟨hdi, hscript⟩ := Bool.and_eq_true_iff.mp ha
    obtain ⟨hd, hi⟩ := Bool.and_eq_true_iff.mp hdi
    unfold runAct at h
    obtain ⟨s1, c', htail, rfl, hcase⟩ := connectDestroyed_cases h
    rcases hcase with ⟨hdown, rfl⟩ | ⟨hup, c, hcore, hk⟩
    · refine hpart _ i c' hi (hpart s i _ hi hs (.destroyDown hd hdown)) (.destroyTail hd ?_ htail)
      rw [Lens.get_set]
      exact hdown
    · have hdown : ¬ ((conn i).get ((conn i).set s c)).Up := by
        rw [Lens.get_set]
        exact destroyCore_down hcore
      have hdown1 := runActs_keeps hsep connection hscript (keptBy_down hsep i) _ s1 hdown hk
      have hs1 := runActs_keeps hsep connection hscript hpart _ s1
        (hpart s i c hi hs (.destroyUp hd hup hcore)) hk
      exact hpart s1 i c' hi hs1 (.destroyTail hd hdown1 htail)

/-- What every part keeps, every script keeps. -/
theorem runActs_keeps (hsep : Apart conn) : ∀ (as : List (Act ι)), scriptAllowed d on as = true →
    ∀ {P : σ → Prop}, KeptBy tid d on conn P → ∀ s s', P s → runActs tid conn as s = .ok s' → P s'
  | [], _, P, _, s, s', hs, h => by
    unfold runActs at h
    cases h
    exact hs
  | a :: as, has, P, hpart, s, s', hs, h => by
    unfold scriptAllowed at has
    obtain ⟨ha, has⟩ := Bool.and_eq_true_iff.mp has
    unfold runActs at h
    obtain ⟨s1, hs1, h⟩ := bind_eq_ok h
    exact runActs_keeps hsep as has hpart s1 s' (runAct_keeps hsep a ha hpart s s1 hs hs1) h

end

mutual

/-- An act may do everything when everything is allowed. -/
theorem Act.allowed_all : ∀ a : Act ι, a.allowed true (fun _ => true) = true
  | .send _ _ _ writeComplete => by
    unfold Act.allowed
    exact scriptAllowed_all writeComplete
  | .shutDown _ => by
    unfold Act.allowed
    rfl
  | .retrieve _ _ => by
    unfold Act.allowed
    rfl
  | .destroy _ connection => by
    unfold Act.allowed
    exact scriptAllowed_all connection

theorem scriptAllowed_all : ∀ as : List (Act ι), scriptAllowed true (fun _ => true) as = true
  | [] => by
    unfold scriptAllowed
    rfl
  | a :: as => by
    unfold scriptAllowed
    rw [Act.allowed_all a, scriptAllowed_all as]
    rfl

end

end keeps

/-! ### One connection -/

/-- What a callback of one connection does with it. -/
abbrev Script := List (Act Unit)

/-- Run a script on a connection that is the whole state. -/
def runScript (tid : ℕ) (script : Script) (c : TcpConnection) : Except Fault TcpConnection :=
  runActs tid (fun _ => Lens.self) script c

theorem apart_self : Apart fun _ : Unit => (Lens.self : Lens TcpConnection TcpConnection) :=
  fun _ _ _ _ => .inl ⟨rfl, rfl⟩

/-- A call of the loop's thread on a connection, with what the environment
decides during it. -/
inductive Call
  | connectEstablished (connection : Script)
  | send (message : List UInt8) (res : WriteResult) (writeComplete : Script)
  | shutDown
  | handleRead (r : Buffer.ReadvResult) (message connection : Script)
  | handleWrite (res : WriteResult) (writeComplete : Script)
  | handleClose (connection : Script)
  | connectDestroyed (connection : Script)

/-- `ConnectEstablished` is queued once, when the connection is created. -/
def callEnabled (c : TcpConnection) : Call → Prop
  | .connectEstablished _ => c.state = .kConnecting
  | _ => True

instance (c : TcpConnection) : ∀ a, Decidable (callEnabled c a)
  | .connectEstablished _ => inferInstanceAs (Decidable (_ = _))
  | .send .. | .shutDown | .handleRead .. | .handleWrite .. | .handleClose _ | .connectDestroyed _ =>
    inferInstanceAs (Decidable True)

/-- One call. `TcpServer::RemoveConnection`, the close callback, does nothing
to the connection. -/
def call (tid : ℕ) (c : TcpConnection) : Call → Except Fault TcpConnection
  | .connectEstablished connection => connectEstablished tid .self (runScript tid connection) c
  | .send message res writeComplete => send tid .self (runScript tid writeComplete) message res c
  | .shutDown => .ok (shutDown .self c)
  | .handleRead r message connection =>
    handleRead tid .self (runScript tid message) (runScript tid connection) .ok r c
  | .handleWrite res writeComplete => handleWrite tid .self (runScript tid writeComplete) res c
  | .handleClose connection => handleClose tid .self (runScript tid connection) .ok c
  | .connectDestroyed connection => connectDestroyed tid .self (runScript tid connection) c

/-- The runs of one connection on the thread of its loop. -/
def callMachine (tid : ℕ) : Machine TcpConnection Call Fault := ⟨callEnabled, call tid⟩

instance (tid : ℕ) (c : TcpConnection) (a : Call) : Decidable ((callMachine tid).enabled c a) :=
  inferInstanceAs (Decidable (callEnabled c a))

/-- One part of what a call does to its connection; the end of `HandleWrite`
(`finishWrite`) is not one of them. -/
inductive CallPart (tid : ℕ) (c : TcpConnection) : TcpConnection → Prop
  | act {c' : TcpConnection} : ActPart tid true c c' → CallPart tid c c'
  | drains {res : WriteResult} {c' : TcpConnection} {b : Bool} : Drains tid res c c' b → CallPart tid c c'
  | callback (cb : Callback) : CallPart tid c (c.logCallback cb)
  | close {c' : TcpConnection} : closeCore tid c = .ok c' → CallPart tid c c'
  | closeReturned : CallPart tid c (c.log .handleCloseReturned)
  | read {r : Buffer.ReadvResult} {n : ℤ} {e : ℕ} {b : Buffer} : c.inputBuffer.readFd r 0 = .ok (n, e, b) →
      CallPart tid c { c with inputBuffer := b }
  | error : CallPart tid c (c.log .handleError)
  | establish {c' : TcpConnection} : c.state = .kConnecting → establishCore tid c = .ok c' →
      CallPart tid c c'

/-- The parts of a call other than the drain of `HandleWrite`. -/
inductive QuietPart (tid : ℕ) (c : TcpConnection) : TcpConnection → Prop
  | act {c' : TcpConnection} : ActPart tid true c c' → QuietPart tid c c'
  | callback (cb : Callback) : QuietPart tid c (c.logCallback cb)
  | close {c' : TcpConnection} : closeCore tid c = .ok c' → QuietPart tid c c'
  | closeReturned : QuietPart tid c (c.log .handleCloseReturned)
  | read {r : Buffer.ReadvResult} {n : ℤ} {e : ℕ} {b : Buffer} : c.inputBuffer.readFd r 0 = .ok (n, e, b) →
      QuietPart tid c { c with inputBuffer := b }
  | error : QuietPart tid c (c.log .handleError)
  | establish {c' : TcpConnection} : c.state = .kConnecting → establishCore tid c = .ok c' →
      QuietPart tid c c'

theorem QuietPart.callPart {tid : ℕ} {c c' : TcpConnection} (h : QuietPart tid c c') : CallPart tid c c' := by
  cases h with
  | act ha => exact .act ha
  | callback cb => exact .callback cb
  | close hcore => exact .close hcore
  | closeReturned => exact .closeReturned
  | read hr => exact .read hr
  | error => exact .error
  | establish hst hcore => exact .establish hst hcore

/-- What `HandleWrite` of a connection that is the whole state can do. -/
theorem handleWrite_self {tid : ℕ} {k : TcpConnection → Except Fault TcpConnection} {res : WriteResult}
    {c c' : TcpConnection} (hwf : c.outputBuffer.WF) (h : handleWrite tid .self k res c = .ok c') :
    ∃ c1, (Drains tid res c c1 false ∧ c' = c1) ∨
      (Drains tid res c c1 true ∧ ∃ c2, notify .self .writeComplete k c1 = .ok c2 ∧ c' = c2.finishWrite) :=
  handleWrite_cases hwf h

section keeps

variable {tid : ℕ} {I : TcpConnection → Prop} (hquiet : ∀ c c', I c → QuietPart tid c c' → I c')

include hquiet

theorem runScript_keeps {script : Script} {c c' : TcpConnection} (hc : I c)
    (h : runScript tid script c = .ok c') : I c' :=
  runActs_keeps apart_self script (scriptAllowed_all script) (fun s _ c' _ hs ha => hquiet s c' hs (.act ha))
    c c' hc h

theorem notify_keeps {cb : Callback} {script : Script} {c c' : TcpConnection} (hc : I c)
    (h : notify .self cb (runScript tid script) c = .ok c') : I c' := by
  rcases notify_ok h with ⟨-, rfl⟩ | ⟨-, hk⟩
  · exact hc
  · exact runScript_keeps hquiet (hquiet c _ hc (.callback cb)) hk

theorem handleClose_keeps {script : Script} {c c' : TcpConnection} (hc : I c)
    (h : handleClose tid .self (runScript tid script) .ok c = .ok c') : I c' := by
  obtain ⟨c1, c2, c3, hcore, h1, h2, rfl⟩ := handleClose_cases h
  have hc2 : I c2 := notify_keeps hquiet (hquiet c c1 hc (.close hcore)) h1
  have hc3 : I c3 := by
    rcases notify_ok h2 with ⟨-, rfl⟩ | ⟨-, hk⟩
    · exact hc2
    · cases hk
      exact hquiet c2 _ hc2 (.callback .close)
  exact hquiet c3 _ hc3 .closeReturned

/-- What the quiet parts and `HandleWrite` as a whole keep, every call keeps. -/
theorem call_keeps_of_handleWrite {c c' : TcpConnection} {a : Call} (hc : I c) (hen : callEnabled c a)
    (hwrite : ∀ res script, a = .handleWrite res script →
      handleWrite tid .self (runScript tid script) res c = .ok c' → I c')
    (h : call tid c a = .ok c') : I c' := by
  cases a with
  | connectEstablished connection =>
    obtain ⟨c1, hcore, h⟩ := connectEstablished_cases h
    exact notify_keeps hquiet (hquiet c c1 hc (.establish hen hcore)) h
  | send message res writeComplete =>
    obtain ⟨c1, ⟨hs, rfl⟩ | ⟨hs, hk⟩⟩ := send_cases h
    · exact hquiet c _ hc (.act (.sends hs))
    · exact runScript_keeps hquiet (hquiet c c1 hc (.act (.sends hs))) hk
  | shutDown =>
    cases h
    exact hquiet c _ hc (.act .shutDown)
  | handleRead r message connection =>
    obtain ⟨n, e, b, hr, h⟩ := handleRead_cases h
    have hc1 : I { c with inputBuffer := b } := hquiet c _ hc (.read hr)
    rcases h with ⟨-, hk⟩ | ⟨-, hclose⟩ | ⟨-, rfl⟩
    · exact runScript_keeps hquiet (hquiet _ _ hc1 (.callback .message)) hk
    · exact handleClose_keeps hquiet hc1 hclose
    · exact hquiet _ _ hc1 .error
  | handleWrite res writeComplete => exact hwrite res writeComplete rfl h
  | handleClose connection => exact handleClose_keeps hquiet hc h
  | connectDestroyed connection =>
    -- the call is the one-act script that destroys the connection
    have hrun : runScript tid [.destroy () connection] c = .ok c' := by
      unfold runScript runActs runAct runActs
      unfold call runScript at h
      simp [h]
    exact runScript_keeps hquiet hc hrun

end keeps

/-- What every part and the end of `HandleWrite` keep, every call keeps. -/
theorem call_keeps {tid : ℕ} {I : TcpConnection → Prop} (hwf : ∀ c, I c → c.outputBuffer.WF)
    (hpart : ∀ c c', I c → CallPart tid c c' → I c') {c c' : TcpConnection} {a : Call} (hc : I c)
    (hen : callEnabled c a)
    (hfinish : ∀ res script, a = .handleWrite res script → ∀ c1 c2, Drains tid res c c1 true →
      notify .self .writeComplete (runScript tid script) c1 = .ok c2 → I c2 → I c2.finishWrite)
    (h : call tid c a = .ok c') : I c' := by
  have hquiet : ∀ c c', I c → QuietPart tid c c' → I c' := fun c c' hc hp => hpart c c' hc hp.callPart
  refine call_keeps_of_handleWrite hquiet hc hen (fun res script ha h => ?_) h
  obtain ⟨c1, ⟨hd, rfl⟩ | ⟨hd, c2, hn, rfl⟩⟩ := handleWrite_self (hwf c hc) h
  · exact hpart c _ hc (.drains hd)
  · exact hfinish res script ha c1 c2 hd hn (notify_keeps hquiet (hpart c c1 hc (.drains hd)) hn)

/-- The callbacks that are set on a connection before it comes up. -/
structure Callbacks where
  connection : Bool
  message : Bool
  writeComplete : Bool
  close : Bool

/-- A connection that has just been built and given its callbacks. -/
def newConnection (tid : ℕ) (name : String) (sockfd : ℕ) (cbs : Callbacks) : TcpConnection :=
  { TcpConnection.create tid name sockfd with
    connectionCallback := cbs.connection
    messageCallback := cbs.message
    writeCompleteCallback := cbs.writeComplete
    closeCallback := cbs.close }

end MiniMuduo
