/-
# Queued output is written

What `HandleWrite` is for: bytes that `send` could not write at once are
written when epoll reports EPOLLOUT. Whatever else happens to a connection, as
long as it stays up and `send` takes no more bytes, each EPOLLOUT for which
`::write` accepts at least a byte brings the end nearer; after as many as there
were bytes queued, all of them have been written, in order, EPOLLOUT is no
longer asked for, and a connection that is shutting down has been half-closed
(`output_drains`). After `ShutDown`, `send` takes nothing, so there the
condition is met by itself.

Key definitions: `Call.writes`, `Muted`, `Draining`.
Key theorems: `call_keeps_tidy`, `call_descends`, `call_muted`,
`handleWrite_progress`, `handleWrite_returns`, `output_drains`.
-/
import MiniMuduo.HalfClose
import MiniMuduo.CloseOnce
import MiniMuduo.OutputStream
import MiniMuduo.Lifecycle

namespace MiniMuduo

open Fallible Runs TcpConnection

/-- `HandleWrite` for which `::write` accepts at least a byte. -/
def Call.writes : Call → Bool
  | .handleWrite (.wrote n) _ => 0 < n
  | _ => false

section parts

variable {tid : ℕ} {b : Bool} {c c' : TcpConnection}

/-! ### Traces grow -/

theorem accepted_append (es tr : List Event) : accepted (es ++ tr) = accepted tr ++ accepted es := by
  induction es with
  | nil => exact (List.append_nil _).symm
  | cons e es ih => cases e <;> simp [accepted, ih]

theorem sentBytes_append (es tr : List Event) : sentBytes (es ++ tr) = sentBytes tr ++ sentBytes es := by
  induction es with
  | nil => exact (List.append_nil _).symm
  | cons e es ih =>
    cases e with
    | sent message faultError => cases faultError <;> simp [sentBytes, ih]
    | _ => simp [sentBytes, ih]

/-- The end of `HandleWrite` moves no bytes and no state. -/
theorem finishWrite_same (c : TcpConnection) :
    c.finishWrite.state = c.state ∧ sentBytes c.finishWrite.trace = sentBytes c.trace := by
  unfold finishWrite
  split
  · exact ⟨rfl, rfl⟩
  · exact ⟨rfl, rfl⟩

/-- What the parts of a call on a tidy connection and the end of `HandleWrite`
keep, a call keeps. -/
theorem call_keeps_tidy {P : TcpConnection → Prop} {a : Call}
    (hpart : ∀ c1 c2, Tidy tid b c1 → P c1 → CallPart tid c1 c2 → P c2)
    (hfinish : ∀ c1, P c1 → P c1.finishWrite) (h : Afloat tid b c) (hP : P c) (hen : callEnabled c a)
    (hst : call tid c a = .ok c') : P c' := by
  have hkeep : ∀ c1 c2, (Tidy tid b c1 ∧ P c1) → CallPart tid c1 c2 → Tidy tid b c2 ∧ P c2 :=
    fun c1 c2 h1 hp => ⟨callPart_tidy h1.1 hp, hpart c1 c2 h1.1 h1.2 hp⟩
  refine (call_keeps (fun c1 h1 => h1.1.wf) hkeep ⟨h.tidy, hP⟩ hen ?_ hst).2
  intro res script _ c1 c2 _ _ h2
  exact ⟨finishWrite_tidy h2.1, hfinish c2 h2.2⟩

/-- A call leaves the trace behind it as it is. -/
theorem call_grows {a : Call} (h : Afloat tid b c) (hen : callEnabled c a) (hst : call tid c a = .ok c') :
    Adds (fun _ => True) c c' := by
  have hfinish : ∀ c1, Adds (fun _ => True) c c1 → Adds (fun _ => True) c c1.finishWrite := by
    intro c1 h1
    unfold finishWrite
    split
    · exact h1.trans (Adds.log trivial)
    · exact h1
  exact call_keeps_tidy (fun c1 c2 _ h1 hp => h1.trans (callPart_grows hp)) hfinish h (Adds.of_eq rfl) hen hst

theorem Adds.accepted_length {p : Event → Prop} (h : Adds p c c') :
    (accepted c.trace).length ≤ (accepted c'.trace).length := by
  obtain ⟨es, -, htr⟩ := h
  rw [htr, accepted_append, List.length_append]
  exact Nat.le_add_right _ _

theorem Adds.sentBytes_length {p : Event → Prop} (h : Adds p c c') :
    (sentBytes c.trace).length ≤ (sentBytes c'.trace).length := by
  obtain ⟨es, -, htr⟩ := h
  rw [htr, sentBytes_append, List.length_append]
  exact Nat.le_add_right _ _

/-! ### A connection does not come back -/

/-- A connection that was set up stays set up. -/
theorem callPart_begun (h : c.state ≠ .kConnecting) (hp : CallPart tid c c') : c'.state ≠ .kConnecting := by
  have hchannel : ∀ {c1 c2 : TcpConnection} {op : Bool → Channel → Except Fault Channel},
      c1.onChannel tid op = .ok c2 → c2.state = c1.state := by
    intro c1 c2 op hop
    obtain ⟨ch, -, rfl⟩ := onChannel_ok hop
    rfl
  have hdown : StateE.kDisconnected ≠ .kConnecting := by decide
  cases hp with
  | act ha =>
    cases ha with
    | sends hs =>
      rw [sends_state hs]
      exact h
    | shutDown =>
      rcases shutDown_cases c with ⟨-, hc⟩ | ⟨-, -, hc⟩ | ⟨-, -, hc⟩
      · rw [hc]
        exact h
      · rw [hc]
        simp [setState]
      · rw [hc]
        simp [setState, TcpConnection.shutdownWrite, log]
    | retrieve _ => exact h
    | destroyDown _ _ => exact h
    | destroyUp _ _ hcore =>
      obtain ⟨c1, hop, hc⟩ := bind_eq_ok hcore
      cases hc
      obtain ⟨ch, -, rfl⟩ := onChannel_ok hop
      exact hdown
    | destroyTail _ hnot htail =>
      rw [actPart_state hnot (.destroyTail rfl hnot htail)]
      exact h
  | drains hd =>
    cases hd with
    | idle _ => exact h
    | part => exact h
    | whole => exact h
  | callback cb => exact h
  | close hcore =>
    obtain ⟨ch, -, rfl⟩ := onChannel_ok hcore
    exact hdown
  | closeReturned => exact h
  | read _ => exact h
  | error => exact h
  | establish hst _ => exact absurd hst h

/-- `send` takes nothing from a connection that is not `kConnected` and will not
be again. -/
theorem callPart_silent (h : c.state ≠ .kConnected ∧ c.state ≠ .kConnecting) (hp : CallPart tid c c') :
    c'.state ≠ .kConnected ∧ sentBytes c'.trace = sentBytes c.trace := by
  have hchannel : ∀ {c1 c2 : TcpConnection} {op : Bool → Channel → Except Fault Channel},
      c1.onChannel tid op = .ok c2 → c2.state = c1.state ∧ sentBytes c2.trace = sentBytes c1.trace := by
    intro c1 c2 op hop
    obtain ⟨ch, -, rfl⟩ := onChannel_ok hop
    exact ⟨rfl, rfl⟩
  have hdown : StateE.kDisconnected ≠ .kConnected := by decide
  cases hp with
  | act ha =>
    cases ha with
    | sends hs =>
      cases hs with
      | ignored _ => exact ⟨h.1, rfl⟩
      | whole hst => exact absurd hst h.1
      | complete hst => exact absurd hst h.1
      | fault hst => exact absurd hst h.1
      | nothing hst => exact absurd hst h.1
      | part hst => exact absurd hst h.1
      | queued hst => exact absurd hst h.1
    | shutDown =>
      rcases shutDown_cases c with ⟨-, hc⟩ | ⟨hst, -, -⟩ | ⟨hst, -, -⟩
      · rw [hc]
        exact ⟨h.1, rfl⟩
      · exact absurd hst h.1
      · exact absurd hst h.1
    | retrieve _ => exact ⟨h.1, rfl⟩
    | destroyDown _ _ => exact ⟨h.1, rfl⟩
    | destroyUp _ _ hcore =>
      obtain ⟨c1, hop, hc⟩ := bind_eq_ok hcore
      cases hc
      obtain ⟨ch, -, rfl⟩ := onChannel_ok hop
      exact ⟨hdown, rfl⟩
    | destroyTail _ _ htail =>
      obtain ⟨c1, hop, hrm⟩ := bind_eq_ok htail
      obtain ⟨ch, -, hc⟩ := bind_eq_ok hrm
      cases hc
      obtain ⟨hst, htr⟩ := hchannel hop
      exact ⟨by rw [hst]; exact h.1, htr⟩
  | drains hd =>
    cases hd with
    | idle _ => exact ⟨h.1, rfl⟩
    | part => exact ⟨h.1, rfl⟩
    | whole => exact ⟨h.1, rfl⟩
  | callback cb => exact ⟨h.1, rfl⟩
  | close hcore =>
    obtain ⟨ch, -, rfl⟩ := onChannel_ok hcore
    exact ⟨hdown, rfl⟩
  | closeReturned => exact ⟨h.1, rfl⟩
  | read _ => exact ⟨h.1, rfl⟩
  | error => exact ⟨h.1, rfl⟩
  | establish hst _ => exact absurd hst h.2

theorem callPart_descends (hbegun : c.state ≠ .kConnecting) (hdown : ¬ c.Up) (ht : Tidy tid b c)
    (hp : CallPart tid c c') : ¬ c'.Up := by
  cases hp with
  | act ha =>
    unfold Up
    rw [actPart_state hdown ha]
    exact hdown
  | drains hd =>
    rcases ht.drains_up hd with hup | ⟨rfl, -⟩
    · exact absurd hup hdown
    · exact hdown
  | callback cb => exact hdown
  | close hcore =>
    obtain ⟨ch, -, rfl⟩ := onChannel_ok hcore
    simp [Up, log, setState]
  | closeReturned => exact hdown
  | read _ => exact hdown
  | error => exact hdown
  | establish hst _ => exact absurd hst hbegun

theorem call_begun {a : Call} (h : Afloat tid b c) (hbegun : c.state ≠ .kConnecting) (hen : callEnabled c a)
    (hst : call tid c a = .ok c') : c'.state ≠ .kConnecting := by
  have hfinish : ∀ c1 : TcpConnection, c1.state ≠ .kConnecting → c1.finishWrite.state ≠ .kConnecting := by
    intro c1 h1
    rw [(finishWrite_same c1).1]
    exact h1
  exact call_keeps_tidy (fun c1 c2 _ h1 hp => callPart_begun h1 hp) hfinish h hbegun hen hst

/-- A connection that has been up and is not any more stays so. -/
theorem call_descends {a : Call} (h : Afloat tid b c) (hbegun : c.state ≠ .kConnecting) (hdown : ¬ c.Up)
    (hen : callEnabled c a) (hst : call tid c a = .ok c') : ¬ c'.Up := by
  have hpart : ∀ c1 c2, Tidy tid b c1 → (c1.state ≠ .kConnecting ∧ ¬ c1.Up) → CallPart tid c1 c2 →
      c2.state ≠ .kConnecting ∧ ¬ c2.Up :=
    fun c1 c2 ht h1 hp => ⟨callPart_begun h1.1 hp, callPart_descends h1.1 h1.2 ht hp⟩
  have hfinish : ∀ c1 : TcpConnection, (c1.state ≠ .kConnecting ∧ ¬ c1.Up) →
      c1.finishWrite.state ≠ .kConnecting ∧ ¬ c1.finishWrite.Up := by
    intro c1 h1
    unfold Up
    rw [(finishWrite_same c1).1]
    exact h1
  exact (call_keeps_tidy hpart hfinish h ⟨hbegun, hdown⟩ hen hst).2

/-- A connection between two calls that is going down or is down: `send` adds
nothing to the bytes `sent` that it took. -/
structure Muted (tid : ℕ) (b : Bool) (sent : List UInt8) (c : TcpConnection) : Prop where
  afloat : Afloat tid b c
  state : c.state ≠ .kConnected ∧ c.state ≠ .kConnecting
  sent : sentBytes c.trace = sent

theorem call_muted {sent : List UInt8} {a : Call} (h : Muted tid b sent c) (hen : callEnabled c a)
    (hst : call tid c a = .ok c') : Muted tid b sent c' := by
  have hpart : ∀ c1 c2, Tidy tid b c1 →
      ((c1.state ≠ .kConnected ∧ c1.state ≠ .kConnecting) ∧ sentBytes c1.trace = sent) → CallPart tid c1 c2 →
      (c2.state ≠ .kConnected ∧ c2.state ≠ .kConnecting) ∧ sentBytes c2.trace = sent := by
    rintro c1 c2 _ ⟨hst, hsent⟩ hp
    obtain ⟨hst', hsent'⟩ := callPart_silent hst hp
    exact ⟨⟨hst', callPart_begun hst.2 hp⟩, hsent'.trans hsent⟩
  have hfinish : ∀ c1 : TcpConnection,
      ((c1.state ≠ .kConnected ∧ c1.state ≠ .kConnecting) ∧ sentBytes c1.trace = sent) →
      (c1.finishWrite.state ≠ .kConnected ∧ c1.finishWrite.state ≠ .kConnecting) ∧
        sentBytes c1.finishWrite.trace = sent := by
    intro c1 h1
    rw [(finishWrite_same c1).1, (finishWrite_same c1).2]
    exact h1
  obtain ⟨hstate, hsent⟩ := call_keeps_tidy hpart hfinish h.afloat ⟨h.state, h.sent⟩ hen hst
  exact ⟨call_afloat h.afloat hen hst, hstate, hsent⟩

/-! ### HandleWrite makes progress -/

/-- `HandleWrite` writes at least a byte where there is one and `::write` takes
one. -/
theorem handleWrite_progress (h : Afloat tid b c) (hup : c.Up) (hne : c.outputBuffer.readable ≠ []) {n : ℕ}
    (hn : 0 < n) {script : Script} (hst : handleWrite tid .self (runScript tid script) (.wrote n) c = .ok c') :
    (accepted c.trace).length < (accepted c'.trace).length := by
  have hlen := h.tidy.wf.length_readable
  have hpos : 0 < c.outputBuffer.readable.length := List.length_pos_iff.mpr hne
  have hdrains : ∀ {c1 : TcpConnection} {k : Bool}, Drains tid (.wrote n) c c1 k →
      (accepted c.trace).length < (accepted c1.trace).length := by
    intro c1 k hd
    cases hd with
    -- the connection is writing, for it has output
    | idle hidle => exact absurd (hidle n ((h.tidy.writing hup).mpr hne) (by omega) rfl) (by omega)
    | @part m out _ hm hm0 _ _ _ =>
      show (accepted c.trace).length < (accepted c.trace ++ c.outputBuffer.readable.take m).length
      rw [List.length_append, List.length_take]
      omega
    | @whole m out ch _ hm _ _ _ _ _ =>
      show (accepted c.trace).length < (accepted c.trace ++ c.outputBuffer.readable).length
      rw [List.length_append]
      omega
  obtain ⟨c1, ⟨hd, rfl⟩ | ⟨hd, c2, hn2, rfl⟩⟩ := handleWrite_self h.tidy.wf hst
  · exact hdrains hd
  · have hgrows : Adds (fun _ => True) c1 c2 :=
      notify_keeps (I := Adds (fun _ => True) c1) (fun c3 c4 h3 hp => h3.trans (callPart_grows hp.callPart))
        (Adds.of_eq rfl) hn2
    have hfinish : (accepted c2.finishWrite.trace).length = (accepted c2.trace).length := by
      unfold finishWrite
      split
      · rfl
      · rfl
    rw [hfinish]
    exact Nat.lt_of_lt_of_le (hdrains hd) hgrows.accepted_length

theorem onChannel_of_ok {op : Bool → Channel → Except Fault Channel} {ch : Channel}
    (h : op (tid = c.loop) c.channel = .ok ch) :
    c.onChannel tid op = .ok ({ c with channel := ch }.log (.updateChannel tid)) := by
  unfold onChannel
  rw [h]
  rfl

/-- The part of `HandleWrite` before the callback returns. -/
theorem drain_returns (h : Tidy tid b c) (res : WriteResult) : ∃ r, drain tid res c = .ok r := by
  unfold drain
  split
  · cases res with
    | failed errno => exact ⟨_, rfl⟩
    | wrote n =>
      simp only
      split
      · -- `Retrieve` is within what is readable, the channel is in its loop
        have hlen : (c.outputBuffer.peek c.outputBuffer.readableBytes).length = c.outputBuffer.readableBytes := by
          rw [h.wf.peek_eq_take (Nat.le_of_eq rfl), ← h.wf.length_readable, List.take_length]
        have hle : min n (c.outputBuffer.peek c.outputBuffer.readableBytes).length ≤
            c.outputBuffer.readableBytes := by
          rw [hlen]
          exact Nat.min_le_right _ _
        obtain ⟨out, hout, -, -⟩ := h.wf.retrieve_spec hle
        rw [hout, ok_bind]
        split
        · have hin : decide (tid = c.loop) = true := decide_eq_true h.loop.symm
          obtain ⟨ch, hch, -⟩ := Channel.update_spec h.synced { c.channel.events with epollOut := false }
          have hop : c.channel.disableWriting (tid = c.loop) = .ok ch := by
            rw [hin]
            exact hch
          rw [onChannel_of_ok]
          · exact ⟨_, rfl⟩
          · exact hop
        · exact ⟨_, rfl⟩
      · exact ⟨_, rfl⟩
  · exact ⟨_, rfl⟩

/-- `HandleWrite` whose callback calls nothing returns. -/
theorem handleWrite_returns (h : Tidy tid b c) (res : WriteResult) :
    ∃ c', call tid c (.handleWrite res []) = .ok c' := by
  obtain ⟨⟨c1, drained⟩, hdrain⟩ := drain_returns h res
  show ∃ c', handleWrite tid .self (runScript tid []) res c = .ok c'
  have hget : (Lens.self : Lens TcpConnection TcpConnection).get c = c := rfl
  rw [handleWrite_eq, hget, hdrain, ok_bind]
  cases drained with
  | false => exact ⟨_, rfl⟩
  | true =>
    have hnotify : ∃ c2, notify .self .writeComplete (runScript tid []) (Lens.self.set c c1) = .ok c2 := by
      unfold notify runScript runActs
      split
      · exact ⟨_, rfl⟩
      · exact ⟨_, rfl⟩
    obtain ⟨c2, hc2⟩ := hnotify
    simp only [if_true, hc2, ok_bind]
    exact ⟨_, rfl⟩

end parts

/-! ### Runs -/

/-- A run of calls on a connection that is up, seen from its start `c`: after
`k` productive calls of `HandleWrite`, if `send` took nothing more, `k` more
bytes were accepted, or all. -/
structure Draining (tid : ℕ) (b : Bool) (c : TcpConnection) (k : ℕ) (t : TcpConnection) : Prop where
  afloat : Afloat tid b t
  output : OutputIntact t
  begun : t.state ≠ .kConnecting
  sent : (sentBytes c.trace).length ≤ (sentBytes t.trace).length
  accepted : t.Up → (sentBytes t.trace).length = (sentBytes c.trace).length →
    min (sentBytes c.trace).length ((MiniMuduo.accepted c.trace).length + k) ≤
      (MiniMuduo.accepted t.trace).length

theorem OutputIntact.length {c : TcpConnection} (h : OutputIntact c) :
    (accepted c.trace).length + c.outputBuffer.readable.length = (sentBytes c.trace).length := by
  rw [← h.stream, List.append_nil, List.length_append]

/-- One call. -/
theorem Draining.step {tid : ℕ} {b : Bool} {c t u : TcpConnection} {k : ℕ} (h : Draining tid b c k t) {a : Call}
    (hen : callEnabled t a) (hst : call tid t a = .ok u) :
    Draining tid b c (k + if a.writes then 1 else 0) u := by
  have hgrows := call_grows h.afloat hen hst
  have hsent := hgrows.sentBytes_length
  have haccepted := hgrows.accepted_length
  have houtput : OutputIntact u := call_keeps (fun _ h => h.wf) (fun _ _ => callPart_output) h.output hen
    (fun _ _ _ _ _ _ _ => finishWrite_output) hst
  refine ⟨call_afloat h.afloat hen hst, houtput, call_begun h.afloat h.begun hen hst,
    Nat.le_trans h.sent hsent, ?_⟩
  intro hup hsame
  -- what is up after the call was up before it
  have htup : t.Up := by
    by_contra hdown
    exact call_descends h.afloat h.begun hdown hen hst hup
  have hstart := h.sent
  have ht := h.accepted htup (by omega)
  have hlen := h.output.length
  by_cases hwrites : a.writes = true
  · rw [if_pos hwrites]
    by_cases hnil : t.outputBuffer.readable = []
    · -- nothing was left to be written
      rw [hnil, List.length_nil] at hlen
      omega
    · cases a with
      | handleWrite res script =>
        cases res with
        | wrote n =>
          have hn : 0 < n := by simpa [Call.writes] using hwrites
          have hprogress := handleWrite_progress h.afloat htup hnil hn hst
          omega
        | failed errno => cases hwrites
      | _ => cases hwrites
  · rw [if_neg hwrites]
    omega

/-- **Queued output is written.** Take a connection that is up after any calls,
and any further calls after which it is still up. If it was shutting down, or
`send` took nothing in the meantime, and `HandleWrite` was called, with
`::write` accepting at least one byte, as often as there were bytes queued: then
nothing is queued any more, exactly the queued bytes were written after those
before, EPOLLOUT is not asked for, and a connection that is shutting down has
been half-closed. And at any time `HandleWrite` returns, whatever `::write`
does. -/
theorem output_drains (tid : ℕ) (name : String) (sockfd : ℕ) (cbs : Callbacks)
    {tr tr' : List (TcpConnection × Call)} {c c' : TcpConnection}
    (hr : Run (callMachine tid) (newConnection tid name sockfd cbs) tr c)
    (hup : c.state = .kConnected ∨ c.state = .kDisconnecting) (hr' : Run (callMachine tid) c tr' c')
    (hup' : c'.state = .kConnected ∨ c'.state = .kDisconnecting)
    (hsent : c.state = .kDisconnecting ∨ sentBytes c'.trace = sentBytes c.trace)
    (hcount : c.outputBuffer.readable.length ≤ tr'.countP fun p => p.2.writes) :
    c'.outputBuffer.readable = [] ∧ accepted c'.trace = accepted c.trace ++ c.outputBuffer.readable ∧
      c'.channel.isWriting = false ∧ (c'.state = .kDisconnecting → ∃ queued, .shutdownWrite queued ∈ c'.trace) ∧
      ∀ res, ∃ d, call tid c (.handleWrite res []) = .ok d := by
  have hafloat : Afloat tid cbs.writeComplete c :=
    hr.always (fun _ _ _ ht hen hst => call_afloat ht hen hst) (newConnection_afloat tid name sockfd cbs)
  have houtput : OutputIntact c :=
    hr.always (fun _ _ _ ht hen hst => call_keeps (fun _ h => h.wf) (fun _ _ => callPart_output) ht hen
      (fun _ _ _ _ _ _ _ => finishWrite_output) hst) (newConnection_output tid name sockfd cbs)
  have hbegun : c.state ≠ .kConnecting := Up.ne_connecting hup
  have hrun : Draining tid cbs.writeComplete c (tr'.countP fun p => p.2.writes) c' := by
    clear hup' hsent hcount
    induction hr' with
    | nil => exact ⟨hafloat, houtput, hbegun, Nat.le_refl _, fun _ _ => Nat.min_le_right _ _⟩
    | @snoc tr' t u a hr' hen hst ih =>
      rw [List.countP_append, List.countP_singleton]
      exact ih.step hen hst
  have hsame : sentBytes c'.trace = sentBytes c.trace := by
    rcases hsent with hdown | hsame
    · have hmuted : Muted tid cbs.writeComplete (sentBytes c.trace) c :=
        ⟨hafloat, by rw [hdown]; decide, rfl⟩
      have hmuted' : Muted tid cbs.writeComplete (sentBytes c.trace) c' :=
        hr'.always (fun _ _ _ ht hen hst => call_muted ht hen hst) hmuted
      exact hmuted'.sent
    · exact hsame
  have hall := hrun.accepted hup' (by rw [hsame])
  have hlen := houtput.length
  have hlen' := hrun.output.length
  have hnil : c'.outputBuffer.readable = [] := by
    rw [hsame] at hlen'
    exact List.length_eq_zero_iff.mp (by omega)
  have hwriting : c'.channel.isWriting = false := by
    have hiff := hrun.afloat.tidy.writing hup'
    rw [hnil] at hiff
    simpa using hiff
  refine ⟨hnil, ?_, hwriting, fun hst => hrun.afloat.released hst hnil, handleWrite_returns hafloat.tidy⟩
  have hstream := houtput.stream
  have hstream' := hrun.output.stream
  rw [hnil, List.append_nil, List.append_nil, hsame] at hstream'
  rw [List.append_nil] at hstream
  rw [hstream', hstream]

/-- Three bytes sent of which one is written, then `ShutDown`: two calls of
`HandleWrite` write the others. -/
theorem output_drains_two_writes :
    let start := newConnection 0 "a" 5 ⟨true, true, true, true⟩
    let calls : List Call := [.connectEstablished [], .send [1, 2, 3] (.wrote 1) [], .shutDown]
    let c := final (callMachine 0) start calls
    let c' := final (callMachine 0) c [.handleWrite (.wrote 1) [], .handleWrite (.wrote 1) []]
    c.outputBuffer.readable = [2, 3] ∧ c'.outputBuffer.readable = [] ∧
      accepted c'.trace = accepted c.trace ++ c.outputBuffer.readable ∧ c'.channel.isWriting = false := by
  intro start calls c c'
  have h := output_drains 0 "a" 5 ⟨true, true, true, true⟩
    (run_of_accepts calls start (by decide +kernel)) (.inr (by decide +kernel))
    (run_of_accepts [.handleWrite (.wrote 1) [], .handleWrite (.wrote 1) []] c (by decide +kernel))
    (.inr (by decide +kernel)) (.inl (by decide +kernel)) (by decide +kernel)
  exact ⟨by decide +kernel, h.1, h.2.1, h.2.2.1⟩

end MiniMuduo
