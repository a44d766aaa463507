/-
# The functions of a connection, cut at their callbacks

A callback runs in the middle of `send` and `HandleWrite` and may re-enter
them. Both are cut there: `sendCore` and `drain` are what they do to their
own connection before the callback, and the rest is short (`send_eq`,
`handleWrite_eq`). `Sends` and `Drains` list what the two parts can do;
every property of a run is read off these lists.

Key definitions: `TcpConnection.sendCore`, `TcpConnection.Sends`,
`TcpConnection.drain`, `TcpConnection.Drains`.
Key theorems: `TcpConnection.send_eq`, `TcpConnection.sends_of_sendCore`,
`TcpConnection.handleWrite_eq`, `TcpConnection.drains_of_drain`.
-/
import MiniMuduo.TcpConnection

namespace MiniMuduo
namespace TcpConnection

open Fallible

variable {σ : Type} {tid : ℕ} {conn : Lens σ TcpConnection}

/-- An `Update()` that went through changed the channel and was logged. -/
theorem onChannel_ok {op : Bool → Channel → Except Fault Channel} {c c' : TcpConnection}
    (h : c.onChannel tid op = .ok c') :
    ∃ ch, op (tid = c.loop) c.channel = .ok ch ∧
      c' = { c with channel := ch, trace := .updateChannel tid :: c.trace } := by
  obtain ⟨ch, hop, hc⟩ := bind_eq_ok h
  exact ⟨ch, hop, (Except.ok.inj hc).symm⟩

/-! ### send -/

/-- `send` can write at once: nothing is queued before the message. -/
def Direct (c : TcpConnection) : Prop :=
  c.channel.isWriting = false ∧ c.outputBuffer.readableBytes = 0

instance (c : TcpConnection) : Decidable c.Direct := inferInstanceAs (Decidable (_ ∧ _))

/-- `send` takes its `fault_error` branch when the connection is up: it writes
at once, and the `errno` it then tests is EPIPE. -/
def FaultError (c : TcpConnection) (res : WriteResult) : Prop := c.Direct ∧ res = .failed .epipe

instance (c : TcpConnection) (res : WriteResult) : Decidable (c.FaultError res) :=
  inferInstanceAs (Decidable (_ ∧ _))

/-- `sendRest` on the connection alone. -/
def queue (tid : ℕ) (rest : List UInt8) (c : TcpConnection) : Except Fault TcpConnection := do
  let outputBuffer ← c.outputBuffer.append rest
  let c := { c with outputBuffer }
  if c.channel.isWriting then .ok c else c.onChannel tid Channel.enableWriting

/-- `send` up to the write-complete callback, and whether it is invoked. -/
def sendCore (tid : ℕ) (message : List UInt8) (res : WriteResult) (c : TcpConnection) :
    Except Fault (TcpConnection × Bool) :=
  if c.state = .kConnected then
    if c.Direct then
      match res with
      | .wrote n =>
        let c1 := (c.log (.wrote (message.take n))).log (.sent message false)
        if message.length ≤ n then
          .ok (if c.writeCompleteCallback then (c1.logCallback .writeComplete, true) else (c1, false))
        else do return (← c1.queue tid (message.drop n), false)
      | .failed errno =>
        let c1 := c.log (.sent message (errno = .epipe))
        if errno = .epipe ∨ message = [] then .ok (c1, false)
        else do return (← c1.queue tid message, false)
    else
      let c1 := c.log (.sent message false)
      if message = [] then .ok (c1, false) else do return (← c1.queue tid message, false)
  else .ok (c, false)

theorem sendRest_eq (rest : List UInt8) (s : σ) (c : TcpConnection) :
    sendRest tid conn rest (conn.set s c) = do return conn.set s (← c.queue tid rest) := by
  simp only [sendRest, queue, Lens.get_set, Lens.set_set]
  cases c.outputBuffer.append rest with
  | error e => rfl
  | ok out =>
    simp only [ok_bind]
    split <;> rfl

/-- After its own part `send` only runs the write-complete callback. -/
theorem send_eq (k : σ → Except Fault σ) (message : List UInt8) (res : WriteResult) (s : σ) :
    send tid conn k message res s = (do
      let (c, complete) ← sendCore tid message res (conn.get s)
      if complete then k (conn.set s c) else return conn.set s c) := by
  unfold send sendCore
  by_cases hst : (conn.get s).state = .kConnected
  · simp only [if_pos hst]
    by_cases hd : (conn.get s).Direct
    · have hd' : (conn.get s).channel.isWriting = false ∧ (conn.get s).outputBuffer.readableBytes = 0 := hd
      rw [if_pos hd, if_pos hd']
      cases res with
      | wrote n =>
        by_cases hn : message.length ≤ n
        · have hmin : min n message.length = message.length := by omega
          simp only [sendDirect, hmin, Nat.sub_self, List.take_length, List.take_of_length_le hn,
            if_pos hn]
          by_cases hcb : (conn.get s).writeCompleteCallback = true
          · simp [hcb, log, Lens.modify, notify, isSet]
          · simp [hcb, log, Lens.modify, notify, isSet]
        · have hmin : min n message.length = n := by omega
          have hpos : ¬ message.length - n = 0 := by omega
          simp [sendDirect, hmin, hn, hpos, Nat.pos_of_ne_zero hpos, Lens.modify, sendRest_eq, bind_assoc]
      | failed errno =>
        by_cases he : errno = .epipe
        · simp [sendDirect, he, Lens.modify]
        · by_cases hm : message = []
          · simp [sendDirect, he, hm, Lens.modify]
          · have hpos : 0 < message.length := List.length_pos_iff.mpr hm
            simp [sendDirect, he, hm, hpos, Lens.modify, sendRest_eq, bind_assoc]
    · have hd' : ¬ ((conn.get s).channel.isWriting = false ∧ (conn.get s).outputBuffer.readableBytes = 0) := hd
      rw [if_neg hd, if_neg hd']
      by_cases hm : message = []
      · simp [hm, Lens.modify]
      · have hpos : 0 < message.length := List.length_pos_iff.mpr hm
        simp [hm, hpos, Lens.modify, sendRest_eq, bind_assoc]
  · simp [hst]

/-- What `queue` can do: the bytes go to the back of `output_buffer_`, and a
channel that is not writing starts to. -/
theorem queue_ok {rest : List UInt8} {c c' : TcpConnection} (h : c.queue tid rest = .ok c') :
    ∃ out, c.outputBuffer.append rest = .ok out ∧
      ((c.channel.isWriting = true ∧ c' = { c with outputBuffer := out }) ∨
        (c.channel.isWriting = false ∧ ∃ ch, c.channel.enableWriting (tid = c.loop) = .ok ch ∧
          c' = { c with outputBuffer := out, channel := ch, trace := .updateChannel tid :: c.trace })) := by
  obtain ⟨out, happ, h⟩ := bind_eq_ok h
  refine ⟨out, happ, ?_⟩
  by_cases hw : c.channel.isWriting = true
  · simp only [hw, if_true] at h
    exact .inl ⟨hw, (Except.ok.inj h).symm⟩
  · simp only [Bool.not_eq_true] at hw
    simp only [hw, Bool.false_eq_true, if_false] at h
    obtain ⟨ch, hop, hc⟩ := onChannel_ok h
    exact .inr ⟨hw, ch, hop, hc⟩

/-- What the part of `send` before the callback can do; the flag says that
the callback is invoked. -/
inductive Sends (tid : ℕ) (message : List UInt8) (res : WriteResult) (c : TcpConnection) :
    TcpConnection → Bool → Prop
  /-- The connection is not up. -/
  | ignored : c.state ≠ .kConnected → Sends tid message res c c false
  /-- All of the message is written at once, nobody is told. -/
  | whole {n : ℕ} : c.state = .kConnected → c.Direct → res = .wrote n → message.length ≤ n →
      c.writeCompleteCallback = false →
      Sends tid message res c ((c.log (.wrote message)).log (.sent message false)) false
  /-- All of the message is written at once, the callback follows. -/
  | complete {n : ℕ} : c.state = .kConnected → c.Direct → res = .wrote n → message.length ≤ n →
      c.writeCompleteCallback = true →
      Sends tid message res c
        (((c.log (.wrote message)).log (.sent message false)).logCallback .writeComplete) true
  /-- EPIPE: the message is dropped. -/
  | fault : c.state = .kConnected → c.Direct → res = .failed .epipe →
      Sends tid message res c (c.log (.sent message true)) false
  /-- An empty message that was not written: nothing to queue. -/
  | nothing : c.state = .kConnected → message = [] → (∀ n, c.Direct → res ≠ .wrote n) →
      (c.Direct → res ≠ .failed .epipe) → Sends tid message res c (c.log (.sent message false)) false
  /-- A part, perhaps nothing, is written at once, the rest is queued. -/
  | part {n : ℕ} {c' : TcpConnection} : c.state = .kConnected → c.Direct → res = .wrote n →
      n < message.length →
      queue tid (message.drop n) ((c.log (.wrote (message.take n))).log (.sent message false)) = .ok c' →
      Sends tid message res c c' false
  /-- Nothing is written at once, all of the message is queued. -/
  | queued {c' : TcpConnection} : c.state = .kConnected → message ≠ [] →
      (∀ n, c.Direct → res ≠ .wrote n) → (c.Direct → res ≠ .failed .epipe) →
      queue tid message (c.log (.sent message false)) = .ok c' → Sends tid message res c c' false

theorem sends_of_sendCore {message : List UInt8} {res : WriteResult} {c c' : TcpConnection} {b : Bool}
    (h : sendCore tid message res c = .ok (c', b)) : Sends tid message res c c' b := by
  unfold sendCore at h
  by_cases hst : c.state = .kConnected
  · rw [if_pos hst] at h
    by_cases hd : c.Direct
    · rw [if_pos hd] at h
      cases res with
      | wrote n =>
        by_cases hn : message.length ≤ n
        · simp only [if_pos hn, List.take_of_length_le hn] at h
          by_cases hcb : c.writeCompleteCallback = true
          · rw [if_pos hcb] at h
            cases h
            exact .complete hst hd rfl hn hcb
          · rw [if_neg hcb] at h
            cases h
            exact .whole hst hd rfl hn (by simpa using hcb)
        · simp only [if_neg hn] at h
          obtain ⟨c1, hq, h⟩ := bind_eq_ok h
          cases h
          exact .part hst hd rfl (by omega) hq
      | failed errno =>
        by_cases he : errno = .epipe
        · subst he
          simp only [true_or, if_true] at h
          cases h
          exact .fault hst hd rfl
        · have hw : ∀ n, c.Direct → WriteResult.failed errno ≠ .wrote n := fun n _ => by simp
          have hp : c.Direct → WriteResult.failed errno ≠ .failed .epipe := fun _ => by simpa using he
          by_cases hm : message = []
          · simp only [he, hm, decide_false, or_true, if_true] at h
            cases h
            exact hm ▸ .nothing hst hm hw hp
          · simp only [he, hm, decide_false, or_self, if_false] at h
            obtain ⟨c1, hq, h⟩ := bind_eq_ok h
            cases h
            exact .queued hst hm hw hp hq
    · rw [if_neg hd] at h
      by_cases hm : message = []
      · simp only [hm, if_true] at h
        cases h
        exact hm ▸ .nothing hst hm (fun _ h' => absurd h' hd) fun h' => absurd h' hd
      · simp only [hm, if_false] at h
        obtain ⟨c1, hq, h⟩ := bind_eq_ok h
        cases h
        exact .queued hst hm (fun _ h' => absurd h' hd) (fun h' => absurd h' hd) hq
  · rw [if_neg hst] at h
    cases h
    exact .ignored hst

/-- What `send` can do. -/
theorem send_cases {k : σ → Except Fault σ} {message : List UInt8} {res : WriteResult} {s s' : σ}
    (h : send tid conn k message res s = .ok s') :
    ∃ c, (Sends tid message res (conn.get s) c false ∧ s' = conn.set s c) ∨
      (Sends tid message res (conn.get s) c true ∧ k (conn.set s c) = .ok s') := by
  rw [send_eq] at h
  obtain ⟨⟨c, b⟩, hcore, h⟩ := bind_eq_ok h
  refine ⟨c, ?_⟩
  cases b with
  | false => exact .inl ⟨sends_of_sendCore hcore, (Except.ok.inj h).symm⟩
  | true => exact .inr ⟨sends_of_sendCore hcore, h⟩

/-! ### HandleWrite -/

/-- `HandleWrite` up to the write-complete callback, and whether the output
buffer was drained. -/
def drain (tid : ℕ) (res : WriteResult) (c : TcpConnection) : Except Fault (TcpConnection × Bool) :=
  if c.channel.isWriting then
    match res with
    | .wrote n => do
      let data := c.outputBuffer.peek c.outputBuffer.readableBytes
      let n := min n data.length
      if 0 < n then
        let outputBuffer ← c.outputBuffer.retrieve n
        let c := { c with outputBuffer }.log (.wrote (data.take n))
        if outputBuffer.readableBytes = 0 then return (← c.onChannel tid Channel.disableWriting, true)
        else return (c, false)
      else return (c, false)
    | .failed _ => .ok (c, false)
  else .ok (c, false)

/-- What `HandleWrite` does after the callback. -/
def finishWrite (c : TcpConnection) : TcpConnection :=
  if c.state = .kDisconnecting then c.shutdownWrite else c

/-- `HandleWrite` is `drain`, the callback if the buffer was drained, and
`finishWrite`. -/
theorem handleWrite_eq (k : σ → Except Fault σ) (res : WriteResult) (s : σ) :
    handleWrite tid conn k res s = (do
      let (c, drained) ← drain tid res (conn.get s)
      if drained then
        let s ← notify conn .writeComplete k (conn.set s c)
        return conn.modify finishWrite s
      else return conn.set s c) := by
  have hfin : ∀ s, (if (conn.get s).state = .kDisconnecting then pure (conn.modify shutdownWrite s)
      else pure s : Except Fault σ) = pure (conn.modify finishWrite s) := by
    intro s
    by_cases hs : (conn.get s).state = .kDisconnecting
    · simp [hs, Lens.modify, finishWrite]
    · simp [hs, Lens.modify, finishWrite]
  unfold handleWrite drain
  by_cases hw : (conn.get s).channel.isWriting = true
  · simp only [if_pos hw]
    cases res with
    | failed e => simp
    | wrote n =>
      simp only [hfin]
      split
      · simp only [bind_assoc]
        congr 1
        funext out
        split
        · simp only [bind_assoc]
          congr 1
        · simp
      · simp
  · simp [hw]

/-- What the part of `HandleWrite` before the callback can do; the flag says
that the output buffer was drained. -/
inductive Drains (tid : ℕ) (res : WriteResult) (c : TcpConnection) : TcpConnection → Bool → Prop
  /-- Not writing, or nothing was accepted. -/
  | idle : (∀ n, c.channel.isWriting = true → 0 < c.outputBuffer.readableBytes → res = .wrote n → n = 0) →
      Drains tid res c c false
  | part {n : ℕ} {out : Buffer} : c.channel.isWriting = true → res = .wrote n → 0 < n →
      n < c.outputBuffer.readableBytes → out.WF → out.readable = c.outputBuffer.readable.drop n →
      Drains tid res c ({ c with outputBuffer := out }.log (.wrote (c.outputBuffer.readable.take n))) false
  | whole {n : ℕ} {out : Buffer} {ch : Channel} : c.channel.isWriting = true → res = .wrote n →
      0 < c.outputBuffer.readableBytes → c.outputBuffer.readableBytes ≤ n → out.WF → out.readable = [] →
      c.channel.disableWriting (tid = c.loop) = .ok ch →
      Drains tid res c (({ c with outputBuffer := out, channel := ch }.log
        (.wrote c.outputBuffer.readable)).log (.updateChannel tid)) true

theorem drains_of_drain {res : WriteResult} {c c' : TcpConnection} {b : Bool}
    (hwf : c.outputBuffer.WF) (h : drain tid res c = .ok (c', b)) : Drains tid res c c' b := by
  have hlen := hwf.length_readable
  unfold drain at h
  by_cases hw : c.channel.isWriting = true
  · rw [if_pos hw] at h
    cases res with
    | failed e =>
      cases h
      exact .idle (by simp)
    | wrote n =>
      have hpeek : c.outputBuffer.peek c.outputBuffer.readableBytes = c.outputBuffer.readable := by
        rw [hwf.peek_eq_take (Nat.le_refl _), ← hlen, List.take_length]
      simp only [hpeek] at h
      by_cases hn : 0 < min n c.outputBuffer.readable.length
      · rw [if_pos hn] at h
        obtain ⟨out, hout, h⟩ := bind_eq_ok h
        have hle : min n c.outputBuffer.readable.length ≤ c.outputBuffer.readableBytes := by omega
        obtain ⟨out', hout', hwf', hread⟩ := hwf.retrieve_spec hle
        obtain rfl : out = out' := by rw [hout] at hout'; exact Except.ok.inj hout'
        have hlen' := hwf'.length_readable
        rw [hread, List.length_drop] at hlen'
        by_cases h0 : out.readableBytes = 0
        · have hge : c.outputBuffer.readableBytes ≤ n := by omega
          rw [if_pos h0] at h
          obtain ⟨c1, hop, h⟩ := bind_eq_ok h
          cases h
          obtain ⟨ch, hch, rfl⟩ := onChannel_ok hop
          have hall : c.outputBuffer.readable.take (min n c.outputBuffer.readable.length) =
              c.outputBuffer.readable := List.take_of_length_le (by omega)
          simp only [log, hall]
          exact Drains.whole hw rfl (by omega) hge hwf' ((hwf'.readable_eq_nil_iff).mpr h0) hch
        · rw [if_neg h0] at h
          cases h
          have hmin : min n c.outputBuffer.readable.length = n := by omega
          rw [hmin] at hread ⊢
          exact .part hw rfl (by omega) (by omega) hwf' hread
      · rw [if_neg hn] at h
        cases h
        exact .idle fun m _ hpos hm => by cases hm; omega
  · rw [if_neg hw] at h
    cases h
    exact .idle fun _ hw' => absurd hw' hw

/-- What `HandleWrite` can do. -/
theorem handleWrite_cases {k : σ → Except Fault σ} {res : WriteResult} {s s' : σ}
    (hwf : (conn.get s).outputBuffer.WF) (h : handleWrite tid conn k res s = .ok s') :
    ∃ c, (Drains tid res (conn.get s) c false ∧ s' = conn.set s c) ∨
      (Drains tid res (conn.get s) c true ∧ ∃ s1, notify conn .writeComplete k (conn.set s c) = .ok s1 ∧
        s' = conn.modify finishWrite s1) := by
  rw [handleWrite_eq] at h
  obtain ⟨⟨c, b⟩, hcore, h⟩ := bind_eq_ok h
  refine ⟨c, ?_⟩
  cases b with
  | false => exact .inl ⟨drains_of_drain hwf hcore, (Except.ok.inj h).symm⟩
  | true =>
    obtain ⟨s1, hs1, h⟩ := bind_eq_ok h
    exact .inr ⟨drains_of_drain hwf hcore, s1, hs1, (Except.ok.inj h).symm⟩

end TcpConnection
end MiniMuduo
