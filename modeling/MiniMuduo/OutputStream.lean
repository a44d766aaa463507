/-
# The output byte stream of a connection

Bytes leave a connection in two places, the direct `::write` of `send` and
the drain in `HandleWrite`, and a write-complete callback runs inside both
and may send again. In every run of calls on a connection, after every call
and whenever a callback is invoked: what `::write` accepted so far, followed
by what is readable in `output_buffer_`, is the messages that the callers
passed to `send` while the connection was up, in order, without those that
met EPIPE (`output_intact`).

The connection logs what its `send` takes, and keeps its stream equal to this
log (`OutputIntact`); the log is what the callers noted (`Recorded`). A trace
is newest first.

Key definitions: `accepted`, `sentBytes`, `OutputIntact`, `Recorded`.
Key theorems: `Sends.output`, `Drains.output`, `Sends.sent`,
`Upkeep.sameStreams`, `recorded_noteActs`, `output_intact`.
-/
import MiniMuduo.Notes

namespace MiniMuduo

open Fallible Runs TcpConnection

/-- The bytes `::write` accepted. -/
def accepted : List Event → List UInt8
  | [] => []
  | .wrote bytes :: earlier => accepted earlier ++ bytes
  | _ :: earlier => accepted earlier

/-- The messages `send` took, one after the other. -/
def sentBytes : List Event → List UInt8
  | [] => []
  | .sent message false :: earlier => sentBytes earlier ++ message
  | _ :: earlier => sentBytes earlier

/-- The output stream of a connection that still owes `rest` to its buffer. -/
structure Owes (rest : List UInt8) (c : TcpConnection) : Prop where
  wf : c.outputBuffer.WF
  stream : accepted c.trace ++ c.outputBuffer.readable ++ rest = sentBytes c.trace

/-- The output stream of a connection is intact. -/
def OutputIntact (c : TcpConnection) : Prop := Owes [] c

/-- A neutral event changes nothing about the stream. -/
theorem neutral_stream {e : Event} (he : e.neutral = true) (tr : List Event) :
    accepted (e :: tr) = accepted tr ∧ sentBytes (e :: tr) = sentBytes tr := by
  cases e <;> first | exact ⟨rfl, rfl⟩ | cases he

namespace Owes

variable {tid : ℕ} {rest : List UInt8} {c c' : TcpConnection}

/-- The stream depends on `output_buffer_` and the trace only. -/
theorem congr (h : Owes rest c) (hbuf : c'.outputBuffer = c.outputBuffer) (htr : c'.trace = c.trace) :
    Owes rest c' := by
  obtain ⟨h1, h2⟩ := h
  exact ⟨hbuf ▸ h1, by rw [hbuf, htr, h2]⟩

theorem log (h : Owes rest c) {e : Event} (he : e.neutral = true) : Owes rest (c.log e) := by
  obtain ⟨ha, hs⟩ := neutral_stream he c.trace
  refine ⟨h.wf, ?_⟩
  show accepted (e :: c.trace) ++ c.outputBuffer.readable ++ rest = sentBytes (e :: c.trace)
  rw [ha, hs]
  exact h.stream

theorem setState (h : Owes rest c) (new : StateE) : Owes rest (c.setState new) :=
  (h.log (e := .setState c.state new) rfl).congr rfl rfl

theorem onChannel (h : Owes rest c) {op : Bool → Channel → Except Fault Channel}
    (hop : c.onChannel tid op = .ok c') : Owes rest c' := by
  obtain ⟨ch, -, rfl⟩ := onChannel_ok hop
  exact (h.log (e := .updateChannel tid) rfl).congr rfl rfl

theorem removeChannel (h : Owes rest c) (hop : c.removeChannel tid = .ok c') : Owes rest c' := by
  obtain ⟨ch, -, hc⟩ := bind_eq_ok hop
  cases hc
  exact (h.log (e := .removeChannel tid) rfl).congr rfl rfl

theorem logCallback (h : Owes rest c) (cb : Callback) : Owes rest (c.logCallback cb) := ⟨h.wf, h.stream⟩

/-- `send` takes a message: it owes all of it. -/
theorem sent (h : Owes [] c) (message : List UInt8) : Owes message (c.log (.sent message false)) := by
  refine ⟨h.wf, ?_⟩
  show accepted c.trace ++ c.outputBuffer.readable ++ message = sentBytes c.trace ++ message
  rw [← h.stream, List.append_nil]

/-- A direct write with nothing queued, then `send` takes the message: it
owes what was not written. -/
theorem wrote_sent (h : Owes [] c) (hempty : c.outputBuffer.readable = []) {message head tail : List UInt8}
    (hm : head ++ tail = message) :
    Owes tail ((c.log (.wrote head)).log (.sent message false)) := by
  refine ⟨h.wf, ?_⟩
  have hstream := h.stream
  rw [hempty, List.append_nil, List.append_nil] at hstream
  show accepted c.trace ++ head ++ c.outputBuffer.readable ++ tail = sentBytes c.trace ++ message
  rw [hempty, List.append_nil, List.append_assoc, hm, hstream]

/-- What was owed goes to the back of the buffer. -/
theorem queue (h : Owes rest c) (hq : c.queue tid rest = .ok c') : Owes [] c' := by
  obtain ⟨out, happ, hcase⟩ := queue_ok hq
  obtain ⟨hwf, hread⟩ := h.wf.append_spec happ
  have hout : Owes [] { c with outputBuffer := out } := by
    refine ⟨hwf, ?_⟩
    show accepted c.trace ++ out.readable ++ [] = sentBytes c.trace
    rw [hread, List.append_nil, ← List.append_assoc]
    exact h.stream
  rcases hcase with ⟨-, rfl⟩ | ⟨-, ch, -, rfl⟩
  · exact hout
  · exact (hout.log (e := .updateChannel tid) rfl).congr rfl rfl

end Owes

/-- Nothing is queued when `send` writes directly. -/
theorem TcpConnection.Direct.readable_eq_nil {c : TcpConnection} (h : c.Direct) (hwf : c.outputBuffer.WF) :
    c.outputBuffer.readable = [] :=
  hwf.readable_eq_nil_iff.mpr h.2

/-- The part of `send` before the callback keeps the stream. -/
theorem TcpConnection.Sends.output {tid : ℕ} {message : List UInt8} {res : WriteResult}
    {c c' : TcpConnection} {b : Bool} (h : OutputIntact c) (hs : Sends tid message res c c' b) :
    OutputIntact c' := by
  cases hs with
  | ignored _ => exact h
  | whole _ hd _ _ _ => exact Owes.wrote_sent h (hd.readable_eq_nil h.wf) (List.append_nil _)
  | complete _ hd _ _ _ =>
    exact (Owes.wrote_sent h (hd.readable_eq_nil h.wf) (List.append_nil _)).logCallback _
  | fault _ _ _ => exact ⟨h.wf, h.stream⟩
  | nothing _ hm _ _ => exact hm ▸ Owes.sent h message
  | part _ hd _ _ hq =>
    exact (Owes.wrote_sent h (hd.readable_eq_nil h.wf) (List.take_append_drop _ _)).queue hq
  | queued _ _ _ _ hq => exact (Owes.sent h message).queue hq

/-- The part of `HandleWrite` before the callback keeps the stream. -/
theorem TcpConnection.Drains.output {tid : ℕ} {res : WriteResult} {c c' : TcpConnection} {b : Bool}
    (h : OutputIntact c) (hd : Drains tid res c c' b) : OutputIntact c' := by
  have hstream := h.stream
  rw [List.append_nil] at hstream
  cases hd with
  | idle _ => exact h
  | @part n out _ _ _ _ hwf hread =>
    refine ⟨hwf, ?_⟩
    show accepted c.trace ++ c.outputBuffer.readable.take n ++ out.readable ++ [] = sentBytes c.trace
    rw [hread, List.append_nil, List.append_assoc, List.take_append_drop, hstream]
  | @whole n out ch _ _ _ _ hwf hread _ =>
    refine ⟨hwf, ?_⟩
    show accepted c.trace ++ c.outputBuffer.readable ++ out.readable ++ [] = sentBytes c.trace
    rw [hread, List.append_nil, List.append_nil, hstream]

/-- `ShutDown` keeps the stream. -/
theorem shutDown_output {c : TcpConnection} (h : OutputIntact c) : OutputIntact (shutDown .self c) := by
  rcases shutDown_cases c with ⟨-, hc⟩ | ⟨-, -, hc⟩ | ⟨-, -, hc⟩ <;> rw [hc]
  · exact h
  · exact Owes.setState h _
  · exact (Owes.setState h _).log rfl

/-- No part of a call harms the stream. -/
theorem callPart_output {tid : ℕ} {c c' : TcpConnection} (h : OutputIntact c) (hp : CallPart tid c c') :
    OutputIntact c' := by
  cases hp with
  | act ha =>
    cases ha with
    | sends hs => exact hs.output h
    | shutDown => exact shutDown_output h
    | retrieve _ => exact Owes.congr h rfl rfl
    | destroyDown _ _ => exact Owes.log h rfl
    | destroyUp _ _ hcore =>
      obtain ⟨c1, hop, hc⟩ := bind_eq_ok hcore
      cases hc
      exact (((Owes.log h rfl).setState _).onChannel hop).logCallback _
    | destroyTail _ _ htail =>
      obtain ⟨c1, hop, hrm⟩ := bind_eq_ok htail
      exact (Owes.onChannel h hop).removeChannel hrm
  | drains hd => exact hd.output h
  | callback cb => exact Owes.logCallback h cb
  | close hcore => exact ((Owes.log h rfl).setState _).onChannel hcore
  | closeReturned => exact Owes.log h rfl
  | read _ => exact Owes.congr h rfl rfl
  | error => exact Owes.log h rfl
  | establish _ hcore =>
    obtain ⟨c1, hop, hc⟩ := bind_eq_ok hcore
    cases hc
    exact (((Owes.log h rfl).setState _).onChannel hop).congr rfl rfl

theorem finishWrite_output {c : TcpConnection} (h : OutputIntact c) : OutputIntact c.finishWrite := by
  unfold finishWrite
  split
  · exact Owes.log h rfl
  · exact h

theorem newConnection_output (tid : ℕ) (name : String) (sockfd : ℕ) (cbs : Callbacks) :
    OutputIntact (newConnection tid name sockfd cbs) := by
  have hcreate : Buffer.create Buffer.kInitialSize = .ok initialBuffer := rfl
  obtain ⟨hwf, hread⟩ := Buffer.create_spec hcreate
  refine ⟨hwf, ?_⟩
  show accepted [] ++ initialBuffer.readable ++ [] = sentBytes []
  rw [hread]
  rfl

/-- `c'` was passed what `c` was, and has its input buffer; its output stream is
intact if that of `c` is. -/
structure SameStreams (c c' : TcpConnection) : Prop where
  output : OutputIntact c → OutputIntact c'
  input : c'.inputBuffer = c.inputBuffer
  sent : sentBytes c'.trace = sentBytes c.trace

namespace SameStreams

variable {tid : ℕ} {c c1 c' : TcpConnection}

theorem refl (c : TcpConnection) : SameStreams c c := ⟨id, rfl, rfl⟩

theorem trans (h : SameStreams c c1) (h' : SameStreams c1 c') : SameStreams c c' :=
  ⟨fun ho => h'.output (h.output ho), h'.input.trans h.input, h'.sent.trans h.sent⟩

theorem log {e : Event} (he : e.neutral = true) : SameStreams c (c.log e) :=
  ⟨fun ho => Owes.log ho he, rfl, (neutral_stream he c.trace).2⟩

theorem callback (cb : Callback) : SameStreams c (c.logCallback cb) := ⟨fun ho => Owes.logCallback ho cb, rfl, rfl⟩

theorem setState (new : StateE) : SameStreams c (c.setState new) := ⟨fun ho => Owes.setState ho new, rfl, rfl⟩

theorem onChannel {op : Bool → Channel → Except Fault Channel} (hop : c.onChannel tid op = .ok c') :
    SameStreams c c' := by
  refine ⟨fun ho => Owes.onChannel ho hop, ?_, ?_⟩
  · obtain ⟨ch, -, rfl⟩ := onChannel_ok hop
    rfl
  · obtain ⟨ch, -, rfl⟩ := onChannel_ok hop
    rfl

theorem channel (ch : Channel) : SameStreams c { c with channel := ch } := ⟨fun ho => Owes.congr ho rfl rfl, rfl, rfl⟩

theorem shutdownWrite : SameStreams c c.shutdownWrite := ⟨fun ho => Owes.log ho rfl, rfl, rfl⟩

theorem shutDown : SameStreams c (shutDown .self c) := by
  rcases shutDown_cases c with ⟨-, hc⟩ | ⟨-, -, hc⟩ | ⟨-, -, hc⟩
  · rw [hc]
    exact .refl c
  · rw [hc]
    exact setState _
  · rw [hc]
    exact (setState _).trans shutdownWrite

end SameStreams

/-- Upkeep sends nothing and leaves the input buffer alone. -/
theorem Upkeep.sameStreams {c c' : TcpConnection} (ho : OutputIntact c) (h : Upkeep c c') : SameStreams c c' := by
  cases h with
  | log he => exact .log he
  | callback cb => exact .callback cb
  | revents ev => exact .channel _
  | establish hcore =>
    obtain ⟨c1, hop, hc⟩ := bind_eq_ok hcore
    cases hc
    exact (((SameStreams.log rfl).trans (.setState _)).trans (.onChannel hop)).trans (.channel _)
  | close hcore => exact ((SameStreams.log rfl).trans (.setState _)).trans (.onChannel hcore)
  | destroyCore hcore =>
    obtain ⟨c1, hop, hc⟩ := bind_eq_ok hcore
    cases hc
    exact (((SameStreams.log rfl).trans (.setState _)).trans (.onChannel hop)).trans (.callback _)
  | destroyTail htail =>
    obtain ⟨c1, hop, hrm⟩ := bind_eq_ok htail
    refine (SameStreams.onChannel hop).trans ⟨fun ho => Owes.removeChannel ho hrm, ?_, ?_⟩
    · obtain ⟨ch, -, hc⟩ := bind_eq_ok hrm
      cases hc
      rfl
    · obtain ⟨ch, -, hc⟩ := bind_eq_ok hrm
      cases hc
      rfl
  | drain hdrain =>
    have hdrains := drains_of_drain ho.wf hdrain
    refine ⟨fun ho => hdrains.output ho, ?_, ?_⟩
    · cases hdrains <;> rfl
    · cases hdrains <;> rfl
  | finishWrite =>
    unfold TcpConnection.finishWrite
    split
    · exact .shutdownWrite
    · exact .refl c

/-- What `send` takes. -/
theorem TcpConnection.Sends.sent {tid : ℕ} {message : List UInt8} {res : WriteResult} {c c' : TcpConnection}
    {b : Bool} (h : Sends tid message res c c' b) :
    c'.inputBuffer = c.inputBuffer ∧ sentBytes c'.trace = sentBytes c.trace ++ c.takes message res := by
  have hqueue : ∀ {c c' : TcpConnection} {rest : List UInt8}, c.queue tid rest = .ok c' →
      c'.inputBuffer = c.inputBuffer ∧ sentBytes c'.trace = sentBytes c.trace := by
    intro c c' rest hq
    obtain ⟨out, -, ⟨-, rfl⟩ | ⟨-, ch, -, rfl⟩⟩ := queue_ok hq
    · exact ⟨rfl, rfl⟩
    · exact ⟨rfl, rfl⟩
  have htaken : c.state = .kConnected → ¬ c.FaultError res → c.takes message res = message :=
    fun hst hfault => if_pos ⟨hst, hfault⟩
  cases h with
  | ignored hst =>
    have hnone : c.takes message res = [] := if_neg fun h => hst h.1
    exact ⟨rfl, by rw [hnone, List.append_nil]⟩
  | whole hst _ hres _ _ =>
    rw [htaken hst (by simp [FaultError, hres])]
    exact ⟨rfl, rfl⟩
  | complete hst _ hres _ _ =>
    rw [htaken hst (by simp [FaultError, hres])]
    exact ⟨rfl, rfl⟩
  | fault hst hd hres =>
    have hnone : c.takes message res = [] := if_neg fun h => h.2 ⟨hd, hres⟩
    exact ⟨rfl, by rw [hnone, List.append_nil]; rfl⟩
  | nothing hst _ _ hpipe =>
    rw [htaken hst fun h => hpipe h.1 h.2]
    exact ⟨rfl, rfl⟩
  | part hst _ hres _ hq =>
    rw [htaken hst (by simp [FaultError, hres])]
    exact hqueue hq
  | queued hst _ _ hpipe hq =>
    rw [htaken hst fun h => hpipe h.1 h.2]
    exact hqueue hq

/-! ### The log and the notes -/

/-- The stream of the connection is intact, it logged what its callers passed,
and so it was when each callback began. -/
structure Recorded (s : Noted) : Prop where
  output : OutputIntact s.conn
  passed : sentBytes s.conn.trace = s.passed
  seen : ∀ p ∈ s.seen, accepted p.1.trace ++ p.1.outputBuffer.readable = p.2

namespace Recorded

variable {tid : ℕ} {s s' : Noted}

/-- What was accepted and what is queued is what was passed. -/
theorem stream (h : Recorded s) : accepted s.conn.trace ++ s.conn.outputBuffer.readable = s.passed := by
  have hstream := h.output.stream
  rwa [List.append_nil, h.passed] at hstream

theorem same (h : Recorded s) {c : TcpConnection} (hc : SameStreams s.conn c) : Recorded { s with conn := c } :=
  ⟨hc.output h.output, hc.sent.trans h.passed, h.seen⟩

theorem see (h : Recorded s) : Recorded s.see := by
  refine ⟨h.output, h.passed, fun p hp => ?_⟩
  rcases List.mem_cons.mp hp with rfl | hp
  · exact h.stream
  · exact h.seen p hp

/-- The note before a `send` and what `send` does go together. -/
theorem sends (h : Recorded s) {message : List UInt8} {res : WriteResult} {c : TcpConnection} {b : Bool}
    (hs : Sends tid message res s.conn c b) : Recorded { s.pass message res with conn := c } :=
  ⟨hs.output h.output, by rw [hs.sent.2, h.passed]; rfl, h.seen⟩

theorem send {k : Noted → Except Fault Noted} (hk : ∀ s s', Recorded s → k s = .ok s' → Recorded s')
    (h : Recorded s) {message : List UInt8} {res : WriteResult}
    (hst : TcpConnection.send tid Noted.lens k message res (s.pass message res) = .ok s') : Recorded s' := by
  obtain ⟨c, ⟨hs, rfl⟩ | ⟨hs, hst⟩⟩ := send_cases hst
  · exact h.sends hs
  · exact hk _ s' (h.sends hs) hst

theorem kept : Kept Noted.lens Recorded := fun _ _ h hup => h.same (hup.sameStreams h.output)

theorem input (h : Recorded s) (b : Buffer) : Recorded { s with conn := { s.conn with inputBuffer := b } } :=
  ⟨Owes.congr h.output rfl rfl, h.passed, h.seen⟩

end Recorded

mutual

/-- An act keeps the log and the notes together. -/
theorem recorded_noteAct (tid : ℕ) : ∀ (a : Act Unit) (s s' : Noted), Recorded s → noteAct tid a s = .ok s' →
    Recorded s'
  | .send _ message res writeComplete, s, s', h, hst => by
    unfold noteAct at hst
    exact h.send (fun s s' h => recorded_noteActs tid writeComplete s.see s' h.see) hst
  | .shutDown _, s, s', h, hst => by
    unfold noteAct at hst
    rw [shutDown_eq] at hst
    cases hst
    exact h.same .shutDown
  | .retrieve _ len, s, s', h, hst => by
    unfold noteAct retrieveInput at hst
    obtain ⟨b, -, hst⟩ := bind_eq_ok hst
    cases hst
    exact h.input b
  | .destroy _ connection, s, s', h, hst => by
    unfold noteAct at hst
    exact Recorded.kept.connectDestroyed (fun s s' h => recorded_noteActs tid connection s.see s' h.see) h hst

theorem recorded_noteActs (tid : ℕ) : ∀ (as : List (Act Unit)) (s s' : Noted), Recorded s →
    noteActs tid as s = .ok s' → Recorded s'
  | [], s, s', h, hst => by
    unfold noteActs at hst
    cases hst
    exact h
  | a :: as, s, s', h, hst => by
    unfold noteActs at hst
    obtain ⟨s1, hs1, hst⟩ := bind_eq_ok hst
    exact recorded_noteActs tid as s1 s' (recorded_noteAct tid a s s1 h hs1) hst

end

/-- A call keeps them together. -/
theorem recorded_noteCall {tid : ℕ} {s s' : Noted} {a : Call} (h : Recorded s) (hst : noteCall tid s a = .ok s') :
    Recorded s' := by
  have hscript : ∀ script s s', Recorded s → noteScript tid script s = .ok s' → Recorded s' :=
    fun script s s' h => recorded_noteActs tid script s.see s' h.see
  cases a with
  | connectEstablished connection => exact Recorded.kept.connectEstablished (hscript connection) h hst
  | send message res writeComplete => exact h.send (hscript writeComplete) hst
  | shutDown =>
    cases hst
    rw [shutDown_eq]
    exact h.same .shutDown
  | handleRead r message connection =>
    exact Recorded.kept.handleRead (hscript message) (hscript connection) (hscript []) (fun _ _ b _ => h.input b) hst
  | handleWrite res writeComplete => exact Recorded.kept.handleWrite (hscript writeComplete) h hst
  | handleClose connection => exact Recorded.kept.handleClose (hscript connection) (hscript []) h hst
  | connectDestroyed connection => exact Recorded.kept.connectDestroyed (hscript connection) h hst

/-- **No byte of the output stream is lost, duplicated or reordered.** In
every run of calls on a connection, with any results of `::write` and any
callbacks, the callers can take notes; and what `::write` accepted, followed
by the readable bytes of `output_buffer_`, is then what they noted: the
messages passed to `send` while the connection was `kConnected`, one after the
other, without those that took the `fault_error` branch. The same held of
the connection as each callback found it. -/
theorem output_intact (tid : ℕ) (name : String) (sockfd : ℕ) (cbs : Callbacks)
    {tr : List (TcpConnection × Call)} {c : TcpConnection}
    (hr : Run (callMachine tid) (newConnection tid name sockfd cbs) tr c) :
    ∃ s : Noted, Takes (noteMachine tid) { conn := newConnection tid name sockfd cbs } (tr.map Prod.snd) s ∧
      s.conn = c ∧ accepted c.trace ++ c.outputBuffer.readable = s.passed ∧
      ∀ p ∈ s.seen, accepted p.1.trace ++ p.1.outputBuffer.readable = p.2 := by
  obtain ⟨s, ⟨notes, hrun, htr⟩, rfl⟩ := run_noted (s := { conn := newConnection tid name sockfd cbs }) hr
  have hstart : Recorded { conn := newConnection tid name sockfd cbs } :=
    ⟨newConnection_output tid name sockfd cbs, rfl, by simp⟩
  have hs : Recorded s := hrun.always (fun _ _ _ h _ hst => recorded_noteCall h hst) hstart
  exact ⟨s, ⟨notes, hrun, htr⟩, rfl, hs.stream, hs.seen⟩

/-- A message is cut short by `::write`, a second one is queued behind it,
and the drain's callback sends a third, which is queued. -/
theorem output_intact_three_messages :
    let calls : List Call := [.connectEstablished [], .send [1, 2, 3] (.wrote 1) [],
      .send [4] (.wrote 9) [], .handleWrite (.wrote 9) [.send () [5, 6] (.failed .ewouldblock) []]]
    let start := newConnection 1 "s#0" 5 ⟨true, true, true, true⟩
    let c := final (callMachine 1) start calls
    let s := final (noteMachine 1) { conn := start } calls
    s.conn = c ∧ accepted c.trace = [1, 2, 3, 4] ∧ c.outputBuffer.readable = [5, 6] ∧
      s.passed = [1, 2, 3, 4, 5, 6] ∧ s.seen.map Prod.snd = [[1, 2, 3, 4], []] ∧
      ∀ p ∈ s.seen, accepted p.1.trace ++ p.1.outputBuffer.readable = p.2 := by
  intro calls start c s
  have haccepts : accepts (callMachine 1) start calls = true := by decide +kernel
  have hrun : Run (callMachine 1) start (trace (callMachine 1) start calls) c := run_of_accepts calls start haccepts
  obtain ⟨s', htakes, hconn, hstream, hseen⟩ := output_intact 1 "s#0" 5 ⟨true, true, true, true⟩ hrun
  rw [trace_inputs calls start haccepts] at htakes
  have hs := htakes.eq_final
  rw [hs] at hconn hstream hseen
  have haccepted : accepted c.trace = [1, 2, 3, 4] := by decide +kernel
  have hqueued : c.outputBuffer.readable = [5, 6] := by decide +kernel
  refine ⟨hconn, haccepted, hqueued, ?_, by decide +kernel, hseen⟩
  exact hstream.symm.trans (by rw [haccepted, hqueued]; rfl)

end MiniMuduo
