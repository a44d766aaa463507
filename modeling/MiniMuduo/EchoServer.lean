/-
# The echo server

`OnMessage` of `examples/echo_server/EchoServer.cpp` takes all the bytes out of
the input buffer and sends them back. A run of the example is a run of its
`TcpServer` in which the message callback is `OnMessage`, the connection
callback only writes log lines and no write-complete callback is set; with the
idle timeout of `EchoServerWithTimeout.cpp`, a loop may call `ShutDown` on one
of its connections at any time.

In every run and for each connection, the bytes that `::write` accepted and
those that still wait in `output_buffer_` are bytes that `readv` delivered, in
their order and none twice; and they are all of them exactly when each read
fitted into the 1024 bytes of the input buffer, found the connection
`kConnected`, and `send` did not take its `fault_error` branch with the answer
(`echo_exact`).

Key definitions: `EchoServer.onMessage`, `echoMachine`, `delivered`,
`EchoStep.EchoesWhole`.
Key theorems: `Echoes.answer`, `Frames.handleRead`, `Echoing.step`,
`echo_exact`.
-/
import MiniMuduo.BufferSpace
import MiniMuduo.ThreadPool

namespace MiniMuduo

open Fallible Runs Word TcpConnection

namespace EchoServer

/-- `OnMessage(conn, buf, time)`; `sent` is what a direct `::write` returns. -/
def onMessage {σ : Type} (tid : ℕ) (conn : Lens σ TcpConnection) (sent : WriteResult) (s : σ) : Except Fault σ := do
  let c := conn.get s
  let (msg, inputBuffer) ← c.inputBuffer.retrieveAllAsString
  send tid conn .ok msg sent (conn.set s { c with inputBuffer })

theorem onMessage_cases {σ : Type} {tid : ℕ} {conn : Lens σ TcpConnection} {sent : WriteResult} {s s' : σ}
    (h : onMessage tid conn sent s = .ok s') :
    ∃ msg b c' k, (conn.get s).inputBuffer.retrieveAllAsString = .ok (msg, b) ∧
      Sends tid msg sent { conn.get s with inputBuffer := b } c' k ∧ s' = conn.set s c' := by
  unfold onMessage at h
  obtain ⟨⟨msg, b⟩, hall, hsend⟩ := bind_eq_ok h
  obtain ⟨c', ⟨hsends, rfl⟩ | ⟨hsends, hok⟩⟩ := send_cases hsend
  · rw [Lens.get_set] at hsends
    exact ⟨msg, b, c', false, hall, hsends, Lens.set_set ..⟩
  · rw [Lens.get_set] at hsends
    cases hok
    exact ⟨msg, b, c', true, hall, hsends, Lens.set_set ..⟩

/-- What the callbacks of the connection `i` do during one handler. -/
def reaction (l i : ℕ) (write : WriteResult) (read : Buffer.ReadvResult) (sent : WriteResult) :
    Reaction TcpServer where
  write := write
  read := read
  writeComplete := .ok
  message := onMessage l (connAt i) sent
  connection := .ok
  close := TcpServer.removeConnection i

end EchoServer

/-- A step of the server that runs no user code, or the `ShutDown` of an idle
connection. -/
def ServerStep.plain : ServerStep → Bool
  | .poll .. | .swap _ | .finish _ => true
  | .accept _ writeComplete => !writeComplete
  | .runTask _ connection => connection.isEmpty
  | .user _ [] | .user _ [.shutDown _] => true
  | .user .. | .handle .. | .destroy _ => false

theorem ServerStep.plain_user {l : ℕ} {script : List (Act ℕ)} (h : (ServerStep.user l script).plain = true) :
    script = [] ∨ ∃ i, script = [.shutDown i] := by
  cases script with
  | nil => exact .inl rfl
  | cons a rest =>
    cases a with
    | shutDown i =>
      cases rest with
      | nil => exact .inr ⟨i, rfl⟩
      | cons a rest => cases h
    | send i message res writeComplete => cases h
    | retrieve i len => cases h
    | destroy i connection => cases h

/-- A step of the echo server. -/
inductive EchoStep
  | server (a : ServerStep)
  /-- The next callback of a reported channel, with the results of `::write` in
  `HandleWrite`, of `readv`, and of the direct `::write` of the answer. -/
  | handle (l : ℕ) (write : WriteResult) (read : Buffer.ReadvResult) (sent : WriteResult)

/-- The connection that a step reads from, with what `readv` and the direct
`::write` of the answer return. -/
def EchoStep.reads (s : TcpServer) : EchoStep → Option (ℕ × Buffer.ReadvResult × WriteResult)
  | .server _ => none
  | .handle l _ read sent =>
    match s.round l with
    | .handling (.handler i .read :: _) => some (i, read, sent)
    | _ => none

/-- `readv` returns at most what the two iovecs hold. -/
def echoEnabled (s : TcpServer) : EchoStep → Bool
  | .server a => a.plain && s.enabled a
  | .handle l write read sent => s.enabled (.handle l {}) &&
    match (EchoStep.handle l write read sent).reads s with
    | some (i, r, _) => r.bytes.length ≤ (s.conns i).inputBuffer.writeableBytes + Buffer.extraBufSize
    | none => true

def echoStep (s : TcpServer) : EchoStep → Except Fault TcpServer
  | .server a => s.step a
  | .handle l write read sent =>
    match s.round l with
    | .handling (.handler i hd :: calls) =>
      handle l (connAt i) (EchoServer.reaction l i write read sent) hd (s.setRound l (.handling calls))
    | _ => .ok s

/-- The runs of the echo server. -/
def echoMachine : Machine TcpServer EchoStep Fault := ⟨fun s a => echoEnabled s a = true, echoStep⟩

instance (s : TcpServer) (a : EchoStep) : Decidable (echoMachine.enabled s a) := inferInstanceAs (Decidable (_ = true))

/-- What `readv` delivers on the connection `i` in a step. -/
def EchoStep.delivers (s : TcpServer) (i : ℕ) (a : EchoStep) : List UInt8 :=
  match a.reads s with
  | some (j, r, _) => if j = i then r.bytes else []
  | none => []

/-- What `readv` delivered on the connection `i` in a run. -/
def delivered (i : ℕ) (tr : List (TcpServer × EchoStep)) : List UInt8 := tr.flatMap fun p => p.2.delivers p.1 i

/-- These bytes, read by the connection, will be answered whole. -/
def Whole (c : TcpConnection) (r : Buffer.ReadvResult) (sent : WriteResult) : Prop :=
  r.bytes ≠ [] → r.bytes.length ≤ Buffer.kInitialSize ∧ c.state = .kConnected ∧ ¬ c.FaultError sent

/-- What the step reads from the connection `i` is answered whole. -/
def EchoStep.EchoesWhole (s : TcpServer) (i : ℕ) (a : EchoStep) : Prop :=
  match a.reads s with
  | some (j, r, sent) => j = i → Whole (s.conns i) r sent
  | none => True

/-! ### Sublists -/

/-- Two sublists make up the whole exactly when each is whole. -/
theorem sublist_append_eq_iff {α : Type} {a b c d : List α} (h : a.Sublist b) (h' : c.Sublist d) :
    a ++ c = b ++ d ↔ a = b ∧ c = d := by
  constructor
  · intro heq
    have hlen := congrArg List.length heq
    rw [List.length_append, List.length_append] at hlen
    have h1 := h.length_le
    have h2 := h'.length_le
    exact ⟨h.eq_of_length (by omega), h'.eq_of_length (by omega)⟩
  · rintro ⟨rfl, rfl⟩
    rfl

/-! ### One connection -/

/-- The input buffer between two callbacks: everything was taken out. -/
structure Buffer.Drained (b : Buffer) : Prop where
  readIndex : b.readIndex = 0
  writeIndex : b.writeIndex = 0
  le_length : Buffer.kInitialSize ≤ b.buffer.length
  length_le : b.buffer.length ≤ Buffer.maxSize

namespace Buffer.Drained

variable {b b' : Buffer} (h : b.Drained)

include h

theorem wf : b.WF := ⟨by rw [h.readIndex]; exact Nat.zero_le _, by rw [h.writeIndex]; exact Nat.zero_le _, h.length_le⟩

theorem readable : b.readable = [] := by
  unfold Buffer.readable
  rw [h.readIndex, h.writeIndex]
  exact Slice.slice_self _ _

theorem writeableBytes : b.writeableBytes = b.buffer.length := by
  rw [h.wf.writeableBytes_eq, h.writeIndex, Nat.sub_zero]

/-- After a read and `RetrieveAllAsString` the buffer is drained again. -/
theorem retrieved {r : ReadvResult} (hn : r.bytes.length ≤ b.writeableBytes + extraBufSize) {e : ℕ} {n : ℤ}
    (hr : b.readFd r 0 = .ok (n, e, b')) {msg : List UInt8} {b2 : Buffer}
    (hall : b'.retrieveAllAsString = .ok (msg, b2)) :
    b2.Drained ∧ msg = b'.readable ∧ b2.buffer.length = b.grown (r.bytes.length - b.writeableBytes) := by
  have hwf' := h.wf.readFd_wf hn hr
  have hlen := h.wf.readFd_length hn hr
  have hge := h.wf.le_grown (r.bytes.length - b.writeableBytes)
  obtain ⟨hmsg, hret⟩ := InputStream.retrieveAsString_eq hall
  have hpeek : b'.peek b'.readableBytes = b'.readable := by
    rw [hwf'.peek_eq_take (Nat.le_refl _), ← hwf'.length_readable, List.take_length]
  have hb2 : b2 = { b' with readIndex := 0, writeIndex := 0 } := by
    unfold retrieve at hret
    rw [if_pos (Nat.le_refl _), if_neg (Nat.lt_irrefl _)] at hret
    exact (Except.ok.inj hret).symm
  have hbuf : b2.buffer = b'.buffer := by rw [hb2]
  refine ⟨⟨by rw [hb2], by rw [hb2], ?_, ?_⟩, hmsg.trans hpeek, by rw [hbuf, hlen]⟩
  · rw [hbuf, hlen]
    exact Nat.le_trans h.le_length hge
  · rw [hbuf]
    exact hwf'.size_le

end Buffer.Drained

/-- What a connection of the echo server has answered: `d` was delivered to it,
and `w` says that all of it was answered whole. -/
structure Echoes (d : List UInt8) (w : Prop) (c : TcpConnection) : Prop where
  output : OutputIntact c
  input : c.inputBuffer.Drained
  sublist : (sentBytes c.trace).Sublist d
  whole : sentBytes c.trace = d ↔ w
  size : w → c.inputBuffer.buffer.length = Buffer.kInitialSize

namespace Echoes

variable {tid : ℕ} {d : List UInt8} {w : Prop} {c c' : TcpConnection}

theorem same (h : Echoes d w c) (hs : SameStreams c c') : Echoes d w c' := by
  refine ⟨hs.output h.output, ?_, ?_, ?_, ?_⟩
  · rw [hs.input]
    exact h.input
  · rw [hs.sent]
    exact h.sublist
  · rw [hs.sent]
    exact h.whole
  · rw [hs.input]
    exact h.size

end Echoes

/-- `ReadFd` drops from what was delivered, it adds nothing. -/
theorem Buffer.kept_sublist (b : Buffer) (bytes : List UInt8) : (b.kept bytes).Sublist bytes := by
  unfold Buffer.kept
  split
  · exact List.Sublist.refl _
  · exact List.drop_sublist _ _

/-- All bytes are kept exactly when they fit behind the write index. -/
theorem Buffer.kept_eq_iff {b : Buffer} (hpos : 0 < b.writeableBytes) {bytes : List UInt8} :
    b.kept bytes = bytes ↔ bytes.length ≤ b.writeableBytes := by
  unfold Buffer.kept
  constructor
  · intro heq
    by_contra hgt
    rw [if_neg hgt] at heq
    have hlen := congrArg List.length heq
    rw [List.length_drop] at hlen
    omega
  · intro hle
    exact if_pos hle

/-- `OnMessage` on what one read left in the input buffer. -/
theorem Echoes.answer {tid : ℕ} {d : List UInt8} {w : Prop} {c c' : TcpConnection} (h : Echoes d w c)
    {bytes : List UInt8}
    (hn : (Buffer.ReadvResult.read bytes).bytes.length ≤ c.inputBuffer.writeableBytes + Buffer.extraBufSize)
    (hne : bytes ≠ []) {e : ℕ} {n : ℤ} {b b2 : Buffer}
    (hr : c.inputBuffer.readFd (.read bytes) 0 = .ok (n, e, b)) {msg : List UInt8}
    (hall : b.retrieveAllAsString = .ok (msg, b2)) {c1 : TcpConnection}
    (hc1 : SameStreams c { c1 with inputBuffer := c.inputBuffer }) (hb2 : c1.inputBuffer = b2)
    (hstate : c1.state = c.state) (hdirect : c1.Direct ↔ c.Direct) {sent : WriteResult} {k : Bool}
    (hsends : Sends tid msg sent c1 c' k) :
    Echoes (d ++ bytes) (w ∧ Whole c (.read bytes) sent) c' := by
  obtain ⟨hdrained, hmsg, hlen⟩ := h.input.retrieved hn hr hall
  obtain ⟨-, -, hread⟩ := h.input.wf.readFd_spec hn hr
  rw [h.input.readable, List.nil_append] at hread
  have hkept : msg = c.inputBuffer.kept bytes := hmsg.trans hread
  have hwritable := h.input.writeableBytes
  have ho1 : OutputIntact c1 := Owes.congr (hc1.output h.output) rfl rfl
  have hsent1 : sentBytes c1.trace = sentBytes c.trace := hc1.sent
  obtain ⟨hinput, hsent⟩ := hsends.sent
  have hfault : c1.FaultError sent ↔ c.FaultError sent := and_congr_left fun _ => hdirect
  obtain ⟨x, hx, hxsub, hxwhole⟩ : ∃ x, sentBytes c'.trace = sentBytes c.trace ++ x ∧ x.Sublist bytes ∧
      (w → (x = bytes ↔ Whole c (.read bytes) sent)) := by
    simp only [takes, hstate, hfault, hsent1] at hsent
    split at hsent
    case isTrue hup =>
      refine ⟨msg, hsent, hkept ▸ Buffer.kept_sublist _ _, fun hw => ?_⟩
      have hroom : c.inputBuffer.writeableBytes = Buffer.kInitialSize := hwritable.trans (h.size hw)
      have hpos : 0 < c.inputBuffer.writeableBytes := by
        rw [hroom]
        decide
      rw [hkept, Buffer.kept_eq_iff hpos, hroom]
      constructor
      · intro hle _
        exact ⟨hle, hup⟩
      · intro hwhole
        exact (hwhole hne).1
    case isFalse hdown =>
      refine ⟨[], hsent, List.nil_sublist _, fun _ => ?_⟩
      constructor
      · intro heq
        exact absurd heq.symm hne
      · intro hwhole
        exact absurd (hwhole hne).2 hdown
  refine ⟨hsends.output ho1, ?_, ?_, ?_, ?_⟩
  · rw [hinput, hb2]
    exact hdrained
  · rw [hx]
    exact h.sublist.append hxsub
  · rw [hx, sublist_append_eq_iff h.sublist hxsub, h.whole]
    exact and_congr_right hxwhole
  · rintro ⟨hw, hwhole⟩
    have hle := (hwhole hne).1
    have hle' : bytes.length ≤ Buffer.kInitialSize := hle
    have hsize := h.size hw
    have hzero : (Buffer.ReadvResult.read bytes).bytes.length - c.inputBuffer.writeableBytes = 0 := by
      rw [hwritable, hsize]
      exact Nat.sub_eq_zero_of_le hle
    rw [hinput, hb2, hlen, hzero, Buffer.grown, if_neg (Nat.not_lt_zero _)]
    exact hsize

/-- A read of no bytes leaves the buffer as it was. -/
theorem Buffer.WF.readFd_nil {b : Buffer} (h : b.WF) {r : ReadvResult} (hr : r.bytes = []) {e : ℕ} {n : ℤ} {b' : Buffer}
    (hread : b.readFd r 0 = .ok (n, e, b')) : b' = b := by
  cases r with
  | failed errno =>
    rw [h.readFd_failed, Except.ok.injEq, Prod.mk.injEq, Prod.mk.injEq] at hread
    exact hread.2.2.symm
  | read bytes =>
    simp only [ReadvResult.bytes] at hr
    subst hr
    have hadd : sizeAdd b.writeIndex 0 = b.writeIndex := by
      have h1 := h.write_le
      have h2 := h.size_le
      unfold maxSize at h2
      exact sizeAdd_of_lt (by omega)
    have hcopy : copyInto b.buffer b.writeIndex [] = .ok b.buffer := by
      simp [copyInto, Slice.overwrite, h.write_le]
    have hsize : sizeOfInt (([] : List UInt8).length : ℤ) = 0 := sizeOfInt_natCast (by decide)
    simp only [readFd, ReadvResult.bytes, ReadvResult.count, List.take_nil, hcopy, ok_bind, hsize, Nat.zero_le, if_true,
      hadd, pure_eq_ok, Except.ok.injEq, Prod.mk.injEq] at hread
    exact hread.2.2.symm

/-! ### The server -/

/-- Only connections changed: the rounds are `r`, the accepted fds `a`, and
the connections have answered as `d` and `w` say. -/
structure Frames (r : ℕ → Round) (a : List ℕ) (d : ℕ → List UInt8) (w : ℕ → Prop) (s : TcpServer) : Prop where
  round : s.round = r
  accepted : s.accepted = a
  conns : ∀ i, Echoes (d i) (w i) (s.conns i)

section Frames

variable {r : ℕ → Round} {a : List ℕ} {d d' : ℕ → List UInt8} {w w' : ℕ → Prop} {s s' : TcpServer} {l i : ℕ}

theorem Frames.set (h : Frames r a d w s) {c : TcpConnection} (hc : Echoes (d' i) (w' i) c)
    (hother : ∀ j, j ≠ i → d' j = d j ∧ (w' j ↔ w j)) : Frames r a d' w' ((connAt i).set s c) := by
  refine ⟨h.round, h.accepted, fun j => ?_⟩
  show Echoes (d' j) (w' j) (Function.update s.conns i c j)
  by_cases hj : j = i
  · rw [hj, Function.update_self]
    exact hc
  · obtain ⟨hd, hw⟩ := hother j hj
    rw [Function.update_of_ne hj, hd, hw]
    exact h.conns j

theorem Frames.same (h : Frames r a d w s) {c : TcpConnection} (hc : SameStreams (s.conns i) c) :
    Frames r a d w ((connAt i).set s c) :=
  h.set ((h.conns i).same hc) fun _ _ => ⟨rfl, Iff.rfl⟩

theorem frames_steady (r : ℕ → Round) (a : List ℕ) (d : ℕ → List UInt8) (w : ℕ → Prop) :
    TcpServer.Steady (Frames r a d w) where
  set h hup := h.same (hup.sameStreams (h.conns _).output)
  books := by
    intro s s' h heq
    rw [heq]
    exact ⟨h.round, h.accepted, h.conns⟩

/-- A callback that does nothing. -/
theorem Frames.ok (t t' : TcpServer) (h : Frames r a d w t) (hok : (Except.ok t : Except Fault TcpServer) = .ok t') :
    Frames r a d w t' := by
  cases hok
  exact h

/-- The close callback. -/
theorem Frames.removeConnection (t t' : TcpServer) (h : Frames r a d w t)
    (hok : TcpServer.removeConnection i t = .ok t') : Frames r a d w t' := by
  cases hok
  exact (frames_steady r a d w).books h rfl

theorem Frames.handleRead (h : Frames r a d w s) {res : Buffer.ReadvResult} {sent : WriteResult}
    (hn : res.bytes.length ≤ (s.conns i).inputBuffer.writeableBytes + Buffer.extraBufSize)
    (hrun : handleRead l (connAt i) (EchoServer.onMessage l (connAt i) sent) .ok (TcpServer.removeConnection i) res s =
      .ok s') :
    Frames r a (Function.update d i (d i ++ res.bytes))
      (Function.update w i (w i ∧ Whole (s.conns i) res sent)) s' := by
  have hi := h.conns i
  obtain ⟨n, e, b, hr, hcase⟩ := handleRead_cases hrun
  have hcount := Buffer.readFd_count hr
  have hother : ∀ j, j ≠ i → Function.update d i (d i ++ res.bytes) j = d j ∧
      (Function.update w i (w i ∧ Whole (s.conns i) res sent) j ↔ w j) := by
    intro j hj
    rw [Function.update_of_ne hj, Function.update_of_ne hj]
    exact ⟨rfl, Iff.rfl⟩
  by_cases hnil : res.bytes = []
  · -- nothing was read: the buffer is as it was, and nothing had to be answered
    have hb : b = (s.conns i).inputBuffer := hi.input.wf.readFd_nil hnil hr
    have hd : Function.update d i (d i ++ res.bytes) = d := by
      rw [hnil, List.append_nil, Function.update_eq_self]
    have hw : Function.update w i (w i ∧ Whole (s.conns i) res sent) = w := by
      have hwhole : Whole (s.conns i) res sent := fun hne => absurd hnil hne
      rw [eq_true hwhole, and_true, Function.update_eq_self]
    have hget : ((connAt i).get s) = s.conns i := rfl
    rw [hd, hw]
    rw [hb, hget] at hcase
    have hnpos : ¬ 0 < n := by
      cases res with
      | failed errno =>
        rw [hcount, Buffer.ReadvResult.count]
        decide
      | read bytes =>
        rw [hcount, show bytes = [] from hnil]
        decide
    rcases hcase with ⟨hpos, -⟩ | ⟨-, hclose⟩ | ⟨-, rfl⟩
    · exact absurd hpos hnpos
    · exact ((frames_steady r a d w).kept i).handleClose Frames.ok Frames.removeConnection (h.same (.refl _)) hclose
    · exact h.same (.log rfl)
  · obtain ⟨bytes, rfl⟩ : ∃ bytes, res = .read bytes := by
      cases res with
      | failed errno => exact absurd rfl hnil
      | read bytes => exact ⟨bytes, rfl⟩
    have hpos : 0 < n := by
      have hlen : bytes.length ≠ 0 := fun h0 => hnil (List.length_eq_zero_iff.mp h0)
      rw [hcount]
      show (0 : ℤ) < (bytes.length : ℤ)
      omega
    rcases hcase with ⟨-, hmessage⟩ | ⟨hzero, -⟩ | ⟨hneg, -⟩
    · obtain ⟨msg, b2, c', k, hall, hsends, rfl⟩ := EchoServer.onMessage_cases hmessage
      rw [Lens.get_set] at hall hsends
      rw [Lens.set_set]
      refine h.set ?_ hother
      rw [Function.update_self, Function.update_self]
      refine hi.answer hn hnil hr hall ?_ rfl ?_ ?_ hsends
      · exact SameStreams.callback .message
      · rfl
      · exact Iff.rfl
    · omega
    · omega

end Frames

/-- Every connection of the server has answered as `d` and `w` say; loops call
handlers of accepted connections only. -/
structure Echoing (d : ℕ → List UInt8) (w : ℕ → Prop) (s : TcpServer) : Prop where
  conns : ∀ i, Echoes (d i) (w i) (s.conns i)
  calls : ∀ l i hd, .handler i hd ∈ (s.round l).calls → i < s.accepted.length
  fresh : ∀ i, s.accepted.length ≤ i → d i = [] ∧ w i

/-- A connection that was just made. -/
theorem echoes_create (l : ℕ) (name : String) (sockfd : ℕ) : Echoes [] True (TcpConnection.create l name sockfd) where
  output := Owes.congr (newConnection_output l name sockfd ⟨false, false, false, false⟩) rfl rfl
  input := by
    have hlen : (TcpConnection.create l name sockfd).inputBuffer.buffer.length = Buffer.kInitialSize :=
      List.length_replicate
    refine ⟨rfl, rfl, Nat.le_of_eq hlen.symm, ?_⟩
    rw [hlen]
    decide
  sublist := List.Sublist.refl _
  whole := ⟨fun _ => trivial, fun _ => rfl⟩
  size _ := List.length_replicate

namespace Echoing

variable {d : ℕ → List UInt8} {w : ℕ → Prop} {s s' : TcpServer} {l : ℕ}

theorem frames (h : Echoing d w s) : Frames s.round s.accepted d w s := ⟨rfl, rfl, h.conns⟩

/-- Connections have changed, and what was delivered to them. -/
theorem of_frames (h : Echoing d w s) {d' : ℕ → List UInt8} {w' : ℕ → Prop} (hf : Frames s.round s.accepted d' w' s')
    (hfresh : ∀ i, s.accepted.length ≤ i → d' i = d i ∧ (w' i ↔ w i)) : Echoing d' w' s' := by
  refine ⟨hf.conns, fun l i hd hmem => ?_, fun i hi => ?_⟩
  · rw [hf.round] at hmem
    rw [hf.accepted]
    exact h.calls l i hd hmem
  · rw [hf.accepted] at hi
    obtain ⟨hd, hw⟩ := hfresh i hi
    rw [hd, hw]
    exact h.fresh i hi

theorem of_frames_same (h : Echoing d w s) (hf : Frames s.round s.accepted d w s') : Echoing d w s' :=
  h.of_frames hf fun _ _ => ⟨rfl, Iff.rfl⟩

theorem setRound (h : Echoing d w s) {r : Round} (hr : ∀ i hd, .handler i hd ∈ r.calls → i < s.accepted.length) :
    Echoing d w (s.setRound l r) := by
  refine ⟨h.conns, fun l' i hd hmem => ?_, h.fresh⟩
  rw [TcpServer.setRound_round] at hmem
  split at hmem
  · exact hr i hd hmem
  · exact h.calls l' i hd hmem

/-- The next callback is taken off the round. -/
theorem nextCall (h : Echoing d w s) {call : ChannelCall} {calls : List ChannelCall}
    (hround : s.round l = .handling (call :: calls)) : Echoing d w (s.setRound l (.handling calls)) := by
  refine h.setRound fun i hd hmem => h.calls l i hd ?_
  rw [hround]
  exact List.mem_cons_of_mem _ hmem

theorem newConnectionCallback (h : Echoing d w s) (sockfd : ℕ) (writeComplete : Bool) :
    Echoing d w (s.newConnectionCallback sockfd writeComplete) := by
  have hlen : (s.newConnectionCallback sockfd writeComplete).accepted.length = s.accepted.length + 1 := by
    rw [TcpServer.newConnectionCallback_accepted, List.length_append, List.length_singleton]
  have hround : (s.newConnectionCallback sockfd writeComplete).round = s.round := by
    rw [TcpServer.newConnectionCallback_eq]
    rfl
  refine ⟨fun j => ?_, fun l i hd hmem => ?_, fun i hi => ?_⟩
  · have hadded : ∀ j, Echoes (d j) (w j) (Function.update s.conns s.accepted.length
        (TcpConnection.create s.getNextLoop.1 s.connName sockfd) j) := by
      intro j
      by_cases hj : j = s.accepted.length
      · obtain ⟨hd, hw⟩ := h.fresh j (Nat.le_of_eq hj.symm)
        rw [hj, Function.update_self, ← hj, hd, eq_true hw]
        exact echoes_create ..
      · rw [Function.update_of_ne hj]
        exact h.conns j
    rw [TcpServer.newConnectionCallback_eq]
    show Echoes (d j) (w j) (Function.update (Function.update s.conns s.accepted.length
      (TcpConnection.create s.getNextLoop.1 s.connName sockfd)) _ (s.setCallbacks writeComplete _) j)
    by_cases hj : j = (s.connections.find s.connName).getD s.accepted.length
    · rw [hj, Function.update_self]
      exact (hadded _).same ⟨fun ho => Owes.congr ho rfl rfl, rfl, rfl⟩
    · rw [Function.update_of_ne hj]
      exact hadded j
  · rw [hround] at hmem
    rw [hlen]
    exact Nat.lt_succ_of_lt (h.calls l i hd hmem)
  · rw [hlen] at hi
    exact h.fresh i (Nat.le_of_succ_le hi)

theorem poll (h : Echoing d w s) {ready : List (ChannelRef × Events)} (hreport : ∀ r ∈ ready, s.canReport l r = true) :
    Echoing d w ((s.setRevents ready).setRound l (.handling (ready.flatMap fun r => r.1.calls r.2))) := by
  have hf := (frames_steady s.round s.accepted d w).setRevents ready h.frames
  refine (h.of_frames_same hf).setRound fun i hd hmem => ?_
  rw [hf.accepted]
  obtain ⟨⟨ref, ev⟩, hr, hcall⟩ := List.mem_flatMap.mp hmem
  cases ref with
  | acceptor =>
    simp only [ChannelRef.calls] at hcall
    split at hcall <;> simp at hcall
  | connection j =>
    obtain ⟨hd', -, heq⟩ := List.mem_map.mp hcall
    cases heq
    have hcan := hreport _ hr
    unfold TcpServer.canReport at hcan
    exact (TcpServer.onLoop_iff.mp (Bool.and_eq_true_iff.mp hcan).1).1

/-- A step of the server that runs no callback of the user. -/
theorem server (h : Echoing d w s) {a : ServerStep} (hplain : a.plain = true) (hen : s.enabled a = true)
    (hst : s.step a = .ok s') : Echoing d w s' := by
  cases a with
  | poll l ready =>
    simp only [TcpServer.enabled, Bool.and_eq_true, List.all_eq_true] at hen
    cases hst
    exact h.poll hen.2
  | accept sockfd writeComplete =>
    simp only [TcpServer.step] at hst
    split at hst
    case h_1 call calls hround =>
      have h1 : Echoing d w (s.setRound 0 (.handling calls)) := h.nextCall hround
      rcases sockfd with _ | sockfd
      · cases hst
        exact h1
      · cases hst
        exact h1.newConnectionCallback sockfd writeComplete
    case h_2 =>
      cases hst
      exact h
  | handle l re => cases hplain
  | swap l =>
    cases hst
    have h1 : Echoing d w (s.setRound l (.running (s.pending l))) := h.setRound fun _ _ hmem => by cases hmem
    exact ⟨h1.conns, h1.calls, h1.fresh⟩
  | runTask l connection =>
    obtain rfl : connection = [] := List.isEmpty_iff.mp hplain
    simp only [TcpServer.step] at hst
    split at hst
    case h_1 t tasks hround =>
      have h1 : Echoing d w (s.setRound l (.running tasks)) := h.setRound fun _ _ hmem => by cases hmem
      refine h1.of_frames_same ((frames_steady _ _ d w).runTask ?_ h1.frames hst)
      intro t t' ht hrun
      unfold runActs at hrun
      cases hrun
      exact ht
    case h_2 =>
      cases hst
      exact h
  | finish l =>
    cases hst
    exact h.setRound fun _ _ hmem => by cases hmem
  | user l script =>
    rcases ServerStep.plain_user hplain with rfl | ⟨i, rfl⟩
    · simp only [TcpServer.step] at hst
      unfold runActs at hst
      cases hst
      exact h
    · simp only [TcpServer.step] at hst
      unfold runActs runAct runActs at hst
      rw [shutDown_eq] at hst
      cases hst
      exact h.of_frames_same (h.frames.same .shutDown)
  | destroy connection => cases hplain

theorem step (h : Echoing d w s) {a : EchoStep} (hen : echoEnabled s a = true) (hst : echoStep s a = .ok s') :
    Echoing (fun i => d i ++ a.delivers s i) (fun i => w i ∧ a.EchoesWhole s i) s' := by
  have hnone : a.reads s = none → Echoing d w s' →
      Echoing (fun i => d i ++ a.delivers s i) (fun i => w i ∧ a.EchoesWhole s i) s' := by
    intro hreads hs'
    simp only [EchoStep.delivers, EchoStep.EchoesWhole, hreads, List.append_nil, and_true]
    exact hs'
  cases a with
  | server a =>
    obtain ⟨hplain, hen⟩ := Bool.and_eq_true_iff.mp hen
    exact hnone rfl (h.server hplain hen hst)
  | handle l write read sent =>
    simp only [echoStep] at hst
    split at hst
    case h_2 hround =>
      cases hst
      refine hnone ?_ h
      simp only [EchoStep.reads]
      split
      case h_1 i calls hround' => exact absurd hround' (hround _ _ _)
      case h_2 => rfl
    case h_1 i hd calls hround =>
      have h1 : Echoing d w (s.setRound l (.handling calls)) := h.nextCall hround
      have hi : i < s.accepted.length := h.calls l i hd (by rw [hround]; exact List.mem_cons_self ..)
      by_cases hread : hd = .read
      · subst hread
        have hreads : (EchoStep.handle l write read sent).reads s = some (i, read, sent) := by
          simp only [EchoStep.reads, hround]
        have hbound : read.bytes.length ≤ (s.conns i).inputBuffer.writeableBytes + Buffer.extraBufSize := by
          simp only [echoEnabled, hreads, Bool.and_eq_true, decide_eq_true_eq] at hen
          exact hen.2
        have hlog : Frames (s.setRound l (.handling calls)).round s.accepted d w
            ((connAt i).modify (log (.handler .read)) (s.setRound l (.handling calls))) := h1.frames.same (.log rfl)
        have hget : ((connAt i).modify (log (.handler .read)) (s.setRound l (.handling calls))).conns i =
            (s.conns i).log (.handler .read) := Function.update_self ..
        have hget' : (((connAt i).modify (log (.handler .read)) (s.setRound l (.handling calls))).conns i).inputBuffer =
            (s.conns i).inputBuffer := by rw [hget]; rfl
        rw [← hget'] at hbound
        have hf := hlog.handleRead hbound hst
        have hwhole : Whole (((connAt i).modify (log (.handler .read)) (s.setRound l (.handling calls))).conns i) read
            sent ↔ Whole (s.conns i) read sent := by
          rw [hget]
          exact Iff.rfl
        have hd : (fun j => d j ++ (EchoStep.handle l write read sent).delivers s j) =
            Function.update d i (d i ++ read.bytes) := by
          funext j
          simp only [EchoStep.delivers, hreads]
          by_cases hj : j = i
          · rw [hj, if_pos rfl, Function.update_self]
          · rw [if_neg (Ne.symm hj), Function.update_of_ne hj, List.append_nil]
        have hw : (fun j => w j ∧ (EchoStep.handle l write read sent).EchoesWhole s j) =
            Function.update w i (w i ∧ Whole (((connAt i).modify (log (.handler .read))
              (s.setRound l (.handling calls))).conns i) read sent) := by
          funext j
          simp only [EchoStep.EchoesWhole, hreads]
          by_cases hj : j = i
          · rw [hj, Function.update_self, hwhole]
            simp only [forall_const]
          · rw [Function.update_of_ne hj]
            simp only [Ne.symm hj, false_implies, and_true]
        rw [hd, hw]
        refine h1.of_frames hf fun j hj => ?_
        have hne : j ≠ i := Nat.ne_of_gt (Nat.lt_of_lt_of_le hi hj)
        rw [Function.update_of_ne hne, Function.update_of_ne hne]
        exact ⟨rfl, Iff.rfl⟩
      · have hf : Frames (s.setRound l (.handling calls)).round s.accepted d w s' :=
          ((frames_steady _ _ d w).kept i).handle Frames.ok Frames.ok Frames.removeConnection hd h1.frames
            (fun heq => absurd heq hread) hst
        refine hnone ?_ (h1.of_frames_same hf)
        simp only [EchoStep.reads, hround]
        split
        case h_1 heq =>
          cases heq
          exact absurd rfl hread
        case h_2 => rfl

end Echoing

/-- **The echo server sends back what it reads.** In every run of the example
with any number of IO threads, whatever the kernel returns, and whether or not
idle connections are shut down: on each connection the bytes that were written
and those that wait in `output_buffer_` are, in order, bytes that were read; and
they are all that was read exactly when every read was answered whole, that is,
it brought at most 1024 bytes, to a connection that was `kConnected`, and the
`send` of its answer did not take the `fault_error` branch. -/
theorem echo_exact (name : String) (numThreads : ℕ) {tr : List (TcpServer × EchoStep)} {s : TcpServer}
    (hr : Run echoMachine (TcpServer.start name true true numThreads) tr s) (i : ℕ) :
    (accepted (s.conns i).trace ++ (s.conns i).outputBuffer.readable).Sublist (delivered i tr) ∧
      (accepted (s.conns i).trace ++ (s.conns i).outputBuffer.readable = delivered i tr ↔
        ∀ p ∈ tr, p.2.EchoesWhole p.1 i) := by
  have h : Echoing (fun i => delivered i tr) (fun i => ∀ p ∈ tr, p.2.EchoesWhole p.1 i) s := by
    induction hr with
    | nil =>
      refine ⟨fun i => ?_, fun l i hd hmem => ?_, fun i _ => ⟨rfl, ?_⟩⟩
      · have htrue : (∀ p ∈ ([] : List (TcpServer × EchoStep)), p.2.EchoesWhole p.1 i) = True := by simp
        rw [htrue]
        exact echoes_create ..
      · cases hmem
      · simp
    | @snoc tr t u a hr hen hst ih =>
      have hstep := ih.step hen hst
      have hd : (fun i => delivered i (tr ++ [(t, a)])) = fun i => delivered i tr ++ a.delivers t i := by
        funext i
        simp [delivered]
      have hw : (fun i => ∀ p ∈ tr ++ [(t, a)], p.2.EchoesWhole p.1 i) =
          fun i => (∀ p ∈ tr, p.2.EchoesWhole p.1 i) ∧ a.EchoesWhole t i := by
        funext i
        simp only [List.forall_mem_append, List.forall_mem_singleton]
      rw [hd, hw]
      exact hstep
  have hi := h.conns i
  have hstream := hi.output.stream
  rw [List.append_nil] at hstream
  rw [hstream]
  exact ⟨hi.sublist, hi.whole⟩

/-- Two reads: the answer to the first one is cut short by `::write` and
drained later, in front of the second one. -/
theorem echo_exact_two_reads :
    let steps : List EchoStep := [.server (.poll 0 [(.acceptor, { epollIn := true })]),
      .server (.accept (some 7) false), .server (.swap 0), .server (.finish 0), .server (.poll 1 []), .server (.swap 1), .server (.runTask 1 []),
      .server (.finish 1), .server (.poll 1 [(.connection 0, { epollIn := true })]),
      .handle 1 (.wrote 0) (.read [1, 2, 3]) (.wrote 2), .server (.swap 1), .server (.finish 1),
      .server (.poll 1 [(.connection 0, { epollIn := true, epollOut := true })]),
      .handle 1 (.wrote 9) (.read []) (.wrote 0), .handle 1 (.wrote 9) (.read [4]) (.failed .ewouldblock),
      .server (.user 1 [.shutDown 0])]
    let tr := trace echoMachine (TcpServer.start "s" true true 1) steps
    let s := final echoMachine (TcpServer.start "s" true true 1) steps
    accepted (s.conns 0).trace = [1, 2, 3] ∧ (s.conns 0).outputBuffer.readable = [4] ∧
      ∀ p ∈ tr, p.2.EchoesWhole p.1 0 :=
  ⟨by decide +kernel, by decide +kernel,
    (echo_exact "s" 1 (run_of_accepts _ _ (by decide +kernel)) 0).2.mp (by decide +kernel)⟩

end MiniMuduo
