/-
# What the functions of a connection keep, and how they can fail

A regime (`Regime tid P F`) is a property `P` of connections that looks only at
the loop of a connection and at what other threads than `tid` did to its
channel, with faults `F` that hold all but two: the abort for the wrong thread
and the call of an empty function. Every function of a connection run by the
thread `tid` keeps `P` and ends in `F` or not at all, whatever the callbacks
do that keep it, where the abort and the empty call are excluded or are in `F`.

`Governs P on conn Q` is the same for a state with many connections: `Q` holds
only where the connections `on` have `P`, and depends on them in no other way.

Key definitions: `Regime`, `Governs`.
Key theorems: `handle_gives`, `connectEstablished_gives`,
`connectDestroyed_gives`, `runActs_gives`.
-/
import MiniMuduo.Calls

namespace MiniMuduo

open Fallible Runs TcpConnection

/-- The event is not a call on the channel by another thread than `tid`. -/
def Event.onThread (tid : ℕ) : Event → Bool
  | .updateChannel t | .removeChannel t => t = tid
  | _ => true

/-! ### Buffers and channels -/

/-- All faults but the abort of `AssertInLoopThread` and the call of an empty
function are in `F`. -/
def Ordinary (F : Fault → Prop) : Prop := ∀ f, f ≠ .notInLoopThread → f ≠ .badFunctionCall → F f

section parts

variable {F : Fault → Prop} (hF : Ordinary F)

include hF

theorem copyInto_gives (v data : List UInt8) (i : ℕ) : Gives (fun _ => True) F (Buffer.copyInto v i data) := by
  unfold Buffer.copyInto
  split
  · trivial
  · exact hF _ (by decide) (by decide)

theorem append_gives (b : Buffer) (data : List UInt8) : Gives (fun _ => True) F (b.append data) := by
  have hspace : Gives (fun _ => True) F (b.makeSpace data.length) := by
    unfold Buffer.makeSpace Buffer.resize
    split
    · split
      · trivial
      · exact hF _ (by decide) (by decide)
    · exact (copyInto_gives hF _ _ _).bind fun _ _ => trivial
  have hcopy : ∀ b : Buffer, Gives (fun _ => True) F (Buffer.copyInto b.buffer b.writeIndex data) :=
    fun b => copyInto_gives hF _ _ _
  unfold Buffer.append
  simp only
  split
  · exact hspace.bind fun b' _ => (hcopy b').bind fun _ _ => trivial
  · rw [ok_bind]
    exact (hcopy b).bind fun _ _ => trivial

theorem retrieve_gives (b : Buffer) (len : ℕ) : Gives (fun _ => True) F (b.retrieve len) := by
  unfold Buffer.retrieve
  split
  · split <;> trivial
  · exact hF _ (by decide) (by decide)

/-- `ReadFd` returns what `readv` returned. -/
theorem readFd_gives (b : Buffer) (r : Buffer.ReadvResult) (saveErrno : ℕ) :
    Gives (fun x => x.1 = r.count) F (b.readFd r saveErrno) := by
  unfold Buffer.readFd
  refine (copyInto_gives hF _ _ _).bind fun buffer _ => ?_
  simp only
  split
  · rfl
  · split
    · rfl
    · exact (append_gives hF _ _).bind fun _ _ => rfl

theorem epollUpdate_gives (op : CtlOp) (ch : Channel) : Gives (fun _ => True) F (EpollPoller.update op ch) := by
  unfold EpollPoller.update
  split
  · trivial
  · split
    · trivial
    · exact hF _ (by decide) (by decide)

/-- An update of another thread is refused. -/
theorem updateChannel_gives (inLoop : Bool) (ch : Channel) :
    Gives (fun _ => True) F (EventLoop.updateChannel inLoop ch) := by
  unfold EventLoop.updateChannel EpollPoller.updateChannel
  cases inLoop with
  | false => trivial
  | true =>
    simp only [Bool.not_true, Bool.false_eq_true, if_false]
    split
    · exact epollUpdate_gives hF _ _
    · split
      · exact (epollUpdate_gives hF _ _).bind fun _ _ => trivial
      · exact epollUpdate_gives hF _ _

/-- A removal by another thread is the abort. -/
theorem remove_gives {inLoop : Bool} (hown : inLoop = true ∨ F .notInLoopThread) (ch : Channel) :
    Gives (fun _ => True) F (ch.remove inLoop) := by
  unfold Channel.remove
  split
  swap
  · exact hF _ (by decide) (by decide)
  unfold EventLoop.removeChannel EpollPoller.removeChannel
  split
  case isTrue hout => exact hown.resolve_left (by simpa using hout)
  split
  · exact (epollUpdate_gives hF _ _).bind fun _ _ => trivial
  · trivial

end parts

/-! ### The parts of a connection's functions -/

/-- What the functions of a connection keep under the thread `tid`, and the
faults they can end in. -/
structure Regime (tid : ℕ) (P : TcpConnection → Prop) (F : Fault → Prop) : Prop where
  faults : Ordinary F
  keep : ∀ {c c' : TcpConnection}, P c → c'.loop = c.loop →
    (∀ e ∈ c'.trace, e ∈ c.trace ∨ e.onThread tid = true) → P c'
  own : ∀ {c : TcpConnection}, P c → tid = c.loop ∨ F .notInLoopThread

namespace Regime

variable {tid : ℕ} {P : TcpConnection → Prop} {F : Fault → Prop} (hr : Regime tid P F) {c : TcpConnection}

include hr

/-- What neither the loop nor the trace shows. -/
theorem same (h : P c) {c' : TcpConnection} (hloop : c'.loop = c.loop) (htrace : c'.trace = c.trace) : P c' :=
  hr.keep h hloop fun _ he => .inl (htrace ▸ he)

/-- One event of the thread itself. -/
theorem logged (h : P c) {c' : TcpConnection} (hloop : c'.loop = c.loop) {e : Event} (he : e.onThread tid = true)
    (htrace : c'.trace = e :: c.trace) : P c' := by
  refine hr.keep h hloop fun e' he' => ?_
  rw [htrace] at he'
  rcases List.mem_cons.mp he' with rfl | he'
  · exact .inr he
  · exact .inl he'

theorem log (h : P c) {e : Event} (he : e.onThread tid = true) : P (c.log e) := hr.logged h rfl he rfl

theorem logCallback (h : P c) (cb : Callback) : P (c.logCallback cb) := hr.log h rfl

theorem setState (h : P c) (new : StateE) : P (c.setState new) :=
  hr.logged (e := .setState c.state new) h rfl rfl rfl

/-- An update of the channel. -/
theorem onChannel (h : P c) {op : Bool → Channel → Except Fault Channel}
    (hop : ∀ b ch, Gives (fun _ => True) F (op b ch)) : Gives P F (c.onChannel tid op) := by
  unfold TcpConnection.onChannel
  refine (hop _ _).bind fun ch _ => ?_
  exact hr.logged (e := .updateChannel tid) h rfl (decide_eq_true rfl) rfl

theorem disableAll (h : P c) : Gives P F (c.onChannel tid Channel.disableAll) :=
  hr.onChannel h fun _ _ => updateChannel_gives hr.faults _ _

/-- The removal of the channel. -/
theorem removeChannel (h : P c) : Gives P F (c.removeChannel tid) := by
  have hown : decide (tid = c.loop) = true ∨ F .notInLoopThread := (hr.own h).imp_left decide_eq_true
  unfold TcpConnection.removeChannel
  refine (remove_gives hr.faults hown _).bind fun ch _ => ?_
  exact hr.logged (e := .removeChannel tid) h rfl (decide_eq_true rfl) rfl

theorem queue (h : P c) (rest : List UInt8) : Gives P F (c.queue tid rest) := by
  unfold TcpConnection.queue
  refine (append_gives hr.faults _ _).bind fun out _ => ?_
  have h' : P { c with outputBuffer := out } := hr.same h rfl rfl
  simp only
  split
  · exact h'
  · exact hr.onChannel h' fun _ _ => updateChannel_gives hr.faults _ _

/-- The part of `send` before its callback. -/
theorem sendCore (h : P c) (message : List UInt8) (res : WriteResult) :
    Gives (fun r => P r.1) F (sendCore tid message res c) := by
  have hqueue : ∀ {c' : TcpConnection} (rest : List UInt8), P c' →
      Gives (fun r => P r.1) F (do return (← c'.queue tid rest, false)) :=
    fun rest h' => (hr.queue h' rest).bind fun _ hc => hc
  have hsent : ∀ f, P (c.log (.sent message f)) := fun f => hr.log h rfl
  unfold TcpConnection.sendCore
  split
  · split
    · cases res with
      | wrote n =>
        have hwrote : P ((c.log (.wrote (message.take n))).log (.sent message false)) := hr.log (hr.log h rfl) rfl
        simp only
        split
        · split
          · exact hr.logCallback hwrote _
          · exact hwrote
        · exact hqueue _ hwrote
      | failed errno =>
        simp only
        split
        · exact hsent _
        · exact hqueue _ (hsent _)
    · simp only
      split
      · exact hsent _
      · exact hqueue _ (hsent _)
  · exact h

/-- The part of `HandleWrite` before its callback. -/
theorem drain (h : P c) (res : WriteResult) : Gives (fun r => P r.1) F (drain tid res c) := by
  unfold TcpConnection.drain
  split
  · cases res with
    | wrote n =>
      simp only
      split
      · refine (retrieve_gives hr.faults _ _).bind fun out _ => ?_
        have hout : P { c with outputBuffer := out } := hr.same h rfl rfl
        have h' : ∀ bytes, P ({ c with outputBuffer := out }.log (.wrote bytes)) := fun bytes => hr.log hout rfl
        split
        · exact (hr.onChannel (h' _) fun _ _ => updateChannel_gives hr.faults _ _).bind fun _ hc => hc
        · exact h' _
      · exact h
    | failed e => exact h
  · exact h

theorem finishWrite (h : P c) : P c.finishWrite := by
  unfold TcpConnection.finishWrite
  split
  · exact hr.log h rfl
  · exact h

theorem shutDown (h : P c) : P (shutDown .self c) := by
  rcases shutDown_cases c with ⟨-, hc⟩ | ⟨-, -, hc⟩ | ⟨-, -, hc⟩
  · rwa [hc]
  · rw [hc]
    exact hr.setState h _
  · rw [hc]
    exact hr.log (hr.setState h _) rfl

end Regime

/-! ### The functions -/

/-- `Q` holds only where the connections `on` have `P`, and depends on them in
no other way. -/
structure Governs {σ ι : Type} (P : TcpConnection → Prop) (on : ι → Bool) (conn : ι → Lens σ TcpConnection)
    (Q : σ → Prop) : Prop where
  own : ∀ {s i}, on i = true → Q s → P ((conn i).get s)
  set : ∀ {s i c}, on i = true → Q s → P c → Q ((conn i).set s c)

section functions

variable {σ ι : Type} {tid : ℕ} {P : TcpConnection → Prop} {F : Fault → Prop} {on : ι → Bool}
  {conn : ι → Lens σ TcpConnection} {Q : σ → Prop}

section unruled

variable (hg : Governs P on conn Q) {i : ι} (hi : on i = true) {s : σ}

include hg hi

theorem Governs.modify (hs : Q s) {f : TcpConnection → TcpConnection} (hf : ∀ c, P c → P (f c)) :
    Q ((conn i).modify f s) :=
  hg.set hi hs (hf _ (hg.own hi hs))

end unruled

variable (hr : Regime tid P F) (hg : Governs P on conn Q) {i : ι} (hi : on i = true) {s : σ}

include hr hg hi

theorem notify_gives (hs : Q s) (cb : Callback) {k : σ → Except Fault σ} (hk : ∀ s, Q s → Gives Q F (k s)) :
    Gives Q F (notify (conn i) cb k s) := by
  unfold notify
  split
  · exact hk _ (hg.modify hi hs fun c hc => hr.logCallback hc cb)
  · exact hs

/-- A callback called without a test. -/
theorem invoke_gives (hs : Q s) {cb : Callback} (hset : F .badFunctionCall ∨ ((conn i).get s).isSet cb = true)
    {k : σ → Except Fault σ} (hk : ∀ s, Q s → Gives Q F (k s)) : Gives Q F (invoke (conn i) cb k s) := by
  unfold invoke
  split
  · exact hk _ (hg.modify hi hs fun c hc => hr.logCallback hc cb)
  · exact hset.resolve_right (by assumption)

theorem send_gives (hs : Q s) {k : σ → Except Fault σ} (hk : ∀ s, Q s → Gives Q F (k s)) (message : List UInt8)
    (res : WriteResult) : Gives Q F (send tid (conn i) k message res s) := by
  rw [send_eq]
  refine (hr.sendCore (hg.own hi hs) message res).bind fun r hc => ?_
  obtain ⟨c, complete⟩ := r
  simp only
  split
  · exact hk _ (hg.set hi hs hc)
  · exact hg.set hi hs hc

theorem handleWrite_gives (hs : Q s) {k : σ → Except Fault σ} (hk : ∀ s, Q s → Gives Q F (k s))
    (res : WriteResult) : Gives Q F (handleWrite tid (conn i) k res s) := by
  rw [handleWrite_eq]
  refine (hr.drain (hg.own hi hs) res).bind fun r hc => ?_
  obtain ⟨c, drained⟩ := r
  simp only
  split
  · refine (notify_gives hr hg hi (hg.set hi hs hc) .writeComplete hk).bind fun s1 hs1 => ?_
    exact hg.modify hi hs1 fun c hc => hr.finishWrite hc
  · exact hg.set hi hs hc

theorem handleClose_gives (hs : Q s) {k kc : σ → Except Fault σ} (hk : ∀ s, Q s → Gives Q F (k s))
    (hkc : ∀ s, Q s → Gives Q F (kc s)) : Gives Q F (handleClose tid (conn i) k kc s) := by
  have hc := hg.own hi hs
  unfold handleClose
  refine (hr.disableAll (hr.setState (hr.log hc rfl) .kDisconnected)).bind fun c hc => ?_
  refine (notify_gives hr hg hi (hg.set hi hs hc) .connection hk).bind fun s1 hs1 => ?_
  refine (notify_gives hr hg hi hs1 .close hkc).bind fun s2 hs2 => ?_
  exact hg.modify hi hs2 fun c hc => hr.log hc rfl

theorem handleRead_gives (hs : Q s) {r : Buffer.ReadvResult}
    (hset : F .badFunctionCall ∨ ((conn i).get s).messageCallback = true ∨ r.count ≤ 0)
    {km k kc : σ → Except Fault σ} (hkm : ∀ s, Q s → Gives Q F (km s)) (hk : ∀ s, Q s → Gives Q F (k s))
    (hkc : ∀ s, Q s → Gives Q F (kc s)) : Gives Q F (handleRead tid (conn i) km k kc r s) := by
  have hc := hg.own hi hs
  unfold handleRead
  refine (readFd_gives hr.faults _ _ _).bind fun x hcount => ?_
  obtain ⟨n, e, b⟩ := x
  have hs1 : Q ((conn i).set s { (conn i).get s with inputBuffer := b }) := hg.set hi hs (hr.same hc rfl rfl)
  simp only
  split
  case isTrue hpos =>
    refine invoke_gives hr hg hi hs1 (hset.imp_right fun h => ?_) hkm
    rw [Lens.get_set]
    apply h.resolve_right
    have : n = r.count := hcount
    omega
  case isFalse =>
    split
    · exact handleClose_gives hr hg hi hs1 hk hkc
    · exact hg.modify hi hs1 fun c hc => hr.log hc rfl

theorem retrieveInput_gives (hs : Q s) (len : ℕ) : Gives Q F (retrieveInput (conn i) len s) := by
  have hc := hg.own hi hs
  unfold retrieveInput
  refine (retrieve_gives hr.faults _ _).bind fun b _ => ?_
  exact hg.set hi hs (hr.same hc rfl rfl)

theorem connectEstablished_gives (hs : Q s) {k : σ → Except Fault σ} (hk : ∀ s, Q s → Gives Q F (k s)) :
    Gives Q F (connectEstablished tid (conn i) k s) := by
  have hc : P (((conn i).get s).log (.connectEstablished tid)) := hr.log (hg.own hi hs) rfl
  unfold connectEstablished
  refine (hr.onChannel (hr.setState hc .kConnected) fun _ _ => updateChannel_gives hr.faults _ _).bind fun c hc => ?_
  have htied : P { c with channel := c.channel.tie } := hr.same hc rfl rfl
  exact notify_gives hr hg hi (hg.set hi hs htied) .connection hk

theorem connectDestroyed_gives (hs : Q s)
    (hset : F .badFunctionCall ∨ ((conn i).get s).connectionCallback = true ∨ ¬ ((conn i).get s).Up)
    {k : σ → Except Fault σ} (hk : ∀ s, Q s → Gives Q F (k s)) : Gives Q F (connectDestroyed tid (conn i) k s) := by
  have hc : P (((conn i).get s).log (.connectDestroyed tid)) := hr.log (hg.own hi hs) rfl
  have htail : ∀ s, Q s → Gives Q F (do
      let c ← ((conn i).get s).onChannel tid Channel.disableAll
      let c ← c.removeChannel tid
      return (conn i).set s c) := by
    intro s hs
    refine (hr.disableAll (hg.own hi hs)).bind fun c hc => ?_
    exact (hr.removeChannel hc).bind fun c hc => hg.set hi hs hc
  unfold connectDestroyed
  simp only
  split
  case isTrue hup =>
    rcases hset with hbad | hset
    · refine (hr.disableAll (hr.setState hc .kDisconnected)).bind fun c hc => ?_
      exact (invoke_gives hr hg hi (hg.set hi hs hc) (.inl hbad) hk).bind htail
    · -- `DisableAll` leaves the callbacks alone
      have hcallback : ((conn i).get s).connectionCallback = true := hset.resolve_right (not_not.mpr hup)
      have hdisable := hr.disableAll (hr.setState hc .kDisconnected)
      cases hop : ((((conn i).get s).log (.connectDestroyed tid)).setState .kDisconnected).onChannel tid
          Channel.disableAll with
      | error f => exact hdisable.error_of hop
      | ok c =>
        rw [ok_bind]
        refine (invoke_gives hr hg hi (hg.set hi hs (hdisable.ok_of hop)) (.inr ?_) hk).bind htail
        obtain ⟨ch, -, rfl⟩ := onChannel_ok hop
        rw [Lens.get_set]
        exact hcallback
  case isFalse =>
    rw [ok_bind]
    exact htail _ (hg.set hi hs hc)

/-- A handler, with a reaction whose callbacks stay. -/
theorem handle_gives (hs : Q s) (re : Reaction σ) (hw : ∀ s, Q s → Gives Q F (re.writeComplete s))
    (hm : ∀ s, Q s → Gives Q F (re.message s)) (hk : ∀ s, Q s → Gives Q F (re.connection s))
    (hkc : ∀ s, Q s → Gives Q F (re.close s)) {h : Handler}
    (hset : F .badFunctionCall ∨ (h = .read → ((conn i).get s).messageCallback = true ∨ re.read.count ≤ 0)) :
    Gives Q F (handle tid (conn i) re h s) := by
  have hlog : Q ((conn i).modify (log (.handler h)) s) := hg.modify hi hs fun c hc => hr.log hc rfl
  unfold handle
  cases h with
  | close => exact handleClose_gives hr hg hi hlog hk hkc
  | error => exact hg.modify hi hlog fun c hc => hr.log hc rfl
  | write => exact handleWrite_gives hr hg hi hlog hw _
  | read =>
    refine handleRead_gives hr hg hi hlog (hset.imp_right fun h => ?_) hm hk hkc
    rw [Lens.get_modify]
    exact h rfl

end functions

section scripts

variable {σ ι : Type} {tid : ℕ} {P : TcpConnection → Prop} {F : Fault → Prop} {d : Bool} {on : ι → Bool}
  {conn : ι → Lens σ TcpConnection} {Q : σ → Prop}

mutual

/-- An act of user code; it destroys connections only where the empty call is
in `F`. -/
theorem runAct_gives (hr : Regime tid P F) (hg : Governs P on conn Q) (hd : F .badFunctionCall ∨ d = false) :
    ∀ (a : Act ι), a.allowed d on = true → ∀ s, Q s → Gives Q F (runAct tid conn a s)
  | .send i message res writeComplete, ha, s, hs => by
    unfold Act.allowed at ha
    obtain ⟨hi, hscript⟩ := Bool.and_eq_true_iff.mp ha
    unfold runAct
    exact send_gives hr hg hi hs (runActs_gives hr hg hd writeComplete hscript) message res
  | .shutDown i, ha, s, hs => by
    unfold Act.allowed at ha
    unfold runAct
    rw [shutDown_eq]
    exact hg.set ha hs (hr.shutDown (hg.own ha hs))
  | .retrieve i len, ha, s, hs => by
    unfold Act.allowed at ha
    unfold runAct
    exact retrieveInput_gives hr hg ha hs len
  | .destroy i connection, ha, s, hs => by
    unfold Act.allowed at ha
    obtain ⟨hdi, hscript⟩ := Bool.and_eq_true_iff.mp ha
    obtain ⟨hd', hi⟩ := Bool.and_eq_true_iff.mp hdi
    have hbad : F .badFunctionCall := hd.resolve_right (by rw [hd']; decide)
    unfold runAct
    exact connectDestroyed_gives hr hg hi hs (.inl hbad) (runActs_gives hr hg hd connection hscript)

/-- A script of user code. -/
theorem runActs_gives (hr : Regime tid P F) (hg : Governs P on conn Q) (hd : F .badFunctionCall ∨ d = false) :
    ∀ (as : List (Act ι)), scriptAllowed d on as = true → ∀ s, Q s → Gives Q F (runActs tid conn as s)
  | [], _, s, hs => by
    unfold runActs
    exact hs
  | a :: as, has, s, hs => by
    unfold scriptAllowed at has
    obtain ⟨ha, has⟩ := Bool.and_eq_true_iff.mp has
    unfold runActs
    exact (runAct_gives hr hg hd a ha s hs).bind (runActs_gives hr hg hd as has)

end

end scripts

end MiniMuduo
