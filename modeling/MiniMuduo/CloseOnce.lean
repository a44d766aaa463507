/-
# The end of a connection, handler by handler

An orderly trace has `HandleClose` at most once, of a connection that is up,
and no callback after it returned (`orderly_spec`). What each handler of a
channel does to a connection whose trace is orderly so far (`Settled`): a
`HandleClose` of a connection that is up keeps the order and one of any other
connection breaks it, `HandleWrite` and the callbacks' scripts keep it.

Key definitions: `Orderly`, `Settled`, `SameEnds`.
Key theorems: `orderly_spec`, `Settled.runScript`, `handleClose_settled`,
`handleClose_disorder`, `handleWrite_settled`, `handleWrite_up_iff`.
-/
import MiniMuduo.Interest

namespace MiniMuduo

open Fallible Runs TcpConnection

/-! ### Orderly traces -/

/-- `HandleClose` begins. -/
def Event.isClose : Event → Bool
  | .handleClose _ => true
  | _ => false

/-- `HandleClose` has begun. -/
def Closed (trace : List Event) : Prop := ∃ e ∈ trace, e.isClose = true

/-- `HandleClose` begins once at most, with the connection up, and no
callback is invoked after it returned. -/
def Orderly : List Event → Prop
  | [] => True
  | .handleClose st :: earlier =>
    (st = .kConnected ∨ st = .kDisconnecting) ∧ ¬ Closed earlier ∧ Orderly earlier
  | .callback .. :: earlier => .handleCloseReturned ∉ earlier ∧ Orderly earlier
  | _ :: earlier => Orderly earlier

/-- The two ends of `HandleClose`. -/
def Event.ends : Event → Bool
  | .handleClose _ | .handleCloseReturned => true
  | _ => false

/-- The events that an orderly trace may have anywhere. -/
def Event.plain : Event → Bool
  | .handleClose _ | .handleCloseReturned | .callback .. => false
  | _ => true

theorem orderly_plain {e : Event} (he : e.plain = true) (trace : List Event) :
    Orderly (e :: trace) ↔ Orderly trace := by
  cases e <;> first | exact Iff.rfl | cases he

theorem orderly_tail {e : Event} {trace : List Event} (h : Orderly (e :: trace)) : Orderly trace := by
  cases e <;> first | exact h | exact h.2 | exact h.2.2

theorem closed_cons (e : Event) (trace : List Event) :
    Closed (e :: trace) ↔ e.isClose = true ∨ Closed trace := by
  simp [Closed]

namespace Adds

variable {c c' : TcpConnection}

/-- What happened stays. -/
theorem orderly_tail {p : Event → Prop} (h : Adds p c c') (ho : Orderly c'.trace) : Orderly c.trace := by
  obtain ⟨es, -, htr⟩ := h
  rw [htr] at ho
  clear htr
  induction es with
  | nil => exact ho
  | cons e es ih => exact ih (MiniMuduo.orderly_tail ho)

/-- Without the ends of `HandleClose` it has begun, and returned, no more
than before. -/
theorem same_ends (h : Adds (fun e => e.ends = false) c c') :
    (Closed c'.trace ↔ Closed c.trace) ∧
      (.handleCloseReturned ∈ c'.trace ↔ .handleCloseReturned ∈ c.trace) := by
  obtain ⟨es, hes, htr⟩ := h
  rw [htr]
  clear htr
  induction es with
  | nil => exact ⟨Iff.rfl, Iff.rfl⟩
  | cons e es ih =>
    obtain ⟨ih1, ih2⟩ := ih fun e' he' => hes e' (List.mem_cons_of_mem _ he')
    have he : e.ends = false := hes e List.mem_cons_self
    have hclose : e.isClose = false := by
      cases e <;> first | rfl | cases he
    have hne : Event.handleCloseReturned ≠ e := by
      rintro rfl
      cases he
    rw [List.cons_append, closed_cons, hclose, ← ih1, ← ih2]
    simp [hne]

/-- Plain events keep a trace orderly. -/
theorem orderly_of_plain (h : Adds (fun e => e.plain = true) c c') (ho : Orderly c.trace) :
    Orderly c'.trace := by
  obtain ⟨es, hes, htr⟩ := h
  rw [htr]
  clear htr
  induction es with
  | nil => exact ho
  | cons e es ih =>
    have hrest := ih fun e' he' => hes e' (List.mem_cons_of_mem _ he')
    exact (orderly_plain (hes e List.mem_cons_self) _).mpr hrest

/-- So does everything but the ends of `HandleClose` before it returned. -/
theorem orderly_of_open (h : Adds (fun e => e.ends = false) c c')
    (hret : .handleCloseReturned ∉ c.trace) (ho : Orderly c.trace) : Orderly c'.trace := by
  obtain ⟨es, hes, htr⟩ := h
  rw [htr]
  clear htr
  induction es with
  | nil => exact ho
  | cons e es ih =>
    have hes' : ∀ e ∈ es, e.ends = false := fun e' he' => hes e' (List.mem_cons_of_mem _ he')
    have he : e.ends = false := hes e List.mem_cons_self
    have hnot : Event.handleCloseReturned ∉ es ++ c.trace := by
      intro hmem
      rcases List.mem_append.mp hmem with hmem | hmem
      · cases hes' _ hmem
      · exact hret hmem
    cases e <;> first | exact ih hes' | exact ⟨hnot, ih hes'⟩ | cases he

end Adds

/-- What `Orderly` says, in one statement about the trace. -/
theorem orderly_spec (trace : List Event) : Orderly trace ↔
    (∀ st, .handleClose st ∈ trace → st = .kConnected ∨ st = .kDisconnecting) ∧
      trace.countP Event.isClose ≤ 1 ∧
      ∀ later cb st queued earlier, trace = later ++ .callback cb st queued :: earlier →
        .handleCloseReturned ∉ earlier := by
  induction trace with
  | nil => simp [Orderly]
  | cons e trace ih =>
    -- the callbacks behind `e` are those of the rest
    have hback : (∀ later cb st queued earlier, e :: trace = later ++ .callback cb st queued :: earlier →
          Event.handleCloseReturned ∉ earlier) ↔
        (∀ cb st queued, e = .callback cb st queued → Event.handleCloseReturned ∉ trace) ∧
        ∀ later cb st queued earlier, trace = later ++ .callback cb st queued :: earlier →
          Event.handleCloseReturned ∉ earlier := by
      constructor
      · intro h
        refine ⟨fun cb st queued he => h [] cb st queued trace (by rw [he]; rfl), ?_⟩
        intro later cb st queued earlier htr
        exact h (e :: later) cb st queued earlier (by rw [htr]; rfl)
      · rintro ⟨hfirst, hrest⟩ later cb st queued earlier htr
        rcases later with _ | ⟨e', later⟩
        · obtain ⟨rfl, rfl⟩ := List.cons.inj htr
          exact hfirst cb st queued rfl
        · exact hrest later cb st queued earlier (List.cons.inj htr).2
    rw [hback]
    by_cases hplain : e.plain = true
    · rw [orderly_plain hplain, ih]
      have hne : ∀ st, Event.handleClose st ≠ e := by
        rintro st rfl
        cases hplain
      have hcb : ∀ cb st queued, e ≠ .callback cb st queued := by
        rintro cb st queued rfl
        cases hplain
      have hno : e.isClose = false := by
        cases e <;> first | rfl | cases hplain
      simp [hne, hcb, hno]
    · cases e with
      | handleClose st =>
        have hcount : ¬ Closed trace ↔ trace.countP Event.isClose = 0 := by
          simp [Closed, List.countP_eq_zero]
        have hcons : (Event.handleClose st :: trace).countP Event.isClose =
            trace.countP Event.isClose + 1 := List.countP_cons_of_pos rfl
        have hmem : (∀ st', Event.handleClose st' ∈ Event.handleClose st :: trace →
              st' = .kConnected ∨ st' = .kDisconnecting) ↔
            (st = .kConnected ∨ st = .kDisconnecting) ∧
            ∀ st', Event.handleClose st' ∈ trace → st' = .kConnected ∨ st' = .kDisconnecting := by
          simp
        have hcb : ∀ cb st' queued, Event.handleClose st = .callback cb st' queued →
            Event.handleCloseReturned ∉ trace := by
          intro cb st' queued h'
          cases h'
        rw [hcons, hmem]
        simp only [Orderly, hcount, ih]
        constructor
        · rintro ⟨hst, h0, h1, -, h2⟩
          exact ⟨⟨hst, h1⟩, by omega, hcb, h2⟩
        · rintro ⟨⟨hst, h1⟩, h0, -, h2⟩
          exact ⟨hst, by omega, h1, by omega, h2⟩
      | callback cb st queued =>
        simp only [Orderly, ih]
        simp [Event.isClose]
        tauto
      | handleCloseReturned =>
        simp only [Orderly, ih]
        simp [Event.isClose]
      | _ => exact absurd rfl hplain

/-! ### Connections between two handlers -/

/-- A connection whose trace is orderly and that is down once `HandleClose`
has begun. -/
structure Settled (tid : ℕ) (b : Bool) (c : TcpConnection) : Prop where
  tidy : Tidy tid b c
  wired : Wired c
  orderly : Orderly c.trace
  returned : .handleCloseReturned ∈ c.trace → Closed c.trace
  down : Closed c.trace → c.state = .kDisconnected

/-- Two moments with no end of `HandleClose` between them. -/
structure SameEnds (c c' : TcpConnection) : Prop where
  closed : Closed c'.trace ↔ Closed c.trace
  returned : .handleCloseReturned ∈ c'.trace ↔ .handleCloseReturned ∈ c.trace
  down : ¬ c.Up → ¬ c'.Up

theorem SameEnds.trans {c c1 c' : TcpConnection} (h : SameEnds c c1) (h' : SameEnds c1 c') : SameEnds c c' :=
  ⟨h'.closed.trans h.closed, h'.returned.trans h.returned, fun hdown => h'.down (h.down hdown)⟩

theorem SameEnds.log (c : TcpConnection) {e : Event} (he : e.ends = false) : SameEnds c (c.log e) := by
  obtain ⟨h1, h2⟩ := Adds.same_ends (Adds.log (p := fun e => e.ends = false) (c := c) he)
  exact ⟨h1, h2, id⟩

namespace Settled

variable {tid : ℕ} {b : Bool} {c c' : TcpConnection}

theorem not_closed (h : Settled tid b c) (hup : c.Up) : ¬ Closed c.trace :=
  fun hcl => hup.ne_disconnected (h.down hcl)

theorem not_returned (h : Settled tid b c) (hopen : ¬ Closed c.trace) : .handleCloseReturned ∉ c.trace :=
  fun hret => hopen (h.returned hret)

theorem log (h : Settled tid b c) {e : Event} (he : e.plain = true) : Settled tid b (c.log e) := by
  have hends : e.ends = false := by
    cases e <;> first | rfl | cases he
  have hsame := SameEnds.log c hends
  refine ⟨h.tidy.log e, h.wired.log e, (orderly_plain he _).mpr h.orderly, fun hret => ?_, fun hcl => ?_⟩
  · exact hsame.closed.mpr (h.returned (hsame.returned.mp hret))
  · exact h.down (hsame.closed.mp hcl)

/-- A callback before `HandleClose` returned. -/
theorem callback (h : Settled tid b c) (hret : .handleCloseReturned ∉ c.trace) (cb : Callback) :
    Settled tid b (c.logCallback cb) := by
  have hsame := SameEnds.log c (e := .callback cb c.state c.outputBuffer.readable) rfl
  refine ⟨h.tidy.log _, h.wired.log _, ⟨hret, h.orderly⟩, fun hret' => ?_, fun hcl => ?_⟩
  · exact absurd (hsame.returned.mp hret') hret
  · exact h.down (hsame.closed.mp hcl)

/-- User code keeps a connection settled: it invokes callbacks only of
connections that are up. -/
theorem actPart {d : Bool} (h : Settled tid b c) (hp : ActPart tid d c c') :
    Settled tid b c' ∧ SameEnds c c' := by
  have hroutine : ∀ e : Event, e.routine = true → e.ends = false := by
    intro e he
    cases e <;> first | rfl | cases he
  have hadds : Adds (fun e => e.ends = false) c c' :=
    Adds.actPart hroutine (fun _ _ _ => rfl) (fun _ _ => rfl) hp
  obtain ⟨hcl, hret⟩ := hadds.same_ends
  have ht : Tidy tid b c' := h.tidy.actPart hp
  have hw : Wired c' := h.wired.actPart h.tidy hp
  have hsame : SameEnds c c' := ⟨hcl, hret, fun hdown => actPart_down hdown hp⟩
  refine ⟨⟨ht, hw, ?_, fun h' => hcl.mpr (h.returned (hret.mp h')), fun h' => ?_⟩, hsame⟩
  · by_cases hup : c.Up
    · exact hadds.orderly_of_open (h.not_returned (h.not_closed hup)) h.orderly
    · have hplain : ∀ e : Event, e.routine = true → e.plain = true := by
        intro e he
        cases e <;> first | rfl | cases he
      have hadds' : Adds (fun e => e.plain = true) c c' :=
        Adds.actPart hplain (fun hup' => absurd hup' hup) (fun _ _ => rfl) hp
      exact hadds'.orderly_of_plain h.orderly
  · have hst : c.state = .kDisconnected := h.down (hcl.mp h')
    have hdown : ¬ c.Up := fun hup => hup.ne_disconnected hst
    rw [actPart_state hdown hp]
    exact hst

/-- A callback's script keeps a connection settled. -/
theorem runScript (h : Settled tid b c) {script : Script} (hr : runScript tid script c = .ok c') :
    Settled tid b c' ∧ SameEnds c c' := by
  refine runActs_keeps (P := fun c' => Settled tid b c' ∧ SameEnds c c') apart_self script
    (scriptAllowed_all script) ?_ c c' ⟨h, Iff.rfl, Iff.rfl, id⟩ hr
  intro c1 _ c2 _ ⟨h1, hsame⟩ hp
  obtain ⟨h2, hsame'⟩ := h1.actPart hp
  exact ⟨h2, hsame.trans hsame'⟩

/-- So does a callback before `HandleClose` returned. -/
theorem notify (h : Settled tid b c) (hret : .handleCloseReturned ∉ c.trace) {cb : Callback}
    {script : Script} (hn : notify .self cb (MiniMuduo.runScript tid script) c = .ok c') :
    Settled tid b c' ∧ SameEnds c c' := by
  rcases notify_ok hn with ⟨-, rfl⟩ | ⟨-, hk⟩
  · exact ⟨h, Iff.rfl, Iff.rfl, id⟩
  · obtain ⟨h', hsame⟩ := (h.callback hret cb).runScript hk
    exact ⟨h', (SameEnds.log c (e := .callback cb c.state c.outputBuffer.readable) rfl).trans hsame⟩

end Settled

/-! ### The handlers -/

section handlers

variable {tid : ℕ} {b : Bool} {c c' : TcpConnection}

/-- `HandleClose` of a connection that is up: it is down afterwards, and
settled. -/
theorem handleClose_settled (h : Settled tid b c) (hup : c.Up) {script : Script}
    (hc : handleClose tid .self (runScript tid script) .ok c = .ok c') :
    Settled tid b c' ∧ ¬ c'.Up ∧ .handleCloseReturned ∈ c'.trace := by
  obtain ⟨c1, c2, c3, hcore, h1, h2, hset⟩ := handleClose_cases hc
  have hopen := h.not_closed hup
  have hret := h.not_returned hopen
  have htr : c1.trace = .updateChannel tid :: .setState c.state .kDisconnected :: .handleClose c.state ::
      c.trace := by
    obtain ⟨ch, -, rfl⟩ := onChannel_ok hcore
    rfl
  have hst : c1.state = .kDisconnected := by
    obtain ⟨ch, -, rfl⟩ := onChannel_ok hcore
    rfl
  have hret1 : .handleCloseReturned ∉ c1.trace := by
    rw [htr]
    simpa using hret
  have hs1 : Settled tid b c1 := by
    refine ⟨(h.tidy.log _).goDown hcore, h.wired.close h.tidy hup hcore, ?_, fun h' => absurd h' hret1,
      fun _ => hst⟩
    rw [htr]
    exact ⟨hup, hopen, h.orderly⟩
  obtain ⟨hs2, hsame2⟩ := hs1.notify hret1 h1
  have hret2 : .handleCloseReturned ∉ c2.trace := fun h' => hret1 (hsame2.returned.mp h')
  have hdown1 : ¬ c1.Up := fun hup' => hup'.ne_disconnected hst
  -- the close callback does nothing to the connection
  have hs3 : Settled tid b c3 ∧ SameEnds c2 c3 := by
    rcases notify_ok h2 with ⟨-, rfl⟩ | ⟨-, hk⟩
    · exact ⟨hs2, Iff.rfl, Iff.rfl, id⟩
    · cases hk
      exact ⟨hs2.callback hret2 .close,
        SameEnds.log c2 (e := .callback .close c2.state c2.outputBuffer.readable) rfl⟩
  obtain ⟨hs3, hsame3⟩ := hs3
  have hclosed : Closed c3.trace := by
    rw [hsame3.closed, hsame2.closed, htr]
    exact ⟨.handleClose c.state, by simp, rfl⟩
  obtain rfl : c' = c3.log .handleCloseReturned := hset
  refine ⟨⟨hs3.tidy.log _, hs3.wired.log _, hs3.orderly, fun _ => ?_, fun _ => hs3.down hclosed⟩,
    hsame3.down (hsame2.down hdown1), List.mem_cons_self⟩
  exact (closed_cons _ _).mpr (.inr hclosed)

theorem callPart_grows (hp : CallPart tid c c') : Adds (fun _ => True) c c' := by
  have hall : ∀ e : Event, e.routine = true → True := fun _ _ => trivial
  cases hp with
  | act ha => exact Adds.actPart hall (fun _ _ _ => trivial) (fun _ _ => trivial) ha
  | drains hd => exact Adds.drains hall hd
  | callback cb => exact Adds.log trivial
  | close hcore => exact Adds.close hall trivial hcore
  | closeReturned => exact Adds.log trivial
  | read _ => exact Adds.of_eq rfl
  | error => exact Adds.log trivial
  | establish _ hcore => exact Adds.establish hall hcore

theorem callPart_disorder (h : ¬ Orderly c.trace) (hp : CallPart tid c c') : ¬ Orderly c'.trace :=
  fun h' => h ((callPart_grows hp).orderly_tail h')

/-- `HandleClose` of a connection that is not up is out of order. -/
theorem handleClose_disorder (hdown : ¬ c.Up) {script : Script}
    (hc : handleClose tid .self (runScript tid script) .ok c = .ok c') : ¬ Orderly c'.trace := by
  obtain ⟨c1, c2, c3, hcore, h1, h2, hset⟩ := handleClose_cases hc
  have hquiet : ∀ c0 c1, ¬ Orderly c0.trace → QuietPart tid c0 c1 → ¬ Orderly c1.trace :=
    fun _ _ h hp => callPart_disorder h hp.callPart
  have hd1 : ¬ Orderly c1.trace := by
    obtain ⟨ch, -, rfl⟩ := onChannel_ok hcore
    intro ho
    exact hdown ho.1
  have hd2 : ¬ Orderly c2.trace := notify_keeps hquiet hd1 h1
  have hd3 : ¬ Orderly c3.trace := by
    rcases notify_ok h2 with ⟨-, rfl⟩ | ⟨-, hk⟩
    · exact hd2
    · cases hk
      exact hquiet c2 _ hd2 (.callback .close)
  obtain rfl : c' = c3.log .handleCloseReturned := hset
  exact hquiet c3 _ hd3 .closeReturned

/-- `HandleWrite` before `HandleClose` has begun. -/
theorem handleWrite_settled (h : Settled tid b c) (hopen : ¬ Closed c.trace) {res : WriteResult}
    {script : Script} (hw : handleWrite tid .self (runScript tid script) res c = .ok c') :
    Settled tid b c' ∧ SameEnds c c' := by
  have hret := h.not_returned hopen
  have hdrain : ∀ {c1 k}, Drains tid res c c1 k → Settled tid b c1 ∧ SameEnds c c1 := by
    intro c1 k hd
    have hroutine : ∀ e : Event, e.routine = true → e.ends = false := by
      intro e he
      cases e <;> first | rfl | cases he
    have hadds : Adds (fun e => e.ends = false) c c1 := Adds.drains hroutine hd
    obtain ⟨hcl, hret1⟩ := hadds.same_ends
    have hdown : ¬ c.Up → ¬ c1.Up := by
      intro hdown
      rcases h.tidy.drains_up hd with hup | ⟨rfl, -⟩
      · exact absurd hup hdown
      · exact hdown
    refine ⟨⟨h.tidy.drains hd, h.wired.drains h.tidy hd, hadds.orderly_of_open hret h.orderly, ?_, ?_⟩,
      hcl, hret1, hdown⟩
    · exact fun h' => absurd (hret1.mp h') hret
    · exact fun h' => absurd (hcl.mp h') hopen
  obtain ⟨c1, ⟨hd, hset⟩ | ⟨hd, c2, hn, hset⟩⟩ := handleWrite_self h.tidy.wf hw
  · obtain rfl : c' = c1 := hset
    exact hdrain hd
  · obtain ⟨h1, hsame1⟩ := hdrain hd
    obtain ⟨h2, hsame2⟩ := h1.notify (fun h' => hret (hsame1.returned.mp h')) hn
    obtain rfl : c' = c2.finishWrite := hset
    have hfin : Settled tid b c2.finishWrite ∧ SameEnds c2 c2.finishWrite := by
      unfold finishWrite
      split
      · exact ⟨h2.log rfl, SameEnds.log c2 rfl⟩
      · exact ⟨h2, Iff.rfl, Iff.rfl, id⟩
    exact ⟨hfin.1, hsame1.trans (hsame2.trans hfin.2)⟩

theorem handleWrite_down (h : Tidy tid b c) (hdown : ¬ c.Up) {res : WriteResult} {script : Script}
    (hw : handleWrite tid .self (runScript tid script) res c = .ok c') : c' = c := by
  obtain ⟨c1, ⟨hd, hset⟩ | ⟨hd, -⟩⟩ := handleWrite_self h.wf hw
  · obtain rfl : c' = c1 := hset
    rcases h.drains_up hd with hup | ⟨hc, -⟩
    · exact absurd hup hdown
    · exact hc
  · rcases h.drains_up hd with hup | ⟨-, hk⟩
    · exact absurd hup hdown
    · cases hk

/-- Whether `HandleWrite` leaves the connection up: unless the
write-complete callback of a drain destroys it. -/
theorem handleWrite_up_iff (h : Tidy tid b c) (hup : c.Up) {res : WriteResult} {script : Script}
    (hw : handleWrite tid .self (runScript tid script) res c = .ok c') :
    ¬ c'.Up ↔ c.channel.isWriting = true ∧ takesAll c.outputBuffer.readableBytes res = true ∧
      c.writeCompleteCallback = true ∧ scan true script (drainedPhase c) = .down := by
  obtain ⟨c1, ⟨hd, hset⟩ | ⟨hd, c2, hn, hset⟩⟩ := handleWrite_self h.wf hw
  · obtain rfl : c' = c1 := hset
    have hst : c'.state = c.state := by
      cases hd <;> rfl
    have hup' : c'.Up := by
      unfold Up
      rw [hst]
      exact hup
    refine iff_of_false (fun h' => h' hup') ?_
    rintro ⟨hwr, hall, -, -⟩
    exact not_takesAll_of_not_drained hd hwr (h.readable_pos hup hwr) hall
  · obtain rfl : c' = c2.finishWrite := hset
    have hphase := drained_phase h hd hn
    have hfin : c2.finishWrite.Up ↔ c2.Up := by
      unfold finishWrite
      split <;> exact Iff.rfl
    have hne : drainedPhase c ≠ .down := by
      unfold drainedPhase
      rcases hup with hst | hst <;> rw [hst] <;> decide
    rw [hfin, ← phase_eq_down_iff, hphase]
    cases hd with
    | @whole n out ch hwr hres _ hle _ _ _ =>
      have hwr' : c.channel.isWriting = true := hwr
      have hall : takesAll c.outputBuffer.readableBytes res = true := by
        rw [hres]
        simpa [takesAll] using hle
      cases hcb : c.writeCompleteCallback with
      | false => simp [hne]
      | true => simp [hwr', hall]

end handlers

end MiniMuduo
