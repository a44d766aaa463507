/-
# The timers of a running loop

The timer queue of `TimerQueue` inside its loop and among other threads.
`HandleRead` is taken apart into the steps between which other threads can
act: `GetExpired`, each callback, each pass of `Reset`, the arming. A call of
`AddTimer` on another thread is three steps: it allocates the timer, hands
`AddTimeInLoop` to the loop, and reads `timer->sequence()` for the `TimerId`
it returns. `CancelTimer` queues its task from any thread.

The loop's thread is before or after `Loop()`, handling the active channels
of one `Poll`, in `HandleRead`, or in `DoPendingFunctors`, which runs the
tasks that were waiting when it began. Code on the loop's thread (a channel's
callback, a timer's callback, a task) can add and cancel timers wherever it
can run; `~TimerQueue` ends the run.

Beside the state of the code stands what tells its timers apart when an
address or a sequence comes again: the number of each `new Timer` of the
process, counted without wrapping. `serial t` is the number of the last timer
allocated at `t`, `calls k` is the call of `AddTimer` that created timer `k`,
`marks` names the timer that each waiting task was queued for, and `log` is
what has happened to them, newest first.

Key definitions: `TimerPlace`, `AddCall`, `TimerLoop`, `TimerLoopStep`,
`timerLoopMachine`, `TimerMove`, `TimerLoop.taskQueue`.
Key theorems: `TimerQueue.handleRead_eq`, `timerMove_of_step`,
`timerLoop_queue`.
-/
import MiniMuduo.Lib.BatchQueue
import MiniMuduo.TimerMirror

namespace MiniMuduo

open Fallible Runs BatchQueues Word OrderedSet

namespace TimerQueue

/-- `HandleRead` up to the first callback: the expired timers. -/
def beginHandleRead (now : ℤ) (q : TimerQueue) : Except Fault (List ℕ × TimerQueue) := do
  let q := { q with timerFd := detail.readTimerFd q.timerFd }
  let (entries, q) ← q.getExpired now
  return (entries.map fun entry => (ofLex entry).2, { q with callingExpiredTimers := true })

/-- `HandleRead` from the end of the loop in `Reset` on. -/
def endHandleRead (nowArm : ℤ) (q : TimerQueue) : TimerQueue :=
  let q := { q with cancellingTimers := ∅ }
  match first q.timers with
  | some begin =>
    { q with timerFd := detail.resetTimerFd (ofLex begin).1 nowArm, callingExpiredTimers := false }
  | none => { q with callingExpiredTimers := false }

/-- `HandleRead` is its steps in a row. -/
theorem handleRead_eq (q : TimerQueue) (now : ℤ) (script : ℕ → List TimerAct) (nowArm : ℤ) :
    q.handleRead now script nowArm = do
      let (expired, q) ← q.beginHandleRead now
      let q ← expired.foldlM (run script) q
      let q ← expired.foldlM (restart now) q
      return q.endHandleRead nowArm := by
  unfold handleRead beginHandleRead reset endHandleRead
  simp only [bind_assoc, pure_bind]
  congr! 5
  funext q
  cases first q.timers <;> rfl

end TimerQueue

/-- Where the loop's thread is. -/
inductive TimerPlace
  /-- Before `Loop()`, or after it. -/
  | outside
  /-- Handling the active channels; whether the timerfd's is yet to come. -/
  | channels (due : Bool)
  /-- Calling the expired timers: those called, and those to come. -/
  | calling (now : ℤ) (called todo : List ℕ)
  /-- In the loop of `Reset`. -/
  | resetting (now : ℤ) (todo : List ℕ)
  /-- In `DoPendingFunctors`, with so many of the queue's tasks left. -/
  | functors (left : ℕ)
  deriving DecidableEq, Repr

namespace TimerPlace

/-- The expired timers that `HandleRead` has in hand. -/
def held : TimerPlace → List ℕ
  | calling _ called todo => called ++ todo
  | resetting _ todo => todo
  | _ => []

/-- Whether the thread is inside `HandleRead`. -/
def inHandleRead : TimerPlace → Bool
  | calling .. => true
  | resetting .. => true
  | _ => false

/-- Whether code that uses the loop can run here: not between `GetExpired`
and the first callback, and not in `Reset`. -/
def runsCode : TimerPlace → Bool
  | calling _ called _ => !called.isEmpty
  | resetting .. => false
  | _ => true

end TimerPlace

/-- How far a call of `AddTimer` has come. -/
inductive AddStage
  | allocated (when : ℤ)
  | handedOver
  | returned (id : ActiveTimer)
  deriving DecidableEq, Repr

def AddStage.isReturned : AddStage → Bool
  | returned _ => true
  | _ => false

/-- A call of `AddTimer`: its `timer`, the sequence the timer was created
with, and how far the call has come. -/
structure AddCall where
  timer : ℕ
  sequence : ℤ
  stage : AddStage
  deriving DecidableEq, Repr

/-- The timer that a waiting task was queued for; a default `TimerId` is of
no timer. -/
inductive TaskMark
  | add (k : ℕ)
  | cancel (k : Option ℕ)
  deriving DecidableEq, Repr

/-- What happens to a timer. -/
inductive TimerEvent
  /-- `AddTimeInLoop` has run for it. -/
  | added (k : ℕ)
  /-- Code of the loop's thread outside `HandleRead` called `CancelTimer` for
  it while it was queued. -/
  | cancelled (k : ℕ)
  /-- `CancelTimerInLoop` has run for it. -/
  | cancelRan (k : ℕ)
  /-- Its callback was invoked. -/
  | ran (k : ℕ)
  deriving DecidableEq, Repr

/-- What is logged when the task of a mark has run. -/
def TaskMark.events : TaskMark → List TimerEvent
  | add k => [.added k]
  | cancel (some k) => [.cancelRan k]
  | cancel none => []

/-- A loop with its timer queue, and the calls of `AddTimer`. -/
structure TimerLoop where
  queue : TimerQueue
  place : TimerPlace
  /-- How many timers the process has created. -/
  made : ℕ
  serial : ℕ → ℕ
  calls : ℕ → Option AddCall
  marks : List TaskMark
  log : List TimerEvent

/-- What happens: on the loop's thread, on other threads, in the kernel. -/
inductive TimerLoopStep
  /-- `Poll` returns, with the timerfd among the active channels or not. -/
  | poll (due : Bool)
  /-- `Loop()` returns. -/
  | leave
  | doPendingFunctors
  /-- The next task of the queue runs. -/
  | runTask (now : ℤ)
  /-- `HandleRead`, up to the first callback. -/
  | handleRead (now : ℤ)
  /-- The next expired timer's callback begins. -/
  | callback
  /-- The callbacks are over. -/
  | reset
  /-- The next pass of the loop in `Reset`. -/
  | restart
  /-- The rest of `HandleRead`. -/
  | rearm (nowArm : ℤ)
  /-- `AddTimer` on the loop's thread. -/
  | addTimer (when : ℤ) (interval : Interval) (timer : ℕ) (now : ℤ)
  /-- `AddTimer` on another thread: `new Timer`. -/
  | allocate (when : ℤ) (interval : Interval) (timer : ℕ)
  /-- `AddTimer` on another thread: `RunInLoop`. -/
  | handOver (k : ℕ)
  /-- `AddTimer` on another thread: `return TimerId(timer, timer->sequence())`. -/
  | finish (k : ℕ)
  /-- `CancelTimer` with the id that call `k` returned, or a default one. -/
  | cancelTimer (onLoop : Bool) (k : Option ℕ)
  | fire
  /-- Other loops of the process create timers. -/
  | createElsewhere (n : ℕ)
  deriving DecidableEq, Repr

namespace TimerLoop

/-- A loop with its new timer queue. -/
def create : TimerLoop := ⟨TimerQueue.create 0, .outside, 0, fun _ => 0, fun _ => none, [], []⟩

/-- The id that call `k` of `AddTimer` returned; the default `TimerId`. -/
def idOf (s : TimerLoop) : Option ℕ → Option ActiveTimer
  | none => some (0, 0)
  | some k =>
    match s.calls k with
    | some ⟨_, _, .returned id⟩ => some id
    | _ => none

/-- The timer allocated at `t` is the next one of the process. -/
def number (t : ℕ) (call : AddCall) (s : TimerLoop) : TimerLoop :=
  { s with
    made := s.made + 1
    serial := Function.update s.serial t s.made
    calls := Function.update s.calls s.made (some call) }

/-- A call of `AddTimer` comes further. -/
def proceed (k : ℕ) (call : AddCall) (s : TimerLoop) : TimerLoop :=
  { s with calls := Function.update s.calls k (some call) }

/-- `AddTimer` on the loop's thread. -/
def addTimer (when : ℤ) (interval : Interval) (t : ℕ) (now : ℤ) (s : TimerLoop) : Except Fault TimerLoop := do
  let (id, queue) ← s.queue.addTimer when interval t now
  return { s.number t ⟨t, s.queue.numCreated, .returned id⟩ with queue, log := .added s.made :: s.log }

/-- `new Timer` of `AddTimer` on another thread. -/
def allocate (when : ℤ) (interval : Interval) (t : ℕ) (s : TimerLoop) : Except Fault TimerLoop := do
  let queue ← s.queue.newTimer when interval t
  return { s.number t ⟨t, s.queue.numCreated, .allocated when⟩ with queue }

/-- `RunInLoop(AddTimeInLoop)` of `AddTimer` on another thread. -/
def handOver (k : ℕ) (s : TimerLoop) : TimerLoop :=
  match s.calls k with
  | some ⟨t, sequence, .allocated when⟩ =>
    { s.proceed k ⟨t, sequence, .handedOver⟩ with
      queue := { s.queue with tasks := s.queue.tasks ++ [.addTimeInLoop when t] }
      marks := s.marks ++ [.add k] }
  | _ => s

/-- `return TimerId(timer, timer->sequence())`. -/
def finish (k : ℕ) (s : TimerLoop) : Except Fault TimerLoop :=
  match s.calls k with
  | some ⟨t, sequence, .handedOver⟩ => do
    let timer ← s.queue.deref t
    return s.proceed k ⟨t, sequence, .returned (t, timer.sequence)⟩
  | _ => .ok s

/-- Whether this is a call by code of the loop's thread outside `HandleRead`
for a queued timer. -/
def cancelsQueued (onLoop : Bool) (id : ActiveTimer) (s : TimerLoop) : Bool :=
  onLoop && !s.place.inHandleRead && decide (id ∈ s.queue.activeTimers)

/-- `CancelTimer(timer_id)`. -/
def cancelTimer (onLoop : Bool) (k : Option ℕ) (s : TimerLoop) : TimerLoop :=
  match s.idOf k with
  | some id => { s with
      queue := s.queue.cancelTimer id
      marks := s.marks ++ [.cancel k]
      log := if s.cancelsQueued onLoop id then .cancelled (s.serial id.1) :: s.log else s.log }
  | none => s

/-- `DoPendingFunctors` runs the next task of the queue. -/
def runTask (now : ℤ) (s : TimerLoop) : Except Fault TimerLoop :=
  match s.place, s.marks with
  | .functors (left + 1), mark :: marks => do
    let queue ← s.queue.runTask now
    return { s with queue, place := .functors left, marks, log := mark.events ++ s.log }
  | _, _ => .ok s

/-- `HandleRead`, up to the first callback. -/
def handleRead (now : ℤ) (s : TimerLoop) : Except Fault TimerLoop := do
  let (expired, queue) ← s.queue.beginHandleRead now
  return { s with queue, place := .calling now [] expired }

/-- `entry.second->Run()`; what the callback then does are steps of their
own. -/
def callback (s : TimerLoop) : Except Fault TimerLoop :=
  match s.place with
  | .calling now called (t :: todo) => do
    let timer ← s.queue.deref t
    return { s with
      queue := { s.queue with fired := (t, timer.sequence) :: s.queue.fired }
      place := .calling now (called ++ [t]) todo
      log := .ran (s.serial t) :: s.log }
  | _ => .ok s

/-- A pass of the loop in `Reset`. -/
def restart (s : TimerLoop) : Except Fault TimerLoop :=
  match s.place with
  | .resetting now (t :: todo) => do
    let queue ← s.queue.restart now t
    return { s with queue, place := .resetting now todo }
  | _ => .ok s

/-- One step. -/
def step (s : TimerLoop) : TimerLoopStep → Except Fault TimerLoop
  | .poll due => .ok { s with place := .channels due }
  | .leave => .ok { s with place := .outside }
  | .doPendingFunctors => .ok { s with place := .functors s.queue.tasks.length }
  | .runTask now => s.runTask now
  | .handleRead now => s.handleRead now
  | .callback => s.callback
  | .reset =>
    match s.place with
    | .calling now called _ => .ok { s with place := .resetting now called }
    | _ => .ok s
  | .restart => s.restart
  | .rearm nowArm => .ok { s with queue := s.queue.endHandleRead nowArm, place := .channels false }
  | .addTimer when interval t now => s.addTimer when interval t now
  | .allocate when interval t => s.allocate when interval t
  | .handOver k => .ok (s.handOver k)
  | .finish k => s.finish k
  | .cancelTimer onLoop k => .ok (s.cancelTimer onLoop k)
  | .fire => .ok { s with queue := { s.queue with timerFd := { s.queue.timerFd with state := .fired } } }
  | .createElsewhere n => .ok { s with
      queue := { s.queue with numCreated := int64 (s.queue.numCreated + n) }, made := s.made + n }

/-- When a step can be taken. -/
def enabled (s : TimerLoop) : TimerLoopStep → Bool
  | .poll due => (s.place = .outside || s.place = .functors 0) && (!due || s.queue.timerFd.state = .fired)
  | .leave => s.place = .functors 0
  | .doPendingFunctors => s.place = .channels false
  | .runTask _ => (s.place matches .functors (_ + 1)) && !s.queue.tasks.isEmpty && !s.marks.isEmpty
  | .handleRead _ => s.place = .channels true
  | .callback => (s.place matches .calling _ _ (_ :: _))
  | .reset => (s.place matches .calling _ _ [])
  | .restart => (s.place matches .resetting _ (_ :: _))
  | .rearm _ => (s.place matches .resetting _ [])
  | .addTimer .. => s.place.runsCode
  | .allocate .. => true
  | .handOver k => (s.calls k matches some ⟨_, _, .allocated _⟩)
  | .finish k => (s.calls k matches some ⟨_, _, .handedOver⟩)
  | .cancelTimer onLoop k => (!onLoop || s.place.runsCode) && (s.idOf k).isSome
  | .fire => s.queue.timerFd.state = .armed
  | .createElsewhere _ => true

end TimerLoop

/-- The runs of a loop with its timers. -/
def timerLoopMachine : Machine TimerLoop TimerLoopStep Fault := ⟨fun s a => s.enabled a = true, TimerLoop.step⟩

instance (s : TimerLoop) (a : TimerLoopStep) : Decidable (timerLoopMachine.enabled s a) :=
  inferInstanceAs (Decidable (_ = true))

namespace TimerQueue

/-! ### What the queue's functions did when they returned -/

variable {q q' : TimerQueue} {t : ℕ} {when now : ℤ} {interval : Interval} {id : ActiveTimer}

theorem deref_ok {timer : Timer} (h : q.deref t = .ok timer) : q.heap t = some timer := by
  unfold deref at h
  split at h
  case h_1 timer' hheap =>
    cases h
    exact hheap
  case h_2 => cases h

theorem newTimer_ok (h : q.newTimer when interval t = .ok q') : q.heap t = none ∧ 0 < t ∧
    q' = { q with
      heap := Function.update q.heap t (some ⟨when, interval, q.numCreated⟩)
      numCreated := int64 (q.numCreated + 1) } := by
  unfold newTimer at h
  split at h
  case isTrue hfree =>
    cases h
    exact ⟨hfree.1, hfree.2.1, rfl⟩
  case isFalse => cases h

theorem delete_ok (h : q.delete t = .ok q') : q' = { q with heap := Function.update q.heap t none } := by
  unfold delete at h
  split at h
  case h_1 =>
    cases h
    rfl
  case h_2 => cases h

theorem insert_ok {changed : Bool} (h : q.insert t = .ok (changed, q')) :
    ∃ timer, q.heap t = some timer ∧ q' = { q with
      timers := Insert.insert (toLex (timer.expiration, t)) q.timers
      activeTimers := Insert.insert (t, timer.sequence) q.activeTimers } := by
  unfold insert at h
  obtain ⟨timer, hderef, h⟩ := bind_eq_ok h
  refine ⟨timer, deref_ok hderef, ?_⟩
  dsimp only at h
  split at h
  · cases h
  · split at h
    · cases h
    · cases h
      rfl

theorem addTimeInLoop_ok (h : q.addTimeInLoop when t now = .ok q') :
    ∃ timer fd, q.heap t = some timer ∧ q' = { q with
      timers := Insert.insert (toLex (timer.expiration, t)) q.timers
      activeTimers := Insert.insert (t, timer.sequence) q.activeTimers
      timerFd := fd } := by
  unfold addTimeInLoop at h
  obtain ⟨⟨changed, q1⟩, hins, h⟩ := bind_eq_ok h
  obtain ⟨timer, hheap, rfl⟩ := insert_ok hins
  cases changed with
  | true =>
    cases h
    exact ⟨timer, _, hheap, rfl⟩
  | false =>
    cases h
    exact ⟨timer, _, hheap, rfl⟩

theorem addTimer_ok (h : q.addTimer when interval t now = .ok (id, q')) :
    q.heap t = none ∧ 0 < t ∧ id = (t, q.numCreated) ∧ ∃ fd, q' = { q with
      heap := Function.update q.heap t (some ⟨when, interval, q.numCreated⟩)
      numCreated := int64 (q.numCreated + 1)
      timers := Insert.insert (toLex (when, t)) q.timers
      activeTimers := Insert.insert (t, q.numCreated) q.activeTimers
      timerFd := fd } := by
  unfold addTimer at h
  obtain ⟨q1, hnew, h⟩ := bind_eq_ok h
  obtain ⟨q2, hadd, h⟩ := bind_eq_ok h
  obtain ⟨timer, hderef, h⟩ := bind_eq_ok h
  obtain ⟨hfree, hpos, rfl⟩ := newTimer_ok hnew
  obtain ⟨timer', fd, hheap, rfl⟩ := addTimeInLoop_ok hadd
  cases h
  have htimer' : timer' = ⟨when, interval, q.numCreated⟩ := by
    simpa [Function.update_self] using hheap.symm
  have htimer : timer = ⟨when, interval, q.numCreated⟩ := by
    simpa [Function.update_self] using (deref_ok hderef).symm
  subst htimer' htimer
  exact ⟨hfree, hpos, rfl, fd, rfl⟩

theorem cancelTimerInLoop_ok (h : q.cancelTimerInLoop id now = .ok q') :
    (id ∈ q.activeTimers ∧ ∃ timer fd, q.heap id.1 = some timer ∧ q' = { q with
      heap := Function.update q.heap id.1 none
      timers := q.timers.erase (toLex (timer.expiration, id.1))
      activeTimers := q.activeTimers.erase id
      timerFd := fd }) ∨
    (id ∉ q.activeTimers ∧ ∃ cancelling, (q.callingExpiredTimers = false → cancelling = q.cancellingTimers) ∧
      q' = { q with cancellingTimers := cancelling }) := by
  unfold cancelTimerInLoop at h
  split at h
  case isTrue hid =>
    obtain ⟨timer, hderef, h⟩ := bind_eq_ok h
    obtain ⟨q1, hdel, h⟩ := bind_eq_ok h
    obtain rfl := delete_ok hdel
    refine .inl ⟨hid, timer, ?_⟩
    dsimp only at h
    split at h
    · split at h
      · cases h
        exact ⟨_, deref_ok hderef, rfl⟩
      · cases h
        exact ⟨_, deref_ok hderef, rfl⟩
    · cases h
      exact ⟨_, deref_ok hderef, rfl⟩
  case isFalse hid =>
    refine .inr ⟨hid, ?_⟩
    split at h
    case isTrue hcalling =>
      cases h
      exact ⟨_, fun hnot => absurd (hcalling.symm.trans hnot) (by decide), rfl⟩
    case isFalse =>
      cases h
      exact ⟨_, fun _ => rfl, rfl⟩

theorem restart_ok (h : q.restart now t = .ok q') : ∃ timer, q.heap t = some timer ∧
    (timer.interval.repeats = true ∧ (t, timer.sequence) ∉ q.cancellingTimers ∧ q' = { q with
        heap := Function.update q.heap t (some (timer.reset now))
        timers := Insert.insert (toLex ((timer.reset now).expiration, t)) q.timers
        activeTimers := Insert.insert (t, timer.sequence) q.activeTimers } ∨
      ¬ (timer.interval.repeats = true ∧ (t, timer.sequence) ∉ q.cancellingTimers) ∧
        q' = { q with heap := Function.update q.heap t none }) := by
  unfold restart at h
  obtain ⟨timer, hderef, h⟩ := bind_eq_ok h
  refine ⟨timer, deref_ok hderef, ?_⟩
  split at h
  case isTrue hrep =>
    obtain ⟨⟨changed, q1⟩, hins, h⟩ := bind_eq_ok h
    cases h
    obtain ⟨timer', hheap, rfl⟩ := insert_ok hins
    have htimer : timer' = timer.reset now := by
      simpa [Function.update_self] using hheap.symm
    subst htimer
    exact .inl ⟨hrep.1, hrep.2, rfl⟩
  case isFalse hrep => exact .inr ⟨hrep, delete_ok h⟩

theorem beginHandleRead_ok {expired : List ℕ} (h : q.beginHandleRead now = .ok (expired, q')) :
    ∃ active fd, q' = { q with
      timers := notBelow q.timers (toLex (now, uintptrMax))
      activeTimers := active
      callingExpiredTimers := true
      timerFd := fd } := by
  unfold beginHandleRead getExpired at h
  obtain ⟨⟨entries, q1⟩, hexp, h⟩ := bind_eq_ok h
  obtain ⟨active, -, hexp⟩ := bind_eq_ok hexp
  cases hexp
  cases h
  exact ⟨active, _, rfl⟩

end TimerQueue

/-! ### What one step does -/

open TimerQueue in
/-- What a step can do. -/
inductive TimerMove (s : TimerLoop) : TimerLoopStep → TimerLoop → Prop
  /-- Neither the timers nor the sets change. -/
  | quiet {a : TimerLoopStep} {queue : TimerQueue} {place : TimerPlace} (ha : ∀ now, a ≠ .runTask now)
      (hheap : queue.heap = s.queue.heap) (hnum : queue.numCreated = s.queue.numCreated)
      (htimers : queue.timers = s.queue.timers) (hactive : queue.activeTimers = s.queue.activeTimers)
      (htasks : queue.tasks = s.queue.tasks) (hheld : place.held = s.place.held)
      (hcalling : s.queue.callingExpiredTimers = s.place.inHandleRead →
        queue.callingExpiredTimers = place.inHandleRead) :
      TimerMove s a { s with queue, place }
  /-- Timers are created on other loops. -/
  | elsewhere (n : ℕ) : TimerMove s (.createElsewhere n) { s with
      queue := { s.queue with numCreated := int64 (s.queue.numCreated + n) }, made := s.made + n }
  /-- The loop's thread adds a timer. -/
  | added {when now : ℤ} {interval : Interval} {t : ℕ} {fd : TimerFd} {queue : TimerQueue}
      (hop : s.queue.addTimer when interval t now = .ok ((t, s.queue.numCreated), queue))
      (hfree : s.queue.heap t = none) (hpos : 0 < t) (hqueue : queue = { s.queue with
        heap := Function.update s.queue.heap t (some ⟨when, interval, s.queue.numCreated⟩)
        numCreated := int64 (s.queue.numCreated + 1)
        timers := Insert.insert (toLex (when, t)) s.queue.timers
        activeTimers := Insert.insert (t, s.queue.numCreated) s.queue.activeTimers
        timerFd := fd }) :
      TimerMove s (.addTimer when interval t now)
        { s.number t ⟨t, s.queue.numCreated, .returned (t, s.queue.numCreated)⟩ with
          queue, log := .added s.made :: s.log }
  /-- Another thread allocates a timer. -/
  | allocated {when : ℤ} {interval : Interval} {t : ℕ} {queue : TimerQueue}
      (hop : s.queue.newTimer when interval t = .ok queue)
      (hfree : s.queue.heap t = none) (hpos : 0 < t) (hqueue : queue = { s.queue with
        heap := Function.update s.queue.heap t (some ⟨when, interval, s.queue.numCreated⟩)
        numCreated := int64 (s.queue.numCreated + 1) }) :
      TimerMove s (.allocate when interval t) { s.number t ⟨t, s.queue.numCreated, .allocated when⟩ with queue }
  /-- It hands the timer over. -/
  | handedOver {k t : ℕ} {sequence when : ℤ} (hcall : s.calls k = some ⟨t, sequence, .allocated when⟩) :
      TimerMove s (.handOver k) { s.proceed k ⟨t, sequence, .handedOver⟩ with
        queue := { s.queue with tasks := s.queue.tasks ++ [.addTimeInLoop when t] }
        marks := s.marks ++ [.add k] }
  /-- It reads the sequence. -/
  | finished {k t : ℕ} {sequence : ℤ} {timer : Timer} (hcall : s.calls k = some ⟨t, sequence, .handedOver⟩)
      (hheap : s.queue.heap t = some timer) :
      TimerMove s (.finish k) (s.proceed k ⟨t, sequence, .returned (t, timer.sequence)⟩)
  /-- A thread cancels a timer. -/
  | cancelled {onLoop : Bool} {k : Option ℕ} {id : ActiveTimer} (hid : s.idOf k = some id) :
      TimerMove s (.cancelTimer onLoop k) { s with
        queue := s.queue.cancelTimer id
        marks := s.marks ++ [.cancel k]
        log := if s.cancelsQueued onLoop id then .cancelled (s.serial id.1) :: s.log else s.log }
  /-- `HandleRead` takes the expired timers. -/
  | expired {now : ℤ} {expired : List ℕ} {active : Finset ActiveTimer} {fd : TimerFd} {queue : TimerQueue}
      (hplace : s.place = .channels true) (hop : s.queue.beginHandleRead now = .ok (expired, queue))
      (hqueue : queue = { s.queue with
        timers := notBelow s.queue.timers (toLex (now, uintptrMax))
        activeTimers := active
        callingExpiredTimers := true
        timerFd := fd }) :
      TimerMove s (.handleRead now) { s with queue, place := .calling now [] expired }
  /-- An expired timer is called. -/
  | called {now : ℤ} {t : ℕ} {called todo : List ℕ} {timer : Timer}
      (hplace : s.place = .calling now called (t :: todo)) (hheap : s.queue.heap t = some timer) :
      TimerMove s .callback { s with
        queue := { s.queue with fired := (t, timer.sequence) :: s.queue.fired }
        place := .calling now (called ++ [t]) todo
        log := .ran (s.serial t) :: s.log }
  /-- `Reset` restarts a timer. -/
  | restarted {now : ℤ} {t : ℕ} {todo : List ℕ} {timer : Timer} {queue : TimerQueue}
      (hplace : s.place = .resetting now (t :: todo)) (hop : s.queue.restart now t = .ok queue)
      (hheap : s.queue.heap t = some timer) (hqueue : queue = { s.queue with
        heap := Function.update s.queue.heap t (some (timer.reset now))
        timers := Insert.insert (toLex ((timer.reset now).expiration, t)) s.queue.timers
        activeTimers := Insert.insert (t, timer.sequence) s.queue.activeTimers }) :
      TimerMove s .restart { s with queue, place := .resetting now todo }
  /-- `Reset` deletes a timer. -/
  | deleted {now : ℤ} {t : ℕ} {todo : List ℕ} {timer : Timer} {queue : TimerQueue}
      (hplace : s.place = .resetting now (t :: todo)) (hop : s.queue.restart now t = .ok queue)
      (hheap : s.queue.heap t = some timer)
      (hrep : ¬ (timer.interval.repeats = true ∧ (t, timer.sequence) ∉ s.queue.cancellingTimers))
      (hqueue : queue = { s.queue with heap := Function.update s.queue.heap t none }) :
      TimerMove s .restart { s with queue, place := .resetting now todo }
  /-- `AddTimeInLoop` runs. -/
  | ranAdd {left t : ℕ} {when now : ℤ} {mark : TaskMark} {marks : List TaskMark} {tasks : List TimerTask}
      {timer : Timer} {fd : TimerFd} {queue : TimerQueue} (hplace : s.place = .functors (left + 1))
      (hmarks : s.marks = mark :: marks) (htasks : s.queue.tasks = .addTimeInLoop when t :: tasks)
      (hop : s.queue.runTask now = .ok queue)
      (hheap : s.queue.heap t = some timer) (hqueue : queue = { s.queue with
        timers := Insert.insert (toLex (timer.expiration, t)) s.queue.timers
        activeTimers := Insert.insert (t, timer.sequence) s.queue.activeTimers
        timerFd := fd
        tasks }) :
      TimerMove s (.runTask now) { s with queue, place := .functors left, marks, log := mark.events ++ s.log }
  /-- `CancelTimerInLoop` runs and finds its timer queued. -/
  | ranCancel {left : ℕ} {now : ℤ} {id : ActiveTimer} {mark : TaskMark} {marks : List TaskMark}
      {tasks : List TimerTask} {timer : Timer} {fd : TimerFd} {queue : TimerQueue}
      (hplace : s.place = .functors (left + 1)) (hmarks : s.marks = mark :: marks)
      (htasks : s.queue.tasks = .cancelTimerInLoop id :: tasks) (hop : s.queue.runTask now = .ok queue)
      (hactive : id ∈ s.queue.activeTimers) (hheap : s.queue.heap id.1 = some timer)
      (hqueue : queue = { s.queue with
        heap := Function.update s.queue.heap id.1 none
        timers := s.queue.timers.erase (toLex (timer.expiration, id.1))
        activeTimers := s.queue.activeTimers.erase id
        timerFd := fd
        tasks }) :
      TimerMove s (.runTask now) { s with queue, place := .functors left, marks, log := mark.events ++ s.log }
  /-- `CancelTimerInLoop` runs and does not. -/
  | ranCancelGone {left : ℕ} {now : ℤ} {id : ActiveTimer} {mark : TaskMark} {marks : List TaskMark}
      {tasks : List TimerTask} {cancelling : Finset ActiveTimer} {queue : TimerQueue}
      (hplace : s.place = .functors (left + 1)) (hmarks : s.marks = mark :: marks)
      (htasks : s.queue.tasks = .cancelTimerInLoop id :: tasks) (hop : s.queue.runTask now = .ok queue)
      (hactive : id ∉ s.queue.activeTimers)
      (hcancelling : s.queue.callingExpiredTimers = false → cancelling = s.queue.cancellingTimers)
      (hqueue : queue = { s.queue with cancellingTimers := cancelling, tasks }) :
      TimerMove s (.runTask now) { s with queue, place := .functors left, marks, log := mark.events ++ s.log }

namespace TimerMove

variable {s s' : TimerLoop} {now : ℤ}

theorem of_runTask (hen : s.enabled (.runTask now) = true) (hst : s.runTask now = .ok s') :
    TimerMove s (.runTask now) s' := by
  simp only [TimerLoop.enabled, Bool.and_eq_true, Bool.not_eq_true', List.isEmpty_eq_false_iff_exists_mem] at hen
  unfold TimerLoop.runTask at hst
  split at hst
  case h_1 left mark marks hplace hmarks =>
    obtain ⟨queue, hop, hst⟩ := bind_eq_ok hst
    cases hst
    have hrun := hop
    unfold TimerQueue.runTask at hrun
    split at hrun
    case h_1 htasks => simp [htasks] at hen
    case h_2 when t tasks htasks =>
      obtain ⟨timer, fd, hheap, hqueue⟩ := TimerQueue.addTimeInLoop_ok hrun
      exact .ranAdd hplace hmarks htasks hop hheap hqueue
    case h_3 id tasks htasks =>
      rcases TimerQueue.cancelTimerInLoop_ok hrun with ⟨hact, timer, fd, hheap, hqueue⟩ | ⟨hact, c, hc, hqueue⟩
      · exact .ranCancel hplace hmarks htasks hop hact hheap hqueue
      · exact .ranCancelGone hplace hmarks htasks hop hact hc hqueue
  case h_2 hnot =>
    exfalso
    obtain ⟨⟨hplace, -⟩, mark, hmark⟩ := hen
    split at hplace
    case h_1 n hplace' =>
      cases hmarks : s.marks with
      | nil =>
        rw [hmarks] at hmark
        cases hmark
      | cons m ms => exact hnot n m ms hplace' hmarks
    case h_2 => cases hplace

theorem of_callback (hen : s.enabled .callback = true) (hst : s.callback = .ok s') :
    TimerMove s .callback s' := by
  unfold TimerLoop.callback at hst
  split at hst
  case h_1 now called t todo hplace =>
    obtain ⟨timer, hderef, hst⟩ := bind_eq_ok hst
    cases hst
    exact .called hplace (TimerQueue.deref_ok hderef)
  case h_2 hnot => simp [TimerLoop.enabled] at hen

theorem of_restart (hen : s.enabled .restart = true) (hst : s.restart = .ok s') :
    TimerMove s .restart s' := by
  unfold TimerLoop.restart at hst
  split at hst
  case h_1 now t todo hplace =>
    obtain ⟨queue, hop, hst⟩ := bind_eq_ok hst
    cases hst
    obtain ⟨timer, hheap, ⟨-, -, hqueue⟩ | ⟨hrep, hqueue⟩⟩ := TimerQueue.restart_ok hop
    · exact .restarted hplace hop hheap hqueue
    · exact .deleted hplace hop hheap hrep hqueue
  case h_2 hnot => simp [TimerLoop.enabled] at hen

theorem of_handOver {k : ℕ} (hen : s.enabled (.handOver k) = true) : TimerMove s (.handOver k) (s.handOver k) := by
  unfold TimerLoop.handOver
  split
  case h_1 t sequence when hcall => exact .handedOver hcall
  case h_2 hnot => simp [TimerLoop.enabled] at hen

theorem of_finish {k : ℕ} (hen : s.enabled (.finish k) = true) (hst : s.finish k = .ok s') :
    TimerMove s (.finish k) s' := by
  unfold TimerLoop.finish at hst
  split at hst
  case h_1 t sequence hcall =>
    obtain ⟨timer, hderef, hst⟩ := bind_eq_ok hst
    cases hst
    exact .finished hcall (TimerQueue.deref_ok hderef)
  case h_2 hnot => simp [TimerLoop.enabled] at hen

theorem of_cancelTimer {onLoop : Bool} {k : Option ℕ} (hen : s.enabled (.cancelTimer onLoop k) = true) :
    TimerMove s (.cancelTimer onLoop k) (s.cancelTimer onLoop k) := by
  unfold TimerLoop.cancelTimer
  split
  case h_1 id hid => exact .cancelled hid
  case h_2 hid => simp [TimerLoop.enabled, hid] at hen

/-- A change of place that neither takes timers in hand nor is about
`HandleRead`. -/
theorem of_place {a : TimerLoopStep} {place : TimerPlace} (ha : ∀ now, a ≠ .runTask now)
    (hheld : place.held = s.place.held)
    (hread : place.inHandleRead = s.place.inHandleRead) : TimerMove s a { s with place } :=
  .quiet ha rfl rfl rfl rfl rfl hheld fun h => h.trans hread.symm

theorem of_poll {due : Bool} (hen : s.enabled (.poll due) = true) :
    TimerMove s (.poll due) { s with place := .channels due } := by
  simp only [TimerLoop.enabled, Bool.and_eq_true, Bool.or_eq_true, decide_eq_true_eq] at hen
  rcases hen.1 with hplace | hplace
  · exact of_place (by simp) (by rw [hplace]; rfl) (by rw [hplace]; rfl)
  · exact of_place (by simp) (by rw [hplace]; rfl) (by rw [hplace]; rfl)

theorem of_rearm (hen : s.enabled (.rearm now) = true) :
    TimerMove s (.rearm now) { s with queue := s.queue.endHandleRead now, place := .channels false } := by
  simp only [TimerLoop.enabled] at hen
  split at hen
  case h_1 now' hplace =>
    unfold TimerQueue.endHandleRead
    dsimp only
    split
    · exact .quiet (by simp) rfl rfl rfl rfl rfl (by rw [hplace]; rfl) fun _ => rfl
    · exact .quiet (by simp) rfl rfl rfl rfl rfl (by rw [hplace]; rfl) fun _ => rfl
  case h_2 => cases hen

theorem of_reset (hen : s.enabled .reset = true) (hst : s.step .reset = .ok s') :
    TimerMove s .reset s' := by
  simp only [TimerLoop.enabled] at hen
  split at hen
  case h_1 now called hplace =>
    simp only [TimerLoop.step, hplace] at hst
    cases hst
    refine of_place (by simp) ?_ (by rw [hplace]; rfl)
    rw [hplace]
    exact (List.append_nil called).symm
  case h_2 => cases hen

end TimerMove

open TimerMove in
/-- Every step is a move. -/
theorem timerMove_of_step {s s' : TimerLoop} {a : TimerLoopStep} (hen : s.enabled a = true)
    (hst : s.step a = .ok s') : TimerMove s a s' := by
  cases a with
  | poll due =>
    cases hst
    exact of_poll hen
  | leave =>
    cases hst
    have hplace : s.place = .functors 0 := of_decide_eq_true hen
    exact of_place (by simp) (by rw [hplace]; rfl) (by rw [hplace]; rfl)
  | doPendingFunctors =>
    cases hst
    have hplace : s.place = .channels false := of_decide_eq_true hen
    exact of_place (by simp) (by rw [hplace]; rfl) (by rw [hplace]; rfl)
  | runTask now => exact of_runTask hen hst
  | handleRead now =>
    obtain ⟨⟨expired, queue⟩, hop, hst⟩ := bind_eq_ok hst
    cases hst
    obtain ⟨active, fd, hqueue⟩ := TimerQueue.beginHandleRead_ok hop
    exact .expired (of_decide_eq_true hen) hop hqueue
  | callback => exact of_callback hen hst
  | reset => exact of_reset hen hst
  | restart => exact of_restart hen hst
  | rearm nowArm =>
    cases hst
    exact of_rearm hen
  | addTimer when interval t now =>
    obtain ⟨⟨id, queue⟩, hop, hst⟩ := bind_eq_ok hst
    cases hst
    obtain ⟨hfree, hpos, rfl, fd, hqueue⟩ := TimerQueue.addTimer_ok hop
    exact .added hop hfree hpos hqueue
  | allocate when interval t =>
    obtain ⟨queue, hop, hst⟩ := bind_eq_ok hst
    cases hst
    obtain ⟨hfree, hpos, hqueue⟩ := TimerQueue.newTimer_ok hop
    exact .allocated hop hfree hpos hqueue
  | handOver k =>
    cases hst
    exact of_handOver hen
  | finish k => exact of_finish hen hst
  | cancelTimer onLoop k =>
    cases hst
    exact of_cancelTimer hen
  | fire =>
    cases hst
    exact .quiet (by simp) rfl rfl rfl rfl rfl rfl id
  | createElsewhere n =>
    cases hst
    exact .elsewhere n

/-- The timer that a step deletes: the next one of `Reset`, unless it starts
again, and the one that a `CancelTimerInLoop` finds queued. -/
def TimerLoop.deletes (s : TimerLoop) : TimerLoopStep → Option ℕ
  | .restart =>
    match s.place with
    | .resetting _ (t :: _) =>
      if ∃ timer ∈ s.queue.heap t, timer.interval.repeats = true ∧ (t, timer.sequence) ∉ s.queue.cancellingTimers
      then none else some t
    | _ => none
  | .runTask _ =>
    match s.queue.tasks with
    | .cancelTimerInLoop id :: _ => if id ∈ s.queue.activeTimers then some id.1 else none
    | _ => none
  | _ => none

namespace TimerMove

variable {s s' : TimerLoop} {a : TimerLoopStep} {t : ℕ}

/-- What a move does to the memory: nothing; a new timer, the next one of the
process; or a change of one timer, which only `deletes` makes a deletion. -/
theorem memory (hm : TimerMove s a s') :
    (s'.queue.heap = s.queue.heap ∧ s'.serial = s.serial ∧ s.made ≤ s'.made) ∨
    (∃ t timer, s.queue.heap t = none ∧ s'.queue.heap = Function.update s.queue.heap t (some timer) ∧
      s'.serial = Function.update s.serial t s.made ∧ s.made ≤ s'.made) ∨
    ∃ t timer timer', s.queue.heap t = some timer ∧ s'.queue.heap = Function.update s.queue.heap t timer' ∧
      s'.serial = s.serial ∧ s.made ≤ s'.made ∧ (timer' = none → s.deletes a = some t) := by
  cases hm with
  | quiet _ hheap => exact .inl ⟨hheap, rfl, le_rfl⟩
  | elsewhere n => exact .inl ⟨rfl, rfl, Nat.le_add_right ..⟩
  | added _ hfree _ hqueue =>
    subst hqueue
    exact .inr (.inl ⟨_, _, hfree, rfl, rfl, Nat.le_succ _⟩)
  | allocated _ hfree _ hqueue =>
    subst hqueue
    exact .inr (.inl ⟨_, _, hfree, rfl, rfl, Nat.le_succ _⟩)
  | handedOver => exact .inl ⟨rfl, rfl, le_rfl⟩
  | finished => exact .inl ⟨rfl, rfl, le_rfl⟩
  | cancelled => exact .inl ⟨rfl, rfl, le_rfl⟩
  | expired _ _ hqueue =>
    subst hqueue
    exact .inl ⟨rfl, rfl, le_rfl⟩
  | called => exact .inl ⟨rfl, rfl, le_rfl⟩
  | restarted _ _ hheap hqueue =>
    subst hqueue
    exact .inr (.inr ⟨_, _, _, hheap, rfl, rfl, le_rfl, by simp⟩)
  | deleted hplace _ hheap hrep hqueue =>
    subst hqueue
    refine .inr (.inr ⟨_, _, _, hheap, rfl, rfl, le_rfl, fun _ => ?_⟩)
    simp only [TimerLoop.deletes, hplace, hheap]
    rw [if_neg]
    rintro ⟨timer, htimer, hagain⟩
    obtain rfl := Option.some.inj htimer
    exact hrep hagain
  | ranAdd _ _ _ _ _ hqueue =>
    subst hqueue
    exact .inl ⟨rfl, rfl, le_rfl⟩
  | ranCancel _ _ htasks _ hactive hheap hqueue =>
    subst hqueue
    refine .inr (.inr ⟨_, _, _, hheap, rfl, rfl, le_rfl, fun _ => ?_⟩)
    simp only [TimerLoop.deletes, htasks]
    rw [if_pos hactive]
  | ranCancelGone _ _ _ _ _ _ hqueue =>
    subst hqueue
    exact .inl ⟨rfl, rfl, le_rfl⟩

theorem made_le (hm : TimerMove s a s') : s.made ≤ s'.made := by
  rcases hm.memory with ⟨-, -, hmade⟩ | ⟨_, _, -, -, -, hmade⟩ | ⟨_, _, _, -, -, -, hmade, -⟩
  · exact hmade
  · exact hmade
  · exact hmade

/-- A timer that a move finds keeps its number, and is there afterwards
unless the step deletes it. -/
theorem kept (hm : TimerMove s a s') {timer : Timer} (hheap : s.queue.heap t = some timer) :
    s'.serial t = s.serial t ∧ (s.deletes a = some t ∨ ∃ timer', s'.queue.heap t = some timer') := by
  rcases hm.memory with ⟨hh, hs, -⟩ | ⟨t', new, hfree, hh, hs, -⟩ | ⟨t', old, new, hold, hh, hs, -, hdel⟩
  · rw [hh, hs]
    exact ⟨rfl, .inr ⟨timer, hheap⟩⟩
  · have hne : t ≠ t' := by
      rintro rfl
      rw [hfree] at hheap
      cases hheap
    rw [hh, hs, Function.update_of_ne hne, Function.update_of_ne hne]
    exact ⟨rfl, .inr ⟨timer, hheap⟩⟩
  · rw [hh, hs]
    refine ⟨rfl, ?_⟩
    by_cases ht : t = t'
    · subst ht
      rw [Function.update_self]
      cases new with
      | none => exact .inl (hdel rfl)
      | some timer' => exact .inr ⟨timer', rfl⟩
    · rw [Function.update_of_ne ht]
      exact .inr ⟨timer, hheap⟩

/-- A timer found after a move was there before, with its number, or is the
next one of the process. -/
theorem origin (hm : TimerMove s a s') {timer' : Timer} (hheap : s'.queue.heap t = some timer') :
    (∃ timer, s.queue.heap t = some timer ∧ s'.serial t = s.serial t) ∨ s'.serial t = s.made := by
  rcases hm.memory with ⟨hh, hs, -⟩ | ⟨t', new, hfree, hh, hs, -⟩ | ⟨t', old, new, hold, hh, hs, -, -⟩
  · rw [hh] at hheap
    exact .inl ⟨timer', hheap, by rw [hs]⟩
  · by_cases ht : t = t'
    · subst ht
      exact .inr (by rw [hs, Function.update_self])
    · rw [hh, Function.update_of_ne ht] at hheap
      exact .inl ⟨timer', hheap, by rw [hs, Function.update_of_ne ht]⟩
  · by_cases ht : t = t'
    · subst ht
      exact .inl ⟨old, hold, by rw [hs]⟩
    · rw [hh, Function.update_of_ne ht] at hheap
      exact .inl ⟨timer', hheap, by rw [hs]⟩

/-- What a move does to the calls of `AddTimer`: nothing; a new call, whose
timer it allocates; or a call that has not returned comes further. -/
theorem calls_cases (hm : TimerMove s a s') : s'.calls = s.calls ∨
    (∃ call timer, s'.calls = Function.update s.calls s.made (some call) ∧ s'.serial call.timer = s.made ∧
      s'.queue.heap call.timer = some timer ∧
      ((∃ when, call.stage = .allocated when) ∨
        call.stage = .returned (call.timer, call.sequence) ∧ .added s.made ∈ s'.log)) ∨
    ∃ k t sequence stage stage', s.calls k = some ⟨t, sequence, stage⟩ ∧ stage.isReturned = false ∧
      s'.calls = Function.update s.calls k (some ⟨t, sequence, stage'⟩) ∧
      ((stage' = .handedOver ∧ .add k ∈ s'.marks) ∨
        stage = .handedOver ∧ ∃ timer, s.queue.heap t = some timer ∧ stage' = .returned (t, timer.sequence)) := by
  cases hm with
  | added _ _ _ hqueue =>
    subst hqueue
    exact .inr (.inl ⟨_, _, rfl, Function.update_self .., Function.update_self ..,
      .inr ⟨rfl, List.mem_cons_self⟩⟩)
  | allocated _ _ _ hqueue =>
    subst hqueue
    exact .inr (.inl ⟨_, _, rfl, Function.update_self .., Function.update_self .., .inl ⟨_, rfl⟩⟩)
  | handedOver hcall =>
    exact .inr (.inr ⟨_, _, _, _, _, hcall, rfl, rfl, .inl ⟨rfl, List.mem_append_right _ List.mem_cons_self⟩⟩)
  | finished hcall hheap => exact .inr (.inr ⟨_, _, _, _, _, hcall, rfl, rfl, .inr ⟨rfl, _, hheap, rfl⟩⟩)
  | _ => exact .inl rfl

/-- A call found after a move was there before, is the next one of the
process, or has come further. -/
theorem call_origin (hm : TimerMove s a s') {k : ℕ} {c : AddCall} (hcall : s'.calls k = some c) :
    s.calls k = some c ∨
    (k = s.made ∧ s'.serial c.timer = k ∧ (∃ timer, s'.queue.heap c.timer = some timer) ∧
      ((∃ when, c.stage = .allocated when) ∨ c.stage = .returned (c.timer, c.sequence) ∧ .added k ∈ s'.log)) ∨
    ∃ stage, s.calls k = some ⟨c.timer, c.sequence, stage⟩ ∧ stage.isReturned = false ∧
      ((c.stage = .handedOver ∧ .add k ∈ s'.marks) ∨ stage = .handedOver ∧
        ∃ timer, s.queue.heap c.timer = some timer ∧ c.stage = .returned (c.timer, timer.sequence)) := by
  rcases hm.calls_cases with heq | ⟨call, timer, heq, hserial, hheap, hnew⟩ |
    ⟨k', t, sequence, stage, stage', hold, hstage, heq, hnew⟩
  · rw [heq] at hcall
    exact .inl hcall
  · rw [heq] at hcall
    by_cases hk : k = s.made
    · subst hk
      rw [Function.update_self] at hcall
      obtain rfl := Option.some.inj hcall
      exact .inr (.inl ⟨rfl, hserial, ⟨timer, hheap⟩, hnew⟩)
    · rw [Function.update_of_ne hk] at hcall
      exact .inl hcall
  · rw [heq] at hcall
    by_cases hk : k = k'
    · subst hk
      rw [Function.update_self] at hcall
      obtain rfl := Option.some.inj hcall
      exact .inr (.inr ⟨stage, hold, hstage, hnew⟩)
    · rw [Function.update_of_ne hk] at hcall
      exact .inl hcall

end TimerMove

/-! ### The tasks of the loop -/

/-- How many tasks of its batch `DoPendingFunctors` has left. -/
def TimerPlace.left : TimerPlace → ℕ
  | functors left => left
  | _ => 0

/-- The tasks in `pending_functors_`, and what is left of the batch. -/
def TimerLoop.taskQueue (s : TimerLoop) : BatchQueue TimerTask :=
  ⟨s.queue.tasks.drop s.place.left, s.queue.tasks.take s.place.left⟩

namespace TimerLoopStep

/-- The task that a step hands to the loop. -/
def handed (s : TimerLoop) : TimerLoopStep → List TimerTask
  | .handOver k =>
    match s.calls k with
    | some ⟨t, _, .allocated when⟩ => [.addTimeInLoop when t]
    | _ => []
  | .cancelTimer _ k => (s.idOf k).toList.map .cancelTimerInLoop
  | _ => []

/-- What a step does to the queue of tasks. -/
def queueOps (s : TimerLoop) (a : TimerLoopStep) : List (QueueOp TimerTask) :=
  match a with
  | .doPendingFunctors => [.swap]
  | .runTask _ => (s.queue.tasks.take 1).map .take
  | a => (a.handed s).map .push

end TimerLoopStep

section taskQueue

variable {s s' : TimerLoop} {a : TimerLoopStep}

theorem endHandleRead_tasks (q : TimerQueue) (nowArm : ℤ) : (q.endHandleRead nowArm).tasks = q.tasks := by
  unfold TimerQueue.endHandleRead
  dsimp only
  split <;> rfl

/-- Outside `DoPendingFunctors` a step at most hands a task over. -/
theorem handed_of_step (hen : s.enabled a = true) (hst : s.step a = .ok s') (hswap : a ≠ .doPendingFunctors)
    (hrun : ∀ now, a ≠ .runTask now) :
    s'.queue.tasks = s.queue.tasks ++ a.handed s ∧ s'.place.left = s.place.left := by
  have hsame : a.handed s = [] → s'.queue.tasks = s.queue.tasks → s'.place.left = s.place.left →
      s'.queue.tasks = s.queue.tasks ++ a.handed s ∧ s'.place.left = s.place.left := by
    intro hnone htasks hleft
    rw [hnone, List.append_nil]
    exact ⟨htasks, hleft⟩
  cases a with
  | poll due =>
    obtain rfl := Except.ok.inj hst
    simp only [TimerLoop.enabled, Bool.and_eq_true, Bool.or_eq_true, decide_eq_true_eq] at hen
    refine hsame rfl rfl ?_
    rcases hen.1 with hplace | hplace <;> rw [hplace] <;> rfl
  | leave =>
    obtain rfl := Except.ok.inj hst
    have hplace : s.place = .functors 0 := of_decide_eq_true hen
    exact hsame rfl rfl (by rw [hplace]; rfl)
  | doPendingFunctors => exact absurd rfl hswap
  | runTask now => exact absurd rfl (hrun now)
  | handleRead now =>
    obtain ⟨⟨expired, queue⟩, hbegin, hst⟩ := bind_eq_ok hst
    obtain ⟨active, fd, rfl⟩ := TimerQueue.beginHandleRead_ok hbegin
    obtain rfl := Except.ok.inj hst
    have hplace : s.place = .channels true := of_decide_eq_true hen
    exact hsame rfl rfl (by rw [hplace]; rfl)
  | callback =>
    simp only [TimerLoop.step] at hst
    unfold TimerLoop.callback at hst
    split at hst
    case h_1 now called t todo hplace =>
      obtain ⟨timer, -, hst⟩ := bind_eq_ok hst
      obtain rfl := Except.ok.inj hst
      exact hsame rfl rfl (by rw [hplace]; rfl)
    case h_2 =>
      obtain rfl := Except.ok.inj hst
      exact hsame rfl rfl rfl
  | reset =>
    simp only [TimerLoop.step] at hst
    split at hst
    case h_1 now called todo hplace =>
      obtain rfl := Except.ok.inj hst
      exact hsame rfl rfl (by rw [hplace]; rfl)
    case h_2 =>
      obtain rfl := Except.ok.inj hst
      exact hsame rfl rfl rfl
  | restart =>
    simp only [TimerLoop.step] at hst
    unfold TimerLoop.restart at hst
    split at hst
    case h_1 now t todo hplace =>
      obtain ⟨queue, hrestart, hst⟩ := bind_eq_ok hst
      obtain rfl := Except.ok.inj hst
      obtain ⟨timer, -, ⟨-, -, rfl⟩ | ⟨-, rfl⟩⟩ := TimerQueue.restart_ok hrestart
      · exact hsame rfl rfl (by rw [hplace]; rfl)
      · exact hsame rfl rfl (by rw [hplace]; rfl)
    case h_2 =>
      obtain rfl := Except.ok.inj hst
      exact hsame rfl rfl rfl
  | rearm nowArm =>
    obtain rfl := Except.ok.inj hst
    refine hsame rfl (endHandleRead_tasks s.queue nowArm) ?_
    simp only [TimerLoop.enabled] at hen
    split at hen
    case h_1 now hplace =>
      rw [hplace]
      rfl
    case h_2 => cases hen
  | addTimer when interval t now =>
    obtain ⟨⟨id, queue⟩, hadd, hst⟩ := bind_eq_ok hst
    obtain ⟨-, -, -, fd, rfl⟩ := TimerQueue.addTimer_ok hadd
    obtain rfl := Except.ok.inj hst
    exact hsame rfl rfl rfl
  | allocate when interval t =>
    obtain ⟨queue, hnew, hst⟩ := bind_eq_ok hst
    obtain ⟨-, -, rfl⟩ := TimerQueue.newTimer_ok hnew
    obtain rfl := Except.ok.inj hst
    exact hsame rfl rfl rfl
  | handOver k =>
    obtain rfl := Except.ok.inj hst
    simp only [TimerLoop.handOver, TimerLoopStep.handed]
    split
    · exact ⟨rfl, rfl⟩
    · exact ⟨(List.append_nil _).symm, rfl⟩
  | finish k =>
    simp only [TimerLoop.step] at hst
    unfold TimerLoop.finish at hst
    split at hst
    · obtain ⟨timer, -, hst⟩ := bind_eq_ok hst
      obtain rfl := Except.ok.inj hst
      exact hsame rfl rfl rfl
    · obtain rfl := Except.ok.inj hst
      exact hsame rfl rfl rfl
  | cancelTimer onLoop k =>
    obtain rfl := Except.ok.inj hst
    simp only [TimerLoop.cancelTimer, TimerLoopStep.handed]
    cases s.idOf k with
    | none => exact ⟨(List.append_nil _).symm, rfl⟩
    | some id => exact ⟨rfl, rfl⟩
  | fire =>
    obtain rfl := Except.ok.inj hst
    exact hsame rfl rfl rfl
  | createElsewhere n =>
    obtain rfl := Except.ok.inj hst
    exact hsame rfl rfl rfl

/-- One step, while the batch is among the tasks. -/
theorem taskQueue_step (hleft : s.place.left ≤ s.queue.tasks.length) (hen : s.enabled a = true)
    (hst : s.step a = .ok s') : s'.place.left ≤ s'.queue.tasks.length ∧
      Takes (queueMachine TimerTask) s.taskQueue (a.queueOps s) s'.taskQueue := by
  have hother : (a ≠ .doPendingFunctors) → (∀ now, a ≠ .runTask now) → a.queueOps s = (a.handed s).map .push →
      s'.place.left ≤ s'.queue.tasks.length ∧
        Takes (queueMachine TimerTask) s.taskQueue (a.queueOps s) s'.taskQueue := by
    intro hswap hrun hops
    obtain ⟨htasks, hplace⟩ := handed_of_step hen hst hswap hrun
    have hqueue : s'.taskQueue = { s.taskQueue with pending := s.taskQueue.pending ++ a.handed s } := by
      unfold TimerLoop.taskQueue
      rw [htasks, hplace, List.drop_append_of_le_length hleft, List.take_append_of_le_length hleft]
    rw [hplace, htasks, List.length_append, hqueue, hops]
    exact ⟨Nat.le_add_right_of_le hleft, takes_push _ _⟩
  cases a with
  | doPendingFunctors =>
    obtain rfl := Except.ok.inj hst
    have hplace : s.place = .channels false := of_decide_eq_true hen
    have hempty : s.taskQueue.batch = [] := by
      unfold TimerLoop.taskQueue
      rw [hplace]
      rfl
    refine ⟨Nat.le_refl _, Takes.one hempty ?_⟩
    simp [queueMachine, apply, TimerLoop.taskQueue, TimerPlace.left, hplace]
  | runTask now =>
    have hmove := TimerMove.of_runTask hen hst
    have hran : ∀ (left : ℕ) (task : TimerTask) (tasks : List TimerTask) (queue : TimerQueue),
        s.place = .functors (left + 1) → s.queue.tasks = task :: tasks → queue.tasks = tasks →
        left ≤ tasks.length ∧ Takes (queueMachine TimerTask) s.taskQueue (TimerLoopStep.queueOps s (.runTask now))
          ⟨queue.tasks.drop left, queue.tasks.take left⟩ := by
      intro left task tasks queue hplace htasks hqueue
      simp only [TimerLoop.taskQueue, TimerLoopStep.queueOps, hplace, htasks, hqueue, TimerPlace.left] at hleft ⊢
      exact ⟨Nat.le_of_succ_le_succ hleft, Takes.one rfl rfl⟩
    cases hmove with
    | quiet ha => exact absurd rfl (ha now)
    | ranAdd hplace _ htasks _ _ hqueue =>
      subst hqueue
      exact hran _ _ _ _ hplace htasks rfl
    | ranCancel hplace _ htasks _ _ _ hqueue =>
      subst hqueue
      exact hran _ _ _ _ hplace htasks rfl
    | ranCancelGone hplace _ htasks _ _ _ hqueue =>
      subst hqueue
      exact hran _ _ _ _ hplace htasks rfl
  | _ => exact hother (by simp) (by simp) rfl

/-- **The tasks of the timer queue wait in a batch queue.** A run of the loop is
a run of its queue of tasks, with those that the steps hand over and run. -/
theorem timerLoop_queue {tr : List (TimerLoop × TimerLoopStep)} (hr : Run timerLoopMachine TimerLoop.create tr s) :
    Takes (queueMachine TimerTask) ⟨[], []⟩ (gathered (fun s a => a.queueOps s) tr) s.taskQueue := by
  have hkeep : ∀ s a s', s.place.left ≤ s.queue.tasks.length → timerLoopMachine.enabled s a →
      timerLoopMachine.step s a = .ok s' → s'.place.left ≤ s'.queue.tasks.length :=
    fun _ _ _ hleft hen hst => (taskQueue_step hleft hen hst).1
  have hstep : ∀ s a s', s.place.left ≤ s.queue.tasks.length → timerLoopMachine.enabled s a →
      timerLoopMachine.step s a = .ok s' →
      Takes (queueMachine TimerTask) s.taskQueue (a.queueOps s) s'.taskQueue :=
    fun _ _ _ hleft hen hst => (taskQueue_step hleft hen hst).2
  exact hr.refines hkeep hstep (Nat.le_refl 0)

end taskQueue

end MiniMuduo
