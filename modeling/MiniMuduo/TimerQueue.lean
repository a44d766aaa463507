/-
# TimerQueue

`Timer` and `TimerQueue` of `src/Timer.cc` and `src/TimerQueue.cc`, with the
part of the loop they use. Timers live on a heap of their own: `heap` maps an
address to the timer allocated there, `new` takes any free address the
environment gives it, `delete` frees, and a read or a `delete` through a
pointer to a freed timer is a fault.

`timers_` and `active_timers_` are ordered sets of pairs. Timestamps are
microseconds, `int64_t` values. An interval is a `double`; what the code
computes from it is whether it is positive (`repeat_`) and its microseconds.

Tasks that the queue hands to its loop wait in `tasks`: `AddTimer` off the
loop's thread queues `AddTimeInLoop`, and `CancelTimer` always queues
`CancelTimerInLoop`. What a timer's callback does with the queue is a script
of `AddTimer` and `CancelTimer` calls.

Key definitions: `Timer`, `TimerQueue`, `TimerQueue.insert`,
`TimerQueue.cancelTimerInLoop`, `TimerQueue.handleRead`, `TimerStep`,
`timerMachine`.
-/
import MiniMuduo.Fault
import MiniMuduo.Lib.Fallible
import MiniMuduo.Lib.OrderedSet
import MiniMuduo.Lib.Run
import MiniMuduo.Lib.Word
import Mathlib.Data.Prod.Lex

namespace MiniMuduo

open Fallible Runs Word OrderedSet

/-- `AddTime(timestamp, seconds)`, the seconds in microseconds. -/
def addTime (timestamp micros : ℤ) : ℤ := int64 (timestamp + micros)

/-- The `interval` of a timer: `interval > 0`, and its microseconds. -/
structure Interval where
  repeats : Bool
  micros : ℤ
  deriving DecidableEq, Repr

/-- `Timer`. -/
structure Timer where
  expiration : ℤ
  interval : Interval
  sequence : ℤ
  deriving DecidableEq, Repr

/-- `Timer::Reset`; the invalid timestamp is -1. -/
def Timer.reset (now : ℤ) (t : Timer) : Timer :=
  { t with expiration := if t.interval.repeats then addTime now t.interval.micros else -1 }

/-- `TimerQueue::Entry`, by time and then by address. -/
abbrev Entry := ℤ ×ₗ ℕ

/-- `TimerQueue::ActiveTimer`; a `TimerId` holds the same pair. -/
abbrev ActiveTimer := ℕ × ℤ

/-- `struct timespec`. -/
structure Timespec where
  tvSec : ℤ
  tvNsec : ℤ
  deriving DecidableEq, Repr

/-- One arming of the timerfd: the expiration it is for, what
`Timestamp::Now()` said, and the relative timeout programmed. -/
structure Arming where
  target : ℤ
  now : ℤ
  timeout : Timespec
  deriving DecidableEq, Repr

/-- What the kernel's timer does: nothing, count, or wait to be read. -/
inductive TimerFdState
  | disarmed
  | armed
  | fired
  deriving DecidableEq, Repr

/-- The timerfd and its last arming. -/
structure TimerFd where
  state : TimerFdState
  last : Option Arming
  deriving DecidableEq, Repr

namespace detail

/-- `HowMuchTimeFromNow(when)`. -/
def howMuchTimeFromNow (when now : ℤ) : Timespec :=
  let microseconds := int64 (when - now)
  let microseconds := if microseconds < 100 then 100 else microseconds
  ⟨microseconds.tdiv 1000000, (microseconds.tmod 1000000) * 1000⟩

/-- `StopTimerFd`. -/
def stopTimerFd (fd : TimerFd) : TimerFd := { fd with state := .disarmed }

/-- `ResetTimerFd(timer_fd, expiration)`: a zero timeout would disarm. -/
def resetTimerFd (expiration now : ℤ) : TimerFd :=
  let timeout := howMuchTimeFromNow expiration now
  ⟨if timeout = ⟨0, 0⟩ then .disarmed else .armed, some ⟨expiration, now, timeout⟩⟩

/-- `ReadTimerFd`: only a timer that has fired has something to read. -/
def readTimerFd (fd : TimerFd) : TimerFd :=
  if fd.state = .fired then { fd with state := .disarmed } else fd

end detail

/-- A task of the queue on its loop. -/
inductive TimerTask
  | addTimeInLoop (when : ℤ) (timer : ℕ)
  | cancelTimerInLoop (id : ActiveTimer)
  deriving DecidableEq, Repr

/-- `TimerQueue`, the heap of its timers, and its tasks on the loop. -/
structure TimerQueue where
  heap : ℕ → Option Timer
  /-- `Timer::g_num_created_`. -/
  numCreated : ℤ
  timers : Finset Entry
  activeTimers : Finset ActiveTimer
  callingExpiredTimers : Bool
  cancellingTimers : Finset ActiveTimer
  timerFd : TimerFd
  tasks : List TimerTask
  /-- The timers whose callback was invoked, newest first. -/
  fired : List ActiveTimer
  destroyed : Bool

namespace TimerQueue

/-- `TimerQueue(loop)`. -/
def create (numCreated : ℤ) : TimerQueue :=
  ⟨fun _ => none, numCreated, ∅, ∅, false, ∅, ⟨.disarmed, none⟩, [], [], false⟩

/-- `UINTPTR_MAX`. -/
def uintptrMax : ℕ := 0xFFFFFFFFFFFFFFFF

/-- A read through the pointer `t`. -/
def deref (q : TimerQueue) (t : ℕ) : Except Fault Timer :=
  match q.heap t with
  | some timer => .ok timer
  | none => .error .useAfterFree

/-- `new Timer(when, cb, interval)` at the free address `t`. -/
def newTimer (when : ℤ) (interval : Interval) (t : ℕ) (q : TimerQueue) : Except Fault TimerQueue :=
  if q.heap t = none ∧ 0 < t ∧ t < uintptrMax then
    .ok { q with
      heap := Function.update q.heap t (some ⟨when, interval, q.numCreated⟩)
      numCreated := int64 (q.numCreated + 1) }
  else .error .badAlloc

/-- `delete` of the timer at `t`. -/
def delete (t : ℕ) (q : TimerQueue) : Except Fault TimerQueue :=
  match q.heap t with
  | some _ => .ok { q with heap := Function.update q.heap t none }
  | none => .error .doubleFree

/-- `insert(timer)`, with its two assertions, and `earliest_changed`. -/
def insert (t : ℕ) (q : TimerQueue) : Except Fault (Bool × TimerQueue) := do
  let timer ← q.deref t
  let earliestChanged :=
    match first q.timers with
    | none => true
    | some begin => timer.expiration < (ofLex begin).1
  let entry : Entry := toLex (timer.expiration, t)
  if entry ∈ q.timers then throw .assertion
  if (t, timer.sequence) ∈ q.activeTimers then throw .assertion
  return (earliestChanged, { q with
    timers := Insert.insert entry q.timers
    activeTimers := Insert.insert (t, timer.sequence) q.activeTimers })

/-- `AddTimeInLoop(when, timer)`; `now` is what `Timestamp::Now()` says if the
timerfd is set. -/
def addTimeInLoop (when : ℤ) (t : ℕ) (now : ℤ) (q : TimerQueue) : Except Fault TimerQueue := do
  let (earliestChanged, q) ← q.insert t
  if earliestChanged then return { q with timerFd := detail.resetTimerFd when now } else return q

/-- `CancelTimerInLoop(timer_id)`. -/
def cancelTimerInLoop (id : ActiveTimer) (now : ℤ) (q : TimerQueue) : Except Fault TimerQueue := do
  if id ∈ q.activeTimers then
    let wasEarliest := (first q.timers).any fun begin => (ofLex begin).2 = id.1
    let timer ← q.deref id.1
    let q := { q with timers := q.timers.erase (toLex (timer.expiration, id.1)) }
    let q ← q.delete id.1
    let q := { q with activeTimers := q.activeTimers.erase id }
    if wasEarliest then
      match first q.timers with
      | some begin => return { q with timerFd := detail.resetTimerFd (ofLex begin).1 now }
      | none => return { q with timerFd := detail.stopTimerFd q.timerFd }
    else return q
  else if q.callingExpiredTimers then
    return { q with cancellingTimers := Insert.insert id q.cancellingTimers }
  else return q

/-- `AddTimer(when, cb, interval)` on the loop's thread, where `RunInLoop`
calls `AddTimeInLoop` at once; the timer is then read for its `TimerId`. -/
def addTimer (when : ℤ) (interval : Interval) (t : ℕ) (now : ℤ) (q : TimerQueue) :
    Except Fault (ActiveTimer × TimerQueue) := do
  let q ← q.newTimer when interval t
  let q ← q.addTimeInLoop when t now
  let timer ← q.deref t
  return ((t, timer.sequence), q)

/-- The first half of `AddTimer` on another thread: `AddTimeInLoop` is
queued. -/
def queueTimer (when : ℤ) (interval : Interval) (t : ℕ) (q : TimerQueue) : Except Fault TimerQueue := do
  let q ← q.newTimer when interval t
  return { q with tasks := q.tasks ++ [.addTimeInLoop when t] }

/-- `CancelTimer(timer_id)`. -/
def cancelTimer (id : ActiveTimer) (q : TimerQueue) : TimerQueue :=
  { q with tasks := q.tasks ++ [.cancelTimerInLoop id] }

end TimerQueue

/-- What a timer's callback does with the queue. -/
inductive TimerAct
  | addTimer (when : ℤ) (interval : Interval) (timer : ℕ) (now : ℤ)
  | cancelTimer (id : ActiveTimer)
  deriving DecidableEq, Repr

namespace TimerQueue

/-- One act of a callback. -/
def runAct (q : TimerQueue) : TimerAct → Except Fault TimerQueue
  | .addTimer when interval t now => do return (← q.addTimer when interval t now).2
  | .cancelTimer id => .ok (q.cancelTimer id)

/-- `GetExpired(now)`. -/
def getExpired (now : ℤ) (q : TimerQueue) : Except Fault (List Entry × TimerQueue) := do
  let bound : Entry := toLex (now, uintptrMax)
  let expired := below q.timers bound
  let activeTimers ← expired.foldlM (fun active entry => do
    let timer ← q.deref (ofLex entry).2
    return active.erase ((ofLex entry).2, timer.sequence)) q.activeTimers
  return (expired, { q with timers := notBelow q.timers bound, activeTimers })

/-- `entry.second->Run()`: the callback of the timer at `t` runs its script. -/
def run (script : ℕ → List TimerAct) (q : TimerQueue) (t : ℕ) : Except Fault TimerQueue := do
  let timer ← q.deref t
  (script t).foldlM runAct { q with fired := (t, timer.sequence) :: q.fired }

/-- What `Reset(expired, now)` does with one timer: a repeating one that was
not cancelled starts again, any other is deleted. -/
def restart (now : ℤ) (q : TimerQueue) (t : ℕ) : Except Fault TimerQueue := do
  let timer ← q.deref t
  if timer.interval.repeats ∧ (t, timer.sequence) ∉ q.cancellingTimers then
    let q := { q with heap := Function.update q.heap t (some (timer.reset now)) }
    return (← q.insert t).2
  else
    q.delete t

/-- `Reset(expired, now)`. -/
def reset (expired : List ℕ) (now nowArm : ℤ) (q : TimerQueue) : Except Fault TimerQueue := do
  let q ← expired.foldlM (restart now) q
  let q := { q with cancellingTimers := ∅ }
  match first q.timers with
  | some begin => return { q with timerFd := detail.resetTimerFd (ofLex begin).1 nowArm }
  | none => return q

/-- `HandleRead`, with the callbacks' scripts by the timers' addresses. -/
def handleRead (now : ℤ) (script : ℕ → List TimerAct) (nowArm : ℤ) (q : TimerQueue) :
    Except Fault TimerQueue := do
  let q := { q with timerFd := detail.readTimerFd q.timerFd }
  let (entries, q) ← q.getExpired now
  let expired := entries.map fun entry => (ofLex entry).2
  let q := { q with callingExpiredTimers := true }
  let q ← expired.foldlM (run script) q
  let q ← q.reset expired now nowArm
  return { q with callingExpiredTimers := false }

/-- `~TimerQueue`: every timer of `timers_` is deleted, and the sets go. -/
def destroy (q : TimerQueue) : Except Fault TimerQueue := do
  let q ← ((elements q.timers).map fun entry => (ofLex entry).2).foldlM (fun q t => q.delete t) q
  return { q with timers := ∅, activeTimers := ∅, cancellingTimers := ∅, destroyed := true }

end TimerQueue

/-- What happens to a queue: calls of `AddTimer` on the loop's thread and on
others, `CancelTimer`, the loop running the next task, `HandleRead`, the
kernel's timer firing, timers created elsewhere, the end. -/
inductive TimerStep
  | addTimer (when : ℤ) (interval : Interval) (timer : ℕ) (now : ℤ)
  | queueTimer (when : ℤ) (interval : Interval) (timer : ℕ)
  | cancelTimer (id : ActiveTimer)
  | runTask (now : ℤ)
  | handleRead (now : ℤ) (script : ℕ → List TimerAct) (nowArm : ℤ)
  | fire
  | createElsewhere
  | destroy

namespace TimerQueue

/-- The loop runs the task at the front. -/
def runTask (now : ℤ) (q : TimerQueue) : Except Fault TimerQueue :=
  match q.tasks with
  | [] => .ok q
  | .addTimeInLoop when t :: tasks => { q with tasks }.addTimeInLoop when t now
  | .cancelTimerInLoop id :: tasks => { q with tasks }.cancelTimerInLoop id now

/-- One step. -/
def step (q : TimerQueue) : TimerStep → Except Fault TimerQueue
  | .addTimer when interval t now => do return (← q.addTimer when interval t now).2
  | .queueTimer when interval t => q.queueTimer when interval t
  | .cancelTimer id => .ok (q.cancelTimer id)
  | .runTask now => q.runTask now
  | .handleRead now script nowArm => q.handleRead now script nowArm
  | .fire => .ok { q with timerFd := { q.timerFd with state := .fired } }
  | .createElsewhere => .ok { q with numCreated := int64 (q.numCreated + 1) }
  | .destroy => q.destroy

/-- Nothing comes after the end, and an unset timer does not fire. -/
def enabled (q : TimerQueue) : TimerStep → Bool
  | .fire => !q.destroyed && q.timerFd.state = .armed
  | _ => !q.destroyed

end TimerQueue

/-- The runs of a timer queue. -/
def timerMachine : Machine TimerQueue TimerStep Fault := ⟨fun q a => q.enabled a = true, TimerQueue.step⟩

instance (q : TimerQueue) (a : TimerStep) : Decidable (timerMachine.enabled q a) :=
  inferInstanceAs (Decidable (_ = true))

end MiniMuduo
