/-
# A callback that throws

`DoPendingFunctors` of `src/EventLoop.cc` and `HandleRead` of
`src/TimerQueue.cc` take work out of the loop's structures before they run user
code: the batch of tasks is swapped into a local vector, the expired timers are
erased from the sets and wait in another, and the timerfd has been read. What
puts things right comes after the last callback. An exception in between
(`LOG_FATAL` throws one) leaves `Loop()` with the local vectors gone; here the
caller catches it and calls `Loop()` again.

Beside the state of the code stands what has become of the work: `pushed`,
`swapped` and `executed` are all the tasks so far, and each time a timer is
queued it draws a ticket, which ends when the timer fires or is cancelled. A
repeating timer draws its next ticket when it is called: from then on `Reset`
has to queue it again. Where a timer's callback throws, this next ticket of its
own ends with that. `rearmed` says that the timerfd was set again since
`HandleRead` read it. `NothingLost` is what should hold in every state: a task
that was pushed has been executed or is still to come, in order; a timer that
was queued has fired, was cancelled, is queued, or is in hand, to be called or
to be queued again; and outside `HandleRead` the timerfd is set as long as
there are timers.

It does, exactly when every throw comes last (`nothing_lost_iff`): the task is
the last of its batch, the timer is the last of the expired ones, none of those
called before it is to be queued again, and no timer is queued or the timerfd
was set again.

Not covered: `WakeUp` (`MiniMuduo.EventLoop` has it), and so the flag
`calling_pending_functors_`, which a throw leaves set and only `WakeUp` reads.

The queue is that of `MiniMuduo.Lib.BatchQueue`, whose batch a throw gives up
(`throwing_queue`), and the record is what the steps of the run did
(`throwing_recorded`).

Key definitions: `ThrowingLoop`, `throwingMachine`, `ThrowingLoop.NothingLost`,
`ThrowingLoop.ThrowsLast`, `ThrowingLoop.InOrder`.
Key theorems: `throwing_queue`, `throwing_sublist`, `ThrowingLoop.InOrder.step`,
`ThrowingLoop.InOrder.throw_loses`, `nothing_lost_iff`.
-/
import MiniMuduo.Lib.Tickets
import MiniMuduo.TimerLoop

namespace MiniMuduo

open Fallible Runs BatchQueues Word OrderedSet

/-- A task in `pending_functors_`: one of the user, or one of the timer
queue. -/
inductive LoopTask (τ : Type)
  | user (x : τ)
  | timer (task : TimerTask)
  deriving DecidableEq, Repr

/-- The timer that a task is about to insert. -/
def LoopTask.timer? {τ : Type} : LoopTask τ → Option ℕ
  | user _ => none
  | timer task => task.timer?

/-- Where the loop's thread is. -/
inductive LoopPlace (τ : Type)
  /-- Before `Loop()`, or after it. -/
  | outside
  /-- Handling the active channels; whether the timerfd's is yet to come. -/
  | channels (due : Bool)
  /-- Calling the expired timers: those called, and those to come. -/
  | calling (now : ℤ) (called todo : List ℕ)
  /-- In the loop of `Reset`. -/
  | resetting (now : ℤ) (todo : List ℕ)
  /-- In the loop of `DoPendingFunctors`, with the rest of the batch. -/
  | functors (rest : List (LoopTask τ))
  /-- In a task of the user. -/
  | inTask (rest : List (LoopTask τ))
  deriving DecidableEq, Repr

namespace LoopPlace

variable {τ : Type}

/-- The tasks that `DoPendingFunctors` has in hand. -/
def batch : LoopPlace τ → List (LoopTask τ)
  | functors rest | inTask rest => rest
  | _ => []

/-- The expired timers that `HandleRead` has in hand. -/
def held : LoopPlace τ → List ℕ
  | calling _ called todo => called ++ todo
  | resetting _ todo => todo
  | _ => []

/-- The expired timers that are still to be called. -/
def due : LoopPlace τ → List ℕ
  | calling _ _ todo => todo
  | _ => []

/-- The expired timers that were called and that `Reset` has not come to. -/
def toReset : LoopPlace τ → List ℕ
  | calling _ called _ => called
  | resetting _ todo => todo
  | _ => []

/-- The timer whose callback runs. -/
def running? : LoopPlace τ → Option ℕ
  | calling _ called _ => called.getLast?
  | _ => none

/-- The expired timers that were called before it. -/
def earlier : LoopPlace τ → List ℕ
  | calling _ called _ => called.dropLast
  | _ => []

/-- Whether the thread is inside `HandleRead`. -/
def inHandleRead : LoopPlace τ → Bool
  | calling .. | resetting .. => true
  | _ => false

/-- Whether user code can run here. -/
def runsCode : LoopPlace τ → Bool
  | calling _ called _ => !called.isEmpty
  | resetting .. | functors _ => false
  | outside | channels _ | inTask _ => true

end LoopPlace

/-- How a ticket of a timer ends. -/
inductive TimerEnd
  | fired
  | cancelled
  /-- Its callback threw: `Reset` does not come to it. -/
  | threw
  deriving DecidableEq, Repr

/-- A loop with its timer queue, whose callbacks may throw. -/
structure ThrowingLoop (τ : Type) where
  queue : TimerQueue
  place : LoopPlace τ
  pendingFunctors : List (LoopTask τ)
  pushed : List (LoopTask τ)
  swapped : List (LoopTask τ)
  executed : List (LoopTask τ)
  tickets : Tickets ℕ TimerEnd
  rearmed : Bool

/-- What happens: on the loop's thread, on other threads, in the kernel. -/
inductive ThrowingStep (τ : Type)
  /-- `Poll` returns, with the timerfd among the active channels or not. -/
  | poll (due : Bool)
  /-- `Loop()` returns. -/
  | leave
  /-- `HandleRead`, up to the first callback. -/
  | handleRead (now : ℤ)
  /-- The next expired timer's callback begins. -/
  | callback
  /-- The callback of a timer throws. -/
  | throwCallback
  /-- The callbacks are over. -/
  | reset
  /-- The next pass of the loop in `Reset`. -/
  | restart
  /-- The rest of `HandleRead`. -/
  | rearm (nowArm : ℤ)
  | doPendingFunctors
  /-- The next task of the batch begins; one of the timer queue is done. -/
  | runTask (now : ℤ)
  /-- A task of the user returns. -/
  | endTask
  /-- A task of the user throws. -/
  | throwTask
  /-- `QueueInLoop` of a task of the user. -/
  | queueInLoop (x : τ)
  /-- `AddTimer` on the loop's thread. -/
  | addTimer (when : ℤ) (interval : Interval) (timer : ℕ) (now : ℤ)
  /-- `AddTimer` on another thread. -/
  | queueTimer (when : ℤ) (interval : Interval) (timer : ℕ)
  | cancelTimer (id : ActiveTimer)
  | fire
  | createElsewhere
  deriving DecidableEq, Repr

namespace TimerQueue

/-- A task of the queue runs. -/
def runTimerTask (now : ℤ) (q : TimerQueue) : TimerTask → Except Fault TimerQueue
  | .addTimeInLoop when t => q.addTimeInLoop when t now
  | .cancelTimerInLoop id => q.cancelTimerInLoop id now

/-- A timer for `when` would be the earliest. -/
def isEarliest (when : ℤ) (q : TimerQueue) : Bool := (first q.timers).all fun begin => when < (ofLex begin).1

/-- `Reset` starts the timer at `t` again. -/
def startsAgain (t : ℕ) (q : TimerQueue) : Bool :=
  (q.heap t).any fun timer => timer.interval.repeats && decide ((t, timer.sequence) ∉ q.cancellingTimers)

end TimerQueue

namespace ThrowingLoop

variable {τ : Type}

/-- A loop with its new timer queue. -/
def create (τ : Type) : ThrowingLoop τ := ⟨TimerQueue.create 0, .outside, [], [], [], [], .empty, false⟩

/-- `pending_functors_.push_back(task)`. -/
def push (task : LoopTask τ) (s : ThrowingLoop τ) : ThrowingLoop τ :=
  { s with pendingFunctors := s.pendingFunctors ++ [task], pushed := s.pushed ++ [task] }

/-- What a task of the queue does to the tickets. -/
def taskTickets (s : ThrowingLoop τ) : TimerTask → Tickets ℕ TimerEnd
  | .addTimeInLoop _ t => s.tickets.draw t
  | .cancelTimerInLoop id => if id ∈ s.queue.activeTimers then s.tickets.finish id.1 .cancelled else s.tickets

/-- The loop of `DoPendingFunctors` comes to the next task. -/
def runTask (now : ℤ) (s : ThrowingLoop τ) : Except Fault (ThrowingLoop τ) :=
  match s.place with
  | .functors (.user x :: rest) => .ok { s with place := .inTask rest, executed := s.executed ++ [.user x] }
  | .functors (.timer task :: rest) => do
    let queue ← s.queue.runTimerTask now task
    return { s with
      queue, place := .functors rest, executed := s.executed ++ [.timer task], tickets := s.taskTickets task }
  | _ => .ok s

/-- `HandleRead`, up to the first callback. -/
def handleRead (now : ℤ) (s : ThrowingLoop τ) : Except Fault (ThrowingLoop τ) := do
  let (expired, queue) ← s.queue.beginHandleRead now
  return { s with queue, place := .calling now [] expired, rearmed := s.queue.timerFd.state = .armed }

/-- The timer at `t` is called: it has fired, and if `Reset` is to start it
again it waits for that. -/
def callTickets (s : ThrowingLoop τ) (t : ℕ) : Tickets ℕ TimerEnd :=
  if s.queue.startsAgain t then (s.tickets.finish t .fired).draw t else s.tickets.finish t .fired

/-- `entry.second->Run()`; what the callback does are steps of their own. -/
def callback (s : ThrowingLoop τ) : Except Fault (ThrowingLoop τ) :=
  match s.place with
  | .calling now called (t :: todo) => do
    let timer ← s.queue.deref t
    return { s with
      queue := { s.queue with fired := (t, timer.sequence) :: s.queue.fired }
      place := .calling now (called ++ [t]) todo
      tickets := s.callTickets t }
  | _ => .ok s

/-- The callback throws: its timer is not missed. -/
def throwTickets (s : ThrowingLoop τ) : Tickets ℕ TimerEnd :=
  match s.place.running? with
  | some t => if s.queue.startsAgain t then s.tickets.finish t .threw else s.tickets
  | none => s.tickets

/-- A pass of the loop in `Reset`. -/
def restart (s : ThrowingLoop τ) : Except Fault (ThrowingLoop τ) :=
  match s.place with
  | .resetting now (t :: todo) => do
    let queue ← s.queue.restart now t
    return { s with queue, place := .resetting now todo }
  | _ => .ok s

/-- `AddTimer` on the loop's thread. -/
def addTimer (when : ℤ) (interval : Interval) (t : ℕ) (now : ℤ) (s : ThrowingLoop τ) :
    Except Fault (ThrowingLoop τ) := do
  let (_, queue) ← s.queue.addTimer when interval t now
  return { s with queue, tickets := s.tickets.draw t, rearmed := s.rearmed || s.queue.isEarliest when }

/-- `AddTimer` on another thread. -/
def queueTimer (when : ℤ) (interval : Interval) (t : ℕ) (s : ThrowingLoop τ) : Except Fault (ThrowingLoop τ) := do
  let queue ← s.queue.newTimer when interval t
  return { s with queue }.push (.timer (.addTimeInLoop when t))

/-- One step. A throw ends `Loop()`, and what was in hand is gone. -/
def step (s : ThrowingLoop τ) : ThrowingStep τ → Except Fault (ThrowingLoop τ)
  | .poll due => .ok { s with place := .channels due }
  | .leave => .ok { s with place := .outside }
  | .handleRead now => s.handleRead now
  | .callback => s.callback
  | .throwCallback => .ok { s with place := .outside, tickets := s.throwTickets }
  | .reset =>
    match s.place with
    | .calling now called _ => .ok { s with place := .resetting now called }
    | _ => .ok s
  | .restart => s.restart
  | .rearm nowArm => .ok { s with queue := s.queue.endHandleRead nowArm, place := .channels false }
  | .doPendingFunctors => .ok { s with
      place := .functors s.pendingFunctors, pendingFunctors := [], swapped := s.swapped ++ s.pendingFunctors }
  | .runTask now => s.runTask now
  | .endTask => .ok { s with place := .functors s.place.batch }
  | .throwTask => .ok { s with place := .outside }
  | .queueInLoop x => .ok (s.push (.user x))
  | .addTimer when interval t now => s.addTimer when interval t now
  | .queueTimer when interval t => s.queueTimer when interval t
  | .cancelTimer id => .ok (s.push (.timer (.cancelTimerInLoop id)))
  | .fire => .ok { s with queue := { s.queue with timerFd := { s.queue.timerFd with state := .fired } } }
  | .createElsewhere => .ok { s with queue := { s.queue with numCreated := int64 (s.queue.numCreated + 1) } }

/-- When a step can be taken. -/
def enabled (s : ThrowingLoop τ) : ThrowingStep τ → Bool
  | .poll due => (s.place matches .outside | .functors []) && (!due || s.queue.timerFd.state = .fired)
  | .leave => (s.place matches .functors [])
  | .handleRead _ => (s.place matches .channels true)
  | .callback => (s.place matches .calling _ _ (_ :: _))
  | .throwCallback => (s.place matches .calling _ (_ :: _) _)
  | .reset => (s.place matches .calling _ _ [])
  | .restart => (s.place matches .resetting _ (_ :: _))
  | .rearm _ => (s.place matches .resetting _ [])
  | .doPendingFunctors => (s.place matches .channels false)
  | .runTask _ => (s.place matches .functors (_ :: _))
  | .endTask | .throwTask => (s.place matches .inTask _)
  | .addTimer .. => s.place.runsCode
  | .fire => s.queue.timerFd.state = .armed
  | .queueInLoop _ | .queueTimer .. | .cancelTimer _ | .createElsewhere => true

end ThrowingLoop

/-- The runs of a loop whose callbacks may throw. -/
def throwingMachine (τ : Type) : Machine (ThrowingLoop τ) (ThrowingStep τ) Fault :=
  ⟨fun s a => s.enabled a = true, ThrowingLoop.step⟩

instance {τ : Type} (s : ThrowingLoop τ) (a : ThrowingStep τ) : Decidable ((throwingMachine τ).enabled s a) :=
  inferInstanceAs (Decidable (_ = true))

namespace ThrowingLoop

variable {τ : Type}

/-- The timer at `t` was called, and `Reset` is to start it again. -/
def Restarts (s : ThrowingLoop τ) (t : ℕ) : Prop := t ∈ s.place.toReset ∧ s.queue.startsAgain t = true

/-- The timer at `t` is queued, or expired and about to be called or to be
started again. -/
def Waiting (s : ThrowingLoop τ) (t : ℕ) : Prop :=
  (∃ e, toLex (e, t) ∈ s.queue.timers) ∨ t ∈ s.place.due ∨ s.Restarts t

/-- What no callback should disturb. -/
structure NothingLost (s : ThrowingLoop τ) : Prop where
  /-- What was pushed has been taken out, or waits. -/
  pushed : s.pushed = s.swapped ++ s.pendingFunctors
  /-- What was taken out has been executed, or is in hand. -/
  swapped : s.swapped = s.executed ++ s.place.batch
  /-- Each time a timer was queued, it fired, was cancelled, or waits. -/
  timers : s.tickets.Accounted s.Waiting
  /-- Timers that are queued will be noticed. -/
  armed : s.place.inHandleRead = false → s.queue.timers.Nonempty → s.queue.timerFd.state ≠ .disarmed

/-- A step other than a throw, or a throw that comes last: of a task with
nothing after it in its batch; of a timer with no expired one after it and none
before it that `Reset` would start again, when no timer is queued or the
timerfd was set again since it was read. -/
def ThrowsLast (s : ThrowingLoop τ) : ThrowingStep τ → Prop
  | .throwTask => s.place.batch = []
  | .throwCallback => s.place.due = [] ∧ (∀ t ∈ s.place.earlier, s.queue.startsAgain t = false) ∧
    (s.queue.timers = ∅ ∨ s.rearmed = true)
  | _ => True

instance [DecidableEq τ] (s : ThrowingLoop τ) : (a : ThrowingStep τ) → Decidable (s.ThrowsLast a)
  | .throwTask => inferInstanceAs (Decidable (_ = _))
  | .throwCallback => inferInstanceAs (Decidable (_ ∧ _ ∧ _))
  | .poll _ | .leave | .handleRead _ | .callback | .reset | .restart | .rearm _ | .doPendingFunctors | .runTask _
  | .endTask | .queueInLoop _ | .addTimer .. | .queueTimer .. | .cancelTimer _ | .fire | .createElsewhere =>
    .isTrue trivial

end ThrowingLoop

/-! ### The queue of tasks -/

namespace ThrowingStep

variable {τ : Type}

/-- The task that a step pushes. -/
def pushed : ThrowingStep τ → List (LoopTask τ)
  | .queueInLoop x => [.user x]
  | .queueTimer when _ t => [.timer (.addTimeInLoop when t)]
  | .cancelTimer id => [.timer (.cancelTimerInLoop id)]
  | _ => []

/-- The task that a step runs. -/
def started (s : ThrowingLoop τ) : ThrowingStep τ → List (LoopTask τ)
  | .runTask _ => s.place.batch.take 1
  | _ => []

/-- The timer that a step queues: a new one, or one that has been called and
that `Reset` is to start again. -/
def queued (s : ThrowingLoop τ) : ThrowingStep τ → List ℕ
  | .addTimer _ _ t _ => [t]
  | .runTask _ => (s.place.batch.take 1).filterMap LoopTask.timer?
  | .callback => (s.place.due.take 1).filter s.queue.startsAgain
  | _ => []

/-- What a step does to the queue: a task that throws gives up its batch. -/
def queueOps (s : ThrowingLoop τ) (a : ThrowingStep τ) : List (QueueOp (LoopTask τ)) :=
  match a with
  | .doPendingFunctors => [.swap]
  | .throwTask => [.giveUp]
  | a => (a.started s).map .take ++ a.pushed.map .push

theorem taken_queueOps (s : ThrowingLoop τ) (a : ThrowingStep τ) : taken (a.queueOps s) = a.started s := by
  have hother : taken ((a.started s).map .take ++ a.pushed.map .push) = a.started s := by
    rw [taken_append, taken_map_take, taken_map_push, List.append_nil]
  cases a <;> first | rfl | exact hother

theorem pushed_queueOps (s : ThrowingLoop τ) (a : ThrowingStep τ) : BatchQueues.pushed (a.queueOps s) = a.pushed := by
  have hother : BatchQueues.pushed ((a.started s).map .take ++ a.pushed.map .push) = a.pushed := by
    rw [pushed_append, pushed_map_take, pushed_map_push, List.nil_append]
  cases a <;> first | rfl | exact hother

end ThrowingStep

/-- The tasks pushed in a run. -/
def throwingPushes {τ : Type} (tr : List (ThrowingLoop τ × ThrowingStep τ)) : List (LoopTask τ) :=
  gathered (fun _ a => a.pushed) tr

/-- The tasks run in a run. -/
def throwingStarts {τ : Type} (tr : List (ThrowingLoop τ × ThrowingStep τ)) : List (LoopTask τ) :=
  gathered (fun s a => a.started s) tr

/-- The timers queued in a run, once for each time they are to be called. -/
def timersQueued {τ : Type} (tr : List (ThrowingLoop τ × ThrowingStep τ)) : List ℕ :=
  gathered (fun s a => a.queued s) tr

namespace ThrowingLoop

variable {τ : Type} {s s' : ThrowingLoop τ}

/-- The queue, and what is left of the batch. -/
def taskQueue (s : ThrowingLoop τ) : BatchQueue (LoopTask τ) := ⟨s.pendingFunctors, s.place.batch⟩

/-- One step: what it does to the queue, and what it records. -/
structure Queues (s : ThrowingLoop τ) (a : ThrowingStep τ) (s' : ThrowingLoop τ) : Prop where
  takes : Takes (queueMachine (LoopTask τ)) s.taskQueue (a.queueOps s) s'.taskQueue
  pushed : s'.pushed = s.pushed ++ a.pushed
  executed : s'.executed = s.executed ++ a.started s
  drawn : s'.tickets.drawn = s.tickets.drawn + (a.queued s).length

/-- A step that neither runs nor pushes a task. -/
theorem Queues.idle {a : ThrowingStep τ} (hops : a.queueOps s = []) (hpushed : a.pushed = [])
    (hstarted : a.started s = []) (hpending : s'.pendingFunctors = s.pendingFunctors) (hbatch : s'.place.batch = s.place.batch)
    (hpushed' : s'.pushed = s.pushed) (hexecuted : s'.executed = s.executed)
    (hdrawn : s'.tickets.drawn = s.tickets.drawn + (a.queued s).length) : Queues s a s' := by
  refine ⟨?_, ?_, ?_, hdrawn⟩
  · have hqueue : s'.taskQueue = s.taskQueue := by
      unfold taskQueue
      rw [hpending, hbatch]
    rw [hops, hqueue]
    exact Takes.none
  · rw [hpushed, List.append_nil, hpushed']
  · rw [hstarted, List.append_nil, hexecuted]

theorem Queues.step {a : ThrowingStep τ} (hen : s.enabled a = true) (hst : s.step a = .ok s') : Queues s a s' := by
  cases a with
  | poll due =>
    obtain rfl := Except.ok.inj hst
    simp only [enabled, Bool.and_eq_true] at hen
    obtain ⟨hen, -⟩ := hen
    refine .idle rfl rfl rfl rfl ?_ rfl rfl rfl
    split at hen
    case h_1 hplace =>
      rw [hplace]
      rfl
    case h_2 hplace =>
      rw [hplace]
      rfl
    case h_3 => cases hen
  | leave =>
    obtain rfl := Except.ok.inj hst
    simp only [enabled] at hen
    split at hen
    case h_1 hplace => exact .idle rfl rfl rfl rfl (by rw [hplace]; rfl) rfl rfl rfl
    case h_2 => cases hen
  | handleRead now =>
    obtain ⟨⟨expired, queue⟩, -, hst⟩ := bind_eq_ok hst
    obtain rfl := Except.ok.inj hst
    simp only [enabled] at hen
    split at hen
    case h_1 hplace => exact .idle rfl rfl rfl rfl (by rw [hplace]; rfl) rfl rfl rfl
    case h_2 => cases hen
  | callback =>
    simp only [ThrowingLoop.step, callback] at hst
    split at hst
    case h_1 now called t todo hplace =>
      obtain ⟨timer, -, hst⟩ := bind_eq_ok hst
      obtain rfl := Except.ok.inj hst
      refine .idle rfl rfl rfl rfl (by rw [hplace]; rfl) rfl rfl ?_
      show (s.callTickets t).drawn = _
      simp only [ThrowingStep.queued, hplace, LoopPlace.due, List.take_succ_cons, List.take_zero]
      unfold callTickets
      cases h : s.queue.startsAgain t with
      | true => simp [h, Tickets.draw, Tickets.finish]
      | false => simp [h, Tickets.finish]
    case h_2 =>
      simp only [enabled] at hen
      cases hen
  | throwCallback =>
    obtain rfl := Except.ok.inj hst
    simp only [enabled] at hen
    split at hen
    case h_1 hplace =>
      refine .idle rfl rfl rfl rfl (by rw [hplace]; rfl) rfl rfl ?_
      show s.throwTickets.drawn = s.tickets.drawn
      unfold throwTickets
      split
      · split <;> rfl
      · rfl
    case h_2 => cases hen
  | reset =>
    simp only [ThrowingLoop.step] at hst
    split at hst
    case h_1 now called todo hplace =>
      obtain rfl := Except.ok.inj hst
      exact .idle rfl rfl rfl rfl (by rw [hplace]; rfl) rfl rfl rfl
    case h_2 =>
      obtain rfl := Except.ok.inj hst
      exact .idle rfl rfl rfl rfl rfl rfl rfl rfl
  | restart =>
    simp only [ThrowingLoop.step, restart] at hst
    split at hst
    case h_1 now t todo hplace =>
      obtain ⟨queue, -, hst⟩ := bind_eq_ok hst
      obtain rfl := Except.ok.inj hst
      exact .idle rfl rfl rfl rfl (by rw [hplace]; rfl) rfl rfl rfl
    case h_2 =>
      obtain rfl := Except.ok.inj hst
      exact .idle rfl rfl rfl rfl rfl rfl rfl rfl
  | rearm nowArm =>
    obtain rfl := Except.ok.inj hst
    simp only [enabled] at hen
    split at hen
    case h_1 hplace => exact .idle rfl rfl rfl rfl (by rw [hplace]; rfl) rfl rfl rfl
    case h_2 => cases hen
  | doPendingFunctors =>
    obtain rfl := Except.ok.inj hst
    simp only [enabled] at hen
    split at hen
    case h_1 hplace =>
      have hempty : s.taskQueue.batch = [] := by
        unfold taskQueue
        rw [hplace]
        rfl
      exact ⟨Takes.one hempty rfl, (List.append_nil _).symm, (List.append_nil _).symm, rfl⟩
    case h_2 => cases hen
  | runTask now =>
    simp only [enabled] at hen
    split at hen
    case h_2 => cases hen
    case h_1 task rest hplace =>
      have hbatch : s.place.batch = task :: rest := by rw [hplace]; rfl
      have hran : s'.pendingFunctors = s.pendingFunctors → s'.place.batch = rest → s'.pushed = s.pushed →
          s'.executed = s.executed ++ [task] → s'.tickets.drawn = s.tickets.drawn + task.timer?.toList.length →
          Queues s (.runTask now) s' := by
        intro hpending hrest hpushed hexecuted hdrawn
        refine ⟨?_, by rw [hpushed]; exact (List.append_nil _).symm, ?_, ?_⟩
        · unfold taskQueue
          simp only [ThrowingStep.queueOps, ThrowingStep.started, ThrowingStep.pushed, hbatch, hpending, hrest]
          exact Takes.one rfl rfl
        · simp only [ThrowingStep.started, hbatch, hexecuted]
          rfl
        · simp only [ThrowingStep.queued, hbatch, hdrawn, List.take_succ_cons, List.take_zero]
          cases htimer : task.timer? <;> simp [htimer]
      simp only [ThrowingLoop.step, runTask, hplace] at hst
      cases task with
      | user x =>
        obtain rfl := Except.ok.inj hst
        exact hran rfl rfl rfl rfl rfl
      | timer task =>
        obtain ⟨queue, -, hst⟩ := bind_eq_ok hst
        obtain rfl := Except.ok.inj hst
        refine hran rfl rfl rfl rfl ?_
        cases task with
        | addTimeInLoop when t => rfl
        | cancelTimerInLoop id =>
          show (s.taskTickets (.cancelTimerInLoop id)).drawn = s.tickets.drawn
          unfold taskTickets
          dsimp only
          split <;> rfl
  | endTask =>
    obtain rfl := Except.ok.inj hst
    exact .idle rfl rfl rfl rfl rfl rfl rfl rfl
  | throwTask =>
    obtain rfl := Except.ok.inj hst
    exact ⟨Takes.one trivial rfl, (List.append_nil _).symm, (List.append_nil _).symm, rfl⟩
  | queueInLoop x =>
    obtain rfl := Except.ok.inj hst
    exact ⟨Takes.one trivial rfl, rfl, (List.append_nil _).symm, rfl⟩
  | addTimer when interval t now =>
    obtain ⟨⟨id, queue⟩, -, hst⟩ := bind_eq_ok hst
    obtain rfl := Except.ok.inj hst
    exact .idle rfl rfl rfl rfl rfl rfl rfl rfl
  | queueTimer when interval t =>
    obtain ⟨queue, -, hst⟩ := bind_eq_ok hst
    obtain rfl := Except.ok.inj hst
    exact ⟨Takes.one trivial rfl, rfl, (List.append_nil _).symm, rfl⟩
  | cancelTimer id =>
    obtain rfl := Except.ok.inj hst
    exact ⟨Takes.one trivial rfl, rfl, (List.append_nil _).symm, rfl⟩
  | fire =>
    obtain rfl := Except.ok.inj hst
    exact .idle rfl rfl rfl rfl rfl rfl rfl rfl
  | createElsewhere =>
    obtain rfl := Except.ok.inj hst
    exact .idle rfl rfl rfl rfl rfl rfl rfl rfl

end ThrowingLoop

section throwing

variable {τ : Type} {tr : List (ThrowingLoop τ × ThrowingStep τ)} {s : ThrowingLoop τ}

/-- What is recorded are the tasks that the steps of the run pushed and ran, and
a ticket for each time a timer was queued. -/
theorem throwing_recorded (hr : Run (throwingMachine τ) (ThrowingLoop.create τ) tr s) :
    s.pushed = throwingPushes tr ∧ s.executed = throwingStarts tr ∧ s.tickets.drawn = (timersQueued tr).length := by
  refine ⟨hr.gathers fun _ _ _ hen hst => (ThrowingLoop.Queues.step hen hst).pushed,
    hr.gathers fun _ _ _ hen hst => (ThrowingLoop.Queues.step hen hst).executed, ?_⟩
  induction hr with
  | nil => rfl
  | snoc _ hen hst ih =>
    unfold timersQueued at ih ⊢
    rw [(ThrowingLoop.Queues.step hen hst).drawn, ih, gathered_snoc, List.length_append]

/-- **The queue of a loop whose tasks throw is taken out in batches.** A run of
the loop is a run of its queue, in which a throw gives up the batch. -/
theorem throwing_queue (hr : Run (throwingMachine τ) (ThrowingLoop.create τ) tr s) :
    Takes (queueMachine (LoopTask τ)) ⟨[], []⟩ (gathered (fun s a => a.queueOps s) tr) s.taskQueue :=
  hr.refines (fun _ _ _ (_ : True) _ _ => trivial) (fun _ _ _ _ hen hst => (ThrowingLoop.Queues.step hen hst).takes)
    trivial

/-- Whatever throws, no task is executed twice or out of order. -/
theorem throwing_sublist (hr : Run (throwingMachine τ) (ThrowingLoop.create τ) tr s) :
    (s.executed ++ s.place.batch ++ s.pendingFunctors).Sublist s.pushed := by
  obtain ⟨ops, hrun, hops⟩ := throwing_queue hr
  have hsub := taken_sublist hrun
  rw [hops, taken_gathered, pushed_gathered] at hsub
  simp only [ThrowingStep.taken_queueOps, ThrowingStep.pushed_queueOps] at hsub
  obtain ⟨hpushed, hexecuted, -⟩ := throwing_recorded hr
  rw [hpushed, hexecuted]
  exact hsub

end throwing

/-! ### The timerfd -/

/-- The least timeout is 100 microseconds: the timerfd is set. -/
theorem resetTimerFd_state (expiration now : ℤ) : (detail.resetTimerFd expiration now).state = .armed := by
  have hpos : ∀ micros : ℤ, 100 ≤ micros →
      (⟨micros.tdiv 1000000, micros.tmod 1000000 * 1000⟩ : Timespec) ≠ ⟨0, 0⟩ := by
    intro micros hmicros hzero
    injection hzero with hsec hnsec
    rw [Int.tdiv_eq_ediv_of_nonneg (by omega)] at hsec
    rw [Int.tmod_eq_emod_of_nonneg (by omega)] at hnsec
    omega
  refine if_neg (hpos _ ?_)
  split <;> omega

namespace TimerQueue

variable {held : List ℕ} {q q' : TimerQueue} {t : ℕ} {when now : ℤ} {interval : Interval} {id : ActiveTimer}

theorem isEarliest_iff : q.isEarliest when = true ↔ ∀ entry ∈ first q.timers, when < (ofLex entry).1 := by
  unfold isEarliest
  cases first q.timers <;> simp

/-- Whenever timers are queued, the timerfd is set. -/
def Noticed (q : TimerQueue) : Prop := q.timers.Nonempty → q.timerFd.state ≠ .disarmed

/-- What a new timer does to the timerfd. -/
structure Adds (when : ℤ) (t : ℕ) (q q' : TimerQueue) : Prop where
  timers : q'.timers = Insert.insert (toLex (when, t)) q.timers
  earliest : q.isEarliest when = true → q'.timerFd.state = .armed
  later : q.isEarliest when = false → q'.timerFd = q.timerFd

theorem Adds.state (h : Adds when t q q') : q'.timerFd.state ≠ .disarmed ↔
    q.timerFd.state ≠ .disarmed ∨ q.isEarliest when = true := by
  cases hearly : q.isEarliest when with
  | true => simp [h.earliest hearly]
  | false => simp [h.later hearly]

theorem Adds.noticed (h : Adds when t q q') (hq : q.Noticed) : q'.Noticed := by
  intro _
  rw [h.state]
  by_cases hsome : q.timers.Nonempty
  · exact .inl (hq hsome)
  · have hnone : first q.timers = none := first_eq_none_iff.mpr (Finset.not_nonempty_iff_eq_empty.mp hsome)
    exact .inr (isEarliest_iff.mpr (by simp [hnone]))

theorem Sound.adds (h : Sound (t :: held) q) {timer : Timer} (hheap : q.heap t = some timer)
    (hadd : q.addTimeInLoop when t now = .ok q') :
    Sound held q' ∧ q'.heap = q.heap ∧ Adds timer.expiration t q q' := by
  obtain ⟨q1, hok, hs, hheap1, timer1, htimer1, htimers, hcase⟩ := h.addTimeInLoop when now
  obtain rfl : q1 = q' := Except.ok.inj (hok.symm.trans hadd)
  obtain rfl : timer1 = timer := Option.some.inj (htimer1.symm.trans hheap)
  refine ⟨hs, hheap1, htimers, fun hearly => ?_, fun hlate => ?_⟩
  · rcases hcase with ⟨-, hfd⟩ | ⟨⟨entry, hentry, hle⟩, -⟩
    · rw [hfd, resetTimerFd_state]
    · have := isEarliest_iff.mp hearly entry hentry
      omega
  · rcases hcase with ⟨hall, -⟩ | ⟨-, hfd⟩
    · rw [isEarliest_iff.mpr hall] at hlate
      cases hlate
    · exact hfd

theorem Sound.addTimer_adds (h : Sound held q) (hadd : q.addTimer when interval t now = .ok (id, q')) :
    Sound held q' ∧ q.heap t = none ∧ Adds when t q q' := by
  unfold TimerQueue.addTimer at hadd
  obtain ⟨q1, hnew, hadd⟩ := bind_eq_ok hadd
  obtain ⟨q2, hin, hadd⟩ := bind_eq_ok hadd
  obtain ⟨timer, -, hadd⟩ := bind_eq_ok hadd
  obtain ⟨-, rfl⟩ := Prod.mk.inj (Except.ok.inj hadd)
  obtain ⟨h1, hfree, hheap1, htimers1, hfd1⟩ := (h.newTimer when interval t).ok_of hnew
  have hheap : q1.heap t = some ⟨when, interval, q.numCreated⟩ := by rw [hheap1, Function.update_self]
  obtain ⟨hs, -, hadds⟩ := h1.adds hheap hin
  have hearly : q1.isEarliest when = q.isEarliest when := by
    unfold isEarliest
    rw [htimers1]
  refine ⟨hs, hfree, ?_, fun h' => hadds.earliest (hearly.trans h'), fun h' => ?_⟩
  · rw [hadds.timers, htimers1]
  · rw [hadds.later (hearly.trans h'), hfd1]

/-- `CancelTimerInLoop`: it takes out the timer, if it is queued, and leaves
the timerfd set if others are. -/
theorem Sound.cancels (h : Sound held q) (hnoticed : q.Noticed) (hcancel : q.cancelTimerInLoop id now = .ok q') :
    Sound held q' ∧ q'.Noticed ∧
      ((id ∈ q.activeTimers ∧ ∃ timer, q.heap id.1 = some timer ∧
          q'.timers = q.timers.erase (toLex (timer.expiration, id.1))) ∨
        id ∉ q.activeTimers ∧ q'.timers = q.timers) := by
  obtain ⟨q1, hok, hs⟩ := h.cancelTimerInLoop id now
  obtain rfl : q1 = q' := Except.ok.inj (hok.symm.trans hcancel)
  refine ⟨hs, ?_, ?_⟩
  · unfold TimerQueue.cancelTimerInLoop at hcancel
    split at hcancel
    · obtain ⟨timer, -, hcancel⟩ := bind_eq_ok hcancel
      obtain ⟨q2, hdel, hcancel⟩ := bind_eq_ok hcancel
      obtain rfl := delete_ok hdel
      dsimp only at hcancel
      split at hcancel
      · split at hcancel
        · obtain rfl := Except.ok.inj hcancel
          intro _
          simp [resetTimerFd_state]
        case h_2 hnone =>
          obtain rfl := Except.ok.inj hcancel
          intro hsome
          rw [first_eq_none_iff.mp hnone] at hsome
          simp at hsome
      · obtain rfl := Except.ok.inj hcancel
        intro hsome
        exact hnoticed (hsome.mono (Finset.erase_subset _ _))
    · split at hcancel
      · obtain rfl := Except.ok.inj hcancel
        exact hnoticed
      · obtain rfl := Except.ok.inj hcancel
        exact hnoticed
  · rcases cancelTimerInLoop_ok hcancel with ⟨hid, timer, fd, hheap, hq⟩ | ⟨hid, c, -, hq⟩
    · exact .inl ⟨hid, timer, hheap, by rw [hq]⟩
    · exact .inr ⟨hid, by rw [hq]⟩

theorem endHandleRead_noticed (nowArm : ℤ) (q : TimerQueue) : (q.endHandleRead nowArm).Noticed := by
  unfold endHandleRead Noticed
  dsimp only
  split
  · intro _
    simp [resetTimerFd_state]
  case h_2 hnone =>
    intro hsome
    rw [first_eq_none_iff.mp hnone] at hsome
    simp at hsome

/-- The order of the timers in hand does not matter, and some may be
forgotten. -/
theorem Sound.subperm {held' : List ℕ} (h : Sound held q) (hsub : held'.Subperm held) : Sound held' q := by
  obtain ⟨l, hperm, hsub⟩ := hsub
  have hin : (q.inHand l).Sublist (q.inHand held) := hsub.append_right _
  have hl : Sound l q := ⟨h.mirror, h.nodup.sublist hin, fun t ht => h.allocated t (hin.subset ht),
    fun t ht => h.idle t (hin.subset ht), h.queued⟩
  exact hl.perm hperm.symm

end TimerQueue

/-! ### The invariant -/

namespace ThrowingLoop

variable {τ : Type} {s s' : ThrowingLoop τ}

/-- The timers that tasks are about to insert. -/
def inTasks (s : ThrowingLoop τ) : List ℕ := (s.place.batch ++ s.pendingFunctors).filterMap LoopTask.timer?

theorem inTasks_of_batch (hbatch : s.place.batch = []) :
    s.inTasks = s.pendingFunctors.filterMap LoopTask.timer? := by
  unfold inTasks
  rw [hbatch, List.nil_append]

/-- What waits is a matter of the timers queued and of those in hand. -/
theorem waiting_congr (htimers : s'.queue.timers = s.queue.timers) (hdue : s'.place.due = s.place.due)
    (hagain : ∀ b, s'.Restarts b ↔ s.Restarts b) (b : ℕ) : s'.Waiting b ↔ s.Waiting b := by
  unfold Waiting
  rw [htimers, hdue, hagain]

theorem not_restarts (hnone : s.place.toReset = []) (b : ℕ) : ¬ s.Restarts b := by
  rintro ⟨hb, -⟩
  rw [hnone] at hb
  cases hb

theorem restarts_none (hnone : s'.place.toReset = []) (hnone' : s.place.toReset = []) (b : ℕ) :
    s'.Restarts b ↔ s.Restarts b := iff_of_false (not_restarts hnone b) (not_restarts hnone' b)

/-- Whether a timer is to be started again is a matter of the timer and of
those being cancelled. -/
theorem restarts_congr (hplace : s'.place.toReset = s.place.toReset)
    (hheap : ∀ t ∈ s.place.toReset, s'.queue.heap t = s.queue.heap t)
    (hcancel : s'.queue.cancellingTimers = s.queue.cancellingTimers) (b : ℕ) : s'.Restarts b ↔ s.Restarts b := by
  unfold Restarts TimerQueue.startsAgain
  rw [hplace, hcancel]
  apply and_congr_right
  intro hb
  rw [hheap b hb]

/-- A loop that has lost nothing, with its timer queue in order. -/
structure InOrder (s : ThrowingLoop τ) : Prop where
  pushed : s.pushed = s.swapped ++ s.pendingFunctors
  swapped : s.swapped = s.executed ++ s.place.batch
  sound : TimerQueue.Sound (s.place.held ++ s.inTasks) s.queue
  fair : s.tickets.Fair s.Waiting
  noticed : s.place.inHandleRead = false → s.queue.Noticed
  rearmed : s.place.inHandleRead = true → (s.rearmed = true ↔ s.queue.timerFd.state ≠ .disarmed)

namespace InOrder

theorem nothingLost (h : s.InOrder) : s.NothingLost := ⟨h.pushed, h.swapped, h.fair.accounted, h.noticed⟩

theorem create (τ : Type) : (create τ).InOrder := by
  refine ⟨rfl, rfl, ⟨⟨fun e t => ?_, fun t sequence hact => ?_⟩, List.nodup_nil, fun t ht => ?_, fun t ht => ?_,
    fun w t ht => ?_⟩, Tickets.empty_fair fun t ht => ?_, fun _ hsome => ?_, fun hread => ?_⟩
  · simp [ThrowingLoop.create, TimerQueue.create]
  · cases hact
  · cases ht
  · cases ht
  · cases ht
  · rcases ht with ⟨e, he⟩ | ht | ⟨ht, -⟩
    · cases he
    · cases ht
    · cases ht
  · cases hsome.choose_spec
  · cases hread

theorem mem_held {t : ℕ} (ht : t ∈ s.place.due ∨ t ∈ s.place.toReset) : t ∈ s.place.held := by
  cases hplace : s.place with
  | calling now called todo =>
    rw [hplace] at ht
    exact List.mem_append.mpr ht.symm
  | resetting now todo =>
    rw [hplace] at ht
    exact ht.resolve_left List.not_mem_nil
  | outside | channels | functors | inTask =>
    rw [hplace] at ht
    rcases ht with ht | ht <;> cases ht

theorem allocated (h : s.InOrder) {t : ℕ} (ht : t ∈ s.place.due ∨ t ∈ s.place.toReset) :
    ∃ timer, s.queue.heap t = some timer :=
  h.sound.allocated t (List.mem_append_left _ (List.mem_append_left _ (mem_held ht)))

theorem not_queued (h : s.InOrder) {t : ℕ} (ht : t ∈ s.place.held) (e : ℤ) : toLex (e, t) ∉ s.queue.timers :=
  h.sound.mirror.not_mem_of_idle
    (h.sound.idle t (List.mem_append_left _ (List.mem_append_left _ ht))) e

theorem nodup_held (h : s.InOrder) : s.place.held.Nodup :=
  (h.sound.nodup.sublist (List.sublist_append_left _ _)).sublist (List.sublist_append_left _ _)

theorem restarts_newTimer (h : s.InOrder) {t : ℕ} {timer : Timer} (hfree : s.queue.heap t = none)
    (hplace : s'.place = s.place) (hheap : s'.queue.heap = Function.update s.queue.heap t (some timer))
    (hcancel : s'.queue.cancellingTimers = s.queue.cancellingTimers) (b : ℕ) : s'.Restarts b ↔ s.Restarts b := by
  refine restarts_congr (by rw [hplace]) (fun u hu => ?_) hcancel b
  rw [hheap]
  apply Function.update_of_ne
  rintro rfl
  obtain ⟨timer', hheap'⟩ := h.allocated (.inr hu)
  rw [hfree] at hheap'
  cases hheap'

/-- The thread moves on, with the same things in hand. -/
theorem moved (h : s.InOrder) {old new : LoopPlace τ} (hplace : s.place = old) (hbatch : new.batch = old.batch)
    (hheld : new.held = old.held) (hdue : new.due = old.due) (hreset : new.toReset = old.toReset)
    (hread : new.inHandleRead = old.inHandleRead) : InOrder { s with place := new } := by
  subst hplace
  refine ⟨h.pushed, h.swapped.trans (by rw [hbatch]), ?_,
    h.fair.congr (waiting_congr rfl hdue (restarts_congr hreset (fun _ _ => rfl) rfl)), fun hr => ?_, fun hr => ?_⟩
  · unfold inTasks
    rw [hheld, hbatch]
    exact h.sound
  · exact h.noticed (hread.symm.trans hr)
  · exact h.rearmed (hread.symm.trans hr)

/-- Something changes in the queue that is about neither the timers nor
whether the timerfd is set. -/
theorem toQueue (h : s.InOrder) {queue : TimerQueue} (hsound : queue.Sound (s.place.held ++ s.inTasks))
    (htimers : queue.timers = s.queue.timers) (hheap : queue.heap = s.queue.heap)
    (hcancel : queue.cancellingTimers = s.queue.cancellingTimers)
    (hstate : queue.timerFd.state = .disarmed ↔ s.queue.timerFd.state = .disarmed) : InOrder { s with queue } := by
  refine ⟨h.pushed, h.swapped, hsound,
    h.fair.congr (waiting_congr htimers rfl (restarts_congr rfl (fun t _ => congrFun hheap t) hcancel)),
    fun hr hsome => ?_, fun hr => ?_⟩
  · rw [ne_eq, hstate]
    exact h.noticed hr (htimers ▸ hsome)
  · rw [ne_eq, hstate]
    exact h.rearmed hr

/-- A task is pushed whose timers are in hand already. -/
theorem push (h : s.InOrder) {task : LoopTask τ} {queue : TimerQueue}
    (hsound : queue.Sound (task.timer?.toList ++ (s.place.held ++ s.inTasks)))
    (htimers : queue.timers = s.queue.timers) (hfd : queue.timerFd = s.queue.timerFd)
    (hagain : ∀ b, ({ s with queue }.push task).Restarts b ↔ s.Restarts b) : InOrder ({ s with queue }.push task) := by
  refine ⟨?_, h.swapped, hsound.perm ?_, h.fair.congr (waiting_congr htimers rfl hagain), fun hr hsome => ?_,
    fun hr => ?_⟩
  · show s.pushed ++ [task] = s.swapped ++ (s.pendingFunctors ++ [task])
    rw [h.pushed, List.append_assoc]
  · show (s.place.held ++ (s.place.batch ++ (s.pendingFunctors ++ [task])).filterMap LoopTask.timer?).Perm _
    have htask : [task].filterMap LoopTask.timer? = task.timer?.toList := by
      cases hnone : task.timer? <;> simp [hnone]
    rw [← List.append_assoc, List.filterMap_append, htask, ← List.append_assoc]
    exact List.perm_append_comm
  · show queue.timerFd.state ≠ _
    rw [hfd]
    exact h.noticed hr (htimers ▸ hsome)
  · show _ ↔ queue.timerFd.state ≠ _
    rw [hfd]
    exact h.rearmed hr

theorem pushPlain (h : s.InOrder) {task : LoopTask τ} (htask : task.timer? = none) : InOrder (s.push task) := by
  have hsound : s.queue.Sound (task.timer?.toList ++ (s.place.held ++ s.inTasks)) := by
    rw [htask]
    exact h.sound
  exact h.push hsound rfl rfl fun _ => Iff.rfl

theorem queueTimer (h : s.InOrder) {when : ℤ} {interval : Interval} {t : ℕ}
    (hst : s.queueTimer when interval t = .ok s') : s'.InOrder := by
  obtain ⟨queue, hnew, hst⟩ := bind_eq_ok hst
  obtain rfl := Except.ok.inj hst
  obtain ⟨hsound, hfree, hheap, htimers, hfd⟩ := (h.sound.newTimer when interval t).ok_of hnew
  have hcancel : queue.cancellingTimers = s.queue.cancellingTimers := by
    obtain ⟨-, -, rfl⟩ := TimerQueue.newTimer_ok hnew
    rfl
  exact h.push hsound htimers hfd (h.restarts_newTimer hfree rfl hheap hcancel)

theorem not_waiting (h : s.InOrder) {t : ℕ} (hidle : ∀ sequence, (t, sequence) ∉ s.queue.activeTimers)
    (hdue : t ∉ s.place.due) (hagain : ¬ s.Restarts t) : ¬ s.Waiting t := by
  rintro (⟨e, he⟩ | ht | ht)
  · exact h.sound.mirror.not_mem_of_idle hidle e he
  · exact hdue ht
  · exact hagain ht

theorem waiting_insert {e : ℤ} {t : ℕ} (htimers : s'.queue.timers = Insert.insert (toLex (e, t)) s.queue.timers)
    (hdue : s'.place.due = s.place.due) (hagain : ∀ b, s'.Restarts b ↔ s.Restarts b) (b : ℕ) :
    s'.Waiting b ↔ b = t ∨ s.Waiting b := by
  unfold Waiting
  rw [htimers, hdue, hagain]
  simp only [Finset.mem_insert, EmbeddingLike.apply_eq_iff_eq, Prod.mk.injEq]
  constructor
  · rintro (⟨e', ⟨rfl, rfl⟩ | he'⟩ | hb)
    · exact .inl rfl
    · exact .inr (.inl ⟨e', he'⟩)
    · exact .inr (.inr hb)
  · rintro (rfl | ⟨e', he'⟩ | hb)
    · exact .inl ⟨e, .inl ⟨rfl, rfl⟩⟩
    · exact .inl ⟨e', .inr he'⟩
    · exact .inr hb

theorem addTimer (h : s.InOrder) {when : ℤ} {interval : Interval} {t : ℕ} {now : ℤ}
    (hst : s.addTimer when interval t now = .ok s') : s'.InOrder := by
  obtain ⟨⟨id, queue⟩, hadd, hst⟩ := bind_eq_ok hst
  obtain rfl := Except.ok.inj hst
  obtain ⟨hsound, hfree, hadds⟩ := h.sound.addTimer_adds hadd
  obtain ⟨-, -, -, fd, hqueue⟩ := TimerQueue.addTimer_ok hadd
  have hunheld : ∀ {P : Prop}, (t ∈ s.place.due ∨ t ∈ s.place.toReset) → P := by
    intro P ht
    obtain ⟨timer, hheap⟩ := h.allocated ht
    rw [hfree] at hheap
    cases hheap
  have hnot : ¬ s.Waiting t := by
    refine h.not_waiting (fun sequence hact => ?_) (fun hdue => hunheld (.inl hdue)) fun hagain =>
      hunheld (.inr hagain.1)
    obtain ⟨timer, hheap, -⟩ := h.sound.mirror.active t sequence hact
    rw [hfree] at hheap
    cases hheap
  refine ⟨h.pushed, h.swapped, hsound, h.fair.draw hnot (waiting_insert hadds.timers rfl ?_),
    fun hr => hadds.noticed (h.noticed hr), fun hr => ?_⟩
  · exact h.restarts_newTimer hfree rfl (by rw [hqueue]) (by rw [hqueue])
  · rw [hadds.state, ← h.rearmed hr, Bool.or_eq_true]

theorem handleRead (h : s.InOrder) {now : ℤ} (hplace : s.place = .channels true)
    (hst : s.handleRead now = .ok s') : s'.InOrder := by
  obtain ⟨⟨expired, queue⟩, hbegin, hst⟩ := bind_eq_ok hst
  obtain rfl := Except.ok.inj hst
  have hheld : s.place.held = [] := by rw [hplace]; rfl
  have hbatch : s.place.batch = [] := by rw [hplace]; rfl
  have h0 : TimerQueue.Sound s.inTasks { s.queue with timerFd := detail.readTimerFd s.queue.timerFd } := by
    have hs := h.sound
    rw [hheld, List.nil_append] at hs
    exact hs.congr rfl rfl rfl rfl
  obtain ⟨active, hexp, hsound, -⟩ := h0.takeExpired now
  unfold TimerQueue.beginHandleRead at hbegin
  simp only [hexp, ok_bind] at hbegin
  obtain ⟨rfl, rfl⟩ := Prod.mk.inj (Except.ok.inj hbegin)
  refine ⟨h.pushed, h.swapped.trans (by rw [hbatch]; rfl), ?_, h.fair.congr fun t => ?_, fun hr => (by cases hr),
    fun _ => ?_⟩
  · rw [inTasks_of_batch hbatch] at hsound
    exact hsound.congr rfl rfl rfl rfl
  · -- a timer is expired or stays
    have hnone : s.place.due = [] := by rw [hplace]; rfl
    have hreset : s.place.toReset = [] := by rw [hplace]; rfl
    unfold Waiting
    rw [hnone, restarts_none (s := s) rfl hreset]
    simp only [LoopPlace.due, List.mem_map, mem_below, mem_notBelow, List.not_mem_nil, not_restarts hreset, or_false]
    constructor
    · rintro (⟨e, he, -⟩ | ⟨entry, ⟨hmem, -⟩, rfl⟩)
      · exact ⟨e, he⟩
      · exact ⟨(ofLex entry).1, hmem⟩
    · rintro ⟨e, he⟩
      by_cases hlt : toLex (e, t) < toLex (now, TimerQueue.uintptrMax)
      · exact .inr ⟨toLex (e, t), ⟨he, hlt⟩, rfl⟩
      · exact .inl ⟨e, he, hlt⟩
  · show decide (s.queue.timerFd.state = .armed) = true ↔ (detail.readTimerFd s.queue.timerFd).state ≠ .disarmed
    unfold detail.readTimerFd
    cases hstate : s.queue.timerFd.state <;> simp [hstate]

/-- The next expired timer is called: it does not wait any more, unless
`Reset` is to start it again. -/
theorem waiting_called {now : ℤ} {called todo : List ℕ} {t : ℕ} (hplace : s.place = .calling now called (t :: todo))
    (hplace' : s'.place = .calling now (called ++ [t]) todo) (htimers : s'.queue.timers = s.queue.timers)
    (hagain : ∀ b, s'.queue.startsAgain b = s.queue.startsAgain b) (hqueued : ∀ e, toLex (e, t) ∉ s.queue.timers)
    (hnodup : (called ++ t :: todo).Nodup) (b : ℕ) :
    s'.Waiting b ↔ (b = t ∧ s.queue.startsAgain t = true) ∨ (s.Waiting b ∧ b ≠ t) := by
  have hnotCalled : t ∉ called := fun ht => List.disjoint_of_nodup_append hnodup ht List.mem_cons_self
  have hnotDue : t ∉ todo := (List.nodup_cons.mp hnodup.of_append_right).1
  unfold Waiting Restarts
  rw [hplace, hplace', htimers, hagain]
  simp only [LoopPlace.due, LoopPlace.toReset, List.mem_append, List.mem_cons, List.not_mem_nil, or_false]
  by_cases hbt : b = t
  · subst hbt
    simp [hqueued, hnotDue]
  · simp [hbt]

theorem callback (h : s.InOrder) {now : ℤ} {called todo : List ℕ} {t : ℕ}
    (hplace : s.place = .calling now called (t :: todo)) (hst : s.callback = .ok s') : s'.InOrder := by
  unfold ThrowingLoop.callback at hst
  rw [hplace] at hst
  obtain ⟨timer, -, hst⟩ := bind_eq_ok hst
  obtain rfl := Except.ok.inj hst
  have hbatch : s.place.batch = [] := by rw [hplace]; rfl
  have hread : s.place.inHandleRead = true := by rw [hplace]; rfl
  have hs := h.sound
  rw [show s.place.held = called ++ t :: todo by rw [hplace]; rfl] at hs
  have hqueued : ∀ e, toLex (e, t) ∉ s.queue.timers :=
    h.not_queued (mem_held (.inl (by rw [hplace]; simp [LoopPlace.due])))
  have hnodup : (called ++ t :: todo).Nodup := by
    have hnodup := h.nodup_held
    rwa [hplace] at hnodup
  -- the ticket it held ends
  have hfired : (s.tickets.finish t .fired).Fair fun b => s.Waiting b ∧ b ≠ t := by
    refine h.fair.finish (.inr (.inl ?_)) .fired fun _ => Iff.rfl
    rw [hplace]
    exact List.mem_cons_self
  have hwaits : ∀ b, Waiting { s with
      queue := { s.queue with fired := (t, timer.sequence) :: s.queue.fired }
      place := .calling now (called ++ [t]) todo
      tickets := s.callTickets t } b ↔ (b = t ∧ s.queue.startsAgain t = true) ∨ (s.Waiting b ∧ b ≠ t) :=
    waiting_called hplace rfl rfl (fun _ => rfl) hqueued hnodup
  refine ⟨h.pushed, h.swapped.trans (by rw [hbatch]; rfl), ?_, ?_, fun hr => (by cases hr), fun _ => h.rearmed hread⟩
  · rw [inTasks_of_batch hbatch, List.append_cons] at hs
    exact hs.congr rfl rfl rfl rfl
  · show Tickets.Fair (s.callTickets t) _
    unfold callTickets
    cases hagain : s.queue.startsAgain t with
    | true =>
      rw [if_pos rfl]
      refine hfired.draw (fun hw => hw.2 rfl) fun b => (hwaits b).trans ?_
      rw [hagain]
      simp
    | false =>
      rw [if_neg (by decide)]
      refine hfired.congr fun b => (hwaits b).trans ?_
      rw [hagain]
      simp

/-- `Reset` comes to the next timer: it waited to be queued, and now is. -/
theorem waiting_restarted {now : ℤ} {todo : List ℕ} {t : ℕ} (hplace : s.place = .resetting now (t :: todo))
    (hplace' : s'.place = .resetting now todo) {e : ℤ} (hagain : s.queue.startsAgain t = true)
    (htimers : s'.queue.timers = Insert.insert (toLex (e, t)) s.queue.timers)
    (hothers : ∀ b ∈ todo, s'.queue.startsAgain b = s.queue.startsAgain b) (b : ℕ) :
    s'.Waiting b ↔ s.Waiting b := by
  have htodo : (b ∈ todo ∧ s'.queue.startsAgain b = true) ↔ (b ∈ todo ∧ s.queue.startsAgain b = true) := by
    apply and_congr_right
    intro hb
    rw [hothers b hb]
  unfold Waiting Restarts
  rw [hplace, hplace', htimers]
  simp only [LoopPlace.due, LoopPlace.toReset, List.mem_cons, List.not_mem_nil, false_or, htodo, Finset.mem_insert,
    EmbeddingLike.apply_eq_iff_eq, Prod.mk.injEq]
  constructor
  · rintro (⟨e', ⟨rfl, rfl⟩ | he'⟩ | ⟨hb, ha⟩)
    · exact .inr ⟨.inl rfl, hagain⟩
    · exact .inl ⟨e', he'⟩
    · exact .inr ⟨.inr hb, ha⟩
  · rintro (⟨e', he'⟩ | ⟨rfl | hb, ha⟩)
    · exact .inl ⟨e', .inr he'⟩
    · exact .inl ⟨e, .inl ⟨rfl, rfl⟩⟩
    · exact .inr ⟨hb, ha⟩

theorem restart (h : s.InOrder) {now : ℤ} {t : ℕ} {todo : List ℕ} (hplace : s.place = .resetting now (t :: todo))
    (hst : s.restart = .ok s') : s'.InOrder := by
  unfold ThrowingLoop.restart at hst
  rw [hplace] at hst
  obtain ⟨queue, hop, hst⟩ := bind_eq_ok hst
  obtain rfl := Except.ok.inj hst
  have hbatch : s.place.batch = [] := by rw [hplace]; rfl
  have hread : s.place.inHandleRead = true := by rw [hplace]; rfl
  have hs : s.queue.Sound (t :: (todo ++ s.inTasks)) := by
    have hs := h.sound
    rwa [show s.place.held = t :: todo by rw [hplace]; rfl] at hs
  obtain ⟨queue', hok, hsound, -⟩ := hs.restart now
  obtain rfl : queue = queue' := Except.ok.inj (hop.symm.trans hok)
  rw [inTasks_of_batch hbatch] at hsound
  have hnot : t ∉ todo := by
    have hnodup : (t :: (todo ++ s.inTasks)).Nodup := hs.nodup.sublist (List.sublist_append_left _ _)
    exact fun ht => (List.nodup_cons.mp hnodup).1 (List.mem_append_left _ ht)
  obtain ⟨timer, hheap, ⟨hrep, hcancel, hqueue⟩ | ⟨hgone, hqueue⟩⟩ := TimerQueue.restart_ok hop
  · have hagain : s.queue.startsAgain t = true := by simp [TimerQueue.startsAgain, hheap, hrep, hcancel]
    refine ⟨h.pushed, h.swapped.trans (by rw [hbatch]; rfl), hsound,
      h.fair.congr (waiting_restarted hplace rfl (e := (timer.reset now).expiration) hagain (by rw [hqueue]) ?_),
      fun hr => (by cases hr), fun _ => ?_⟩
    · intro b hb
      have hne : b ≠ t := fun hbt => hnot (hbt ▸ hb)
      simp [TimerQueue.startsAgain, hqueue, Function.update_of_ne hne]
    · show _ ↔ queue.timerFd.state ≠ _
      rw [hqueue]
      exact h.rearmed hread
  · have hagain : s.queue.startsAgain t = false := by
      simp only [TimerQueue.startsAgain, hheap, Option.any_some, Bool.and_eq_false_iff, decide_eq_false_iff_not]
      by_cases hrep : timer.interval.repeats = true
      · exact .inr fun hc => hgone ⟨hrep, hc⟩
      · exact .inl (by simpa using hrep)
    refine ⟨h.pushed, h.swapped.trans (by rw [hbatch]; rfl), hsound,
      h.fair.congr (waiting_congr (by rw [hqueue]) (by rw [hplace]; rfl) fun b => ?_), fun hr => (by cases hr),
      fun _ => ?_⟩
    · unfold Restarts
      rw [hplace]
      simp only [LoopPlace.toReset, List.mem_cons]
      by_cases hbt : b = t
      · subst hbt
        simp [hnot, hagain]
      · simp [TimerQueue.startsAgain, hqueue, hbt]
    · show _ ↔ queue.timerFd.state ≠ _
      rw [hqueue]
      exact h.rearmed hread

theorem rearm (h : s.InOrder) {now : ℤ} (hplace : s.place = .resetting now []) (nowArm : ℤ) :
    InOrder { s with queue := s.queue.endHandleRead nowArm, place := .channels false } := by
  have hbatch : s.place.batch = [] := by rw [hplace]; rfl
  have hdue : s.place.due = [] := by rw [hplace]; rfl
  have hreset : s.place.toReset = [] := by rw [hplace]; rfl
  have hsame : (s.queue.endHandleRead nowArm).heap = s.queue.heap ∧
      (s.queue.endHandleRead nowArm).timers = s.queue.timers ∧
      (s.queue.endHandleRead nowArm).activeTimers = s.queue.activeTimers ∧
      (s.queue.endHandleRead nowArm).tasks = s.queue.tasks := by
    unfold TimerQueue.endHandleRead
    dsimp only
    split <;> exact ⟨rfl, rfl, rfl, rfl⟩
  obtain ⟨hheap, htimers, hactive, htasks⟩ := hsame
  refine ⟨h.pushed, h.swapped.trans (by rw [hbatch]; rfl), ?_, h.fair.congr
    (waiting_congr htimers hdue.symm (restarts_none rfl hreset)),
    fun _ => TimerQueue.endHandleRead_noticed nowArm s.queue, fun hr => (by cases hr)⟩
  have hs := h.sound
  rw [inTasks_of_batch hbatch, show s.place.held = [] by rw [hplace]; rfl] at hs
  exact hs.congr hheap htimers hactive htasks

theorem doPendingFunctors (h : s.InOrder) (hplace : s.place = .channels false) :
    InOrder { s with
      place := .functors s.pendingFunctors, pendingFunctors := [], swapped := s.swapped ++ s.pendingFunctors } := by
  have hbatch : s.place.batch = [] := by rw [hplace]; rfl
  have hread : s.place.inHandleRead = false := by rw [hplace]; rfl
  have hdue : s.place.due = [] := by rw [hplace]; rfl
  have hreset : s.place.toReset = [] := by rw [hplace]; rfl
  refine ⟨?_, ?_, ?_, h.fair.congr (waiting_congr rfl hdue.symm (restarts_none rfl hreset)),
    fun _ => h.noticed hread, fun hr => (by cases hr)⟩
  · show s.pushed = s.swapped ++ s.pendingFunctors ++ []
    rw [List.append_nil, h.pushed]
  · show s.swapped ++ s.pendingFunctors = s.executed ++ s.pendingFunctors
    rw [h.swapped, hbatch, List.append_nil]
  · have hs := h.sound
    rw [inTasks_of_batch hbatch, show s.place.held = [] by rw [hplace]; rfl] at hs
    simpa [inTasks, LoopPlace.held, LoopPlace.batch] using hs

theorem runUser (h : s.InOrder) {x : τ} {rest : List (LoopTask τ)} (hplace : s.place = .functors (.user x :: rest)) :
    InOrder { s with place := .inTask rest, executed := s.executed ++ [.user x] } := by
  have hread : s.place.inHandleRead = false := by rw [hplace]; rfl
  have hdue : s.place.due = [] := by rw [hplace]; rfl
  have hreset : s.place.toReset = [] := by rw [hplace]; rfl
  refine ⟨h.pushed, ?_, ?_, h.fair.congr (waiting_congr rfl hdue.symm (restarts_none rfl hreset)),
    fun _ => h.noticed hread, fun hr => (by cases hr)⟩
  · rw [h.swapped, hplace]
    exact (List.append_cons ..).symm ▸ rfl
  · have hs := h.sound
    unfold inTasks at hs ⊢
    rw [hplace] at hs
    exact hs

theorem runTimer (h : s.InOrder) {task : TimerTask} {rest : List (LoopTask τ)}
    (hplace : s.place = .functors (.timer task :: rest)) {now : ℤ} {queue : TimerQueue}
    (hop : s.queue.runTimerTask now task = .ok queue) :
    InOrder { s with
      queue, place := .functors rest, executed := s.executed ++ [.timer task], tickets := s.taskTickets task } := by
  have hread : s.place.inHandleRead = false := by rw [hplace]; rfl
  have hdue : s.place.due = [] := by rw [hplace]; rfl
  have hreset : s.place.toReset = [] := by rw [hplace]; rfl
  have hheld : s.place.held = [] := by rw [hplace]; rfl
  have hswapped : s.swapped = s.executed ++ [.timer task] ++ rest := by
    rw [h.swapped, hplace]
    exact List.append_cons ..
  cases task with
  | addTimeInLoop when t =>
    have hs : s.queue.Sound (t :: (rest ++ s.pendingFunctors).filterMap LoopTask.timer?) := by
      have hs := h.sound
      unfold inTasks at hs
      rw [hplace] at hs
      exact hs
    obtain ⟨timer, hheap⟩ := hs.allocated t (TimerQueue.Sound.mem_inHand_cons _ _ t)
    obtain ⟨hsound, -, hadds⟩ := hs.adds hheap hop
    have hnot : ¬ s.Waiting t := by
      refine h.not_waiting (hs.idle t (TimerQueue.Sound.mem_inHand_cons _ _ t)) ?_ (not_restarts hreset t)
      rw [hdue]
      exact List.not_mem_nil
    exact ⟨h.pushed, hswapped, hsound,
      h.fair.draw hnot (waiting_insert hadds.timers hdue.symm (restarts_none rfl hreset)),
      fun _ => hadds.noticed (h.noticed hread), fun hr => (by cases hr)⟩
  | cancelTimerInLoop id =>
    have hs : s.queue.Sound ((rest ++ s.pendingFunctors).filterMap LoopTask.timer?) := by
      have hs := h.sound
      unfold inTasks at hs
      rw [hplace] at hs
      exact hs
    obtain ⟨hsound, hnoticed, hcase⟩ := hs.cancels (h.noticed hread) hop
    refine ⟨h.pushed, hswapped, hsound, ?_, fun _ => hnoticed, fun hr => (by cases hr)⟩
    rcases hcase with ⟨hid, timer, hheap, htimers⟩ | ⟨hid, htimers⟩
    · -- the timer was queued, and has no other entry
      obtain ⟨timer', hheap', hseq⟩ := hs.mirror.active id.1 id.2 hid
      obtain rfl : timer' = timer := Option.some.inj (hheap'.symm.trans hheap)
      have hentry : toLex (timer'.expiration, id.1) ∈ s.queue.timers :=
        (hs.mirror.entries _ _).mpr ⟨timer', hheap, by rwa [hseq], rfl⟩
      show Tickets.Fair (if id ∈ s.queue.activeTimers then s.tickets.finish id.1 .cancelled else s.tickets) _
      rw [if_pos hid]
      refine h.fair.finish (.inl ⟨_, hentry⟩) .cancelled fun b => ?_
      unfold Waiting
      rw [hdue, restarts_none (s := s) rfl hreset]
      show (∃ e, toLex (e, b) ∈ queue.timers) ∨ b ∈ [] ∨ _ ↔ _
      simp only [htimers, Finset.mem_erase, List.not_mem_nil, not_restarts hreset, or_false]
      constructor
      · rintro ⟨e, hne, he⟩
        refine ⟨⟨e, he⟩, fun hb => hne ?_⟩
        exact hs.mirror.entry_eq he hentry hb
      · rintro ⟨⟨e, he⟩, hne⟩
        exact ⟨e, fun heq => hne (congrArg Prod.snd (toLex_inj.mp heq)), he⟩
    · show Tickets.Fair (if id ∈ s.queue.activeTimers then s.tickets.finish id.1 .cancelled else s.tickets) _
      rw [if_neg hid]
      exact h.fair.congr (waiting_congr htimers hdue.symm (restarts_none rfl hreset))

/-- A timer's callback throws: the tickets are those of all that wait but that
timer. -/
theorem thrown_fair (h : s.InOrder) {now : ℤ} {called todo : List ℕ} {t : ℕ}
    (hplace : s.place = .calling now (called ++ [t]) todo) :
    s.throwTickets.Fair fun b => s.Waiting b ∧ b ≠ t := by
  have hrunning : s.place.running? = some t := by
    rw [hplace]
    exact List.getLast?_concat ..
  have hmem : t ∈ s.place.toReset := by
    rw [hplace]
    exact List.mem_append_right _ List.mem_cons_self
  simp only [throwTickets, hrunning]
  cases hagain : s.queue.startsAgain t with
  | true =>
    rw [if_pos rfl]
    exact h.fair.finish (.inr (.inr ⟨hmem, hagain⟩)) .threw fun _ => Iff.rfl
  | false =>
    rw [if_neg (by decide)]
    refine h.fair.congr fun b => ⟨And.left, fun hb => ⟨hb, ?_⟩⟩
    rintro rfl
    rcases hb with ⟨e, he⟩ | hb | ⟨-, hb⟩
    · exact h.not_queued (mem_held (.inr hmem)) e he
    · have hnodup := h.nodup_held
      rw [hplace] at hnodup hb
      exact List.disjoint_of_nodup_append hnodup (List.mem_append_right _ List.mem_cons_self) hb
    · rw [hagain] at hb
      cases hb

/-- After a throw only the queued timers wait. -/
theorem waiting_thrown (s : ThrowingLoop τ) (b : ℕ) :
    Waiting { s with place := .outside, tickets := s.throwTickets } b ↔ ∃ e, toLex (e, b) ∈ s.queue.timers := by
  constructor
  · rintro (hb | hb | ⟨hb, -⟩)
    · exact hb
    · cases hb
    · cases hb
  · exact .inl

/-- The callback of the last expired timer throws: those called before it are
in no set and are not missed. -/
theorem throwCallback (h : s.InOrder) {now : ℤ} {called todo : List ℕ} {t : ℕ}
    (hplace : s.place = .calling now (called ++ [t]) todo) (hlast : s.ThrowsLast .throwCallback) :
    InOrder { s with place := .outside, tickets := s.throwTickets } := by
  obtain ⟨hdue, hearlier, hset⟩ := hlast
  have hbatch : s.place.batch = [] := by rw [hplace]; rfl
  have hread : s.place.inHandleRead = true := by rw [hplace]; rfl
  have hmem : t ∈ s.place.toReset := by
    rw [hplace]
    exact List.mem_append_right _ List.mem_cons_self
  refine ⟨h.pushed, h.swapped.trans (by rw [hbatch]; rfl), ?_,
    (h.thrown_fair hplace).congr fun b => (waiting_thrown s b).trans ?_, fun _ hsome => ?_, fun hr => (by cases hr)⟩
  · have hs := h.sound
    rw [inTasks_of_batch hbatch] at hs
    exact hs.subperm (List.sublist_append_right _ _).subperm
  · constructor
    · rintro ⟨e, he⟩
      exact ⟨.inl ⟨e, he⟩, fun hbt => h.not_queued (mem_held (.inr hmem)) e (hbt ▸ he)⟩
    · rintro ⟨hb | hb | ⟨hb, hagain⟩, hne⟩
      · exact hb
      · rw [hdue] at hb
        cases hb
      · have hbefore : b ∈ s.place.earlier := by
          rw [hplace] at hb ⊢
          rcases List.mem_append.mp hb with hb | hb
          · simpa [LoopPlace.earlier] using hb
          · exact absurd (List.mem_singleton.mp hb) hne
        rw [hearlier b hbefore] at hagain
        cases hagain
  · rcases hset with hempty | hrearmed
    · have hsome' : s.queue.timers.Nonempty := hsome
      rw [hempty] at hsome'
      cases hsome'.choose_spec
    · exact (h.rearmed hread).mp hrearmed

theorem throw_forgets (h : s.InOrder) {now : ℤ} {called todo : List ℕ} {t b : ℕ}
    (hplace : s.place = .calling now (called ++ [t]) todo) (hb : s.Waiting b) (hbt : b ≠ t)
    (hheld : b ∈ s.place.held) :
    ¬ s.throwTickets.Accounted (Waiting { s with place := .outside, tickets := s.throwTickets }) := by
  have hmem : t ∈ s.place.held := mem_held (.inr (by
    rw [hplace]
    exact List.mem_append_right _ List.mem_cons_self))
  refine (h.thrown_fair hplace).lost ⟨hb, hbt⟩ fun c hc => ?_
  obtain ⟨e, he⟩ := (waiting_thrown s c).mp hc
  exact ⟨⟨.inl ⟨e, he⟩, fun hct => h.not_queued hmem e (hct ▸ he)⟩, fun hcb => h.not_queued hheld e (hcb ▸ he)⟩

theorem step (h : s.InOrder) {a : ThrowingStep τ} (hen : s.enabled a = true) (hlast : s.ThrowsLast a)
    (hst : s.step a = .ok s') : s'.InOrder := by
  cases a with
  | poll due =>
    obtain rfl := Except.ok.inj hst
    simp only [enabled, Bool.and_eq_true] at hen
    have hplace := hen.1
    split at hplace
    case h_1 hplace' => exact h.moved hplace' rfl rfl rfl rfl rfl
    case h_2 hplace' => exact h.moved hplace' rfl rfl rfl rfl rfl
    case h_3 => cases hplace
  | leave =>
    obtain rfl := Except.ok.inj hst
    simp only [enabled] at hen
    split at hen
    case h_1 hplace => exact h.moved hplace rfl rfl rfl rfl rfl
    case h_2 => cases hen
  | handleRead now =>
    simp only [enabled] at hen
    split at hen
    case h_1 hplace => exact h.handleRead hplace hst
    case h_2 => cases hen
  | callback =>
    simp only [enabled] at hen
    split at hen
    case h_1 now called t todo hplace => exact h.callback hplace hst
    case h_2 => cases hen
  | throwCallback =>
    obtain rfl := Except.ok.inj hst
    simp only [enabled] at hen
    split at hen
    case h_1 now t called todo hplace =>
      obtain ⟨first, last, hcalled⟩ := (List.eq_nil_or_concat' _).resolve_left (List.cons_ne_nil t called)
      rw [hcalled] at hplace
      exact h.throwCallback hplace hlast
    case h_2 => cases hen
  | reset =>
    simp only [enabled] at hen
    split at hen
    case h_1 now called hplace =>
      simp only [ThrowingLoop.step, hplace] at hst
      obtain rfl := Except.ok.inj hst
      exact h.moved hplace rfl (List.append_nil called).symm rfl rfl rfl
    case h_2 => cases hen
  | restart =>
    simp only [enabled] at hen
    split at hen
    case h_1 now t todo hplace => exact h.restart hplace hst
    case h_2 => cases hen
  | rearm nowArm =>
    obtain rfl := Except.ok.inj hst
    simp only [enabled] at hen
    split at hen
    case h_1 now hplace => exact h.rearm hplace nowArm
    case h_2 => cases hen
  | doPendingFunctors =>
    obtain rfl := Except.ok.inj hst
    simp only [enabled] at hen
    split at hen
    case h_1 hplace => exact h.doPendingFunctors hplace
    case h_2 => cases hen
  | runTask now =>
    simp only [enabled] at hen
    split at hen
    case h_1 task rest hplace =>
      simp only [ThrowingLoop.step, ThrowingLoop.runTask, hplace] at hst
      cases task with
      | user x =>
        obtain rfl := Except.ok.inj hst
        exact h.runUser hplace
      | timer task =>
        obtain ⟨queue, hop, hst⟩ := bind_eq_ok hst
        obtain rfl := Except.ok.inj hst
        exact h.runTimer hplace hop
    case h_2 => cases hen
  | endTask =>
    obtain rfl := Except.ok.inj hst
    simp only [enabled] at hen
    split at hen
    case h_1 rest hplace =>
      rw [hplace]
      exact h.moved hplace rfl rfl rfl rfl rfl
    case h_2 => cases hen
  | throwTask =>
    obtain rfl := Except.ok.inj hst
    simp only [enabled] at hen
    split at hen
    case h_1 rest hplace =>
      have hnone : s.place.batch = [] := hlast
      rw [hplace] at hnone
      exact h.moved hplace hnone.symm rfl rfl rfl rfl
    case h_2 => cases hen
  | queueInLoop x =>
    obtain rfl := Except.ok.inj hst
    exact h.pushPlain rfl
  | addTimer when interval t now => exact h.addTimer hst
  | queueTimer when interval t => exact h.queueTimer hst
  | cancelTimer id =>
    obtain rfl := Except.ok.inj hst
    exact h.pushPlain rfl
  | fire =>
    obtain rfl := Except.ok.inj hst
    have harmed : s.queue.timerFd.state = .armed := of_decide_eq_true hen
    exact h.toQueue (h.sound.congr rfl rfl rfl rfl) rfl rfl rfl (by simp [harmed])
  | createElsewhere =>
    obtain rfl := Except.ok.inj hst
    exact h.toQueue (h.sound.congr rfl rfl rfl rfl) rfl rfl rfl Iff.rfl

theorem throw_loses (h : s.InOrder) {a : ThrowingStep τ} (hen : s.enabled a = true) (hlast : ¬ s.ThrowsLast a)
    (hst : s.step a = .ok s') : ¬ s'.NothingLost := by
  intro hlost
  cases a with
  | throwTask =>
    obtain rfl := Except.ok.inj hst
    have hswapped : s.executed ++ s.place.batch = s.executed ++ [] := h.swapped.symm.trans hlost.swapped
    exact hlast (List.append_cancel_left hswapped)
  | throwCallback =>
    obtain rfl := Except.ok.inj hst
    simp only [enabled] at hen
    split at hen
    case h_2 => cases hen
    case h_1 now first called todo hplace =>
      obtain ⟨before, t, hcalled⟩ := (List.eq_nil_or_concat' _).resolve_left (List.cons_ne_nil first called)
      rw [hcalled] at hplace
      have hnodup := h.nodup_held
      rw [hplace] at hnodup
      have hdue : s.place.due = todo := by rw [hplace]; rfl
      by_cases hnone : s.place.due = []
      case neg =>
        -- the next timer is forgotten
        obtain ⟨b, hb⟩ := List.exists_mem_of_ne_nil _ hnone
        refine h.throw_forgets hplace (.inr (.inl hb)) ?_ (mem_held (.inl hb)) hlost.timers
        rintro rfl
        rw [hdue] at hb
        exact List.disjoint_of_nodup_append hnodup (List.mem_append_right _ List.mem_cons_self) hb
      case pos =>
        by_cases hearlier : ∀ b ∈ s.place.earlier, s.queue.startsAgain b = false
        case neg =>
          -- a timer called before does not come back
          simp only [not_forall, Bool.not_eq_false] at hearlier
          obtain ⟨b, hb, hagain⟩ := hearlier
          rw [hplace] at hb
          replace hb : b ∈ before := by simpa [LoopPlace.earlier] using hb
          have hreset : b ∈ s.place.toReset := by
            rw [hplace]
            exact List.mem_append_left _ hb
          refine h.throw_forgets hplace (.inr (.inr ⟨hreset, hagain⟩)) ?_ (mem_held (.inr hreset)) hlost.timers
          rintro rfl
          exact List.disjoint_of_nodup_append hnodup.of_append_left hb List.mem_cons_self
        case pos =>
          have hread : s.place.inHandleRead = true := by rw [hplace]; rfl
          have hsome : s.queue.timers.Nonempty := by
            by_contra hempty
            exact hlast ⟨hnone, hearlier, .inl (Finset.not_nonempty_iff_eq_empty.mp hempty)⟩
          have hset := (h.rearmed hread).mpr (hlost.armed rfl hsome)
          exact hlast ⟨hnone, hearlier, .inr hset⟩
  | _ => exact hlast trivial

end InOrder

end ThrowingLoop

open ThrowingLoop

/-- **A callback that throws loses nothing, if it comes last.** In a run of a
loop whose caller catches what is thrown and calls `Loop()` again: every task
pushed is executed once or still to come, in order, every timer queued has
fired, was cancelled or still waits, a repeating one also for its next time,
and the timerfd is set while timers are queued, in every state, exactly when
each task that throws is the last of its batch, and each timer that throws is
the last expired one, none called before it is to be started again, and no
timer is left queued or the timerfd was set again. The tasks pushed and executed
are those of the run's steps, and so are the timers queued. -/
theorem nothing_lost_iff {τ : Type} {tr : List (ThrowingLoop τ × ThrowingStep τ)} {s : ThrowingLoop τ}
    (hr : Run (throwingMachine τ) (ThrowingLoop.create τ) tr s) :
    (s.pushed = throwingPushes tr ∧ s.executed = throwingStarts tr ∧ s.tickets.drawn = (timersQueued tr).length) ∧
      (((∀ p ∈ tr, p.1.NothingLost) ∧ s.NothingLost) ↔ ∀ p ∈ tr, p.1.ThrowsLast p.2) :=
  ⟨throwing_recorded hr, hr.property_iff (fun _ h => h.nothingLost) (fun _ _ _ h hen hlast hst => h.step hen hlast hst)
    (fun _ _ _ h hen hlast hst => h.throw_loses hen hlast hst) (InOrder.create τ)⟩

/-- The second of two tasks throws, and a repeating timer that is called after
one that does not repeat; then another task is pushed. -/
theorem nothing_lost_two_throws :
    let steps : List (ThrowingStep ℕ) := [.queueInLoop 1, .queueInLoop 2, .poll false, .doPendingFunctors, .runTask 0,
      .endTask, .runTask 0, .throwTask, .addTimer 100 ⟨false, 0⟩ 8 0, .addTimer 120 ⟨true, 1000⟩ 16 0, .fire,
      .poll true, .handleRead 150, .callback, .callback, .throwCallback, .queueInLoop 3]
    let s := final (throwingMachine ℕ) (ThrowingLoop.create ℕ) steps
    s.NothingLost ∧ s.executed = [.user 1, .user 2] ∧ s.pendingFunctors = [.user 3] ∧
      (List.range s.tickets.drawn).map s.tickets.ended = [some .fired, some .fired, some .threw] :=
  ⟨((nothing_lost_iff (run_of_accepts _ _ (by decide +kernel))).2.mpr (by decide +kernel)).2, by decide +kernel,
    by decide +kernel, by decide +kernel⟩

/-- A ticket that has not ended and that nobody holds. -/
theorem not_nothingLost_of_ticket {τ : Type} {s : ThrowingLoop τ} (hempty : s.queue.timers = ∅)
    (hplace : s.place = .outside) {n : ℕ} (hn : n < s.tickets.drawn) (hend : s.tickets.ended n = none) :
    ¬ s.NothingLost := by
  intro h
  rcases h.timers n hn with hsome | ⟨t, ht, -⟩
  · rw [hend] at hsome
    cases hsome
  · rcases ht with ⟨e, he⟩ | ht | ⟨ht, -⟩
    · rw [hempty] at he
      cases he
    · rw [hplace] at ht
      cases ht
    · rw [hplace] at ht
      cases ht

/-- The first of two tasks throws: the second is neither executed nor queued.
The first of two expired timers throws: the second is forgotten. A timer throws
that was called after a repeating one: this one is not started again. A timer
throws while another is queued: nothing will notice the other. -/
theorem throw_loses_work :
    let first : List (ThrowingStep ℕ) :=
      [.queueInLoop 1, .queueInLoop 2, .poll false, .doPendingFunctors, .runTask 0, .throwTask]
    let timers (interval : Interval) (later : ℤ) (called : List (ThrowingStep ℕ)) : List (ThrowingStep ℕ) :=
      [.addTimer 100 interval 8 0, .addTimer later ⟨false, 0⟩ 16 0, .fire, .poll true, .handleRead 150] ++ called ++
        [.throwCallback]
    let forgotten := timers ⟨false, 0⟩ 120 [.callback]
    let stopped := timers ⟨true, 1000⟩ 120 [.callback, .callback]
    let unnoticed := timers ⟨false, 0⟩ 500 [.callback]
    let after (steps : List (ThrowingStep ℕ)) := final (throwingMachine ℕ) (ThrowingLoop.create ℕ) steps
    (accepts (throwingMachine ℕ) (ThrowingLoop.create ℕ) first = true ∧ ¬ (after first).NothingLost) ∧
      (accepts (throwingMachine ℕ) (ThrowingLoop.create ℕ) forgotten = true ∧ ¬ (after forgotten).NothingLost) ∧
      (accepts (throwingMachine ℕ) (ThrowingLoop.create ℕ) stopped = true ∧ ¬ (after stopped).NothingLost) ∧
      accepts (throwingMachine ℕ) (ThrowingLoop.create ℕ) unnoticed = true ∧ ¬ (after unnoticed).NothingLost := by
  intro first timers forgotten stopped unnoticed after
  refine ⟨⟨by decide +kernel, fun h => ?_⟩, ⟨by decide +kernel, ?_⟩, ⟨by decide +kernel, ?_⟩, by decide +kernel,
    fun h => ?_⟩
  · exact absurd h.swapped (by decide +kernel)
  · exact not_nothingLost_of_ticket (by decide +kernel) (by decide +kernel) (n := 1) (by decide +kernel)
      (by decide +kernel)
  · exact not_nothingLost_of_ticket (by decide +kernel) (by decide +kernel) (n := 2) (by decide +kernel)
      (by decide +kernel)
  · exact absurd (h.armed (by decide +kernel) (by decide +kernel)) (by decide +kernel)

end MiniMuduo
