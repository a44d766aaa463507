/-
# The task queue of an event loop

`QueueInLoop`, `WakeUp`, `WakeUpHandleRead` and `DoPendingFunctors` of
`src/EventLoop.cc`, with the rounds of `Loop`, for tasks of any type. Any
number of threads take part: each is somewhere in `QueueInLoop` (`QueuePc`),
and the loop's own thread is somewhere in `Loop` (`LoopPc`), perhaps inside a
channel callback or a task that calls `QueueInLoop` in turn. A step is what a
thread does between two points where another may come in: the `push_back`
under the lock, the test of `calling_pending_functors_`, `WakeUp`, and for
the loop `Poll`, `WakeUpHandleRead`, the two writes of the flag, the swap,
and the start and end of each task.

`executed` and `batches` keep the history of the loop's thread: what it
executed, and for each finished `DoPendingFunctors` what it found at its swap
and what it ran. What was pushed, started and swapped out is read off the
steps of the run (`pushes`, `starts`, `swaps`).

The loop never enters `Poll` with a task queued and nobody to wake it
(`no_lost_wakeup`), and the queue is a FIFO in which every task runs once
(`queue_fifo`): it is a queue taken out in batches (`queue_refines`).

Key definitions: `EventLoop`, `LoopStep`, `loopMachine`, `Woken`, `Batches`.
Key theorems: `move_woken`, `no_lost_wakeup`, `queue_refines`, `move_batches`,
`queue_fifo`.
-/
import MiniMuduo.Channel
import MiniMuduo.Lib.BatchQueue

namespace MiniMuduo

open Runs BatchQueues

/-- Where a thread is in `QueueInLoop`. -/
inductive QueuePc
  | outside
  /-- The task is pushed, the test comes next. -/
  | pushed
  /-- The test said that the loop must be woken. -/
  | waking
  deriving DecidableEq, Repr

/-- Where the loop's thread is in `Loop`. -/
inductive LoopPc (τ : Type)
  /-- About to enter `Poll`. -/
  | poll
  /-- Handling the active channels; `wakeUp` says that `wakeup_channel_` is
  one of them and is still to come. -/
  | channels (wakeUp : Bool)
  /-- `DoPendingFunctors` has set its flag. -/
  | swapping
  /-- `DoPendingFunctors` runs the batch: the task it is in, and the rest. -/
  | running (current : Option τ) (rest : List τ)
  deriving DecidableEq, Repr

/-- An `EventLoop`, with the threads that use it. -/
structure EventLoop (τ : Type) where
  pendingFunctors : List τ
  callingPendingFunctors : Bool
  /-- The counter of `wakeup_fd_`. -/
  wakeUpFd : ℕ
  pc : LoopPc τ
  /-- The loop's own thread, inside a callback or a task. -/
  own : QueuePc
  others : ℕ → QueuePc
  executed : List τ
  /-- What the running `DoPendingFunctors` found, and what it has run. -/
  found : List τ
  ran : List τ
  batches : List (List τ × List τ)

namespace EventLoop

variable {τ : Type}

/-- A loop that enters `Loop` with nothing queued. -/
def start : EventLoop τ := ⟨[], false, 0, .poll, .outside, fun _ => .outside, [], [], [], []⟩

/-- `pending_functors_.push_back(task)`. -/
def pushBack (task : τ) (l : EventLoop τ) : EventLoop τ :=
  { l with pendingFunctors := l.pendingFunctors ++ [task] }

/-- `WakeUp`: a write of 1 to the eventfd; at the largest value the write
fails and the counter stays. -/
def wakeUp (l : EventLoop τ) : EventLoop τ :=
  { l with wakeUpFd := if l.wakeUpFd < 0xFFFFFFFFFFFFFFFE then l.wakeUpFd + 1 else l.wakeUpFd }

/-- `WakeUpHandleRead`: a read takes the counter to zero. -/
def wakeUpHandleRead (l : EventLoop τ) : EventLoop τ := { l with wakeUpFd := 0 }

/-- `funtors.swap(pending_functors_)`. -/
def swap (l : EventLoop τ) : EventLoop τ :=
  { l with pc := .running none l.pendingFunctors, pendingFunctors := [], found := l.pendingFunctors, ran := [] }

/-- The next task of the batch begins. -/
def call (task : τ) (rest : List τ) (l : EventLoop τ) : EventLoop τ :=
  { l with pc := .running (some task) rest, executed := l.executed ++ [task], ran := l.ran ++ [task] }

/-- `DoPendingFunctors` clears its flag and returns to `Loop`. -/
def clearFlag (l : EventLoop τ) : EventLoop τ :=
  { l with
    pc := .poll
    callingPendingFunctors := false
    batches := l.batches ++ [(l.found, l.ran)]
    found := []
    ran := [] }

end EventLoop

/-- The steps of the threads. -/
inductive LoopStep (τ : Type)
  /-- Another thread pushes a task, tests, wakes the loop. -/
  | push (t : ℕ) (task : τ)
  | test (t : ℕ)
  | wake (t : ℕ)
  /-- The loop's thread does the same, inside a callback or a task. -/
  | ownPush (task : τ)
  | ownTest
  | ownWake
  /-- `Poll` returns, with `wakeup_channel_` among the active channels or
  not. -/
  | poll (wakeUp : Bool)
  | wakeUpHandleRead
  /-- The channels are handled: `DoPendingFunctors` sets its flag, swaps,
  starts and finishes one task after the other, clears the flag. -/
  | setFlag
  | swap
  | startTask
  | finishTask
  | clearFlag
  deriving DecidableEq, Repr

variable {τ : Type}

/-- The loop's thread runs user code: a channel callback or a task. -/
def LoopPc.inUserCode : LoopPc τ → Bool
  | .channels _ => true
  | .running (some _) _ => true
  | _ => false

/-- Which steps can come next. `wakeup_channel_` is reported when the counter
is not zero. -/
def loopEnabled (l : EventLoop τ) : LoopStep τ → Bool
  | .push t _ => l.others t = .outside
  | .test t => l.others t = .pushed
  | .wake t => l.others t = .waking
  | .ownPush _ => l.own = .outside && l.pc.inUserCode
  | .ownTest => l.own = .pushed
  | .ownWake => l.own = .waking
  | .poll wakeUp => l.own = .outside && (l.pc matches .poll) && (!wakeUp || 0 < l.wakeUpFd)
  | .wakeUpHandleRead => l.own = .outside && (l.pc matches .channels true)
  | .setFlag => l.own = .outside && (l.pc matches .channels false)
  | .swap => l.own = .outside && (l.pc matches .swapping)
  | .startTask => l.own = .outside && (l.pc matches .running none (_ :: _))
  | .finishTask => l.own = .outside && (l.pc matches .running (some _) _)
  | .clearFlag => l.own = .outside && (l.pc matches .running none [])

/-- One step. -/
def loopStep (l : EventLoop τ) : LoopStep τ → Except Fault (EventLoop τ)
  | .push t task => .ok { l.pushBack task with others := Function.update l.others t .pushed }
  -- another thread is never the loop's: it always wakes
  | .test t => .ok { l with others := Function.update l.others t .waking }
  | .wake t => .ok { l.wakeUp with others := Function.update l.others t .outside }
  | .ownPush task => .ok { l.pushBack task with own := .pushed }
  | .ownTest => .ok { l with own := if l.callingPendingFunctors then .waking else .outside }
  | .ownWake => .ok { l.wakeUp with own := .outside }
  | .poll wakeUp => .ok { l with pc := .channels wakeUp }
  | .wakeUpHandleRead => .ok { l.wakeUpHandleRead with pc := .channels false }
  | .setFlag => .ok { l with pc := .swapping, callingPendingFunctors := true }
  | .swap => .ok l.swap
  | .startTask =>
    match l.pc with
    | .running none (task :: rest) => .ok (l.call task rest)
    | _ => .ok l
  | .finishTask =>
    match l.pc with
    | .running (some _) rest => .ok { l with pc := .running none rest }
    | _ => .ok l
  | .clearFlag => .ok l.clearFlag

/-- The runs of a loop. -/
def loopMachine (τ : Type) : Machine (EventLoop τ) (LoopStep τ) Fault :=
  ⟨fun l a => loopEnabled l a = true, loopStep⟩

instance (l : EventLoop τ) (a : LoopStep τ) : Decidable ((loopMachine τ).enabled l a) :=
  inferInstanceAs (Decidable (_ = true))

/-- What the steps can do. -/
inductive LoopMove (l : EventLoop τ) : LoopStep τ → EventLoop τ → Prop
  | push {t : ℕ} {task : τ} : l.others t = .outside →
      LoopMove l (.push t task) { l.pushBack task with others := Function.update l.others t .pushed }
  | test {t : ℕ} : l.others t = .pushed →
      LoopMove l (.test t) { l with others := Function.update l.others t .waking }
  | wake {t : ℕ} : l.others t = .waking →
      LoopMove l (.wake t) { l.wakeUp with others := Function.update l.others t .outside }
  | ownPush {task : τ} : l.own = .outside → l.pc.inUserCode = true →
      LoopMove l (.ownPush task) { l.pushBack task with own := .pushed }
  | ownTest : l.own = .pushed →
      LoopMove l .ownTest { l with own := if l.callingPendingFunctors then .waking else .outside }
  | ownWake : l.own = .waking → LoopMove l .ownWake { l.wakeUp with own := .outside }
  | poll {wakeUp : Bool} : l.own = .outside → l.pc = .poll →
      LoopMove l (.poll wakeUp) { l with pc := .channels wakeUp }
  | wakeUpHandleRead : l.own = .outside → l.pc = .channels true →
      LoopMove l .wakeUpHandleRead { l.wakeUpHandleRead with pc := .channels false }
  | setFlag : l.own = .outside → l.pc = .channels false →
      LoopMove l .setFlag { l with pc := .swapping, callingPendingFunctors := true }
  | swap : l.own = .outside → l.pc = .swapping → LoopMove l .swap l.swap
  | startTask {task : τ} {rest : List τ} : l.own = .outside → l.pc = .running none (task :: rest) →
      LoopMove l .startTask (l.call task rest)
  | finishTask {task : τ} {rest : List τ} : l.own = .outside → l.pc = .running (some task) rest →
      LoopMove l .finishTask { l with pc := .running none rest }
  | clearFlag : l.own = .outside → l.pc = .running none [] → LoopMove l .clearFlag l.clearFlag

theorem loopMove_of_step {l l' : EventLoop τ} {a : LoopStep τ} (hen : loopEnabled l a = true)
    (hst : loopStep l a = .ok l') : LoopMove l a l' := by
  unfold loopEnabled at hen
  unfold loopStep at hst
  cases a with
  | push t task =>
    cases hst
    exact .push (of_decide_eq_true hen)
  | test t =>
    cases hst
    exact .test (of_decide_eq_true hen)
  | wake t =>
    cases hst
    exact .wake (of_decide_eq_true hen)
  | ownPush task =>
    cases hst
    obtain ⟨hown, hpc⟩ := Bool.and_eq_true_iff.mp hen
    exact .ownPush (of_decide_eq_true hown) hpc
  | ownTest =>
    cases hst
    exact .ownTest (of_decide_eq_true hen)
  | ownWake =>
    cases hst
    exact .ownWake (of_decide_eq_true hen)
  | poll wakeUp =>
    cases hst
    obtain ⟨hboth, -⟩ := Bool.and_eq_true_iff.mp hen
    obtain ⟨hown, hpc⟩ := Bool.and_eq_true_iff.mp hboth
    refine .poll (of_decide_eq_true hown) ?_
    split at hpc <;> first | assumption | cases hpc
  | wakeUpHandleRead =>
    cases hst
    obtain ⟨hown, hpc⟩ := Bool.and_eq_true_iff.mp hen
    refine .wakeUpHandleRead (of_decide_eq_true hown) ?_
    split at hpc <;> first | assumption | cases hpc
  | setFlag =>
    cases hst
    obtain ⟨hown, hpc⟩ := Bool.and_eq_true_iff.mp hen
    refine .setFlag (of_decide_eq_true hown) ?_
    split at hpc <;> first | assumption | cases hpc
  | swap =>
    cases hst
    obtain ⟨hown, hpc⟩ := Bool.and_eq_true_iff.mp hen
    refine .swap (of_decide_eq_true hown) ?_
    split at hpc <;> first | assumption | cases hpc
  | startTask =>
    obtain ⟨hown, hpc⟩ := Bool.and_eq_true_iff.mp hen
    split at hpc
    · rename_i task rest hrun
      simp only [hrun] at hst
      cases hst
      exact .startTask (of_decide_eq_true hown) hrun
    · cases hpc
  | finishTask =>
    obtain ⟨hown, hpc⟩ := Bool.and_eq_true_iff.mp hen
    split at hpc
    · rename_i task rest hrun
      simp only [hrun] at hst
      cases hst
      exact .finishTask (of_decide_eq_true hown) hrun
    · cases hpc
  | clearFlag =>
    cases hst
    obtain ⟨hown, hpc⟩ := Bool.and_eq_true_iff.mp hen
    refine .clearFlag (of_decide_eq_true hown) ?_
    split at hpc <;> first | assumption | cases hpc

/-! ### No lost wakeup -/

/-- The loop swaps before it polls again. -/
def LoopPc.beforeSwap : LoopPc τ → Bool
  | .channels _ | .swapping => true
  | _ => false

/-- `DoPendingFunctors` is between the two writes of its flag. -/
def LoopPc.calling : LoopPc τ → Bool
  | .swapping | .running _ _ => true
  | _ => false

/-- Somebody will wake the loop: another thread between its push and its
`WakeUp`, or the loop's own thread where the flag makes it do so. -/
def WakeDue (l : EventLoop τ) : Prop :=
  (∃ t, l.others t ≠ .outside) ∨ (l.own ≠ .outside ∧ l.callingPendingFunctors = true)

/-- A queued task is seen before the next `Poll`, or the next `Poll` returns. -/
structure Woken (l : EventLoop τ) : Prop where
  flag : l.callingPendingFunctors = l.pc.calling
  own : l.own ≠ .outside → l.pc.inUserCode = true
  woken : l.pendingFunctors = [] ∨ 0 < l.wakeUpFd ∨ WakeDue l ∨ l.pc.beforeSwap = true

theorem wakeUp_pos (l : EventLoop τ) : 0 < l.wakeUp.wakeUpFd := by
  unfold EventLoop.wakeUp
  simp only
  split
  · omega
  · omega

/-- A thread that is somewhere in `QueueInLoop` is due to wake the loop. -/
theorem wakeDue_update {l : EventLoop τ} (t : ℕ) {q : QueuePc} (hq : q ≠ .outside)
    (hothers : l.others t = q) : WakeDue l := by
  refine .inl ⟨t, ?_⟩
  rw [hothers]
  exact hq

theorem move_woken {l l' : EventLoop τ} {a : LoopStep τ} (h : Woken l) (hm : LoopMove l a l') : Woken l' := by
  obtain ⟨hflag, hown, hwoken⟩ := h
  cases hm with
  | @push t task _ =>
    exact ⟨hflag, hown, .inr (.inr (.inl (wakeDue_update t (q := .pushed) (by decide) (by simp))))⟩
  | @test t _ =>
    exact ⟨hflag, hown, .inr (.inr (.inl (wakeDue_update t (q := .waking) (by decide) (by simp))))⟩
  | wake _ => exact ⟨hflag, hown, .inr (.inl (wakeUp_pos l))⟩
  | ownPush _ hpc =>
    refine ⟨hflag, fun _ => hpc, ?_⟩
    -- in a channel callback the swap is still to come, in a task the flag is set
    cases hcase : l.pc with
    | poll =>
      rw [hcase] at hpc
      cases hpc
    | channels wakeUp => exact .inr (.inr (.inr (by simp [EventLoop.pushBack, hcase, LoopPc.beforeSwap])))
    | swapping =>
      rw [hcase] at hpc
      cases hpc
    | running current rest =>
      refine .inr (.inr (.inl (.inr ⟨QueuePc.noConfusion, ?_⟩)))
      show l.callingPendingFunctors = true
      rw [hflag, hcase]
      rfl
  | ownTest hpushed =>
    have hpc := hown (by rw [hpushed]; decide)
    by_cases hcall : l.callingPendingFunctors = true
    · rw [if_pos hcall]
      exact ⟨hflag, fun _ => hpc, .inr (.inr (.inl (.inr ⟨QueuePc.noConfusion, hcall⟩)))⟩
    · rw [if_neg hcall]
      refine ⟨hflag, fun h' => absurd rfl h', .inr (.inr (.inr ?_))⟩
      show l.pc.beforeSwap = true
      rw [hflag] at hcall
      cases hcase : l.pc with
      | channels wakeUp => rfl
      | swapping => rfl
      | poll =>
        rw [hcase] at hpc
        cases hpc
      | running current rest =>
        rw [hcase] at hcall
        exact absurd rfl hcall
  | ownWake _ => exact ⟨hflag, fun h' => absurd rfl h', .inr (.inl (wakeUp_pos l))⟩
  | poll hout hpc =>
    rw [hpc] at hflag
    exact ⟨hflag, fun h' => absurd hout h', .inr (.inr (.inr rfl))⟩
  | wakeUpHandleRead hout hpc =>
    rw [hpc] at hflag
    exact ⟨hflag, fun h' => absurd hout h', .inr (.inr (.inr rfl))⟩
  | setFlag hout _ => exact ⟨rfl, fun h' => absurd hout h', .inr (.inr (.inr rfl))⟩
  | swap hout hpc =>
    rw [hpc] at hflag
    exact ⟨hflag, fun h' => absurd hout h', .inl rfl⟩
  | startTask hout hpc =>
    rw [hpc] at hflag hwoken
    refine ⟨hflag, fun _ => rfl, ?_⟩
    rcases hwoken with h' | h' | h' | h'
    · exact .inl h'
    · exact .inr (.inl h')
    · exact .inr (.inr (.inl h'))
    · cases h'
  | finishTask hout hpc =>
    rw [hpc] at hflag hwoken
    refine ⟨hflag, fun h' => absurd hout h', ?_⟩
    rcases hwoken with h' | h' | h' | h'
    · exact .inl h'
    · exact .inr (.inl h')
    · exact .inr (.inr (.inl h'))
    · cases h'
  | clearFlag hout hpc =>
    rw [hpc] at hwoken
    refine ⟨rfl, fun h' => absurd hout h', ?_⟩
    rcases hwoken with h' | h' | (h' | h') | h'
    · exact .inl h'
    · exact .inr (.inl h')
    · exact .inr (.inr (.inl (.inl h')))
    · exact absurd hout h'.1
    · cases h'

theorem start_woken : Woken (EventLoop.start : EventLoop τ) := ⟨rfl, fun h => absurd rfl h, .inl rfl⟩

/-- **No lost wakeup.** In every interleaving of the threads, whenever the
loop is about to enter `Poll`: nothing is queued, or the counter of
`wakeup_fd_` is not zero, or another thread has pushed its task and has not
executed its `WakeUp` yet. -/
theorem no_lost_wakeup {tr : List (EventLoop τ × LoopStep τ)} {l : EventLoop τ}
    (hr : Run (loopMachine τ) EventLoop.start tr l) (hpoll : l.pc = .poll) :
    l.pendingFunctors = [] ∨ 0 < l.wakeUpFd ∨ ∃ t, l.others t = .pushed ∨ l.others t = .waking := by
  have h : Woken l := hr.always (fun l a l' h hen hst => move_woken h (loopMove_of_step hen hst)) start_woken
  rcases h.woken with h' | h' | (⟨t, ht⟩ | ⟨hown, -⟩) | h'
  · exact .inl h'
  · exact .inr (.inl h')
  · refine .inr (.inr ⟨t, ?_⟩)
    cases hcase : l.others t with
    | outside => exact absurd hcase ht
    | pushed => exact .inl rfl
    | waking => exact .inr rfl
  · have hcode := h.own hown
    rw [hpoll] at hcode
    cases hcode
  · rw [hpoll] at h'
    cases h'

/-- Another thread's task wakes the loop; while it runs, the loop's thread
queues one more and wakes itself. -/
theorem no_lost_wakeup_requeue :
    let steps : List (LoopStep ℕ) := [.push 1 7, .test 1, .wake 1, .poll true, .wakeUpHandleRead, .setFlag,
      .swap, .startTask, .ownPush 8, .ownTest, .ownWake, .finishTask, .clearFlag]
    let l := final (loopMachine ℕ) EventLoop.start steps
    (l.pc = .poll ∧ l.pendingFunctors = [8] ∧ l.wakeUpFd = 1) ∧
      (l.pendingFunctors = [] ∨ 0 < l.wakeUpFd ∨ ∃ t, l.others t = .pushed ∨ l.others t = .waking) :=
  ⟨by decide +kernel, no_lost_wakeup (run_of_accepts _ _ (by decide +kernel)) (by decide +kernel)⟩

/-! ### Exactly once, in order -/

/-- The tasks of the running batch that have not started. -/
def LoopPc.rest : LoopPc τ → List τ
  | .running _ rest => rest
  | _ => []

def LoopPc.isRunning : LoopPc τ → Bool
  | .running _ _ => true
  | _ => false

/-- The queue, and the batch that `DoPendingFunctors` has in hand. -/
def EventLoop.queue (l : EventLoop τ) : BatchQueue τ := ⟨l.pendingFunctors, l.pc.rest⟩

namespace LoopStep

/-- The task that a step pushes. -/
def pushed : LoopStep τ → List τ
  | .push _ task | .ownPush task => [task]
  | _ => []

/-- The task that a step starts, the next one of the batch. -/
def started (l : EventLoop τ) : LoopStep τ → List τ
  | .startTask => l.pc.rest.head?.toList
  | _ => []

/-- What a step swaps out. -/
def swapped (l : EventLoop τ) : LoopStep τ → List (List τ)
  | .swap => [l.pendingFunctors]
  | _ => []

/-- What a step does to the queue. -/
def queueOps (l : EventLoop τ) : LoopStep τ → List (QueueOp τ)
  | .push _ task | .ownPush task => [.push task]
  | .swap => [.swap]
  | .startTask => l.pc.rest.head?.toList.map .take
  | _ => []

theorem queueOps_pushed (l : EventLoop τ) (a : LoopStep τ) : BatchQueues.pushed (a.queueOps l) = a.pushed := by
  cases a with
  | startTask =>
    show BatchQueues.pushed (l.pc.rest.head?.toList.map .take) = []
    cases l.pc.rest <;> rfl
  | _ => rfl

theorem queueOps_taken (l : EventLoop τ) (a : LoopStep τ) : taken (a.queueOps l) = a.started l := by
  cases a with
  | startTask =>
    show taken (l.pc.rest.head?.toList.map .take) = l.pc.rest.head?.toList
    cases l.pc.rest <;> rfl
  | _ => rfl

theorem queueOps_keeps (l : EventLoop τ) (a : LoopStep τ) : ∀ op ∈ a.queueOps l, op.keeps = true := by
  cases a with
  | startTask =>
    show ∀ op ∈ l.pc.rest.head?.toList.map QueueOp.take, op.keeps = true
    cases l.pc.rest <;> simp [QueueOp.keeps]
  | _ => simp [queueOps, QueueOp.keeps]

end LoopStep

/-- The tasks pushed in a run, in the order of the lock. -/
def pushes (tr : List (EventLoop τ × LoopStep τ)) : List τ := gathered (fun _ a => a.pushed) tr

/-- The tasks started in a run. -/
def starts (tr : List (EventLoop τ × LoopStep τ)) : List τ := gathered (fun l a => a.started l) tr

/-- What the swaps of a run found. -/
def swaps (tr : List (EventLoop τ × LoopStep τ)) : List (List τ) := gathered (fun l a => a.swapped l) tr

/-- A step of the loop does to the queue what `queueOps` says. -/
theorem queue_move {l l' : EventLoop τ} {a : LoopStep τ} (hm : LoopMove l a l') :
    Takes (queueMachine τ) l.queue (a.queueOps l) l'.queue := by
  cases hm with
  | push _ => exact Takes.one trivial rfl
  | ownPush _ _ => exact Takes.one trivial rfl
  | swap _ hpc =>
    refine Takes.one ?_ rfl
    show l.pc.rest = []
    rw [hpc]
    rfl
  | @startTask task rest _ hpc =>
    simp only [EventLoop.queue, LoopStep.queueOps, EventLoop.call, hpc, LoopPc.rest]
    exact Takes.one rfl rfl
  | poll _ hpc | wakeUpHandleRead _ hpc | setFlag _ hpc | finishTask _ hpc | clearFlag _ hpc =>
    simp only [EventLoop.queue, LoopStep.queueOps, EventLoop.wakeUpHandleRead, EventLoop.clearFlag, hpc, LoopPc.rest]
    exact Takes.none
  | test _ | wake _ | ownTest _ | ownWake _ => exact Takes.none

/-- **The loop's queue is taken out in batches.** A run of the loop and its
threads is a run of the queue, with the pushes and the starts of its steps. -/
theorem queue_refines {tr : List (EventLoop τ × LoopStep τ)} {l : EventLoop τ}
    (hr : Run (loopMachine τ) EventLoop.start tr l) :
    Takes (queueMachine τ) ⟨[], []⟩ (gathered (fun l a => a.queueOps l) tr) l.queue :=
  hr.refines (fun _ _ _ (_ : True) _ _ => trivial)
    (fun _ _ _ _ hen hst => queue_move (loopMove_of_step hen hst)) trivial

/-- A batch is what its swap found, and the loop's thread has executed its
batches. -/
structure Batches (l : EventLoop τ) : Prop where
  batch : l.ran ++ l.pc.rest = l.found
  finished : ∀ p ∈ l.batches, p.2 = p.1
  executed : (l.batches.map Prod.snd).flatten ++ l.ran = l.executed
  idle : l.pc.isRunning = false → l.ran = []

theorem move_batches {l l' : EventLoop τ} {a : LoopStep τ} (h : Batches l) (hm : LoopMove l a l') : Batches l' := by
  obtain ⟨hbatch, hfin, hexec, hidle⟩ := h
  cases hm with
  | push _ | test _ | wake _ | ownPush _ _ | ownTest _ | ownWake _ => exact ⟨hbatch, hfin, hexec, hidle⟩
  | poll _ hpc | wakeUpHandleRead _ hpc | setFlag _ hpc =>
    rw [hpc] at hbatch hidle
    exact ⟨hbatch, hfin, hexec, hidle⟩
  | swap _ hpc =>
    rw [hpc] at hidle
    have hran : l.ran = [] := hidle rfl
    refine ⟨rfl, hfin, ?_, fun _ => rfl⟩
    show (l.batches.map Prod.snd).flatten ++ [] = l.executed
    rw [← hexec, hran]
  | @startTask task rest _ hpc =>
    rw [hpc] at hbatch
    refine ⟨?_, hfin, ?_, fun h' => by cases h'⟩
    · show l.ran ++ [task] ++ rest = l.found
      rw [List.append_assoc]
      exact hbatch
    · show (l.batches.map Prod.snd).flatten ++ (l.ran ++ [task]) = l.executed ++ [task]
      rw [← List.append_assoc, hexec]
  | finishTask _ hpc =>
    rw [hpc] at hbatch
    exact ⟨hbatch, hfin, hexec, fun h' => by cases h'⟩
  | clearFlag _ hpc =>
    rw [hpc] at hbatch
    have hran : l.ran = l.found := by simpa [LoopPc.rest] using hbatch
    refine ⟨rfl, fun p hp => ?_, ?_, fun _ => rfl⟩
    · rcases List.mem_append.mp hp with hp | hp
      · exact hfin p hp
      · obtain rfl : p = (l.found, l.ran) := by simpa using hp
        exact hran
    · show ((l.batches ++ [(l.found, l.ran)]).map Prod.snd).flatten ++ [] = l.executed
      rw [List.map_append, List.flatten_append, List.append_nil]
      simpa using hexec

theorem start_batches : Batches (EventLoop.start : EventLoop τ) :=
  ⟨rfl, by simp [EventLoop.start], rfl, fun _ => rfl⟩

/-- What the running `DoPendingFunctors` found at its swap. -/
def EventLoop.running (l : EventLoop τ) : List (List τ) := if l.pc.isRunning then [l.found] else []

/-- What the loop's thread executed is what the steps started. -/
theorem executed_eq_starts {tr : List (EventLoop τ × LoopStep τ)} {l : EventLoop τ}
    (hr : Run (loopMachine τ) EventLoop.start tr l) : l.executed = starts tr := by
  refine (hr.gathers (fun l a l' hen hst => ?_)).trans (List.nil_append _)
  cases loopMove_of_step hen hst with
  | @startTask task rest _ hpc => simp [LoopStep.started, EventLoop.call, hpc, LoopPc.rest]
  | _ => exact (List.append_nil _).symm

/-- The batches, with the running one, are what the swaps found. -/
theorem batches_eq_swaps {tr : List (EventLoop τ × LoopStep τ)} {l : EventLoop τ}
    (hr : Run (loopMachine τ) EventLoop.start tr l) : l.batches.map Prod.fst ++ l.running = swaps tr := by
  have hstep : ∀ l a l', (loopMachine τ).enabled l a → (loopMachine τ).step l a = .ok l' →
      l'.batches.map Prod.fst ++ l'.running = l.batches.map Prod.fst ++ l.running ++ a.swapped l := by
    intro l a l' hen hst
    cases loopMove_of_step hen hst with
    | swap _ hpc => simp [LoopStep.swapped, EventLoop.swap, EventLoop.running, LoopPc.isRunning, hpc]
    | poll _ hpc | wakeUpHandleRead _ hpc | setFlag _ hpc | startTask _ hpc | finishTask _ hpc | clearFlag _ hpc =>
      simp [LoopStep.swapped, EventLoop.running, EventLoop.wakeUpHandleRead, EventLoop.call, EventLoop.clearFlag,
        LoopPc.isRunning, hpc]
    | _ => exact (List.append_nil _).symm
  exact (hr.gathers hstep).trans (List.nil_append _)

/-- **The queue is a FIFO in which every task runs once.** In every
interleaving of the threads, at every point: the tasks executed so far, which
are those the steps started, then the rest of the running batch, then
`pending_functors_`, are the tasks of the `push_back`s, in the order of the
lock. The batches are what the swaps found; every `DoPendingFunctors` that
returned ran exactly that, the running one has run a first part of it, and
nothing was executed outside of them. -/
theorem queue_fifo {tr : List (EventLoop τ × LoopStep τ)} {l : EventLoop τ}
    (hr : Run (loopMachine τ) EventLoop.start tr l) :
    l.executed ++ l.pc.rest ++ l.pendingFunctors = pushes tr ∧ l.executed = starts tr ∧
      l.batches.map Prod.fst ++ l.running = swaps tr ∧ (∀ p ∈ l.batches, p.2 = p.1) ∧
      l.ran ++ l.pc.rest = l.found ∧ (l.batches.map Prod.snd).flatten ++ l.ran = l.executed := by
  have h : Batches l := hr.always (fun l a l' h hen hst => move_batches h (loopMove_of_step hen hst)) start_batches
  have hexec : l.executed = starts tr := executed_eq_starts hr
  have hfifo := takes_fifo (queue_refines hr) (gathered_keeps fun l a => a.queueOps_keeps l)
  rw [taken_gathered, pushed_gathered] at hfifo
  simp only [LoopStep.queueOps_taken, LoopStep.queueOps_pushed] at hfifo
  refine ⟨?_, hexec, batches_eq_swaps hr, h.finished, h.batch, h.executed⟩
  rw [hexec]
  exact hfifo

/-- Two threads push, the first task queues itself again: the batch stays the
two tasks. -/
theorem queue_fifo_two_threads :
    let steps : List (LoopStep ℕ) := [.push 1 7, .push 2 8, .test 2, .wake 2, .poll true, .wakeUpHandleRead,
      .setFlag, .swap, .startTask, .ownPush 7, .ownTest, .ownWake, .finishTask]
    let l := final (loopMachine ℕ) EventLoop.start steps
    let tr := trace (loopMachine ℕ) EventLoop.start steps
    (l.executed = [7] ∧ l.pc.rest = [8] ∧ l.pendingFunctors = [7] ∧ pushes tr = [7, 8, 7] ∧ swaps tr = [[7, 8]]) ∧
      l.executed ++ l.pc.rest ++ l.pendingFunctors = pushes tr :=
  ⟨by decide +kernel, (queue_fifo (run_of_accepts _ _ (by decide +kernel))).1⟩

end MiniMuduo
