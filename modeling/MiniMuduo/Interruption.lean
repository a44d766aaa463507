/-
# EventLoop::Loop when epoll_wait is interrupted

The rounds of `EventLoop::Loop` of `src/EventLoop.cc` around
`EpollPoller::Poll`: clear `activeChannels_`, `Poll`, `HandleEvent` of each
active channel, `DoPendingFunctors`, the test of `quit_`. The callbacks of the
channels and the tasks are user code; what it does to the poller's channels,
to the queue of tasks and to `quit_` comes in with the step that runs it, and
so does what other threads do. `dispatched` is what the loop has dispatched so
far, the oldest first; its tasks come out of a batch queue
(`dispatcher_queue`).

`Poll` treats every negative result of `epoll_wait` alike: it aborts, also when
a signal handler has interrupted the call (EINTR). So a run with interruptions
goes on as the run in which these calls return no events exactly when there
are none (`interruptions_invisible_iff`). `UdpReceiver::HandleRead`, by
contrast, retries an interrupted `recvmmsg`.

Key definitions: `Dispatcher`, `RoundStep`, `dispatchMachine`, `RoundStep.calm`.
Key theorems: `dispatcher_queue`, `not_interrupted_of_run`,
`interruptions_invisible_iff`.
-/
import MiniMuduo.EpollPoll
import MiniMuduo.Lib.BatchQueue

namespace MiniMuduo

open Fallible Runs BatchQueues

/-- `EINTR`. -/
def eintr : ℕ := 4

/-- What user code does that the loop sees. -/
inductive UserAct (ι τ : Type)
  | channel (i : ι) (op : ChannelOp)
  | queueInLoop (task : τ)
  | quit
  deriving DecidableEq, Repr

/-- What the loop dispatches: `HandleEvent` of a channel with its `revents_`,
or a task. -/
inductive Dispatched (ι τ : Type)
  | event (i : ι) (revents : Events)
  | task (task : τ)
  deriving DecidableEq, Repr

/-- Where the loop's thread is in `Loop`. -/
inductive RoundPc (ι τ : Type)
  /-- At the test of `quit_`. -/
  | testing
  /-- The active channels still to come. -/
  | handling (channels : List ι)
  /-- In `DoPendingFunctors`, the tasks still to come. -/
  | running (functors : List τ)
  | left
  deriving DecidableEq, Repr

/-- An event loop with its poller and its channels. -/
structure Dispatcher (ι τ : Type) where
  pc : RoundPc ι τ
  poller : Poller ι
  events : EventList ι
  revents : ι → Events
  pendingFunctors : List τ
  callingPendingFunctors : Bool
  quit : Bool
  dispatched : List (Dispatched ι τ)

namespace Dispatcher

variable {ι τ : Type} [DecidableEq ι]

/-- `Loop` begins, with the channels that are registered by then. -/
def create (poller : Poller ι) (grown : ℕ) : Dispatcher ι τ where
  pc := .testing
  poller := poller
  events := EpollPoller.createEvents grown
  revents := fun _ => Events.kNoneEvent
  pendingFunctors := []
  callingPendingFunctors := false
  quit := false
  dispatched := []

/-- One thing that user code does. -/
def act (s : Dispatcher ι τ) : UserAct ι τ → Except Fault (Dispatcher ι τ)
  | .channel i op => do
    let poller ← pollerStep s.poller (i, op)
    return { s with poller }
  | .queueInLoop task => .ok { s with pendingFunctors := s.pendingFunctors ++ [task] }
  | .quit => .ok { s with quit := true }

/-- `Poll`: `FillActiveChannels` sets the `revents_` of the active channels. -/
def poll (result : WaitResult ι) (grown : ℕ) (s : Dispatcher ι τ) : Except Fault (Dispatcher ι τ) := do
  let (active, events) ← EpollPoller.poll result grown s.events
  return { s with
    events
    revents := active.foldl (fun revents e => Function.update revents e.ptr e.events) s.revents
    pc := .handling (active.map EpollEvent.ptr) }

/-- `HandleEvent` of the next active channel. -/
def handleEvent (acts : List (UserAct ι τ)) (s : Dispatcher ι τ) : Except Fault (Dispatcher ι τ) :=
  match s.pc with
  | .handling (i :: channels) =>
    acts.foldlM act { s with pc := .handling channels, dispatched := s.dispatched ++ [.event i (s.revents i)] }
  | _ => .ok s

/-- The next task of `DoPendingFunctors`. -/
def runFunctor (acts : List (UserAct ι τ)) (s : Dispatcher ι τ) : Except Fault (Dispatcher ι τ) :=
  match s.pc with
  | .running (task :: functors) =>
    acts.foldlM act { s with pc := .running functors, dispatched := s.dispatched ++ [.task task] }
  | _ => .ok s

/-- Epoll can report these events: the channels are registered, with at least
these bits. -/
def reports (s : Dispatcher ι τ) : WaitResult ι → Bool
  | .ready ready => ready.all fun e =>
      (s.poller.table (s.poller.channel e.ptr).fd).any fun entry => entry.ptr = e.ptr ∧ e.events.Within entry.events
  | .failed _ => true

end Dispatcher

/-- The steps of `Loop`, and of other threads. -/
inductive RoundStep (ι τ : Type)
  | poll (result : WaitResult ι) (grown : ℕ)
  | handleEvent (acts : List (UserAct ι τ))
  /-- `DoPendingFunctors` takes the queue. -/
  | takeFunctors
  | runFunctor (acts : List (UserAct ι τ))
  /-- `DoPendingFunctors` returns. -/
  | endFunctors
  /-- `quit_` is set: `Loop` returns. -/
  | leave
  /-- Another thread queues a task. -/
  | queueInLoop (task : τ)
  /-- Another thread calls `Quit`. -/
  | quit
  deriving DecidableEq, Repr

namespace RoundStep

variable {ι τ : Type}

/-- The step is an `epoll_wait` that a signal handler interrupts. -/
def interrupted : RoundStep ι τ → Bool
  | .poll (.failed errno) _ => errno = eintr
  | _ => false

/-- The same step, without the interruption: `epoll_wait` returns no events. -/
def calm (a : RoundStep ι τ) : RoundStep ι τ :=
  if a.interrupted then
    match a with
    | .poll _ grown => .poll (.ready []) grown
    | a => a
  else a

theorem calm_of_not_interrupted {a : RoundStep ι τ} (h : a.interrupted = false) : a.calm = a := by
  unfold calm
  rw [if_neg (by rw [h]; decide)]

end RoundStep

section machine

variable {ι τ : Type} [DecidableEq ι]

/-- Which steps can come next. -/
def roundEnabled (s : Dispatcher ι τ) : RoundStep ι τ → Bool
  | .poll result _ => (s.pc matches .testing) && !s.quit && decide (EpollPoller.waits s.events result) &&
      s.reports result
  | .handleEvent _ => (s.pc matches .handling (_ :: _))
  | .takeFunctors => (s.pc matches .handling [])
  | .runFunctor _ => (s.pc matches .running (_ :: _))
  | .endFunctors => (s.pc matches .running [])
  | .leave => (s.pc matches .testing) && s.quit
  | .queueInLoop _ => true
  | .quit => true

/-- One step. -/
def roundStep (s : Dispatcher ι τ) : RoundStep ι τ → Except Fault (Dispatcher ι τ)
  | .poll result grown => s.poll result grown
  | .handleEvent acts => s.handleEvent acts
  | .takeFunctors =>
    .ok { s with pc := .running s.pendingFunctors, pendingFunctors := [], callingPendingFunctors := true }
  | .runFunctor acts => s.runFunctor acts
  | .endFunctors => .ok { s with pc := .testing, callingPendingFunctors := false }
  | .leave => .ok { s with pc := .left }
  | .queueInLoop task => s.act (.queueInLoop task)
  | .quit => s.act .quit

/-- The runs of `Loop`. -/
def dispatchMachine (ι τ : Type) [DecidableEq ι] : Machine (Dispatcher ι τ) (RoundStep ι τ) Fault :=
  ⟨fun s a => roundEnabled s a = true, roundStep⟩

instance (s : Dispatcher ι τ) (a : RoundStep ι τ) : Decidable ((dispatchMachine ι τ).enabled s a) :=
  inferInstanceAs (Decidable (_ = true))

/-! ### The queue of tasks -/

/-- The tasks still to come in `DoPendingFunctors`. -/
def RoundPc.functors : RoundPc ι τ → List τ
  | running functors => functors
  | _ => []

/-- The queue, and what is left of the batch. -/
def Dispatcher.queue (s : Dispatcher ι τ) : BatchQueue τ := ⟨s.pendingFunctors, s.pc.functors⟩

/-- The task that user code queues. -/
def UserAct.queued : UserAct ι τ → List τ
  | queueInLoop task => [task]
  | _ => []

/-- What a step does to the queue. -/
def RoundStep.queueOps (s : Dispatcher ι τ) : RoundStep ι τ → List (QueueOp τ)
  | .handleEvent acts => (acts.flatMap UserAct.queued).map .push
  | .takeFunctors => [.swap]
  | .runFunctor acts => (s.pc.functors.take 1).map .take ++ (acts.flatMap UserAct.queued).map .push
  | .queueInLoop task => [.push task]
  | _ => []

theorem acts_queue : ∀ {acts : List (UserAct ι τ)} {s s' : Dispatcher ι τ}, acts.foldlM Dispatcher.act s = .ok s' →
    s'.queue = { s.queue with pending := s.pendingFunctors ++ acts.flatMap UserAct.queued }
  | [], s, s', h => by
    cases h
    simp [Dispatcher.queue]
  | a :: acts, s, s', h => by
    rw [List.foldlM_cons] at h
    obtain ⟨s1, hact, h⟩ := bind_eq_ok h
    rw [acts_queue h]
    cases a with
    | channel i op =>
      obtain ⟨poller, -, hact⟩ := bind_eq_ok hact
      cases hact
      simp [Dispatcher.queue, UserAct.queued]
    | queueInLoop task =>
      cases hact
      simp [Dispatcher.queue, UserAct.queued]
    | quit =>
      cases hact
      simp [Dispatcher.queue, UserAct.queued]

/-- **The queue of `Loop` is taken out in batches.** A run of `Loop` is a run of
the queue, with the tasks that its steps queue and run. -/
theorem dispatcher_queue {s t : Dispatcher ι τ} {tr : List (Dispatcher ι τ × RoundStep ι τ)}
    (hr : Run (dispatchMachine ι τ) s tr t) :
    Takes (queueMachine τ) s.queue (gathered (fun s a => a.queueOps s) tr) t.queue := by
  refine hr.refines (fun _ _ _ (_ : True) _ _ => trivial) (fun s a u _ hen hst => ?_) trivial
  cases a with
  | poll result grown =>
    simp only [roundEnabled, dispatchMachine, Bool.and_eq_true] at hen
    obtain ⟨⟨⟨hpc, -⟩, -⟩, -⟩ := hen
    obtain ⟨⟨active, events⟩, -, hst⟩ := bind_eq_ok hst
    cases hst
    split at hpc
    case h_1 hpc' =>
      simp only [Dispatcher.queue, RoundPc.functors, RoundStep.queueOps, hpc']
      exact Takes.none
    case h_2 => cases hpc
  | handleEvent acts =>
    simp only [roundEnabled, dispatchMachine] at hen
    split at hen
    case h_2 => cases hen
    case h_1 i channels hpc =>
      simp only [dispatchMachine, roundStep, Dispatcher.handleEvent, hpc] at hst
      rw [acts_queue hst]
      simp only [Dispatcher.queue, RoundPc.functors, hpc]
      exact takes_push _ _
  | takeFunctors =>
    simp only [roundEnabled, dispatchMachine] at hen
    cases hst
    split at hen
    case h_1 hpc => exact Takes.one (by simp [Dispatcher.queue, RoundPc.functors, hpc, allowed, queueMachine]) rfl
    case h_2 => cases hen
  | runFunctor acts =>
    simp only [roundEnabled, dispatchMachine] at hen
    split at hen
    case h_2 => cases hen
    case h_1 task functors hpc =>
      simp only [dispatchMachine, roundStep, Dispatcher.runFunctor, hpc] at hst
      rw [acts_queue hst]
      simp only [Dispatcher.queue, RoundPc.functors, RoundStep.queueOps, hpc]
      have hone : Takes (queueMachine τ) ⟨s.pendingFunctors, task :: functors⟩ [.take task]
          ⟨s.pendingFunctors, functors⟩ := Takes.one rfl rfl
      exact hone.trans (takes_push _ _)
  | endFunctors =>
    simp only [roundEnabled, dispatchMachine] at hen
    cases hst
    split at hen
    case h_1 hpc =>
      simp only [Dispatcher.queue, RoundPc.functors, RoundStep.queueOps, hpc]
      exact Takes.none
    case h_2 => cases hen
  | leave =>
    simp only [roundEnabled, dispatchMachine, Bool.and_eq_true] at hen
    cases hst
    obtain ⟨hpc, -⟩ := hen
    split at hpc
    case h_1 hpc' =>
      simp only [Dispatcher.queue, RoundPc.functors, RoundStep.queueOps, hpc']
      exact Takes.none
    case h_2 => cases hpc
  | queueInLoop task =>
    cases hst
    exact Takes.one trivial rfl
  | quit =>
    cases hst
    exact Takes.none

/-! ### Interruptions -/

/-- An interrupted `epoll_wait` ends the process. -/
theorem roundStep_interrupted (s : Dispatcher ι τ) {a : RoundStep ι τ} (h : a.interrupted = true) :
    roundStep s a = .error .epollWait := by
  cases a with
  | poll result grown =>
    cases result with
    | ready ready => simp [RoundStep.interrupted] at h
    | failed errno => rfl
  | handleEvent | takeFunctors | runFunctor | endFunctors | leave | queueInLoop | quit =>
    simp [RoundStep.interrupted] at h

theorem not_interrupted_of_run {s t : Dispatcher ι τ} {tr : List (Dispatcher ι τ × RoundStep ι τ)}
    (hr : Run (dispatchMachine ι τ) s tr t) : ∀ a ∈ tr.map Prod.snd, a.interrupted = false := by
  intro a ha
  obtain ⟨p, hp, rfl⟩ := List.mem_map.mp ha
  obtain ⟨-, u, hst⟩ := hr.taken p hp
  rw [Bool.eq_false_iff]
  intro hi
  have habort : roundStep p.1 p.2 = .error .epollWait := roundStep_interrupted p.1 hi
  have hok : roundStep p.1 p.2 = .ok u := hst
  rw [habort] at hok
  cases hok

/-- **Interruptions are invisible only where there are none.** Take any run of
`Loop`, and the same inputs with some of the calls of `epoll_wait` that returned
no events interrupted instead: the loop goes through them, with the same
channel events and tasks dispatched and the same registrations at the end,
exactly when no call is interrupted. -/
theorem interruptions_invisible_iff {s t : Dispatcher ι τ} {tr : List (Dispatcher ι τ × RoundStep ι τ)}
    {steps : List (RoundStep ι τ)} (hr : Run (dispatchMachine ι τ) s tr t)
    (hcalm : steps.map RoundStep.calm = tr.map Prod.snd) :
    (∃ tr' t', Run (dispatchMachine ι τ) s tr' t' ∧ tr'.map Prod.snd = steps ∧ t'.dispatched = t.dispatched ∧
        t'.poller.table = t.poller.table ∧ t'.poller.channels = t.poller.channels) ↔
      ∀ a ∈ steps, a.interrupted = false := by
  constructor
  · rintro ⟨tr', t', hr', rfl, -⟩
    exact not_interrupted_of_run hr'
  · intro hnone
    have hid : steps.map RoundStep.calm = steps := by
      calc steps.map RoundStep.calm = steps.map id :=
            List.map_congr_left fun a ha => RoundStep.calm_of_not_interrupted (hnone a ha)
        _ = steps := List.map_id steps
    exact ⟨tr, t, hr, hcalm.symm.trans hid, rfl, rfl, rfl⟩

/-- A poller with one channel, number 3, registered for reading. -/
def oneReader : Poller Unit where
  channel := fun _ => ⟨3, { epollIn := true, epollPri := true }, .kAdded⟩
  channels := Function.update (fun _ => none) 3 (some ())
  table := Function.update (fun _ => none) 3 (some ⟨{ epollIn := true, epollPri := true }, ()⟩)
  failed := []

/-- A round with one event, whose callback queues a task and quits. -/
theorem interruptions_invisible_calm :
    let steps : List (RoundStep Unit ℕ) := [.poll (.ready [⟨{ epollIn := true }, ()⟩]) 0,
      .handleEvent [.queueInLoop 7, .quit], .takeFunctors, .runFunctor [], .endFunctors, .leave]
    let s : Dispatcher Unit ℕ := .create oneReader 16
    let t := final (dispatchMachine Unit ℕ) s steps
    t.dispatched = [.event () { epollIn := true }, .task 7] ∧
      ∃ tr' t', Run (dispatchMachine Unit ℕ) s tr' t' ∧ tr'.map Prod.snd = steps ∧
        t'.dispatched = t.dispatched ∧ t'.poller.table = t.poller.table ∧ t'.poller.channels = t.poller.channels :=
  ⟨by decide +kernel,
    (interruptions_invisible_iff (run_of_accepts _ _ (by decide +kernel)) (by decide +kernel)).mpr
      (by decide +kernel)⟩

/-- The same round, with an interrupted call before it: the run whose first
call returns no events is one of the loop, the interrupted one is not. -/
theorem interruption_aborts :
    let round : List (RoundStep Unit ℕ) := [.takeFunctors, .endFunctors, .poll (.ready [⟨{ epollIn := true }, ()⟩]) 0,
      .handleEvent [.queueInLoop 7, .quit], .takeFunctors, .runFunctor [], .endFunctors, .leave]
    let steps : List (RoundStep Unit ℕ) := .poll (.failed eintr) 0 :: round
    let s : Dispatcher Unit ℕ := .create oneReader 16
    accepts (dispatchMachine Unit ℕ) s (steps.map RoundStep.calm) = true ∧
      (dispatchMachine Unit ℕ).enabled s (.poll (.failed eintr) 0) ∧
      (dispatchMachine Unit ℕ).step s (.poll (.failed eintr) 0) = .error .epollWait ∧
      ¬ ∃ tr' t', Run (dispatchMachine Unit ℕ) s tr' t' ∧ tr'.map Prod.snd = steps := by
  refine ⟨by decide +kernel, by decide +kernel, rfl, ?_⟩
  rintro ⟨tr', t', hr', hsteps⟩
  have hfalse := not_interrupted_of_run hr' (.poll (.failed eintr) 0) (by rw [hsteps]; exact List.mem_cons_self)
  cases hfalse

end machine

end MiniMuduo
