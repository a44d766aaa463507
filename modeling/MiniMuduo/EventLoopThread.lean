/-
# EventLoopThread: publishing a loop, quitting it, joining its thread

`EventLoopThread` of `src/EventLoopThread.cc`, with `Thread::Start` and
`Thread::Join` and the writes of `quit_` in `EventLoop::Loop` and
`EventLoop::Quit`. Two threads take part: the owner calls `StartLoop` and
later the destructor, the other one runs `ThreadFunc`, whose `EventLoop`
lives on its stack. Each step is what a thread does between two points where
the other may come in; a critical section of `mutex_` is one step, and
`cond_.wait` returns in a step that finds `loop_` set. The loop's own code (a
task, a timer, `init_callback_`) may call `Quit` as well.

Nothing orders `Loop`'s own `quit_ = false` before the destructor's `Quit`,
and nothing keeps the loop from leaving `Loop` by itself while the owner is
inside `StartLoop` or holds its copy of `loop_`. The theorems say what the
code guarantees when these orders are respected: a `Quit` is then heard
(`quit_heard`), and the handshake over `loop_` is safe (`handshake_safe`).

Key definitions: `EventLoopThread`, `ThreadStep`, `threadMachine`,
`Placed`, `Heard`, `Safe`.
Key theorems: `step_placed`, `step_heard`, `quit_heard`, `step_safe`,
`handshake_safe`.
-/
import Mathlib.Tactic.Common
import MiniMuduo.Fault
import MiniMuduo.Lib.Fallible
import MiniMuduo.Lib.Run

namespace MiniMuduo

open Fallible Runs

/-- Where the owner is. -/
inductive OwnerPc
  /-- Constructed, `StartLoop` not called. -/
  | created
  /-- In `Thread::Start`, waiting for the new thread's `sem_post`. -/
  | starting
  /-- In `cond_.wait` of `StartLoop`. -/
  | waiting
  /-- `StartLoop` has returned. -/
  | running
  /-- The destructor has begun. -/
  | exiting
  /-- It has copied a `loop_` that was not null, and calls `Quit` next. -/
  | copied
  /-- `Quit` has written `quit_`, `WakeUp` comes next. -/
  | quitSet
  /-- In `Join`; `quitted` says that `Quit` was called before. -/
  | joining (quitted : Bool)
  | joined
  deriving DecidableEq, Repr

/-- Where the new thread is. -/
inductive ThreadPc
  | notStarted
  /-- Created, `sem_post` comes next. -/
  | spawned
  /-- About to construct its `EventLoop`. -/
  | posted
  /-- In `init_callback_`. -/
  | init
  /-- About to publish `loop_`. -/
  | publishing
  /-- `loop_` is published, `Loop()` not called yet. -/
  | published
  /-- In `Loop()`, before `quit_ = false`. -/
  | entered
  /-- At the test of `while (!quit_)`. -/
  | testing
  /-- In the body of the loop. -/
  | iterating
  /-- `Loop()` has returned. -/
  | left
  /-- `loop_` is reset. -/
  | reset
  /-- The `EventLoop` is destroyed and `ThreadFunc` has returned. -/
  | finished
  deriving DecidableEq, Repr

namespace ThreadPc

/-- How far `ThreadFunc` has come. -/
def rank : ThreadPc → ℕ
  | .notStarted => 0
  | .spawned => 1
  | .posted => 2
  | .init => 3
  | .publishing => 4
  | .published => 5
  | .entered => 6
  | .testing | .iterating => 7
  | .left => 8
  | .reset => 9
  | .finished => 10

/-- The thread is inside `Loop()`. -/
def inLoop (pc : ThreadPc) : Bool := 6 ≤ pc.rank && pc.rank ≤ 7

/-- `Loop()` has executed its `quit_ = false`. -/
def begun (pc : ThreadPc) : Bool := 7 ≤ pc.rank

/-- `Loop()` has not returned yet. -/
def beforeReturn (pc : ThreadPc) : Bool := pc.rank ≤ 7

/-- `loop_` is reset, and stays so. -/
def pastReset (pc : ThreadPc) : Bool := 9 ≤ pc.rank

/-- The `EventLoop` on the thread's stack exists. -/
def alive (pc : ThreadPc) : Bool := 3 ≤ pc.rank && pc.rank ≤ 9

end ThreadPc

/-- An `EventLoopThread`, with its two threads. -/
structure EventLoopThread where
  owner : OwnerPc
  thread : ThreadPc
  /-- `loop_ != nullptr`. -/
  loop : Bool
  /-- `quit_` of the thread's `EventLoop`. -/
  quit : Bool
  deriving DecidableEq, Repr

namespace EventLoopThread

/-- The constructor. -/
def create : EventLoopThread := ⟨.created, .notStarted, false, false⟩

/-- `thread_.started()`. -/
def started (s : EventLoopThread) : Bool := s.thread ≠ .notStarted

/-- `if (thread_.started()) thread_.Join()`. -/
def joinIfStarted (quitted : Bool) (s : EventLoopThread) : EventLoopThread :=
  { s with owner := if s.started then .joining quitted else .joined }

/-- A use of the thread's `EventLoop`. -/
def onLoop (s t : EventLoopThread) : Except Fault EventLoopThread :=
  if s.thread.alive then .ok t else .error .useAfterFree

end EventLoopThread

/-- The steps of the two threads. -/
inductive ThreadStep
  /-- The owner: `StartLoop` creates the thread, passes the semaphore, finds
  `loop_` set and returns. -/
  | start
  | passStart
  | returnLoop
  /-- The destructor: it begins, copies `loop_`, writes `quit_` and wakes the
  loop in `Quit`, and returns from `Join`. -/
  | beginDestroy
  | copyLoop
  | quit
  | wakeUp
  | join
  /-- The new thread, up to `Loop()`. -/
  | post
  | construct
  | initQuit
  | initReturn
  | publish
  | enterLoop
  /-- `quit_ = false` of `Loop()`. -/
  | clearQuit
  /-- `while (!quit_)`. -/
  | test
  /-- A channel's callback, a timer or a task of the loop calls `Quit`. -/
  | ownQuit
  /-- The body ends. -/
  | iterate
  /-- `loop_ = nullptr`. -/
  | resetLoop
  /-- `ThreadFunc` returns. -/
  | finish
  deriving DecidableEq, Repr

/-- Which steps can come next. -/
def threadEnabled (s : EventLoopThread) : ThreadStep → Bool
  | .start => s.owner = .created
  | .passStart => s.owner = .starting && 2 ≤ s.thread.rank
  | .returnLoop => s.owner = .waiting && s.loop
  | .beginDestroy => s.owner = .created || s.owner = .running
  | .copyLoop => s.owner = .exiting
  | .quit => s.owner = .copied
  | .wakeUp => s.owner = .quitSet
  | .join => (s.owner = .joining true || s.owner = .joining false) && s.thread = .finished
  | .post => s.thread = .spawned
  | .construct => s.thread = .posted
  | .initQuit => s.thread = .init
  | .initReturn => s.thread = .init
  | .publish => s.thread = .publishing
  | .enterLoop => s.thread = .published
  | .clearQuit => s.thread = .entered
  | .test => s.thread = .testing
  | .ownQuit => s.thread = .iterating
  | .iterate => s.thread = .iterating
  | .resetLoop => s.thread = .left
  | .finish => s.thread = .reset

/-- One step. -/
def threadStep (s : EventLoopThread) : ThreadStep → Except Fault EventLoopThread
  | .start => .ok { s with owner := .starting, thread := .spawned }
  | .passStart => .ok { s with owner := .waiting }
  | .returnLoop => .ok { s with owner := .running }
  | .beginDestroy => .ok { s with owner := .exiting }
  | .copyLoop => .ok (if s.loop then { s with owner := .copied } else s.joinIfStarted false)
  | .quit => s.onLoop { s with owner := .quitSet, quit := true }
  | .wakeUp => s.onLoop (s.joinIfStarted true)
  | .join => .ok { s with owner := .joined }
  | .post => .ok { s with thread := .posted }
  | .construct => .ok { s with thread := .init, quit := false }
  | .initQuit => .ok { s with quit := true }
  | .initReturn => .ok { s with thread := .publishing }
  | .publish => .ok { s with thread := .published, loop := true }
  | .enterLoop => .ok { s with thread := .entered }
  | .clearQuit => .ok { s with thread := .testing, quit := false }
  | .test => .ok { s with thread := if s.quit then .left else .iterating }
  | .ownQuit => .ok { s with quit := true }
  | .iterate => .ok { s with thread := .testing }
  | .resetLoop => .ok { s with thread := .reset, loop := false }
  | .finish => .ok { s with thread := .finished }

/-- The interleavings of the two threads. -/
def threadMachine : Machine EventLoopThread ThreadStep Fault :=
  ⟨fun s a => threadEnabled s a = true, threadStep⟩

instance (s : EventLoopThread) (a : ThreadStep) : Decidable (threadMachine.enabled s a) :=
  inferInstanceAs (Decidable (_ = true))

/-! ### Where the two threads can be -/

/-- How far `ThreadFunc` has come when the owner is here. -/
def OwnerPc.Expects : OwnerPc → ℕ → Prop
  | .created, r => r = 0
  | .starting, r => 1 ≤ r
  | .waiting, r => 2 ≤ r
  | .running, r => 5 ≤ r
  | .exiting, r => r = 0 ∨ 5 ≤ r
  | .copied, r => 5 ≤ r
  | .quitSet, r => 5 ≤ r
  | .joining true, r => 5 ≤ r
  | .joining false, r => 9 ≤ r
  | .joined, _ => True

theorem OwnerPc.Expects.mono {pc : OwnerPc} {r r' : ℕ} (h : pc.Expects r) (hpos : 1 ≤ r) (hle : r ≤ r') :
    pc.Expects r' := by
  unfold Expects at h ⊢
  split at h <;> omega

/-- `loop_` is set exactly between its publication and its reset, and the
owner waits for the publication. -/
structure Placed (s : EventLoopThread) : Prop where
  loop : s.loop = true ↔ 5 ≤ s.thread.rank ∧ s.thread.rank ≤ 8
  owner : s.owner.Expects s.thread.rank

section steps

variable {s s' : EventLoopThread}

theorem create_placed : Placed .create := ⟨by decide, rfl⟩

/-- A step of the owner. -/
theorem Placed.ownerStep (h : Placed s) (hthread : s'.thread = s.thread) (hloop : s'.loop = s.loop)
    (howner : s'.owner.Expects s.thread.rank) : Placed s' := by
  constructor
  · rw [hloop, hthread]
    exact h.loop
  · rwa [hthread]

/-- A step of the new thread. -/
theorem Placed.threadStep (h : Placed s) (pc pc' : ThreadPc) (hpc : s.thread = pc) (hpc' : s'.thread = pc')
    (howner : s'.owner = s.owner) (hpos : 1 ≤ pc.rank) (hle : pc.rank ≤ pc'.rank)
    (hloop : s'.loop = true ↔ 5 ≤ pc'.rank ∧ pc'.rank ≤ 8) : Placed s' := by
  subst hpc hpc'
  refine ⟨hloop, ?_⟩
  rw [howner]
  exact h.owner.mono hpos hle

theorem onLoop_ok {t : EventLoopThread} (h : s.onLoop t = .ok s') : s.thread.alive = true ∧ s' = t := by
  unfold EventLoopThread.onLoop at h
  split at h
  · exact ⟨‹_›, (Except.ok.inj h).symm⟩
  · cases h

end steps

/-- What a step can do: the owner moves and leaves the thread alone, or the
thread moves on and leaves the owner alone; `start` moves both. -/
inductive Moves (s : EventLoopThread) : ThreadStep → EventLoopThread → Prop
  | start : s.owner = .created → Moves s .start { s with owner := .starting, thread := .spawned }
  | passStart : s.owner = .starting → 2 ≤ s.thread.rank → Moves s .passStart { s with owner := .waiting }
  | returnLoop : s.owner = .waiting → s.loop = true → Moves s .returnLoop { s with owner := .running }
  | beginDestroy : s.owner = .created ∨ s.owner = .running →
      Moves s .beginDestroy { s with owner := .exiting }
  | copySet : s.owner = .exiting → s.loop = true → Moves s .copyLoop { s with owner := .copied }
  | copyNull : s.owner = .exiting → s.loop = false → Moves s .copyLoop (s.joinIfStarted false)
  | quit : s.owner = .copied → s.thread.alive = true → Moves s .quit { s with owner := .quitSet, quit := true }
  | wakeUp : s.owner = .quitSet → s.thread.alive = true → Moves s .wakeUp (s.joinIfStarted true)
  | join (b : Bool) : s.owner = .joining b → s.thread = .finished → Moves s .join { s with owner := .joined }
  | ownQuit {a : ThreadStep} : s.thread = .init ∨ s.thread = .iterating → Moves s a { s with quit := true }
  | clear {a : ThreadStep} {pc : ThreadPc} : (s.thread = .posted ∧ pc = .init ∧ a = .construct) ∨
      (s.thread = .entered ∧ pc = .testing ∧ a = .clearQuit) → Moves s a { s with thread := pc, quit := false }
  | publish : s.thread = .publishing → Moves s .publish { s with thread := .published, loop := true }
  | resetLoop : s.thread = .left → Moves s .resetLoop { s with thread := .reset, loop := false }
  | finish : s.thread = .reset → Moves s .finish { s with thread := .finished }
  /-- The other steps of the thread, on the same side of the publication, of
  the reset and of the end. -/
  | onward {a : ThreadStep} {pc : ThreadPc} : 1 ≤ s.thread.rank → s.thread.rank ≤ pc.rank → pc.rank ≤ 8 →
      (5 ≤ pc.rank → 5 ≤ s.thread.rank) → (s.thread.rank ≤ 7 → 8 ≤ pc.rank → s.quit = true) →
      Moves s a { s with thread := pc }

theorem moves_of_step {s s' : EventLoopThread} {a : ThreadStep} (hen : threadEnabled s a = true)
    (hst : threadStep s a = .ok s') : Moves s a s' := by
  -- a step of the thread from one place to the next
  have honward : ∀ {pc pc' : ThreadPc}, s.thread = pc → 1 ≤ pc.rank → pc.rank ≤ pc'.rank → pc'.rank ≤ 8 →
      (5 ≤ pc'.rank → 5 ≤ pc.rank) → (pc.rank ≤ 7 → 8 ≤ pc'.rank → s.quit = true) →
      Moves s a { s with thread := pc' } := by
    intro pc pc' h
    subst h
    exact .onward
  unfold threadEnabled at hen
  unfold threadStep at hst
  cases a with
  | start =>
    obtain rfl := Except.ok.inj hst
    exact .start (of_decide_eq_true hen)
  | passStart =>
    obtain rfl := Except.ok.inj hst
    simp only [Bool.and_eq_true, decide_eq_true_eq] at hen
    exact .passStart hen.1 hen.2
  | returnLoop =>
    obtain rfl := Except.ok.inj hst
    simp only [Bool.and_eq_true, decide_eq_true_eq] at hen
    exact .returnLoop hen.1 hen.2
  | beginDestroy =>
    obtain rfl := Except.ok.inj hst
    simp only [Bool.or_eq_true, decide_eq_true_eq] at hen
    exact .beginDestroy hen
  | copyLoop =>
    have howner := of_decide_eq_true hen
    obtain rfl := Except.ok.inj hst
    by_cases hloop : s.loop = true
    · rw [if_pos hloop]
      exact .copySet howner hloop
    · rw [if_neg hloop]
      exact .copyNull howner (Bool.not_eq_true _ ▸ hloop)
  | quit =>
    obtain ⟨halive, rfl⟩ := onLoop_ok hst
    exact .quit (of_decide_eq_true hen) halive
  | wakeUp =>
    obtain ⟨halive, rfl⟩ := onLoop_ok hst
    exact .wakeUp (of_decide_eq_true hen) halive
  | join =>
    obtain rfl := Except.ok.inj hst
    simp only [Bool.and_eq_true, Bool.or_eq_true, decide_eq_true_eq] at hen
    rcases hen with ⟨howner | howner, hfin⟩
    · exact .join true howner hfin
    · exact .join false howner hfin
  | post =>
    obtain rfl := Except.ok.inj hst
    exact honward (of_decide_eq_true hen) (by decide) (by decide) (by decide) (by decide)
      (fun _ h => absurd h (by decide))
  | construct =>
    obtain rfl := Except.ok.inj hst
    exact .clear (.inl ⟨of_decide_eq_true hen, rfl, rfl⟩)
  | initQuit =>
    obtain rfl := Except.ok.inj hst
    exact .ownQuit (.inl (of_decide_eq_true hen))
  | initReturn =>
    obtain rfl := Except.ok.inj hst
    exact honward (of_decide_eq_true hen) (by decide) (by decide) (by decide) (by decide)
      (fun _ h => absurd h (by decide))
  | publish =>
    obtain rfl := Except.ok.inj hst
    exact .publish (of_decide_eq_true hen)
  | enterLoop =>
    obtain rfl := Except.ok.inj hst
    exact honward (of_decide_eq_true hen) (by decide) (by decide) (by decide) (by decide)
      (fun _ h => absurd h (by decide))
  | clearQuit =>
    obtain rfl := Except.ok.inj hst
    exact .clear (.inr ⟨of_decide_eq_true hen, rfl, rfl⟩)
  | test =>
    have hpc := of_decide_eq_true hen
    obtain rfl := Except.ok.inj hst
    by_cases hquit : s.quit = true
    · rw [if_pos hquit]
      exact honward hpc (by decide) (by decide) (by decide) (by decide) (fun _ _ => hquit)
    · rw [if_neg hquit]
      exact honward hpc (by decide) (by decide) (by decide) (by decide) (fun _ h => absurd h (by decide))
  | ownQuit =>
    obtain rfl := Except.ok.inj hst
    exact .ownQuit (.inr (of_decide_eq_true hen))
  | iterate =>
    obtain rfl := Except.ok.inj hst
    exact honward (of_decide_eq_true hen) (by decide) (by decide) (by decide) (by decide)
      (fun _ h => absurd h (by decide))
  | resetLoop =>
    obtain rfl := Except.ok.inj hst
    exact .resetLoop (of_decide_eq_true hen)
  | finish =>
    obtain rfl := Except.ok.inj hst
    exact .finish (of_decide_eq_true hen)

section steps

variable {s s' : EventLoopThread} {a : ThreadStep}

/-- The owner calls `Join`: the thread was started. -/
theorem joinIfStarted_owner (hpos : 1 ≤ s.thread.rank) (b : Bool) :
    s.joinIfStarted b = { s with owner := .joining b } := by
  have hstarted : s.started = true := by
    apply decide_eq_true
    intro h
    rw [h] at hpos
    exact absurd hpos (by decide)
  unfold EventLoopThread.joinIfStarted
  rw [if_pos hstarted]

theorem step_placed (h : Placed s) (hm : Moves s a s') : Placed s' := by
  have howner := h.owner
  have hloop := h.loop
  cases hm with
  | start hpc =>
    rw [hpc] at howner
    have hzero : s.thread.rank = 0 := howner
    rw [hzero] at hloop
    exact ⟨hloop.trans (by decide : (5 ≤ 0 ∧ 0 ≤ 8) ↔ 5 ≤ 1 ∧ 1 ≤ 8), Nat.le_refl 1⟩
  | passStart _ hr => exact h.ownerStep rfl rfl hr
  | returnLoop _ hset => exact h.ownerStep rfl rfl (hloop.mp hset).1
  | beginDestroy hpc =>
    refine h.ownerStep rfl rfl ?_
    rcases hpc with hpc | hpc
    · rw [hpc] at howner
      exact .inl howner
    · rw [hpc] at howner
      exact .inr howner
  | copySet _ hset => exact h.ownerStep rfl rfl (hloop.mp hset).1
  | copyNull hpc hnull =>
    rw [hpc] at howner
    rcases howner with hzero | hpub
    · -- never started
      have hnot : s.started = false := by
        apply decide_eq_false
        rw [not_not]
        cases hth : s.thread <;> rw [hth] at hzero <;> first | rfl | cases hzero
      unfold EventLoopThread.joinIfStarted
      rw [if_neg (by rw [hnot]; decide)]
      exact h.ownerStep rfl rfl trivial
    · rw [joinIfStarted_owner (by omega)]
      have hreset : ¬ (5 ≤ s.thread.rank ∧ s.thread.rank ≤ 8) := by
        rw [← hloop, hnull]
        decide
      have hr : 9 ≤ s.thread.rank := by omega
      exact h.ownerStep rfl rfl hr
  | quit hpc _ =>
    rw [hpc] at howner
    exact h.ownerStep rfl rfl howner
  | wakeUp hpc _ =>
    rw [hpc] at howner
    have hpub : 5 ≤ s.thread.rank := howner
    rw [joinIfStarted_owner (by omega)]
    exact h.ownerStep rfl rfl hpub
  | join _ _ _ => exact h.ownerStep rfl rfl trivial
  | ownQuit _ => exact ⟨hloop, howner⟩
  | clear hpc =>
    rcases hpc with ⟨hpc, rfl, -⟩ | ⟨hpc, rfl, -⟩
    · rw [hpc] at hloop
      exact h.threadStep .posted .init hpc rfl rfl (by decide) (by decide) (hloop.trans (by decide))
    · rw [hpc] at hloop
      exact h.threadStep .entered .testing hpc rfl rfl (by decide) (by decide) (hloop.trans (by decide))
  | publish hpc =>
    exact h.threadStep .publishing .published hpc rfl rfl (by decide) (by decide) (iff_of_true rfl (by decide))
  | resetLoop hpc =>
    exact h.threadStep .left .reset hpc rfl rfl (by decide) (by decide) (iff_of_false Bool.false_ne_true (by decide))
  | finish hpc =>
    rw [hpc] at hloop
    exact h.threadStep .reset .finished hpc rfl rfl (by decide) (by decide) (hloop.trans (by decide))
  | @onward _ pc hpos hle hlast hpub _ =>
    refine h.threadStep s.thread pc rfl rfl rfl hpos hle (hloop.trans ?_)
    constructor
    · intro hr
      exact ⟨by omega, hlast⟩
    · intro hr
      exact ⟨hpub hr.1, by omega⟩

/-! ### Is a Quit heard? -/

/-- After the destructor's write of `quit_` the loop has begun and `quit_`
is set. -/
def Heard (s : EventLoopThread) : Prop :=
  s.owner = .quitSet ∨ s.owner = .joining true → s.thread.begun = true ∧ s.quit = true

/-- A step leaves the owner where it is, and the loop begun with `quit_` set. -/
theorem Heard.keep (h : Heard s) (howner : s'.owner = s.owner) (hle : s.thread.rank ≤ s'.thread.rank)
    (hquit : s.quit = true → s'.quit = true) : Heard s' := by
  intro hpc
  rw [howner] at hpc
  obtain ⟨hbegun, hset⟩ := h hpc
  have hr : 7 ≤ s.thread.rank := of_decide_eq_true hbegun
  exact ⟨decide_eq_true (Nat.le_trans hr hle), hquit hset⟩

theorem heard_of_owner (hset : s.owner ≠ .quitSet) (hjoin : s.owner ≠ .joining true) : Heard s := by
  rintro (hpc | hpc)
  · exact absurd hpc hset
  · exact absurd hpc hjoin

/-- One step, where `quit_ = false` of `Loop()` comes before the destructor's
`quit_ = true`. -/
theorem step_heard (hp : Placed s) (h : Heard s) (horder : a = .quit → s.thread.begun = true)
    (hm : Moves s a s') : Heard s' := by
  cases hm with
  | start _ => exact heard_of_owner nofun nofun
  | passStart _ _ => exact heard_of_owner nofun nofun
  | returnLoop _ _ => exact heard_of_owner nofun nofun
  | beginDestroy _ => exact heard_of_owner nofun nofun
  | copySet _ _ => exact heard_of_owner nofun nofun
  | copyNull _ _ =>
    unfold EventLoopThread.joinIfStarted
    split
    · exact heard_of_owner nofun nofun
    · exact heard_of_owner nofun nofun
  | quit _ _ => exact fun _ => ⟨horder rfl, rfl⟩
  | wakeUp hpc _ =>
    have hpub := hp.owner
    rw [hpc] at hpub
    have hr : 5 ≤ s.thread.rank := hpub
    rw [joinIfStarted_owner (by omega)]
    exact fun _ => h (.inl hpc)
  | join _ _ _ => exact heard_of_owner nofun nofun
  | ownQuit _ => exact h.keep rfl (Nat.le_refl _) fun _ => rfl
  | clear hpc =>
    -- the owner has not written `quit_` yet
    intro howner
    have hr : 7 ≤ s.thread.rank := of_decide_eq_true (h howner).1
    rcases hpc with ⟨hpc, -⟩ | ⟨hpc, -⟩
    · rw [hpc] at hr
      exact absurd hr (by decide)
    · rw [hpc] at hr
      exact absurd hr (by decide)
  | publish hpc =>
    have hle : s.thread.rank ≤ 5 := by
      rw [hpc]
      decide
    exact h.keep rfl hle id
  | resetLoop hpc =>
    have hle : s.thread.rank ≤ 9 := by
      rw [hpc]
      decide
    exact h.keep rfl hle id
  | finish hpc =>
    have hle : s.thread.rank ≤ 10 := by
      rw [hpc]
      decide
    exact h.keep rfl hle id
  | onward _ hle _ _ _ => exact h.keep rfl hle id

end steps

/-- **When a Quit is heard.** In every interleaving in which the destructor's
`Quit()` writes `quit_` after `Loop()` has executed its own `quit_ = false`:
once that `Quit()` has returned, `quit_` is set until `Loop()` returns, and no
state has the destructor in `Join()` and the thread inside `Loop()` with
`quit_` clear. -/
theorem quit_heard {tr : List (EventLoopThread × ThreadStep)} {s : EventLoopThread}
    (hr : Run threadMachine .create tr s) (horder : ∀ p ∈ tr, p.2 = .quit → p.1.thread.begun = true) :
    (s.owner = .joining true → s.thread.beforeReturn = true → s.quit = true) ∧
      ¬ ∃ quitted, s.owner = .joining quitted ∧ s.thread.inLoop = true ∧ s.quit = false := by
  have hstep : ∀ t a u, Placed t ∧ Heard t → threadEnabled t a = true → (a = .quit → t.thread.begun = true) →
      threadStep t a = .ok u → Placed u ∧ Heard u := by
    intro t a u ht hen hP hst
    have hm := moves_of_step hen hst
    exact ⟨step_placed ht.1 hm, step_heard ht.1 ht.2 hP hm⟩
  obtain ⟨hp, hh⟩ := hr.invariant hstep ⟨create_placed, heard_of_owner nofun nofun⟩ horder
  refine ⟨fun hpc _ => (hh (.inr hpc)).2, ?_⟩
  rintro ⟨quitted, hpc, hin, hquit⟩
  cases quitted with
  | true =>
    rw [(hh (.inr hpc)).2] at hquit
    cases hquit
  | false =>
    -- `loop_` was null, so the thread had left its loop
    have hreset := hp.owner
    rw [hpc] at hreset
    have hr : 9 ≤ s.thread.rank := hreset
    simp only [ThreadPc.inLoop, Bool.and_eq_true, decide_eq_true_eq] at hin
    omega

/-- The destructor's `Quit()` comes while the loop is in its first
iteration. -/
theorem quit_heard_first_iteration :
    let steps : List ThreadStep := [.start, .post, .construct, .initReturn, .publish, .passStart, .returnLoop,
      .enterLoop, .clearQuit, .test, .beginDestroy, .copyLoop, .quit, .wakeUp]
    let s := final threadMachine .create steps
    (s.owner = .joining true ∧ s.thread.inLoop = true) ∧ s.quit = true :=
  ⟨by decide +kernel,
    (quit_heard (run_of_accepts _ _ (by decide +kernel)) (by decide +kernel)).1 (by decide +kernel)
      (by decide +kernel)⟩

/-- `StartLoop` returns when `loop_` is published; the destructor's `Quit()`
runs before `Loop()` begins and is then overwritten: the thread is inside
`Loop()` with `quit_` clear, and the destructor is in `Join()`. -/
theorem quit_before_loop_is_lost :
    ∃ tr s, Run threadMachine .create tr s ∧ s.owner = .joining true ∧ s.thread.inLoop = true ∧ s.quit = false :=
  let steps : List ThreadStep := [.start, .post, .construct, .initReturn, .publish, .passStart, .returnLoop,
    .beginDestroy, .copyLoop, .quit, .wakeUp, .enterLoop, .clearQuit]
  ⟨trace threadMachine .create steps, final threadMachine .create steps, run_of_accepts _ _ (by decide +kernel),
    by decide +kernel, by decide +kernel, by decide +kernel⟩

/-! ### Is the handshake over `loop_` safe? -/

/-- `ThreadFunc` has not reset `loop_` while the owner is inside `StartLoop`,
and its `EventLoop` exists while the owner is about to call `Quit` on it. -/
structure Safe (s : EventLoopThread) : Prop where
  starting : s.owner = .starting ∨ s.owner = .waiting → s.thread.rank ≤ 8
  copied : s.owner = .copied → s.thread.rank ≤ 9

/-- `ThreadFunc` resets `loop_` after `StartLoop` has returned, and does not
end between the destructor's copy of `loop_` and its call of `Quit()`. -/
def InTurn (s : EventLoopThread) (a : ThreadStep) : Prop :=
  (a = .resetLoop → s.owner ≠ .starting ∧ s.owner ≠ .waiting) ∧ (a = .finish → s.owner ≠ .copied)

instance (s : EventLoopThread) (a : ThreadStep) : Decidable (InTurn s a) := inferInstanceAs (Decidable (_ ∧ _))

section steps

variable {s s' : EventLoopThread} {a : ThreadStep}

theorem safe_of_owner (hstart : s.owner ≠ .starting) (hwait : s.owner ≠ .waiting) (hcopy : s.owner ≠ .copied) :
    Safe s := by
  refine ⟨?_, fun hpc => absurd hpc hcopy⟩
  rintro (hpc | hpc)
  · exact absurd hpc hstart
  · exact absurd hpc hwait

theorem safe_of_rank (hr : s.thread.rank ≤ 8) : Safe s := ⟨fun _ => hr, fun _ => Nat.le_trans hr (by decide)⟩

/-- One step in turn. -/
theorem step_safe (hp : Placed s) (h : Safe s) (hturn : InTurn s a) (hm : Moves s a s') : Safe s' := by
  cases hm with
  | start _ => exact safe_of_rank (by simp [ThreadPc.rank])
  | passStart hpc _ => exact safe_of_rank (h.starting (.inl hpc))
  | returnLoop _ _ => exact safe_of_owner nofun nofun nofun
  | beginDestroy _ => exact safe_of_owner nofun nofun nofun
  | copySet _ hset => exact safe_of_rank (hp.loop.mp hset).2
  | copyNull _ _ =>
    unfold EventLoopThread.joinIfStarted
    split
    · exact safe_of_owner nofun nofun nofun
    · exact safe_of_owner nofun nofun nofun
  | quit _ _ => exact safe_of_owner nofun nofun nofun
  | wakeUp _ _ =>
    unfold EventLoopThread.joinIfStarted
    split
    · exact safe_of_owner nofun nofun nofun
    · exact safe_of_owner nofun nofun nofun
  | join _ _ _ => exact safe_of_owner nofun nofun nofun
  | ownQuit _ => exact ⟨h.starting, h.copied⟩
  | clear hpc =>
    rcases hpc with ⟨-, rfl, -⟩ | ⟨-, rfl, -⟩
    · exact safe_of_rank (by simp [ThreadPc.rank])
    · exact safe_of_rank (by simp [ThreadPc.rank])
  | publish _ => exact safe_of_rank (by simp [ThreadPc.rank])
  | resetLoop _ =>
    obtain ⟨hstart, hwait⟩ := hturn.1 rfl
    refine ⟨?_, fun _ => Nat.le_refl 9⟩
    rintro (hpc | hpc)
    · exact absurd hpc hstart
    · exact absurd hpc hwait
  | finish hpc =>
    refine ⟨fun howner => ?_, fun howner => absurd howner (hturn.2 rfl)⟩
    have hr := h.starting howner
    rw [hpc] at hr
    exact absurd hr (by decide)
  | onward _ _ hlast _ _ => exact safe_of_rank hlast

end steps

/-- **When the handshake is safe.** In every interleaving in which
`ThreadFunc` resets `loop_` only after `StartLoop` has returned, and does not
end between the destructor's copy of `loop_` and its call of `Quit()`: no
state has `StartLoop` waiting with `loop_` reset for good, and the `EventLoop`
the destructor calls `Quit()` on exists. -/
theorem handshake_safe {tr : List (EventLoopThread × ThreadStep)} {s : EventLoopThread}
    (hr : Run threadMachine .create tr s) (hturn : ∀ p ∈ tr, InTurn p.1 p.2) :
    ¬ (s.owner = .waiting ∧ s.thread.pastReset = true) ∧ (s.owner = .copied → s.thread.alive = true) := by
  have hstep : ∀ t a u, Placed t ∧ Safe t → threadEnabled t a = true → InTurn t a →
      threadStep t a = .ok u → Placed u ∧ Safe u := by
    intro t a u ht hen hP hst
    have hm := moves_of_step hen hst
    exact ⟨step_placed ht.1 hm, step_safe ht.1 ht.2 hP hm⟩
  obtain ⟨hp, hs⟩ := hr.invariant hstep ⟨create_placed, safe_of_owner nofun nofun nofun⟩ hturn
  constructor
  · rintro ⟨hpc, hreset⟩
    have hle := hs.starting (.inr hpc)
    have hge : 9 ≤ s.thread.rank := of_decide_eq_true hreset
    omega
  · intro hpc
    have hle := hs.copied hpc
    have hpub := hp.owner
    rw [hpc] at hpub
    have hge : 5 ≤ s.thread.rank := hpub
    simp only [ThreadPc.alive, Bool.and_eq_true, decide_eq_true_eq]
    omega

/-- The loop quits by itself after the destructor has copied `loop_`, and has
only reset `loop_` when the destructor calls `Quit()`. -/
theorem handshake_safe_own_quit :
    let steps : List ThreadStep := [.start, .post, .construct, .initReturn, .publish, .passStart, .returnLoop,
      .enterLoop, .clearQuit, .test, .beginDestroy, .copyLoop, .ownQuit, .iterate, .test, .resetLoop]
    let s := final threadMachine .create steps
    (s.owner = .copied ∧ s.loop = false) ∧ s.thread.alive = true :=
  ⟨by decide +kernel,
    (handshake_safe (run_of_accepts _ _ (by decide +kernel)) (by decide +kernel)).2 (by decide +kernel)⟩

/-- Two interleavings with a loop that quits by itself: it resets `loop_`
before `StartLoop` looks, so `StartLoop` waits for good; and it ends after the
destructor's copy of `loop_`, so `Quit()` is called on a destroyed object. -/
theorem own_quit_breaks_handshake :
    (∃ tr s, Run threadMachine .create tr s ∧ s.owner = .waiting ∧ s.thread.pastReset = true) ∧
      ∃ tr s, Run threadMachine .create tr s ∧ s.owner = .copied ∧ s.thread = .finished ∧
        threadStep s .quit = .error .useAfterFree :=
  let early : List ThreadStep := [.start, .post, .construct, .initReturn, .publish, .enterLoop, .clearQuit, .test,
    .ownQuit, .iterate, .test, .resetLoop, .passStart]
  let late : List ThreadStep := [.start, .post, .construct, .initReturn, .publish, .passStart, .returnLoop,
    .enterLoop, .clearQuit, .test, .beginDestroy, .copyLoop, .ownQuit, .iterate, .test, .resetLoop, .finish]
  ⟨⟨trace threadMachine .create early, final threadMachine .create early,
      run_of_accepts _ _ (by decide +kernel), by decide +kernel, by decide +kernel⟩,
    trace threadMachine .create late, final threadMachine .create late, run_of_accepts _ _ (by decide +kernel),
      by decide +kernel, by decide +kernel, eq_error_of_fault? (by decide +kernel)⟩

end MiniMuduo
