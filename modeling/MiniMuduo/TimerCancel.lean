/-
# Cancelling a timer on the loop's thread

`CancelTimer` only queues `CancelTimerInLoop`, and the expired timers are
called while the active channels are handled, before the tasks run. A timer
that code on the loop's thread has cancelled is therefore still called if
`HandleRead` finds it expired while the task waits
(`cancelled_timer_called`). When that does not happen the timer stays queued
until its task deletes it, and it is never called again
(`cancel_at_once`).

A timer is gone when no timer at hand has its number (`Gone`); it is then
gone for good. `NoRunAfter E log` says of a log, newest first, that no timer
is called after its event `E`.

Key definitions: `Gone`, `NoRunAfter`, `Doomed`, `CancelledInTime`.
Key theorems: `Doomed.move`, `NoRunAfter.move`, `cancel_at_once`.
-/
import MiniMuduo.TimerSerial

namespace MiniMuduo

open Fallible Runs Word OrderedSet TimerQueue

/-- Timer `k` is deleted, or not yet created. -/
def Gone (s : TimerLoop) (k : ℕ) : Prop := ∀ t, s.serial t = k → s.queue.heap t = none

/-- No timer is called after its event `E`, newest first. -/
def NoRunAfter (E : ℕ → TimerEvent) (log : List TimerEvent) : Prop :=
  log.Pairwise fun later earlier => ∀ k, earlier = E k → later ≠ .ran k

section Logs

variable {s s' : TimerLoop} {a : TimerLoopStep} {k : ℕ}

/-- What is deleted does not come back: a new timer has a new number. -/
theorem Gone.move (h : Gone s k) (hk : k < s.made) (hm : TimerMove s a s') : Gone s' k := by
  intro t ht
  by_contra hlive
  obtain ⟨timer', hheap⟩ := Option.ne_none_iff_exists'.mp hlive
  rcases hm.origin hheap with ⟨timer, hold, hserial⟩ | hserial
  · rw [h t (hserial.symm.trans ht)] at hold
    cases hold
  · exact hk.ne (ht.symm.trans hserial)

/-- When a move writes an event into the log. -/
def Pushed (s s' : TimerLoop) : TimerEvent → Prop
  | .ran k => ∃ t ∈ s.place.held, s.serial t = k
  | .cancelled k => ∃ id ∈ s.queue.activeTimers, s.serial id.1 = k ∧ s'.serial id.1 = k ∧
      id ∈ s'.queue.activeTimers ∧ .cancelTimerInLoop id ∈ s'.queue.tasks
  | .added k => k < s'.made ∨ ∃ marks, s.marks = .add k :: marks
  | .cancelRan k => (∃ marks, s.marks = .cancel (some k) :: marks) ∧ s.place.held = [] ∧
      ∀ id tasks, s.queue.tasks = .cancelTimerInLoop id :: tasks → id ∈ s.queue.activeTimers →
        s'.queue.heap id.1 = none

theorem pushed_of_mark {mark : TaskMark} {marks : List TaskMark} {left : ℕ} (hplace : s.place = .functors left)
    (hmarks : s.marks = mark :: marks)
    (hfree : ∀ id tasks, s.queue.tasks = .cancelTimerInLoop id :: tasks → id ∈ s.queue.activeTimers →
      s'.queue.heap id.1 = none)
    (hlog : s'.log = mark.events ++ s.log) :
    s'.log = s.log ∨ ∃ e, s'.log = e :: s.log ∧ Pushed s s' e := by
  cases mark with
  | add k => exact .inr ⟨.added k, hlog, .inr ⟨marks, hmarks⟩⟩
  | cancel k =>
    cases k with
    | none => exact .inl hlog
    | some k =>
      refine .inr ⟨.cancelRan k, hlog, ⟨marks, hmarks⟩, ?_, hfree⟩
      rw [hplace]
      rfl

/-- A move writes at most one event. -/
theorem TimerMove.pushed (hm : TimerMove s a s') : s'.log = s.log ∨ ∃ e, s'.log = e :: s.log ∧ Pushed s s' e := by
  cases hm with
  | added => exact .inr ⟨.added _, rfl, .inl (Nat.lt_succ_self _)⟩
  | @cancelled onLoop k id hid =>
    by_cases hq : s.cancelsQueued onLoop id = true
    · have hmem : id ∈ s.queue.activeTimers := by
        simp only [TimerLoop.cancelsQueued, Bool.and_eq_true, decide_eq_true_eq] at hq
        exact hq.2
      refine .inr ⟨.cancelled (s.serial id.1), if_pos hq, id, hmem, rfl, rfl, hmem, ?_⟩
      exact List.mem_append_right _ List.mem_cons_self
    · exact .inl (if_neg hq)
  | @called now t called todo timer hplace hheap =>
    refine .inr ⟨.ran (s.serial t), rfl, t, ?_, rfl⟩
    rw [hplace]
    exact List.mem_append_right _ List.mem_cons_self
  | ranAdd hplace hmarks htasks =>
    refine pushed_of_mark hplace hmarks (fun id tasks htasks' => ?_) rfl
    cases htasks.symm.trans htasks'
  | ranCancel hplace hmarks htasks _ _ _ hqueue =>
    refine pushed_of_mark hplace hmarks (fun id tasks htasks' _ => ?_) rfl
    obtain ⟨heq, -⟩ := List.cons.inj (htasks.symm.trans htasks')
    obtain rfl := TimerTask.cancelTimerInLoop.inj heq
    subst hqueue
    exact Function.update_self ..
  | ranCancelGone hplace hmarks htasks _ hgone =>
    refine pushed_of_mark hplace hmarks (fun id tasks htasks' hactive => ?_) rfl
    obtain ⟨heq, -⟩ := List.cons.inj (htasks.symm.trans htasks')
    obtain rfl := TimerTask.cancelTimerInLoop.inj heq
    exact absurd hactive hgone
  | _ => exact .inl rfl

theorem TimerMove.mem_log (hm : TimerMove s a s') {e : TimerEvent} (he : e ∈ s.log) : e ∈ s'.log := by
  rcases hm.pushed with hlog | ⟨e', hlog, -⟩
  · rwa [hlog]
  · rw [hlog]
    exact List.mem_cons_of_mem _ he

theorem TimerMove.pushed_of_mem (hm : TimerMove s a s') {e : TimerEvent} (he : e ∈ s'.log) :
    e ∈ s.log ∨ Pushed s s' e := by
  rcases hm.pushed with hlog | ⟨e', hlog, hpushed⟩
  · rw [hlog] at he
    exact .inl he
  · rw [hlog] at he
    rcases List.mem_cons.mp he with rfl | he
    · exact .inr hpushed
    · exact .inl he

/-- If no timer in hand has had its event `E`, none is called after it. -/
theorem NoRunAfter.move {E : ℕ → TimerEvent} (h : NoRunAfter E s.log) (hm : TimerMove s a s')
    (hE : ∀ t ∈ s.place.held, E (s.serial t) ∉ s.log) : NoRunAfter E s'.log := by
  rcases hm.pushed with hlog | ⟨e, hlog, hpushed⟩
  · rwa [hlog]
  · rw [hlog]
    refine List.pairwise_cons.mpr ⟨fun earlier hmem k hk hran => ?_, h⟩
    subst hk hran
    obtain ⟨t, ht, rfl⟩ := hpushed
    exact hE t ht hmem

/-! ### A cancelled timer that waits for its task -/

/-- Timer `k` is gone, or it is queued and a `CancelTimerInLoop` for it
waits. -/
def Doomed (s : TimerLoop) (k : ℕ) : Prop :=
  Gone s k ∨ ∃ t sequence, s.serial t = k ∧ (t, sequence) ∈ s.queue.activeTimers ∧
    .cancelTimerInLoop (t, sequence) ∈ s.queue.tasks

/-- The id that a waiting task is to cancel. -/
def TimerTask.cancels? : TimerTask → Option ActiveTimer
  | .cancelTimerInLoop id => some id
  | .addTimeInLoop _ _ => none

/-- The time at which `HandleRead` takes the expired timers. -/
def TimerLoopStep.readsAt? : TimerLoopStep → Option ℤ
  | .handleRead now => some now
  | _ => none

/-- `HandleRead` does not find a timer expired for which a
`CancelTimerInLoop` waits that code of the loop's thread asked for. -/
def CancelledInTime (s : TimerLoop) (a : TimerLoopStep) : Prop :=
  ∀ now ∈ a.readsAt?, ∀ id ∈ s.queue.tasks.filterMap TimerTask.cancels?, id ∈ s.queue.activeTimers →
    .cancelled (s.serial id.1) ∈ s.log → ∀ timer ∈ s.queue.heap id.1, now < timer.expiration

instance (s : TimerLoop) (a : TimerLoopStep) : Decidable (CancelledInTime s a) :=
  inferInstanceAs (Decidable (∀ now ∈ a.readsAt?, ∀ id ∈ s.queue.tasks.filterMap TimerTask.cancels?,
    id ∈ s.queue.activeTimers → .cancelled (s.serial id.1) ∈ s.log → ∀ timer ∈ s.queue.heap id.1,
      now < timer.expiration))

variable {fresh : List ℕ}

/-- A cancelled timer waits on, or its task deletes it. -/
theorem HandsInOrder.waiting_move (h : HandsInOrder fresh s) (hm : TimerMove s a s') {t : ℕ} {sequence : ℤ}
    (hactive : (t, sequence) ∈ s.queue.activeTimers) (htask : .cancelTimerInLoop (t, sequence) ∈ s.queue.tasks)
    (htime : ∀ now, a = .handleRead now → ∀ timer, s.queue.heap t = some timer → now < timer.expiration) :
    s'.queue.heap t = none ∨
      (t, sequence) ∈ s'.queue.activeTimers ∧ .cancelTimerInLoop (t, sequence) ∈ s'.queue.tasks := by
  cases hm with
  | quiet _ _ _ _ hactive' htasks =>
    right
    exact ⟨hactive'.symm ▸ hactive, htasks.symm ▸ htask⟩
  | added _ _ _ hqueue =>
    subst hqueue
    exact .inr ⟨Finset.mem_insert_of_mem hactive, htask⟩
  | allocated _ _ _ hqueue =>
    subst hqueue
    exact .inr ⟨hactive, htask⟩
  | handedOver => exact .inr ⟨hactive, List.mem_append_left _ htask⟩
  | cancelled => exact .inr ⟨hactive, List.mem_append_left _ htask⟩
  | @expired now expired active fd queue hplace hop hqueue =>
    obtain ⟨-, hexp, hact⟩ := h.sound.beginHandleRead hop
    have hnot : t ∉ expired := by
      rw [hexp t]
      rintro ⟨e, hentry, hlt⟩
      obtain ⟨timer, hheap, -, rfl⟩ := (h.sound.mirror.entries e t).mp hentry
      have hlater := htime now rfl timer hheap
      rcases Prod.Lex.lt_iff.mp hlt with hlt | ⟨heq, -⟩
      · exact lt_asymm hlater hlt
      · exact hlater.ne' heq
    refine .inr ⟨(hact t sequence).mpr ⟨hactive, hnot⟩, ?_⟩
    subst hqueue
    exact htask
  | restarted _ _ _ hqueue =>
    subst hqueue
    exact .inr ⟨Finset.mem_insert_of_mem hactive, htask⟩
  | deleted _ _ _ _ hqueue =>
    subst hqueue
    exact .inr ⟨hactive, htask⟩
  | ranAdd _ _ htasks _ _ hqueue =>
    subst hqueue
    rw [htasks] at htask
    exact .inr ⟨Finset.mem_insert_of_mem hactive, by simpa using htask⟩
  | @ranCancel _ _ id _ _ _ _ _ _ _ _ htasks _ _ _ hqueue =>
    subst hqueue
    rw [htasks] at htask
    by_cases hid : (t, sequence) = id
    · subst hid
      exact .inl (Function.update_self ..)
    · refine .inr ⟨Finset.mem_erase.mpr ⟨hid, hactive⟩, ?_⟩
      rcases List.mem_cons.mp htask with heq | htask
      · exact absurd (TimerTask.cancelTimerInLoop.inj heq) hid
      · exact htask
  | @ranCancelGone _ _ id _ _ _ _ _ _ _ htasks _ hgone _ hqueue =>
    subst hqueue
    rw [htasks] at htask
    refine .inr ⟨hactive, ?_⟩
    rcases List.mem_cons.mp htask with heq | htask
    · obtain rfl := TimerTask.cancelTimerInLoop.inj heq
      exact absurd hactive hgone
    · exact htask
  | _ => exact .inr ⟨hactive, htask⟩

/-- A cancelled timer stays doomed. -/
theorem Doomed.move (h : Doomed s k) (hk : k < s.made) (hlog : .cancelled k ∈ s.log) (hnum : Numbered s)
    (hord : HandsInOrder fresh s) (hm : TimerMove s a s') (htime : CancelledInTime s a) : Doomed s' k := by
  rcases h with hgone | ⟨t, sequence, rfl, hactive, htask⟩
  · exact .inl (hgone.move hk hm)
  obtain ⟨timer, hheap, -⟩ := hord.sound.mirror.active t sequence hactive
  have hin : ∀ now, a = .handleRead now → ∀ timer, s.queue.heap t = some timer → now < timer.expiration := by
    rintro now rfl timer' hheap'
    have hmem : (t, sequence) ∈ s.queue.tasks.filterMap TimerTask.cancels? :=
      List.mem_filterMap.mpr ⟨_, htask, rfl⟩
    exact htime now rfl (t, sequence) hmem hactive hlog timer' hheap'
  rcases hord.waiting_move hm hactive htask hin with hfree | ⟨hactive', htask'⟩
  · -- the task has run, and no other address has the timer's number
    left
    intro t' ht'
    by_contra hlive
    obtain ⟨timer', hheap'⟩ := Option.ne_none_iff_exists'.mp hlive
    rcases hm.origin hheap' with ⟨old, hold, hserial⟩ | hserial
    · obtain rfl := hnum.serial_inj hold hheap (hserial.symm.trans ht')
      exact hlive hfree
    · exact hk.ne (ht'.symm.trans hserial)
  · exact .inr ⟨t, sequence, (hm.kept hheap).1, hactive', htask'⟩

/-- A timer in hand is not doomed. -/
theorem Doomed.not_held (h : Doomed s k) (hnum : Numbered s) (hord : HandsInOrder fresh s) {t : ℕ}
    (ht : t ∈ s.place.held) : s.serial t ≠ k := by
  rintro rfl
  obtain ⟨timer, hheap⟩ := hord.held_allocated ht
  rcases h with hgone | ⟨t', sequence, hserial, hactive, -⟩
  · rw [hgone t rfl] at hheap
    cases hheap
  · obtain ⟨timer', hheap', -⟩ := hord.sound.mirror.active t' sequence hactive
    obtain rfl := hnum.serial_inj hheap' hheap hserial
    exact hord.idle (List.mem_append_left _ ht) sequence hactive

/-- Every timer that code of the loop's thread cancelled is doomed. -/
def CancelledDoomed (s : TimerLoop) : Prop := ∀ k, .cancelled k ∈ s.log → k < s.made ∧ Doomed s k

theorem CancelledDoomed.move (h : CancelledDoomed s) (hnum : Numbered s) (hord : HandsInOrder fresh s)
    (hm : TimerMove s a s') (htime : CancelledInTime s a) : CancelledDoomed s' := by
  have hold : ∀ k, .cancelled k ∈ s.log → k < s'.made ∧ Doomed s' k := by
    intro k hlog
    obtain ⟨hk, hdoomed⟩ := h k hlog
    exact ⟨hk.trans_le hm.made_le, hdoomed.move hk hlog hnum hord hm htime⟩
  intro k hlog
  rcases hm.pushed_of_mem hlog with hlog | ⟨id, hid, rfl, hserial, hactive, htask⟩
  · exact hold k hlog
  · obtain ⟨timer, hheap, -⟩ := hord.sound.mirror.active id.1 id.2 hid
    exact ⟨(hnum.serial_lt hheap).trans_le hm.made_le, .inr ⟨id.1, id.2, hserial, hactive, htask⟩⟩

end Logs

/-- **Cancelling on the loop's thread takes effect at once**, in every run in
which no `HandleRead` finds a timer expired while the `CancelTimerInLoop`
that code of the loop's thread queued for it still waits: once code before
`Loop()`, a channel's callback or a task has called `CancelTimer` for a
queued timer, that timer's callback is not invoked at any later point. -/
theorem cancel_at_once {tr : List (TimerLoop × TimerLoopStep)} {s : TimerLoop}
    (hr : Run timerLoopMachine TimerLoop.create tr s) (htime : ∀ p ∈ tr, CancelledInTime p.1 p.2) :
    NoRunAfter .cancelled s.log := by
  have hstep : ∀ t a u, (Accounted t ∧ CancelledDoomed t ∧ NoRunAfter .cancelled t.log) →
      timerLoopMachine.enabled t a → CancelledInTime t a → timerLoopMachine.step t a = .ok u →
      Accounted u ∧ CancelledDoomed u ∧ NoRunAfter .cancelled u.log := by
    rintro t a u ⟨⟨hnum, fresh, hord⟩, hdoomed, hlog⟩ hen hin hst
    have hm := timerMove_of_step hen hst
    refine ⟨⟨hnum.move hm, hord.move hm⟩, hdoomed.move hnum hord hm hin, hlog.move hm fun t' ht' hmem => ?_⟩
    exact (hdoomed _ hmem).2.not_held hnum hord ht' rfl
  have hstart : CancelledDoomed TimerLoop.create := fun k hlog => by cases hlog
  exact (hr.invariant hstep ⟨⟨Numbered.start, [], HandsInOrder.start⟩, hstart, List.Pairwise.nil⟩ htime).2.2

/-- A timer is cancelled while another one expires: the task waits through
`HandleRead`. -/
theorem cancel_at_once_later :
    let steps : List TimerLoopStep := [.addTimer 10 ⟨true, 50⟩ 8 5, .addTimer 100 ⟨false, 0⟩ 16 5,
      .cancelTimer true (some 1), .fire, .poll true, .handleRead 20, .callback, .cancelTimer true (some 0), .reset,
      .restart, .rearm 20, .doPendingFunctors, .runTask 21, .runTask 22]
    let s := final timerLoopMachine TimerLoop.create steps
    s.log = [.cancelRan 0, .cancelRan 1, .ran 0, .cancelled 1, .added 1, .added 0] ∧ NoRunAfter .cancelled s.log :=
  ⟨by decide +kernel, cancel_at_once (run_of_accepts _ _ (by decide +kernel)) (by decide +kernel)⟩

/-- A timer is added and cancelled before `Loop()`, and expires before the
first `Poll` returns: it is called after its cancellation. -/
theorem cancelled_timer_called :
    let steps : List TimerLoopStep := [.addTimer 10 ⟨false, 0⟩ 8 5, .cancelTimer true (some 0), .fire, .poll true,
      .handleRead 20, .callback]
    let s := final timerLoopMachine TimerLoop.create steps
    accepts timerLoopMachine TimerLoop.create steps = true ∧ s.log = [.ran 0, .cancelled 0, .added 0] ∧
      ¬ NoRunAfter .cancelled s.log := by
  have hlog : (final timerLoopMachine TimerLoop.create [.addTimer 10 ⟨false, 0⟩ 8 5, .cancelTimer true (some 0), .fire,
      .poll true, .handleRead 20, .callback]).log = [.ran 0, .cancelled 0, .added 0] := by decide +kernel
  refine ⟨by decide +kernel, hlog, fun hsilent => ?_⟩
  rw [hlog] at hsilent
  exact (List.pairwise_cons.mp hsilent).1 (.cancelled 0) List.mem_cons_self 0 rfl rfl

end MiniMuduo
