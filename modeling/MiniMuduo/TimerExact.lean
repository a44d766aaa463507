/-
# Cancel hits exactly its own timer

A task waits for the timer its mark names: tasks and marks are queued and
taken together (`Fits`, `QueueMove`). A call of `AddTimer` that has handed
its timer over has run `AddTimeInLoop` or has it waiting, and every
`CancelTimerInLoop` stands behind the `AddTimeInLoop` of its timer
(`Filed`), so it never overtakes it.

Tasks do not run inside `HandleRead`. When a `CancelTimerInLoop` runs, its
timer is therefore queued or gone (`InSets`), and gone afterwards: it is
never called again. What it deletes is the timer at the id's address with the
id's sequence. That is the id's own timer unless the sequence has wrapped:
the latest timer at an address is the one there, and two numbers with the
same sequence are `2 ^ 64` apart.

Key definitions: `Fits`, `Filed`, `InSets`, `Spares`.
Key theorems: `Filed.move`, `InSets.move`, `cancel_hits_own`.
-/
import MiniMuduo.TimerCancel
import Mathlib.Data.List.Forall2

namespace MiniMuduo

open Fallible Runs Word OrderedSet TimerQueue

/-- A waiting task is for the timer of its mark. -/
def Fits (calls : ℕ → Option AddCall) : TaskMark → TimerTask → Prop
  | .add k, .addTimeInLoop _ t => ∃ c, calls k = some c ∧ c.timer = t
  | .cancel none, .cancelTimerInLoop id => id = (0, 0)
  | .cancel (some k), .cancelTimerInLoop id => ∃ c, calls k = some c ∧ c.stage = .returned id
  | _, _ => False

section Filing

variable {s s' : TimerLoop} {a : TimerLoopStep} {fresh : List ℕ} {k : ℕ}

/-- A call keeps its timer, and what it has returned. -/
theorem Numbered.calls_mono (h : Numbered s) (hm : TimerMove s a s') {c : AddCall} (hcall : s.calls k = some c) :
    ∃ stage, s'.calls k = some ⟨c.timer, c.sequence, stage⟩ ∧ (c.stage.isReturned = true → stage = c.stage) := by
  rcases hm.calls_cases with heq | ⟨call, _, heq, -⟩ | ⟨k', t, sequence, stage, stage', hold, hnot, heq, -⟩
  · exact ⟨c.stage, by rw [heq, hcall], fun _ => rfl⟩
  · have hk : k ≠ s.made := (h.call k c hcall).1.ne
    exact ⟨c.stage, by rw [heq, Function.update_of_ne hk, hcall], fun _ => rfl⟩
  · by_cases hk : k = k'
    · subst hk
      rw [hcall] at hold
      obtain rfl := Option.some.inj hold
      refine ⟨stage', by rw [heq, Function.update_self], fun hreturned => ?_⟩
      rw [hnot] at hreturned
      cases hreturned
    · exact ⟨c.stage, by rw [heq, Function.update_of_ne hk, hcall], fun _ => rfl⟩

theorem Fits.mono {calls calls' : ℕ → Option AddCall}
    (hcalls : ∀ k c, calls k = some c →
      ∃ stage, calls' k = some ⟨c.timer, c.sequence, stage⟩ ∧ (c.stage.isReturned = true → stage = c.stage))
    {mark : TaskMark} {task : TimerTask} (h : Fits calls mark task) : Fits calls' mark task := by
  unfold Fits at h ⊢
  split at h
  case h_1 k when t =>
    obtain ⟨c, hcall, ht⟩ := h
    obtain ⟨stage, hcall', -⟩ := hcalls k c hcall
    exact ⟨_, hcall', ht⟩
  case h_2 => exact h
  case h_3 k id =>
    obtain ⟨c, hcall, hid⟩ := h
    obtain ⟨stage, hcall', hstage⟩ := hcalls k c hcall
    exact ⟨_, hcall', (hstage (by rw [hid]; rfl)).trans hid⟩
  case h_4 => exact h.elim

/-- What a move does to the waiting tasks and their marks. -/
inductive QueueMove (s s' : TimerLoop) : Prop
  | same (hmarks : s'.marks = s.marks) (htasks : s'.queue.tasks = s.queue.tasks)
  | push (mark : TaskMark) (task : TimerTask) (hmarks : s'.marks = s.marks ++ [mark])
      (htasks : s'.queue.tasks = s.queue.tasks ++ [task]) (hfits : Fits s'.calls mark task)
      (hcancel : ∀ k, mark = .cancel (some k) → ∃ c, s.calls k = some c ∧ c.stage.isReturned = true)
  | pop (mark : TaskMark) (task : TimerTask) (marks : List TaskMark) (tasks : List TimerTask)
      (hmarks : s.marks = mark :: marks) (hmarks' : s'.marks = marks)
      (htasks : s.queue.tasks = task :: tasks) (htasks' : s'.queue.tasks = tasks)
      (hlog : s'.log = mark.events ++ s.log)

theorem TimerLoop.fits_of_idOf {who : Option ℕ} {id : ActiveTimer} (hid : s.idOf who = some id) :
    Fits s.calls (.cancel who) (.cancelTimerInLoop id) ∧
      ∀ k, who = some k → ∃ c, s.calls k = some c ∧ c.stage.isReturned = true := by
  unfold TimerLoop.idOf at hid
  split at hid
  case h_1 =>
    cases hid
    exact ⟨rfl, by simp⟩
  case h_2 k =>
    split at hid
    case h_1 t sequence id' hcall =>
      cases hid
      refine ⟨⟨_, hcall, rfl⟩, fun j hj => ?_⟩
      obtain rfl := Option.some.inj hj
      exact ⟨_, hcall, rfl⟩
    case h_2 => cases hid

theorem TimerMove.queueMove (hm : TimerMove s a s') : QueueMove s s' := by
  cases hm with
  | quiet _ _ _ _ _ htasks => exact .same rfl htasks
  | added _ _ _ hqueue =>
    subst hqueue
    exact .same rfl rfl
  | allocated _ _ _ hqueue =>
    subst hqueue
    exact .same rfl rfl
  | handedOver hcall =>
    exact .push (.add _) _ rfl rfl ⟨_, Function.update_self .., rfl⟩ (by simp)
  | cancelled hid =>
    obtain ⟨hfits, hreturned⟩ := TimerLoop.fits_of_idOf hid
    exact .push (.cancel _) _ rfl rfl hfits fun k hk => hreturned k (TaskMark.cancel.inj hk)
  | expired _ _ hqueue =>
    subst hqueue
    exact .same rfl rfl
  | restarted _ _ _ hqueue =>
    subst hqueue
    exact .same rfl rfl
  | deleted _ _ _ _ hqueue =>
    subst hqueue
    exact .same rfl rfl
  | ranAdd _ hmarks htasks _ _ hqueue =>
    subst hqueue
    exact .pop _ _ _ _ hmarks rfl htasks rfl rfl
  | ranCancel _ hmarks htasks _ _ _ hqueue =>
    subst hqueue
    exact .pop _ _ _ _ hmarks rfl htasks rfl rfl
  | ranCancelGone _ hmarks htasks _ _ _ hqueue =>
    subst hqueue
    exact .pop _ _ _ _ hmarks rfl htasks rfl rfl
  | _ => exact .same rfl rfl

/-- A timer added or about to be stays so. -/
theorem TimerMove.entered (hm : TimerMove s a s') (hk : .added k ∈ s.log ∨ .add k ∈ s.marks) :
    .added k ∈ s'.log ∨ .add k ∈ s'.marks := by
  rcases hk with hlog | hmark
  · exact .inl (hm.mem_log hlog)
  cases hm.queueMove with
  | same hmarks => exact .inr (hmarks ▸ hmark)
  | push mark task hmarks =>
    rw [hmarks]
    exact .inr (List.mem_append_left _ hmark)
  | pop mark task marks tasks hmarks hmarks' _ _ hlog =>
    rw [hmarks] at hmark
    rw [hmarks', hlog]
    rcases List.mem_cons.mp hmark with rfl | hmark
    · exact .inl List.mem_cons_self
    · exact .inr hmark

/-- The calls and the waiting tasks of a loop. -/
structure Filed (s : TimerLoop) : Prop where
  fits : List.Forall₂ (Fits s.calls) s.marks s.queue.tasks
  entered : ∀ k c, s.calls k = some c → (∀ when, c.stage ≠ .allocated when) → .added k ∈ s.log ∨ .add k ∈ s.marks
  order : ∀ marks k, marks ++ [.cancel (some k)] <+: s.marks → .added k ∈ s.log ∨ .add k ∈ marks
  known : ∀ k, .added k ∈ s.log → k < s.made

namespace Filed

theorem start : Filed TimerLoop.create := by
  refine ⟨.nil, ?_, ?_, ?_⟩
  · intro k c hcall
    cases hcall
  · intro marks k hfront
    simp [TimerLoop.create] at hfront
  · intro k hlog
    cases hlog

/-- The task at the front is for the timer of the mark at the front. -/
theorem head_fits (h : Filed s) {mark : TaskMark} {marks : List TaskMark} (hmarks : s.marks = mark :: marks) :
    ∃ task, Fits s.calls mark task ∧ ∃ tasks, s.queue.tasks = task :: tasks := by
  have hfits := h.fits
  rw [hmarks, List.forall₂_cons_left_iff] at hfits
  obtain ⟨task, tasks, hfits, -, htasks⟩ := hfits
  exact ⟨task, hfits, tasks, htasks⟩

theorem fits_move (h : Filed s) (hnum : Numbered s) (hm : TimerMove s a s') :
    List.Forall₂ (Fits s'.calls) s'.marks s'.queue.tasks := by
  have hold : List.Forall₂ (Fits s'.calls) s.marks s.queue.tasks :=
    h.fits.imp fun mark task hfits => hfits.mono fun k c hcall => hnum.calls_mono hm hcall
  cases hm.queueMove with
  | same hmarks htasks => rwa [hmarks, htasks]
  | push mark task hmarks htasks hfits =>
    rw [hmarks, htasks]
    exact List.rel_append hold (.cons hfits .nil)
  | pop mark task marks tasks hmarks hmarks' htasks htasks' =>
    rw [hmarks, htasks, List.forall₂_cons] at hold
    rw [hmarks', htasks']
    exact hold.2

theorem order_move (h : Filed s) (hm : TimerMove s a s') (marks : List TaskMark)
    (hfront : marks ++ [.cancel (some k)] <+: s'.marks) : .added k ∈ s'.log ∨ .add k ∈ marks := by
  cases hm.queueMove with
  | same hmarks =>
    rw [hmarks] at hfront
    exact (h.order marks k hfront).imp_left hm.mem_log
  | push mark task hmarks _ _ hcancel =>
    rw [hmarks] at hfront
    rcases List.prefix_concat_iff.mp hfront with heq | hfront
    · obtain ⟨rfl, hmark⟩ := List.append_inj' heq rfl
      obtain ⟨c, hcall, hreturned⟩ := hcancel k (List.head_eq_of_cons_eq hmark).symm
      have hstage : ∀ when, c.stage ≠ .allocated when := by
        intro when heq
        rw [heq] at hreturned
        cases hreturned
      exact (h.entered k c hcall hstage).imp_left hm.mem_log
    · exact (h.order marks k hfront).imp_left hm.mem_log
  | pop mark task marks' tasks hmarks hmarks' _ _ hlog =>
    rw [hmarks'] at hfront
    have hfront' : (mark :: marks) ++ [.cancel (some k)] <+: s.marks := by
      rw [hmarks]
      exact List.cons_prefix_cons.mpr ⟨rfl, hfront⟩
    rcases h.order _ k hfront' with hadded | hmem
    · exact .inl (hm.mem_log hadded)
    · rcases List.mem_cons.mp hmem with rfl | hmem
      · left
        rw [hlog]
        exact List.mem_cons_self
      · exact .inr hmem

theorem move (h : Filed s) (hnum : Numbered s) (hm : TimerMove s a s') : Filed s' := by
  refine ⟨h.fits_move hnum hm, fun k c hcall hstage => ?_, fun marks k => h.order_move hm marks, fun k hlog => ?_⟩
  · rcases hm.call_origin hcall with hcall | ⟨-, -, -, ⟨when, halloc⟩ | ⟨-, hadded⟩⟩ |
      ⟨stage, hold, -, ⟨-, hmark⟩ | ⟨rfl, -⟩⟩
    · exact hm.entered (h.entered k c hcall hstage)
    · exact absurd halloc (hstage when)
    · exact .inl hadded
    · exact .inr hmark
    · exact hm.entered (h.entered k _ hold (by simp))
  · rcases hm.pushed_of_mem hlog with hlog | hk | ⟨marks, hmarks⟩
    · exact (h.known k hlog).trans_le hm.made_le
    · exact hk
    · obtain ⟨task, hfits, -⟩ := h.head_fits hmarks
      cases task with
      | addTimeInLoop when t =>
        obtain ⟨c, hcall, -⟩ := hfits
        exact (hnum.call k c hcall).1.trans_le hm.made_le
      | cancelTimerInLoop id => exact hfits.elim

end Filed

/-! ### Where an added timer is -/

/-- A timer for which `AddTimeInLoop` has run is queued, unless `HandleRead`
has it in hand. -/
def InSets (s : TimerLoop) : Prop :=
  ∀ t timer, s.queue.heap t = some timer → .added (s.serial t) ∈ s.log →
    (t, timer.sequence) ∈ s.queue.activeTimers ∨ t ∈ s.place.held

/-- A new timer leaves the others where they are. -/
theorem InSets.others (h : InSets s) (hnum : Numbered s) {t t' : ℕ} {new : Option Timer} {timer : Timer}
    (hne : t' ≠ t) (hheap : Function.update s.queue.heap t new t' = some timer)
    (hlog : .added (Function.update s.serial t s.made t') ∈ TimerEvent.added s.made :: s.log) :
    (t', timer.sequence) ∈ s.queue.activeTimers ∨ t' ∈ s.place.held := by
  rw [Function.update_of_ne hne] at hheap hlog
  rcases List.mem_cons.mp hlog with heq | hlog
  · exact absurd (TimerEvent.added.inj heq) (hnum.serial_lt hheap).ne
  · exact h t' timer hheap hlog

/-- The task that runs adds no other timer. -/
theorem Filed.added_of_mark (h : Filed s) (hnum : Numbered s) {mark : TaskMark} {marks : List TaskMark}
    {task : TimerTask} {tasks : List TimerTask} (hmarks : s.marks = mark :: marks)
    (htasks : s.queue.tasks = task :: tasks) {t : ℕ} {timer : Timer} (hheap : s.queue.heap t = some timer)
    (hlog : .added (s.serial t) ∈ mark.events ++ s.log) :
    .added (s.serial t) ∈ s.log ∨ ∃ when, task = .addTimeInLoop when t := by
  rcases List.mem_append.mp hlog with hevent | hlog
  · right
    obtain ⟨task', hfits, tasks', htasks'⟩ := h.head_fits hmarks
    obtain ⟨rfl, -⟩ := List.cons.inj (htasks.symm.trans htasks')
    cases mark with
    | add k =>
      have hk : s.serial t = k := by simpa [TaskMark.events] using hevent
      subst hk
      cases task with
      | addTimeInLoop when t' =>
        obtain ⟨c, hcall, rfl⟩ := hfits
        obtain ⟨stage, hlive⟩ := hnum.live t timer hheap
        rw [hlive] at hcall
        obtain rfl := Option.some.inj hcall
        exact ⟨when, rfl⟩
      | cancelTimerInLoop id => exact hfits.elim
    | cancel k =>
      cases k with
      | none => simp [TaskMark.events] at hevent
      | some k => simp [TaskMark.events] at hevent
  · exact .inl hlog

/-- One timer changes: it is queued afterwards, or deleted, and the others
stay where they are. -/
theorem InSets.update (h : InSets s) {t : ℕ} {new : Option Timer}
    (hheap : s'.queue.heap = Function.update s.queue.heap t new) (hserial : s'.serial = s.serial)
    (hlog : ∀ t' timer, s.queue.heap t' = some timer → .added (s.serial t') ∈ s'.log → .added (s.serial t') ∈ s.log)
    (hself : ∀ timer ∈ new, (t, timer.sequence) ∈ s'.queue.activeTimers)
    (hactive : ∀ t' ≠ t, ∀ sequence, (t', sequence) ∈ s.queue.activeTimers →
      (t', sequence) ∈ s'.queue.activeTimers)
    (hheld : ∀ t' ≠ t, t' ∈ s.place.held → t' ∈ s'.place.held) : InSets s' := by
  intro t' timer hheap' hadded
  rw [hheap] at hheap'
  rw [hserial] at hadded
  by_cases ht : t' = t
  · subst ht
    rw [Function.update_self] at hheap'
    exact .inl (hself timer hheap')
  · rw [Function.update_of_ne ht] at hheap'
    have hold := h t' timer hheap' (hlog t' timer hheap' hadded)
    exact hold.imp (hactive t' ht timer.sequence) (hheld t' ht)

theorem InSets.move (h : InSets s) (hnum : Numbered s) (hord : HandsInOrder fresh s) (hfiled : Filed s)
    (hm : TimerMove s a s') : InSets s' := by
  cases hm with
  | quiet _ hheap _ _ hactive _ hheld =>
    intro t timer ht hlog
    dsimp only at ht hlog ⊢
    rw [hheap] at ht
    rw [hactive, hheld]
    exact h t timer ht hlog
  | @added when now interval t fd queue hop hfree hpos hqueue =>
    subst hqueue
    intro t' timer hheap hlog
    by_cases ht : t' = t
    · subst ht
      replace hheap : Function.update s.queue.heap t' (some _) t' = some timer := hheap
      rw [Function.update_self] at hheap
      obtain rfl := Option.some.inj hheap
      exact .inl (Finset.mem_insert_self ..)
    · exact (h.others hnum ht hheap hlog).imp_left Finset.mem_insert_of_mem
  | @allocated when interval t queue hop hfree hpos hqueue =>
    subst hqueue
    intro t' timer hheap hlog
    by_cases ht : t' = t
    · -- the number of the new timer has not been seen
      subst ht
      replace hlog : .added (Function.update s.serial t' s.made t') ∈ s.log := hlog
      rw [Function.update_self] at hlog
      exact absurd (hfiled.known _ hlog) (lt_irrefl _)
    · exact h.others hnum ht hheap (List.mem_cons_of_mem _ hlog)
  | @cancelled onLoop k id hid =>
    intro t timer hheap hlog
    refine h t timer hheap ?_
    replace hlog : .added (s.serial t) ∈
      if s.cancelsQueued onLoop id then .cancelled (s.serial id.1) :: s.log else s.log := hlog
    split at hlog
    · simpa using hlog
    · exact hlog
  | @expired now expired active fd queue hplace hop hqueue =>
    obtain ⟨-, -, hact⟩ := hord.sound.beginHandleRead hop
    subst hqueue
    intro t timer hheap hlog
    rcases h t timer hheap hlog with hactive | hheld
    · by_cases hexp : t ∈ expired
      · exact .inr hexp
      · exact .inl ((hact t timer.sequence).mpr ⟨hactive, hexp⟩)
    · rw [hplace] at hheld
      cases hheld
  | @called now t called todo timer hplace _ =>
    intro t' timer' hheap hlog
    have hold := h t' timer' hheap (by simpa using hlog)
    rw [hplace] at hold
    simpa [TimerPlace.held] using hold
  | restarted hplace _ _ hqueue =>
    subst hqueue
    refine h.update rfl rfl (fun _ _ _ hlog => hlog) (fun timer' hnew => ?_)
      (fun t' _ sequence hmem => Finset.mem_insert_of_mem hmem) fun t' ht hmem => ?_
    · obtain rfl := Option.some.inj hnew
      exact Finset.mem_insert_self ..
    · rw [hplace] at hmem
      exact (List.mem_cons.mp hmem).resolve_left ht
  | deleted hplace _ _ _ hqueue =>
    subst hqueue
    refine h.update rfl rfl (fun _ _ _ hlog => hlog) (by simp) (fun t' _ sequence hmem => hmem) fun t' ht hmem => ?_
    rw [hplace] at hmem
    exact (List.mem_cons.mp hmem).resolve_left ht
  | @ranAdd left t when now mark marks tasks timer fd queue hplace hmarks htasks hop hheap hqueue =>
    subst hqueue
    intro t' timer' hheap' hlog
    rcases hfiled.added_of_mark hnum hmarks htasks hheap' hlog with hlog | ⟨when', htask⟩
    · have hold := h t' timer' hheap' hlog
      rw [hplace] at hold
      exact hold.imp_left Finset.mem_insert_of_mem
    · obtain ⟨-, rfl⟩ := TimerTask.addTimeInLoop.inj htask
      obtain rfl : timer = timer' := Option.some.inj (hheap.symm.trans hheap')
      exact .inl (Finset.mem_insert_self ..)
  | ranCancel hplace hmarks htasks _ _ _ hqueue =>
    subst hqueue
    refine h.update rfl rfl (fun t' timer' hheap' hlog => ?_) (by simp) (fun t' ht sequence hmem => ?_)
      fun t' _ hmem => ?_
    · rcases hfiled.added_of_mark hnum hmarks htasks hheap' hlog with hlog | ⟨when', htask⟩
      · exact hlog
      · cases htask
    · exact Finset.mem_erase.mpr ⟨fun heq => ht (congrArg Prod.fst heq), hmem⟩
    · rw [hplace] at hmem
      cases hmem
  | ranCancelGone hplace hmarks htasks _ _ _ hqueue =>
    subst hqueue
    intro t' timer' hheap' hlog
    rcases hfiled.added_of_mark hnum hmarks htasks hheap' hlog with hlog | ⟨when', htask⟩
    · have hsets := h t' timer' hheap' hlog
      rw [hplace] at hsets
      exact hsets
    · cases htask
  | _ => exact h

/-! ### After a cancellation has run -/

/-- Every cancellation that has run came after the timer was added, and the
timer is gone. -/
structure Cancelled (s : TimerLoop) : Prop where
  after : ∀ k earlier, .cancelRan k :: earlier <:+ s.log → .added k ∈ earlier
  gone : ∀ k, .cancelRan k ∈ s.log → k < s.made ∧ Gone s k

namespace Cancelled

theorem start : Cancelled TimerLoop.create := by
  refine ⟨?_, ?_⟩
  · intro k earlier hsuffix
    simp [TimerLoop.create] at hsuffix
  · intro k hlog
    cases hlog

/-- The `CancelTimerInLoop` at the front stands behind the timer's
`AddTimeInLoop`, which has run. -/
theorem added_of_front (hfiled : Filed s) {marks : List TaskMark} (hmarks : s.marks = .cancel (some k) :: marks) :
    .added k ∈ s.log := by
  have hfront : [] ++ [.cancel (some k)] <+: s.marks := by
    rw [hmarks]
    exact List.cons_prefix_cons.mpr ⟨rfl, List.nil_prefix⟩
  rcases hfiled.order [] k hfront with hlog | hmem
  · exact hlog
  · cases hmem

/-- A `CancelTimerInLoop` that runs leaves its timer gone. -/
theorem gone_of_front (hnum : Numbered s) (hfiled : Filed s) (hsets : InSets s) (hown : OwnIds s)
    (hm : TimerMove s a s') {marks : List TaskMark} (hmarks : s.marks = .cancel (some k) :: marks)
    (hplace : s.place.held = [])
    (hfree : ∀ id tasks, s.queue.tasks = .cancelTimerInLoop id :: tasks → id ∈ s.queue.activeTimers →
      s'.queue.heap id.1 = none) : k < s'.made ∧ Gone s' k := by
  obtain ⟨task, hfits, tasks, htasks⟩ := hfiled.head_fits hmarks
  cases task with
  | addTimeInLoop when t => exact hfits.elim
  | cancelTimerInLoop id =>
    obtain ⟨c, hcall, hstage⟩ := hfits
    have hk : k < s.made := (hnum.call k c hcall).1
    refine ⟨hk.trans_le hm.made_le, fun t ht => ?_⟩
    by_contra hlive
    obtain ⟨timer', hheap'⟩ := Option.ne_none_iff_exists'.mp hlive
    rcases hm.origin hheap' with ⟨timer, hheap, hserial⟩ | hserial
    · -- the timer was queued under the id that its call returned
      have hnumber : s.serial t = k := hserial.symm.trans ht
      have hactive : (t, timer.sequence) ∈ s.queue.activeTimers := by
        rcases hsets t timer hheap (hnumber ▸ added_of_front hfiled hmarks) with hactive | hheld
        · exact hactive
        · rw [hplace] at hheld
          cases hheld
      obtain ⟨stage, hlive'⟩ := hnum.live t timer hheap
      rw [hnumber, hcall] at hlive'
      obtain rfl := Option.some.inj hlive'
      obtain rfl := hown k _ id hcall hstage
      exact hlive (hfree _ tasks htasks hactive)
    · exact hk.ne (ht.symm.trans hserial)

theorem move (h : Cancelled s) (hnum : Numbered s) (hfiled : Filed s) (hsets : InSets s) (hown : OwnIds s)
    (hm : TimerMove s a s') : Cancelled s' := by
  refine ⟨fun k earlier hsuffix => ?_, fun k hlog => ?_⟩
  · rcases hm.pushed with hlog | ⟨e, hlog, hpushed⟩
    · rw [hlog] at hsuffix
      exact h.after k earlier hsuffix
    · rw [hlog] at hsuffix
      rcases List.suffix_cons_iff.mp hsuffix with heq | hsuffix
      · obtain ⟨rfl, rfl⟩ := List.cons.inj heq
        obtain ⟨⟨marks, hmarks⟩, -⟩ := hpushed
        exact added_of_front hfiled hmarks
      · exact h.after k earlier hsuffix
  · rcases hm.pushed_of_mem hlog with hlog | ⟨⟨marks, hmarks⟩, hplace, hfree⟩
    · obtain ⟨hk, hgone⟩ := h.gone k hlog
      exact ⟨hk.trans_le hm.made_le, hgone.move hk hm⟩
    · exact gone_of_front hnum hfiled hsets hown hm hmarks hplace hfree

end Cancelled

/-! ### The other timers -/

/-- `calling_expired_timers_` is set inside `HandleRead` only. -/
def CallingFlag (s : TimerLoop) : Prop := s.queue.callingExpiredTimers = s.place.inHandleRead

theorem CallingFlag.move (h : CallingFlag s) (hm : TimerMove s a s') : CallingFlag s' := by
  unfold CallingFlag at h ⊢
  cases hm with
  | quiet _ _ _ _ _ _ _ hcalling => exact hcalling h
  | added _ _ _ hqueue =>
    subst hqueue
    exact h
  | allocated _ _ _ hqueue =>
    subst hqueue
    exact h
  | expired _ _ hqueue =>
    subst hqueue
    rfl
  | called hplace =>
    rw [hplace] at h
    exact h
  | restarted hplace _ _ hqueue =>
    subst hqueue
    rw [hplace] at h
    exact h
  | deleted hplace _ _ _ hqueue =>
    subst hqueue
    rw [hplace] at h
    exact h
  | ranAdd hplace _ _ _ _ hqueue =>
    subst hqueue
    rw [hplace] at h
    exact h
  | ranCancel hplace _ _ _ _ _ hqueue =>
    subst hqueue
    rw [hplace] at h
    exact h
  | ranCancelGone hplace _ _ _ _ _ hqueue =>
    subst hqueue
    rw [hplace] at h
    exact h
  | _ => exact h

/-- Timer `j` is as it was: allocated or not, queued or not; and no timer was
put among those that `Reset` is not to start again. -/
structure Spares (j : ℕ) (s s' : TimerLoop) : Prop where
  heap : ∀ t, s.serial t = j → s'.queue.heap t = s.queue.heap t
  timers : ∀ t, s.serial t = j → ∀ e, toLex (e, t) ∈ s'.queue.timers ↔ toLex (e, t) ∈ s.queue.timers
  active : ∀ t, s.serial t = j → ∀ sequence,
    (t, sequence) ∈ s'.queue.activeTimers ↔ (t, sequence) ∈ s.queue.activeTimers
  cancelling : s'.queue.cancellingTimers = s.queue.cancellingTimers

/-- The queued timer that an id finds is the id's own, unless `2 ^ 64` timers
were created since. -/
theorem Numbered.serial_of_active (hnum : Numbered s) (hord : HandsInOrder fresh s) (hown : OwnIds s)
    {who : Option ℕ} {id : ActiveTimer} (hfits : Fits s.calls (.cancel who) (.cancelTimerInLoop id))
    (hactive : id ∈ s.queue.activeTimers) (hmade : ∀ k ∈ who, s.made ≤ k + 0x10000000000000000) :
    who = some (s.serial id.1) := by
  obtain ⟨timer, hheap, hseq⟩ := hord.sound.mirror.active id.1 id.2 hactive
  cases who with
  | none =>
    -- nothing is allocated at the null pointer
    have hid : id = (0, 0) := hfits
    rw [hid, hnum.null] at hheap
    cases hheap
  | some k =>
    obtain ⟨c, hcall, hstage⟩ := hfits
    obtain rfl := hown k c id hcall hstage
    obtain ⟨stage, hlive⟩ := hnum.live _ timer hheap
    obtain ⟨-, hle, hck⟩ := hnum.call k c hcall
    obtain ⟨hlt, -, hcj⟩ := hnum.call _ _ hlive
    have hsame : int64 k = int64 (s.serial c.timer) := by
      calc int64 k = c.sequence := hck.symm
        _ = timer.sequence := hseq.symm
        _ = int64 (s.serial c.timer) := hcj
    have hwrap : s.serial c.timer < k + 0x10000000000000000 := hlt.trans_le (hmade k rfl)
    rw [int64_inj hle hwrap hsame]

/-- `CancelTimerInLoop` leaves every other timer as it was. -/
theorem spares_of_runTask (hnum : Numbered s) (hord : HandsInOrder fresh s) (hfiled : Filed s) (hown : OwnIds s)
    (hflag : CallingFlag s) {now : ℤ} {who : Option ℕ} {marks : List TaskMark}
    (hmarks : s.marks = .cancel who :: marks) (hm : TimerMove s (.runTask now) s')
    (hmade : ∀ k ∈ who, s.made ≤ k + 0x10000000000000000) {j : ℕ} (hj : who ≠ some j) : Spares j s s' := by
  obtain ⟨task, hfits, tasks, htasks⟩ := hfiled.head_fits hmarks
  cases hm with
  | quiet ha => exact absurd rfl (ha now)
  | ranAdd _ _ htasks' =>
    obtain ⟨rfl, -⟩ := List.cons.inj (htasks.symm.trans htasks')
    cases who with
    | none => exact hfits.elim
    | some k => exact hfits.elim
  | @ranCancel _ _ id _ _ _ timer _ _ _ _ htasks' _ hactive hheap hqueue =>
    obtain ⟨rfl, -⟩ := List.cons.inj (htasks.symm.trans htasks')
    obtain rfl := hnum.serial_of_active hord hown hfits hactive hmade
    subst hqueue
    have hother : ∀ t, s.serial t = j → t ≠ id.1 := by
      rintro t ht rfl
      exact hj (congrArg some ht)
    refine ⟨fun t ht => ?_, fun t ht e => ?_, fun t ht sequence => ?_, rfl⟩
    · exact Function.update_of_ne (hother t ht) ..
    · rw [Finset.mem_erase]
      refine and_iff_right fun heq => ?_
      exact hother t ht (congrArg Prod.snd (toLex_inj.mp heq))
    · rw [Finset.mem_erase]
      refine and_iff_right fun heq => ?_
      exact hother t ht (congrArg Prod.fst heq)
  | ranCancelGone hplace _ _ _ _ hcancelling hqueue =>
    subst hqueue
    have hcalling : s.queue.callingExpiredTimers = false := by
      rw [hflag, hplace]
      rfl
    exact ⟨fun _ _ => rfl, fun _ _ _ => Iff.rfl, fun _ _ _ => Iff.rfl, hcancelling hcalling⟩

end Filing

/-- **Cancel hits exactly its own timer and is never overtaken**, for every
interleaving of the threads with the loop and every allocator, as long as
each id carries the address and the sequence of the timer its call created:
a `CancelTimerInLoop` runs after the `AddTimeInLoop` of its timer; once it
has run, the timer's callback is never invoked; and it leaves every other
timer as it was, unless `2 ^ 64` timers were created after its own. A default
id leaves every timer as it was. -/
theorem cancel_hits_own {tr : List (TimerLoop × TimerLoopStep)} {s : TimerLoop}
    (hr : Run timerLoopMachine TimerLoop.create tr s) (hids : ∀ p ∈ tr, OwnIds p.1) (hown : OwnIds s) :
    (∀ k earlier, .cancelRan k :: earlier <:+ s.log → .added k ∈ earlier) ∧
    NoRunAfter .cancelRan s.log ∧
    ∀ who marks now s', s.marks = .cancel who :: marks → s.enabled (.runTask now) = true →
      s.step (.runTask now) = .ok s' → (∀ k ∈ who, s.made ≤ k + 0x10000000000000000) →
      ∀ j, who ≠ some j → Spares j s s' := by
  have hstep : ∀ t a u,
      (Accounted t ∧ Filed t ∧ InSets t ∧ CallingFlag t ∧ Cancelled t ∧ NoRunAfter .cancelRan t.log) →
      timerLoopMachine.enabled t a → OwnIds t → timerLoopMachine.step t a = .ok u →
      Accounted u ∧ Filed u ∧ InSets u ∧ CallingFlag u ∧ Cancelled u ∧ NoRunAfter .cancelRan u.log := by
    rintro t a u ⟨⟨hnum, fresh, hord⟩, hfiled, hsets, hflag, hcancelled, hlog⟩ hen hids hst
    have hm := timerMove_of_step hen hst
    refine ⟨⟨hnum.move hm, hord.move hm⟩, hfiled.move hnum hm, hsets.move hnum hord hfiled hm, hflag.move hm,
      hcancelled.move hnum hfiled hsets hids hm, hlog.move hm fun t' ht' hmem => ?_⟩
    obtain ⟨timer, hheap⟩ := hord.held_allocated ht'
    rw [(hcancelled.gone _ hmem).2 t' rfl] at hheap
    cases hheap
  have hsets : InSets TimerLoop.create := fun t timer hheap => by cases hheap
  obtain ⟨⟨hnum, fresh, hord⟩, hfiled, -, hflag, hcancelled, hlog⟩ := hr.invariant hstep
    ⟨⟨Numbered.start, [], HandsInOrder.start⟩, Filed.start, hsets, rfl, Cancelled.start, List.Pairwise.nil⟩ hids
  refine ⟨hcancelled.after, hlog, fun who marks now s' hmarks hen hst hmade j hj => ?_⟩
  exact spares_of_runTask hnum hord hfiled hown hflag hmarks (timerMove_of_step hen hst) hmade hj

/-- A timer has fired and its address belongs to a newer one when its
cancellation runs. -/
theorem cancel_hits_own_reused :
    let steps : List TimerLoopStep := [.addTimer 10 ⟨false, 0⟩ 8 5, .fire, .poll true, .handleRead 20, .callback,
      .reset, .restart, .rearm 20, .addTimer 100 ⟨true, 50⟩ 8 21, .cancelTimer true (some 0), .cancelTimer false none,
      .doPendingFunctors]
    let s := final timerLoopMachine TimerLoop.create steps
    s.idOf (some 0) = some (8, 0) ∧ s.queue.activeTimers = {(8, 1)} ∧
      ∀ s', s.step (.runTask 22) = .ok s' → Spares 1 s s' :=
  ⟨by decide +kernel, by decide +kernel, fun s' hst =>
    (cancel_hits_own (run_of_accepts _ _ (by decide +kernel))
      (reads_of_run (run_of_accepts _ _ (by decide +kernel)) (by decide +kernel)).2
      (reads_of_run (run_of_accepts _ _ (by decide +kernel)) (by decide +kernel)).1.2.2).2.2
      (some 0) [.cancel none] 22 s' (by decide +kernel) (by decide +kernel) hst (by decide +kernel) 1 (by decide)⟩

/-- After `2 ^ 64` more timers the sequence comes again. The timer of an old
id has fired, and a new one has its address and its sequence: the old id's
cancellation deletes the new timer. -/
theorem cancel_hits_another :
    let steps : List TimerLoopStep := [.addTimer 10 ⟨false, 0⟩ 8 5, .fire, .poll true, .handleRead 20, .callback,
      .reset, .restart, .rearm 20, .createElsewhere 0xFFFFFFFFFFFFFFFF, .addTimer 100 ⟨false, 0⟩ 8 21,
      .cancelTimer true (some 0), .doPendingFunctors]
    let s := final timerLoopMachine TimerLoop.create steps
    let s' := final timerLoopMachine TimerLoop.create (steps ++ [.runTask 22])
    accepts timerLoopMachine TimerLoop.create (steps ++ [.runTask 22]) = true ∧
    (∀ p ∈ trace timerLoopMachine TimerLoop.create (steps ++ [.runTask 22]), OwnIds p.1) ∧
    s.marks = [.cancel (some 0)] ∧ s.serial 8 = 0x10000000000000000 ∧ s.queue.heap 8 = some ⟨100, ⟨false, 0⟩, 0⟩ ∧
    s'.queue.heap 8 = none ∧ ¬ Spares 0x10000000000000000 s s' := by
  have hheap : (final timerLoopMachine TimerLoop.create [.addTimer 10 ⟨false, 0⟩ 8 5, .fire, .poll true, .handleRead 20,
      .callback, .reset, .restart, .rearm 20, .createElsewhere 0xFFFFFFFFFFFFFFFF, .addTimer 100 ⟨false, 0⟩ 8 21,
      .cancelTimer true (some 0), .doPendingFunctors]).queue.heap 8 = some ⟨100, ⟨false, 0⟩, 0⟩ := by decide +kernel
  have hheap' : (final timerLoopMachine TimerLoop.create ([.addTimer 10 ⟨false, 0⟩ 8 5, .fire, .poll true,
      .handleRead 20, .callback, .reset, .restart, .rearm 20, .createElsewhere 0xFFFFFFFFFFFFFFFF,
      .addTimer 100 ⟨false, 0⟩ 8 21, .cancelTimer true (some 0), .doPendingFunctors] ++ [.runTask 22])).queue.heap 8 =
      none := by decide +kernel
  refine ⟨by decide +kernel, (reads_of_run (run_of_accepts _ _ (by decide +kernel)) (by decide +kernel)).2,
    by decide +kernel, by decide +kernel, hheap, hheap', fun hspares => ?_⟩
  have hsame := hspares.heap 8 (by decide +kernel)
  rw [hheap, hheap'] at hsame
  cases hsame

end MiniMuduo
