/-
# Which timer is which

An address is used again once its timer is deleted, and the sequence wraps:
neither tells timers apart. Their numbers do. The timer at an address is the
one that call `serial t` of `AddTimer` created, with the sequence it was
created with (`Numbered`), whatever the allocator reuses; and the timers in
hand, those that `HandleRead` has taken and those that another thread has
allocated and not yet handed over, are allocated, all different and in
neither set (`HandsInOrder`).

`AddTimer` on another thread reads `timer->sequence()` after it has handed
the timer over. If the loop deletes no timer before that read, the id it
returns is its own timer's (`addTimer_returns_own`); a one-shot timer that
expires in between is deleted, and the read is one of freed memory, or of the
timer that took the address (`addTimer_reads_freed`).

Key definitions: `Numbered`, `HandsInOrder`, `TimerLoop.deletes`, `ReadFirst`.
Key theorems: `Numbered.move`, `HandsInOrder.move`, `addTimer_returns_own`.
-/
import MiniMuduo.TimerLoop

namespace MiniMuduo

open Fallible Runs Word OrderedSet TimerQueue

/-! ### The numbers of the timers -/

/-- The timer at an address is the one of the call it is numbered by, the
latest at that address; call `k` created timer `k` of the process. -/
structure Numbered (s : TimerLoop) : Prop where
  live : ∀ t timer, s.queue.heap t = some timer → ∃ stage, s.calls (s.serial t) = some ⟨t, timer.sequence, stage⟩
  call : ∀ k c, s.calls k = some c → k < s.made ∧ k ≤ s.serial c.timer ∧ c.sequence = int64 k
  counter : s.queue.numCreated = int64 s.made
  null : s.queue.heap 0 = none

namespace Numbered

variable {s s' : TimerLoop} {t k : ℕ}

theorem start : Numbered TimerLoop.create := by
  refine ⟨?_, ?_, (int64_of_isInt64 (by decide)).symm, rfl⟩
  · intro t timer hheap
    cases hheap
  · intro k c hcall
    cases hcall

/-- A timer at hand has one of the numbers given out. -/
theorem serial_lt (h : Numbered s) {timer : Timer} (hheap : s.queue.heap t = some timer) : s.serial t < s.made := by
  obtain ⟨stage, hcall⟩ := h.live t timer hheap
  exact (h.call _ _ hcall).1

theorem serial_inj (h : Numbered s) {t' : ℕ} {timer timer' : Timer} (hheap : s.queue.heap t = some timer)
    (hheap' : s.queue.heap t' = some timer') (heq : s.serial t = s.serial t') : t = t' := by
  obtain ⟨stage, hcall⟩ := h.live t timer hheap
  obtain ⟨stage', hcall'⟩ := h.live t' timer' hheap'
  rw [heq, hcall'] at hcall
  exact (congrArg AddCall.timer (Option.some.inj hcall)).symm

theorem same (h : Numbered s) (hheap : s'.queue.heap = s.queue.heap)
    (hnum : s'.queue.numCreated = s.queue.numCreated) (hmade : s'.made = s.made)
    (hserial : s'.serial = s.serial) (hcalls : s'.calls = s.calls) : Numbered s' := by
  refine ⟨?_, ?_, ?_, ?_⟩
  · rw [hheap, hserial, hcalls]
    exact h.live
  · rw [hserial, hcalls, hmade]
    exact h.call
  · rw [hnum, hmade]
    exact h.counter
  · rw [hheap]
    exact h.null

/-- A new timer takes the next number. -/
theorem fresh (h : Numbered s) {when : ℤ} {interval : Interval} {stage : AddStage} (hpos : 0 < t)
    (hheap : s'.queue.heap = Function.update s.queue.heap t (some ⟨when, interval, s.queue.numCreated⟩))
    (hnum : s'.queue.numCreated = int64 (s.queue.numCreated + 1)) (hmade : s'.made = s.made + 1)
    (hserial : s'.serial = Function.update s.serial t s.made)
    (hcalls : s'.calls = Function.update s.calls s.made (some ⟨t, s.queue.numCreated, stage⟩)) : Numbered s' := by
  refine ⟨?_, ?_, ?_, ?_⟩
  · intro t' timer htimer
    rw [hheap] at htimer
    rw [hserial, hcalls]
    by_cases ht : t' = t
    · subst ht
      rw [Function.update_self] at htimer ⊢
      cases htimer
      exact ⟨stage, Function.update_self ..⟩
    · rw [Function.update_of_ne ht] at htimer ⊢
      rw [Function.update_of_ne (h.serial_lt htimer).ne]
      exact h.live t' timer htimer
  · intro k c hcall
    rw [hcalls] at hcall
    rw [hserial, hmade]
    by_cases hk : k = s.made
    · subst hk
      rw [Function.update_self] at hcall
      cases hcall
      refine ⟨Nat.lt_succ_self _, ?_, h.counter⟩
      rw [Function.update_self]
    · rw [Function.update_of_ne hk] at hcall
      obtain ⟨hlt, hle, hseq⟩ := h.call k c hcall
      refine ⟨hlt.trans (Nat.lt_succ_self _), ?_, hseq⟩
      by_cases ht : c.timer = t
      · rw [ht, Function.update_self]
        exact hlt.le
      · rw [Function.update_of_ne ht]
        exact hle
  · rw [hnum, hmade, h.counter, int64_add]
    rfl
  · rw [hheap, Function.update_of_ne hpos.ne]
    exact h.null

/-- A call comes further. -/
theorem proceed (h : Numbered s) {sequence : ℤ} {stage stage' : AddStage}
    (hcall : s.calls k = some ⟨t, sequence, stage⟩) (hheap : s'.queue.heap = s.queue.heap)
    (hnum : s'.queue.numCreated = s.queue.numCreated) (hmade : s'.made = s.made) (hserial : s'.serial = s.serial)
    (hcalls : s'.calls = Function.update s.calls k (some ⟨t, sequence, stage'⟩)) : Numbered s' := by
  refine ⟨?_, ?_, ?_, ?_⟩
  · intro t' timer htimer
    rw [hheap] at htimer
    rw [hserial, hcalls]
    obtain ⟨stage'', hlive⟩ := h.live t' timer htimer
    by_cases hk : s.serial t' = k
    · rw [hk, hcall] at hlive
      cases hlive
      exact ⟨stage', by rw [hk, Function.update_self]⟩
    · exact ⟨stage'', by rw [Function.update_of_ne hk, hlive]⟩
  · intro k' c hcall'
    rw [hcalls] at hcall'
    rw [hserial, hmade]
    by_cases hk : k' = k
    · subst hk
      rw [Function.update_self] at hcall'
      cases hcall'
      have hold := h.call k' _ hcall
      exact hold
    · rw [Function.update_of_ne hk] at hcall'
      exact h.call k' c hcall'
  · rw [hnum, hmade]
    exact h.counter
  · rw [hheap]
    exact h.null

/-- A timer is deleted, or changes and keeps its sequence. -/
theorem update (h : Numbered s) {timer : Timer} {timer' : Option Timer} (hold : s.queue.heap t = some timer)
    (hseq : ∀ x ∈ timer', x.sequence = timer.sequence)
    (hheap : s'.queue.heap = Function.update s.queue.heap t timer')
    (hnum : s'.queue.numCreated = s.queue.numCreated) (hmade : s'.made = s.made)
    (hserial : s'.serial = s.serial) (hcalls : s'.calls = s.calls) : Numbered s' := by
  refine ⟨?_, ?_, ?_, ?_⟩
  · intro t' x hx
    rw [hheap] at hx
    rw [hserial, hcalls]
    by_cases ht : t' = t
    · subst ht
      rw [Function.update_self] at hx
      rw [hseq x hx]
      exact h.live t' timer hold
    · rw [Function.update_of_ne ht] at hx
      exact h.live t' x hx
  · rw [hserial, hcalls, hmade]
    exact h.call
  · rw [hnum, hmade]
    exact h.counter
  · have hpos : 0 ≠ t := by
      rintro rfl
      rw [h.null] at hold
      cases hold
    rw [hheap, Function.update_of_ne hpos]
    exact h.null

theorem move (h : Numbered s) {a : TimerLoopStep} (hm : TimerMove s a s') : Numbered s' := by
  cases hm with
  | quiet _ hheap hnum => exact h.same hheap hnum rfl rfl rfl
  | elsewhere n =>
    refine ⟨h.live, fun k c hcall => ?_, ?_, h.null⟩
    · obtain ⟨hlt, hrest⟩ := h.call k c hcall
      exact ⟨Nat.lt_add_right n hlt, hrest⟩
    · show int64 (s.queue.numCreated + n) = int64 ((s.made + n : ℕ) : ℤ)
      rw [h.counter, int64_add]
      rfl
  | added _ _ hpos hqueue =>
    subst hqueue
    exact h.fresh hpos rfl rfl rfl rfl rfl
  | allocated _ _ hpos hqueue =>
    subst hqueue
    exact h.fresh hpos rfl rfl rfl rfl rfl
  | handedOver hcall => exact h.proceed hcall rfl rfl rfl rfl rfl
  | finished hcall => exact h.proceed hcall rfl rfl rfl rfl rfl
  | cancelled => exact h.same rfl rfl rfl rfl rfl
  | expired _ _ hqueue =>
    subst hqueue
    exact h.same rfl rfl rfl rfl rfl
  | called => exact h.same rfl rfl rfl rfl rfl
  | restarted _ _ hheap hqueue =>
    subst hqueue
    refine h.update hheap (fun x hx => ?_) rfl rfl rfl rfl rfl
    obtain rfl := Option.some.inj hx
    rfl
  | deleted _ _ hheap _ hqueue =>
    subst hqueue
    exact h.update hheap (by simp) rfl rfl rfl rfl rfl
  | ranAdd _ _ _ _ _ hqueue =>
    subst hqueue
    exact h.same rfl rfl rfl rfl rfl
  | ranCancel _ _ _ _ _ hheap hqueue =>
    subst hqueue
    exact h.update hheap (by simp) rfl rfl rfl rfl rfl
  | ranCancelGone _ _ _ _ _ _ hqueue =>
    subst hqueue
    exact h.same rfl rfl rfl rfl rfl

end Numbered

/-! ### The timers in hand -/

/-- `GetExpired`, as part of `HandleRead`: the expired timers are in hand. -/
theorem TimerQueue.Sound.beginHandleRead {held expired : List ℕ} {q q' : TimerQueue} {now : ℤ}
    (h : Sound held q) (hop : q.beginHandleRead now = .ok (expired, q')) :
    Sound (expired ++ held) q' ∧
      (∀ t, t ∈ expired ↔ ∃ e, toLex (e, t) ∈ q.timers ∧ toLex (e, t) < (toLex (now, uintptrMax) : Entry)) ∧
      ∀ t s, (t, s) ∈ q'.activeTimers ↔ (t, s) ∈ q.activeTimers ∧ t ∉ expired := by
  have h0 : Sound held { q with timerFd := detail.readTimerFd q.timerFd } := h.congr rfl rfl rfl rfl
  obtain ⟨active', hexp, hs, hact⟩ := h0.takeExpired now
  unfold TimerQueue.beginHandleRead at hop
  simp only [hexp, ok_bind] at hop
  cases hop
  refine ⟨hs.congr rfl rfl rfl rfl, fun t => ?_, hact⟩
  rw [List.mem_map]
  constructor
  · rintro ⟨entry, he, rfl⟩
    exact ⟨(ofLex entry).1, mem_below.mp he⟩
  · rintro ⟨e, he⟩
    exact ⟨toLex (e, t), mem_below.mpr he, rfl⟩

/-- The queue is in order with the timers that `HandleRead` has in hand and
those allocated by calls of `AddTimer` that have not handed them over. -/
structure HandsInOrder (fresh : List ℕ) (s : TimerLoop) : Prop where
  sound : Sound (s.place.held ++ fresh) s.queue
  fresh : ∀ k t sequence when, s.calls k = some ⟨t, sequence, .allocated when⟩ → t ∈ fresh ∧ s.serial t = k ∧
    ∃ timer, s.queue.heap t = some timer ∧ timer.expiration = when

namespace HandsInOrder

variable {s s' : TimerLoop} {fresh : List ℕ} {t k : ℕ}

theorem start : HandsInOrder [] TimerLoop.create := by
  refine ⟨Sound.create 0, ?_⟩
  intro k t sequence when hcall
  cases hcall

/-- The calls on other threads do not notice. -/
theorem keep (h : HandsInOrder fresh s) (hsound : Sound (s'.place.held ++ fresh) s'.queue)
    (hcalls : ∀ k t sequence when, s'.calls k = some ⟨t, sequence, .allocated when⟩ →
      s.calls k = some ⟨t, sequence, .allocated when⟩)
    (hserial : ∀ t ∈ fresh, s'.serial t = s.serial t) (hheap : ∀ t ∈ fresh, s'.queue.heap t = s.queue.heap t) :
    HandsInOrder fresh s' := by
  refine ⟨hsound, fun k t sequence when hcall => ?_⟩
  obtain ⟨hmem, hk, htimer⟩ := h.fresh k t sequence when (hcalls k t sequence when hcall)
  rw [hserial t hmem, hheap t hmem]
  exact ⟨hmem, hk, htimer⟩

/-- A timer in hand is in neither set. -/
theorem idle (h : HandsInOrder fresh s) (ht : t ∈ s.place.held ++ fresh) (sequence : ℤ) :
    (t, sequence) ∉ s.queue.activeTimers :=
  h.sound.idle t (List.mem_append_left _ ht) sequence

theorem fresh_allocated (h : HandsInOrder fresh s) (ht : t ∈ fresh) : ∃ timer, s.queue.heap t = some timer :=
  h.sound.allocated t (List.mem_append_left _ (List.mem_append_right _ ht))

theorem held_allocated (h : HandsInOrder fresh s) (ht : t ∈ s.place.held) : ∃ timer, s.queue.heap t = some timer :=
  h.sound.allocated t (List.mem_append_left _ (List.mem_append_left _ ht))

/-- An address that is free is not in hand. -/
theorem ne_of_free (h : HandsInOrder fresh s) {t' : ℕ} (hfree : s.queue.heap t = none) (ht' : t' ∈ fresh) :
    t' ≠ t := by
  rintro rfl
  obtain ⟨timer, hheap⟩ := h.fresh_allocated ht'
  rw [hfree] at hheap
  cases hheap

/-- A timer that `HandleRead` has in hand is not one of another thread's. -/
theorem ne_of_held (h : HandsInOrder fresh s) {t' : ℕ} (ht : t ∈ s.place.held) (ht' : t' ∈ fresh) : t' ≠ t := by
  rintro rfl
  have hnodup := (List.nodup_append.mp h.sound.nodup).1
  exact (List.nodup_append.mp hnodup).2.2 t' ht t' ht' rfl

/-- Another thread allocates a timer. -/
theorem allocate (h : HandsInOrder fresh s) {when : ℤ} {interval : Interval} {queue : TimerQueue}
    (hop : s.queue.newTimer when interval t = .ok queue) (hfree : s.queue.heap t = none)
    (hqueue : queue.heap = Function.update s.queue.heap t (some ⟨when, interval, s.queue.numCreated⟩)) :
    HandsInOrder (t :: fresh) { s.number t ⟨t, s.queue.numCreated, .allocated when⟩ with queue } := by
  refine ⟨((h.sound.newTimer when interval t).ok_of hop).1.perm List.perm_middle, ?_⟩
  intro k t' sequence when' hcall
  replace hcall : Function.update s.calls s.made (some ⟨t, s.queue.numCreated, .allocated when⟩) k =
    some ⟨t', sequence, .allocated when'⟩ := hcall
  by_cases hk : k = s.made
  · subst hk
    rw [Function.update_self] at hcall
    cases hcall
    refine ⟨List.mem_cons_self, Function.update_self .., ⟨when, interval, s.queue.numCreated⟩, ?_, rfl⟩
    exact (congrFun hqueue t).trans (Function.update_self ..)
  · rw [Function.update_of_ne hk] at hcall
    obtain ⟨hmem, hserial, timer, hheap, hwhen⟩ := h.fresh k t' sequence when' hcall
    have hne : t' ≠ t := h.ne_of_free hfree hmem
    refine ⟨List.mem_cons_of_mem _ hmem, (Function.update_of_ne hne ..).trans hserial, timer, ?_, hwhen⟩
    exact (congrFun hqueue t').trans ((Function.update_of_ne hne ..).trans hheap)

theorem handOver (h : HandsInOrder fresh s) {sequence when : ℤ}
    (hcall : s.calls k = some ⟨t, sequence, .allocated when⟩) :
    HandsInOrder (fresh.erase t) { s.proceed k ⟨t, sequence, .handedOver⟩ with
      queue := { s.queue with tasks := s.queue.tasks ++ [.addTimeInLoop when t] }
      marks := s.marks ++ [.add k] } := by
  obtain ⟨hmem, hk, timer, hheap, rfl⟩ := h.fresh k t sequence when hcall
  have hperm : (t :: (s.place.held ++ fresh.erase t)).Perm (s.place.held ++ fresh) :=
    List.perm_middle.symm.trans ((List.perm_cons_erase hmem).symm.append_left _)
  refine ⟨(h.sound.perm hperm).queue hheap, ?_⟩
  intro k' t' sequence' when' hcall'
  replace hcall' : Function.update s.calls k (some ⟨t, sequence, .handedOver⟩) k' =
    some ⟨t', sequence', .allocated when'⟩ := hcall'
  by_cases hkk : k' = k
  · subst hkk
    rw [Function.update_self] at hcall'
    cases hcall'
  · rw [Function.update_of_ne hkk] at hcall'
    obtain ⟨hmem', hk', htimer⟩ := h.fresh k' t' sequence' when' hcall'
    have hne : t' ≠ t := by
      rintro rfl
      exact hkk (hk'.symm.trans hk)
    exact ⟨(List.mem_erase_of_ne hne).mpr hmem', hk', htimer⟩

/-- A call past the hand-over is none of those before it. -/
theorem not_allocated {call : AddCall} (hstage : ∀ when, call.stage ≠ .allocated when) (k' t : ℕ) (sequence when : ℤ)
    (hcall : Function.update s.calls k (some call) k' = some ⟨t, sequence, .allocated when⟩) :
    s.calls k' = some ⟨t, sequence, .allocated when⟩ := by
  by_cases hk : k' = k
  · subst hk
    rw [Function.update_self] at hcall
    cases hcall
    exact absurd rfl (hstage when)
  · rw [Function.update_of_ne hk] at hcall
    exact hcall

theorem restart (h : HandsInOrder fresh s) {now : ℤ} {todo : List ℕ} {queue : TimerQueue}
    (hplace : s.place = .resetting now (t :: todo)) (hop : s.queue.restart now t = .ok queue)
    (hheap : ∀ t' ≠ t, queue.heap t' = s.queue.heap t') :
    HandsInOrder fresh { s with queue, place := .resetting now todo } := by
  have hs := h.sound
  rw [hplace] at hs
  obtain ⟨q', hop', hs', -⟩ := hs.restart now
  obtain rfl : queue = q' := Except.ok.inj (hop.symm.trans hop')
  have ht : t ∈ s.place.held := by
    rw [hplace]
    exact List.mem_cons_self
  exact h.keep hs' (fun _ _ _ _ hcall => hcall) (fun _ _ => rfl) fun t' ht' => hheap t' (h.ne_of_held ht ht')

theorem runTask (h : HandsInOrder fresh s) {now : ℤ} {left : ℕ} {queue : TimerQueue} {marks : List TaskMark}
    {log : List TimerEvent} (hplace : s.place = .functors (left + 1)) (hop : s.queue.runTask now = .ok queue)
    (hheap : ∀ t' ∈ fresh, queue.heap t' = s.queue.heap t') :
    HandsInOrder fresh { s with queue, place := .functors left, marks, log } := by
  obtain ⟨q', hop', hs'⟩ := h.sound.runTask now
  obtain rfl : queue = q' := Except.ok.inj (hop.symm.trans hop')
  rw [hplace] at hs'
  exact h.keep hs' (fun _ _ _ _ hcall => hcall) (fun _ _ => rfl) hheap

theorem move (h : HandsInOrder fresh s) {a : TimerLoopStep} (hm : TimerMove s a s') :
    ∃ fresh', HandsInOrder fresh' s' := by
  have hcalls : ∀ k t sequence when, s.calls k = some ⟨t, sequence, .allocated when⟩ →
      s.calls k = some ⟨t, sequence, .allocated when⟩ := fun _ _ _ _ hcall => hcall
  cases hm with
  | @quiet _ queue place _ hheap hnum htimers hactive htasks hheld hcalling =>
    refine ⟨fresh, h.keep ?_ hcalls (fun _ _ => rfl) fun t _ => congrFun hheap t⟩
    show Sound (place.held ++ fresh) queue
    rw [hheld]
    exact h.sound.congr hheap htimers hactive htasks
  | elsewhere n => exact ⟨fresh, h.keep (h.sound.congr rfl rfl rfl rfl) hcalls (fun _ _ => rfl) fun _ _ => rfl⟩
  | added hop hfree _ hqueue =>
    have hs := ((h.sound.addTimer _ _ _ _).ok_of hop).1
    subst hqueue
    refine ⟨fresh, h.keep hs (not_allocated (by simp)) (fun t' ht' => ?_) fun t' ht' => ?_⟩
    · exact Function.update_of_ne (h.ne_of_free hfree ht') ..
    · exact Function.update_of_ne (h.ne_of_free hfree ht') ..
  | allocated hop hfree _ hqueue => exact ⟨_, h.allocate hop hfree (congrArg TimerQueue.heap hqueue)⟩
  | handedOver hcall => exact ⟨_, h.handOver hcall⟩
  | finished =>
    exact ⟨fresh, h.keep h.sound (not_allocated (by simp)) (fun _ _ => rfl) fun _ _ => rfl⟩
  | cancelled => exact ⟨fresh, h.keep (h.sound.cancelTimer _) hcalls (fun _ _ => rfl) fun _ _ => rfl⟩
  | expired hplace hop hqueue =>
    have hs := (h.sound.beginHandleRead hop).1
    rw [hplace] at hs
    subst hqueue
    exact ⟨fresh, h.keep hs hcalls (fun _ _ => rfl) fun _ _ => rfl⟩
  | @called now t called todo timer hplace hheap =>
    have hs := h.sound
    rw [hplace] at hs
    have hheld : (TimerPlace.calling now (called ++ [t]) todo).held =
        (TimerPlace.calling now called (t :: todo)).held := List.append_assoc called [t] todo
    refine ⟨fresh, h.keep ?_ hcalls (fun _ _ => rfl) fun _ _ => rfl⟩
    show Sound ((TimerPlace.calling now (called ++ [t]) todo).held ++ fresh) _
    rw [hheld]
    exact hs.congr rfl rfl rfl rfl
  | restarted hplace hop _ hqueue =>
    refine ⟨fresh, h.restart hplace hop fun t' hne => ?_⟩
    rw [hqueue]
    exact Function.update_of_ne hne ..
  | deleted hplace hop _ _ hqueue =>
    refine ⟨fresh, h.restart hplace hop fun t' hne => ?_⟩
    rw [hqueue]
    exact Function.update_of_ne hne ..
  | ranAdd hplace _ _ hop _ hqueue =>
    refine ⟨fresh, h.runTask hplace hop fun t' _ => ?_⟩
    rw [hqueue]
  | @ranCancel _ _ id _ _ _ _ _ _ hplace _ _ hop hactive _ hqueue =>
    refine ⟨fresh, h.runTask hplace hop fun t' ht' => ?_⟩
    have hne : t' ≠ id.1 := by
      rintro rfl
      exact h.idle (List.mem_append_right _ ht') id.2 hactive
    rw [hqueue]
    exact Function.update_of_ne hne ..
  | ranCancelGone hplace _ _ hop _ _ hqueue =>
    refine ⟨fresh, h.runTask hplace hop fun t' _ => ?_⟩
    rw [hqueue]

end HandsInOrder

/-! ### Faults -/

/-- What holds in every state of a loop and its timers. -/
def Accounted (s : TimerLoop) : Prop := Numbered s ∧ ∃ fresh, HandsInOrder fresh s

theorem accounted_of_run {tr : List (TimerLoop × TimerLoopStep)} {s : TimerLoop}
    (hr : Run timerLoopMachine TimerLoop.create tr s) : Accounted s := by
  have hstep : ∀ t a u, Accounted t → timerLoopMachine.enabled t a → timerLoopMachine.step t a = .ok u →
      Accounted u := by
    rintro t a u ⟨hnum, fresh, hord⟩ hen hst
    have hm := timerMove_of_step hen hst
    exact ⟨hnum.move hm, hord.move hm⟩
  exact hr.always hstep ⟨Numbered.start, [], HandsInOrder.start⟩

namespace HandsInOrder

variable {s : TimerLoop} {fresh : List ℕ}

theorem runTask_returns (h : HandsInOrder fresh s) (now : ℤ) : ∃ s', s.runTask now = .ok s' := by
  unfold TimerLoop.runTask
  split
  · obtain ⟨q', hop, -⟩ := h.sound.runTask now
    rw [hop]
    exact ⟨_, rfl⟩
  · exact ⟨s, rfl⟩

theorem handleRead_returns (h : HandsInOrder fresh s) (now : ℤ) : ∃ s', s.handleRead now = .ok s' := by
  have h0 : Sound _ { s.queue with timerFd := detail.readTimerFd s.queue.timerFd } := h.sound.congr rfl rfl rfl rfl
  obtain ⟨active, hexp, -⟩ := h0.takeExpired now
  unfold TimerLoop.handleRead beginHandleRead
  simp only [hexp]
  exact ⟨_, rfl⟩

theorem callback_returns (h : HandsInOrder fresh s) : ∃ s', s.callback = .ok s' := by
  unfold TimerLoop.callback
  split
  case h_1 now called t todo hplace =>
    have ht : t ∈ s.place.held := by
      rw [hplace]
      exact List.mem_append_right _ List.mem_cons_self
    obtain ⟨timer, hheap⟩ := h.held_allocated ht
    rw [deref_eq hheap]
    exact ⟨_, rfl⟩
  case h_2 => exact ⟨s, rfl⟩

theorem restart_returns (h : HandsInOrder fresh s) : ∃ s', s.restart = .ok s' := by
  unfold TimerLoop.restart
  split
  case h_1 now t todo hplace =>
    have hs := h.sound
    rw [hplace] at hs
    obtain ⟨q', hop, -⟩ := hs.restart now
    rw [hop]
    exact ⟨_, rfl⟩
  case h_2 => exact ⟨s, rfl⟩

end HandsInOrder

theorem TimerLoop.finish_fault {s : TimerLoop} {k : ℕ} {f : Fault} (hf : s.finish k = .error f) :
    f = .useAfterFree := by
  unfold TimerLoop.finish deref at hf
  split at hf
  · split at hf
    · cases hf
    · cases hf
      rfl
  · cases hf

/-- The only faults, under every interleaving of the threads: the allocator
gives out an address in use, or `AddTimer` reads a deleted timer. -/
theorem timerLoop_fault {tr : List (TimerLoop × TimerLoopStep)} {s : TimerLoop} {a : TimerLoopStep} {f : Fault}
    (hr : Run timerLoopMachine TimerLoop.create tr s) (hf : s.step a = .error f) :
    f = .badAlloc ∨ f = .useAfterFree ∧ ∃ k, a = .finish k := by
  obtain ⟨-, fresh, h⟩ := accounted_of_run hr
  cases a with
  | addTimer when interval t now =>
    left
    refine Gives.error_of (P := fun _ => True) (F := OnlyBadAlloc) ?_ hf
    exact (h.sound.addTimer when interval t now).bind fun _ _ => trivial
  | allocate when interval t =>
    left
    refine Gives.error_of (P := fun _ => True) (F := OnlyBadAlloc) ?_ hf
    exact (h.sound.newTimer when interval t).bind fun _ _ => trivial
  | runTask now =>
    obtain ⟨s', hst⟩ := h.runTask_returns now
    cases hst.symm.trans hf
  | handleRead now =>
    obtain ⟨s', hst⟩ := h.handleRead_returns now
    cases hst.symm.trans hf
  | callback =>
    obtain ⟨s', hst⟩ := h.callback_returns
    cases hst.symm.trans hf
  | restart =>
    obtain ⟨s', hst⟩ := h.restart_returns
    cases hst.symm.trans hf
  | finish k => exact .inr ⟨TimerLoop.finish_fault hf, k, rfl⟩
  | reset =>
    simp only [TimerLoop.step] at hf
    split at hf
    · cases hf
    · cases hf
  | _ => cases hf

/-! ### The id that `AddTimer` returns -/

/-- Every id returned is the address and the sequence of the timer that its
own call created. -/
def OwnIds (s : TimerLoop) : Prop :=
  ∀ k c id, s.calls k = some c → c.stage = .returned id → id = (c.timer, c.sequence)

/-- A timer whose call has yet to read it is allocated, and is that call's. -/
def Unread (s : TimerLoop) : Prop :=
  ∀ k c, s.calls k = some c → c.stage.isReturned = false →
    s.serial c.timer = k ∧ ∃ timer, s.queue.heap c.timer = some timer

/-- The step deletes no timer whose call of `AddTimer` has yet to read it. -/
def ReadFirst (s : TimerLoop) (a : TimerLoopStep) : Prop :=
  ∀ t ∈ s.deletes a, ∀ c ∈ s.calls (s.serial t), c.stage.isReturned = true

instance (s : TimerLoop) (a : TimerLoopStep) : Decidable (ReadFirst s a) :=
  inferInstanceAs (Decidable (∀ t ∈ s.deletes a, ∀ c ∈ s.calls (s.serial t), c.stage.isReturned = true))

section OwnIds

variable {s s' : TimerLoop} {a : TimerLoopStep}

theorem Unread.move (h : Unread s) (hm : TimerMove s a s') (hread : ReadFirst s a) : Unread s' := by
  -- a call already under way finds its timer again, since the step does not delete it
  have hold : ∀ k c, s.calls k = some c → c.stage.isReturned = false →
      s'.serial c.timer = k ∧ ∃ timer, s'.queue.heap c.timer = some timer := by
    intro k c hcall hstage
    obtain ⟨hserial, timer, hheap⟩ := h k c hcall hstage
    obtain ⟨hkept, hdel | hlive⟩ := hm.kept hheap
    · have hreturned := hread _ hdel c (by rw [hserial, hcall]; rfl)
      rw [hstage] at hreturned
      cases hreturned
    · exact ⟨hkept.trans hserial, hlive⟩
  intro k c hcall hstage
  rcases hm.call_origin hcall with hcall | ⟨-, hserial, hheap, -⟩ | ⟨stage, hcall, hstage, -⟩
  · exact hold k c hcall hstage
  · exact ⟨hserial, hheap⟩
  · have hthere := hold k _ hcall hstage
    exact hthere

theorem OwnIds.move (h : OwnIds s) (hnum : Numbered s) (hunread : Unread s) (hm : TimerMove s a s') : OwnIds s' := by
  intro k c id hcall hid
  rcases hm.call_origin hcall with hcall | ⟨-, -, -, hnew⟩ | ⟨stage, hold, hunstage, hnew⟩
  · exact h k c id hcall hid
  · rcases hnew with ⟨when, hstage⟩ | ⟨hstage, -⟩
    · cases hstage.symm.trans hid
    · exact (AddStage.returned.inj (hstage.symm.trans hid)).symm
  · rcases hnew with ⟨hstage, -⟩ | ⟨-, timer, hheap, hstage⟩
    · cases hstage.symm.trans hid
    -- the timer read is the one numbered `k`, which this call created
    obtain rfl := AddStage.returned.inj (hstage.symm.trans hid)
    obtain ⟨hserial, -⟩ := hunread k _ hold hunstage
    obtain ⟨stage', hlive⟩ := hnum.live c.timer timer hheap
    rw [hserial, hold] at hlive
    exact Prod.ext rfl (congrArg AddCall.sequence (Option.some.inj hlive)).symm

end OwnIds

/-- What the calls read, in every state of a run. -/
theorem reads_of_run {tr : List (TimerLoop × TimerLoopStep)} {s : TimerLoop}
    (hr : Run timerLoopMachine TimerLoop.create tr s) (hread : ∀ p ∈ tr, ReadFirst p.1 p.2) :
    (Numbered s ∧ Unread s ∧ OwnIds s) ∧ ∀ p ∈ tr, OwnIds p.1 := by
  have hstep : ∀ t a u, (Numbered t ∧ Unread t ∧ OwnIds t) → timerLoopMachine.enabled t a → ReadFirst t a →
      timerLoopMachine.step t a = .ok u → Numbered u ∧ Unread u ∧ OwnIds u := by
    rintro t a u ⟨hnum, hunread, hown⟩ hen hfirst hst
    have hm := timerMove_of_step hen hst
    exact ⟨hnum.move hm, hunread.move hm hfirst, hown.move hnum hunread hm⟩
  have hstart : Numbered TimerLoop.create ∧ Unread TimerLoop.create ∧ OwnIds TimerLoop.create := by
    refine ⟨Numbered.start, fun k c hcall => ?_, fun k c id hcall => ?_⟩
    · cases hcall
    · cases hcall
  have hend := hr.invariant hstep hstart hread
  have hway := hr.invariant_trace hstep hstart hread
  exact ⟨hend, fun p hp => (hway p hp).2.2⟩

/-- **`AddTimer` returns the identity of the timer it created**, in every run
in which no timer is deleted before its call of `AddTimer` has read it: every
id returned is the address and sequence of the timer its own call created,
and a call that has handed its timer over reads that timer, allocated and not
replaced. -/
theorem addTimer_returns_own {tr : List (TimerLoop × TimerLoopStep)} {s : TimerLoop}
    (hr : Run timerLoopMachine TimerLoop.create tr s) (hread : ∀ p ∈ tr, ReadFirst p.1 p.2) :
    OwnIds s ∧ ∀ k t sequence, s.calls k = some ⟨t, sequence, .handedOver⟩ →
      s.step (.finish k) = .ok (s.proceed k ⟨t, sequence, .returned (t, sequence)⟩) := by
  obtain ⟨hnum, hunread, hown⟩ := (reads_of_run hr hread).1
  refine ⟨hown, fun k t sequence hcall => ?_⟩
  obtain ⟨hserial, timer, hheap⟩ := hunread k _ hcall rfl
  obtain ⟨stage, hlive⟩ := hnum.live t timer hheap
  rw [show s.serial t = k from hserial, hcall] at hlive
  have hseq : timer.sequence = sequence := (congrArg AddCall.sequence (Option.some.inj hlive)).symm
  simp only [TimerLoop.step, TimerLoop.finish, hcall, deref_eq hheap, ok_bind, hseq]
  rfl

/-- A one-shot timer added on another thread expires after its call has read
it. -/
theorem addTimer_returns_own_oneShot :
    let steps : List TimerLoopStep := [.allocate 10 ⟨false, 0⟩ 8, .handOver 0, .poll false, .doPendingFunctors,
      .runTask 5, .finish 0, .fire, .poll true, .handleRead 20, .callback, .addTimer 100 ⟨false, 0⟩ 16 20, .reset,
      .restart, .rearm 20, .allocate 200 ⟨false, 0⟩ 8, .handOver 2]
    let s := final timerLoopMachine TimerLoop.create steps
    s.calls 0 = some ⟨8, 0, .returned (8, 0)⟩ ∧
      s.step (.finish 2) = .ok (s.proceed 2 ⟨8, 2, .returned (8, 2)⟩) :=
  ⟨by decide +kernel, (addTimer_returns_own (run_of_accepts _ _ (by decide +kernel)) (by decide +kernel)).2 2 8 2
    (by decide +kernel)⟩

/-- The loop runs the queued `AddTimeInLoop`, the timer expires and is
deleted before its call of `AddTimer` has read it. The read is then of freed
memory; and when the timer's address has been used again, of the timer that
is there now: the id returned is that timer's. -/
theorem addTimer_reads_freed :
    let steps : List TimerLoopStep := [.allocate 10 ⟨false, 0⟩ 8, .handOver 0, .poll false, .doPendingFunctors,
      .runTask 5, .fire, .poll true, .handleRead 20, .callback, .reset, .restart, .rearm 20]
    let s := final timerLoopMachine TimerLoop.create steps
    let reuse : List TimerLoopStep := [.addTimer 100 ⟨false, 0⟩ 8 21, .finish 0]
    let u := final timerLoopMachine TimerLoop.create (steps ++ reuse)
    accepts timerLoopMachine TimerLoop.create (steps ++ reuse) = true ∧
    s.calls 0 = some ⟨8, 0, .handedOver⟩ ∧ s.step (.finish 0) = .error .useAfterFree ∧
    u.calls 0 = some ⟨8, 0, .returned (8, 1)⟩ ∧ u.calls 1 = some ⟨8, 1, .returned (8, 1)⟩ ∧ ¬ OwnIds u := by
  refine ⟨by decide +kernel, by decide +kernel, eq_error_of_fault? (by decide +kernel), by decide +kernel,
    by decide +kernel, fun hown => ?_⟩
  have hid := hown 0 ⟨8, 0, .returned (8, 1)⟩ (8, 1) (by decide +kernel) rfl
  exact absurd hid (by decide)

end MiniMuduo
