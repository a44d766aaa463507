/-
# The two sets of a timer queue mirror each other

`timers_` orders the queued timers by expiration, `active_timers_` finds them
by address and sequence. Between two steps of the loop an entry `(e, t)` is
in the first exactly when the timer at `t` is in the second and expires at
`e`, and every timer in them is allocated (`Mirror`).

While `HandleRead` runs, the expired timers are in neither set, and a timer
that `AddTimer` created is in neither until `AddTimeInLoop` has run: these
are the timers in hand. They are allocated, no two are the same and none is
in a set (`Sound held`), so `insert` never finds its entry present and
`delete` never finds the timer gone, whatever addresses the allocator reuses.

Key definitions: `TimerQueue.Mirror`, `TimerQueue.Sound`.
Key theorems: `Sound.insert`, `Sound.takeExpired`, `Sound.handleRead`,
`timers_mirror`.
-/
import MiniMuduo.TimerQueue

namespace MiniMuduo

open Fallible Runs Word OrderedSet

/-- The timer that a queued task is about to insert. -/
def TimerTask.timer? : TimerTask → Option ℕ
  | .addTimeInLoop _ t => some t
  | .cancelTimerInLoop _ => none

namespace TimerQueue

/-- The sets mirror each other, and their timers are allocated. -/
structure Mirror (q : TimerQueue) : Prop where
  entries : ∀ e t, toLex (e, t) ∈ q.timers ↔
    ∃ timer, q.heap t = some timer ∧ (t, timer.sequence) ∈ q.activeTimers ∧ timer.expiration = e
  active : ∀ t s, (t, s) ∈ q.activeTimers → ∃ timer, q.heap t = some timer ∧ timer.sequence = s

/-- The timers in hand: `held` by a running function, or by a queued task. -/
def inHand (held : List ℕ) (q : TimerQueue) : List ℕ := held ++ q.tasks.filterMap TimerTask.timer?

/-- A queue in order, with the timers `held` by the running function. -/
structure Sound (held : List ℕ) (q : TimerQueue) : Prop where
  mirror : q.Mirror
  nodup : (q.inHand held).Nodup
  allocated : ∀ t ∈ q.inHand held, ∃ timer, q.heap t = some timer
  idle : ∀ t ∈ q.inHand held, ∀ s, (t, s) ∉ q.activeTimers
  queued : ∀ when t, .addTimeInLoop when t ∈ q.tasks → ∃ timer, q.heap t = some timer ∧ timer.expiration = when

/-- The only fault: `new` was given an address that is not free. -/
def OnlyBadAlloc (f : Fault) : Prop := f = .badAlloc

theorem deref_eq {q : TimerQueue} {t : ℕ} {timer : Timer} (h : q.heap t = some timer) :
    q.deref t = .ok timer := by
  unfold deref
  rw [h]

namespace Mirror

variable {q : TimerQueue}

/-- A timer of `timers_` is allocated, active, and has the entry's
expiration. -/
theorem of_mem (h : q.Mirror) {entry : Entry} (hmem : entry ∈ q.timers) :
    ∃ timer, q.heap (ofLex entry).2 = some timer ∧ ((ofLex entry).2, timer.sequence) ∈ q.activeTimers ∧
      timer.expiration = (ofLex entry).1 :=
  (h.entries _ _).mp hmem

/-- A timer has one entry. -/
theorem entry_eq (h : q.Mirror) {a b : Entry} (ha : a ∈ q.timers) (hb : b ∈ q.timers)
    (ht : (ofLex a).2 = (ofLex b).2) : a = b := by
  obtain ⟨timer, hheap, -, he⟩ := h.of_mem ha
  obtain ⟨timer', hheap', -, he'⟩ := h.of_mem hb
  rw [ht, hheap'] at hheap
  cases hheap
  have hfst : (ofLex a).1 = (ofLex b).1 := he.symm.trans he'
  exact congrArg toLex (Prod.ext hfst ht)

theorem not_mem_of_idle (h : q.Mirror) {t : ℕ} (hidle : ∀ s, (t, s) ∉ q.activeTimers) (e : ℤ) :
    toLex (e, t) ∉ q.timers := by
  intro hmem
  obtain ⟨timer, -, hact, -⟩ := (h.entries e t).mp hmem
  exact hidle _ hact

end Mirror

namespace Sound

variable {held : List ℕ} {q : TimerQueue} {t : ℕ}

theorem mem_inHand_cons (held : List ℕ) (q : TimerQueue) (t : ℕ) : t ∈ q.inHand (t :: held) :=
  List.mem_cons_self

theorem inHand_cons (h : Sound (t :: held) q) : t ∉ q.inHand held ∧ (q.inHand held).Nodup :=
  List.nodup_cons.mp h.nodup

/-- The parts of the state that the invariant is about. -/
theorem congr {q' : TimerQueue} (h : Sound held q) (hheap : q'.heap = q.heap) (ht : q'.timers = q.timers)
    (ha : q'.activeTimers = q.activeTimers) (htasks : q'.tasks = q.tasks) : Sound held q' := by
  obtain ⟨⟨h1, h2⟩, h3, h4, h5, h6⟩ := h
  have hin : q'.inHand held = q.inHand held := by
    unfold inHand
    rw [htasks]
  refine ⟨⟨?_, ?_⟩, ?_, ?_, ?_, ?_⟩
  · rw [ht, ha, hheap]
    exact h1
  · rw [ha, hheap]
    exact h2
  · rw [hin]
    exact h3
  · rw [hin, hheap]
    exact h4
  · rw [hin, ha]
    exact h5
  · rw [htasks, hheap]
    exact h6

/-- A timer in neither set can change, appear or go without the sets
noticing. -/
theorem heap_update {q' : TimerQueue} (h : Sound held q) (hidle : ∀ s, (t, s) ∉ q.activeTimers)
    {timer : Option Timer} (hheap : q'.heap = Function.update q.heap t timer)
    (htimers : q'.timers = q.timers) (hactive : q'.activeTimers = q.activeTimers) : Mirror q' := by
  refine ⟨fun e t' => ?_, fun t' s hact => ?_⟩
  · rw [htimers, hheap, hactive]
    by_cases ht : t' = t
    · subst ht
      refine iff_of_false (h.mirror.not_mem_of_idle hidle e) ?_
      rintro ⟨timer', -, hact, -⟩
      exact hidle _ hact
    · rw [Function.update_of_ne ht]
      exact h.mirror.entries e t'
  · rw [hactive] at hact
    have ht : t' ≠ t := by
      rintro rfl
      exact hidle s hact
    rw [hheap, Function.update_of_ne ht]
    exact h.mirror.active t' s hact

/-- The order of the timers in hand does not matter. -/
theorem perm {held' : List ℕ} (h : Sound held q) (hperm : held'.Perm held) : Sound held' q := by
  have hin : (q.inHand held').Perm (q.inHand held) := hperm.append_right _
  refine ⟨h.mirror, hin.nodup_iff.mpr h.nodup, ?_, ?_, h.queued⟩
  · exact fun t hmem => h.allocated t (hin.mem_iff.mp hmem)
  · exact fun t hmem => h.idle t (hin.mem_iff.mp hmem)

/-- `new`: the timer is in hand. -/
theorem newTimer (h : Sound held q) (when : ℤ) (interval : Interval) (t : ℕ) :
    Gives (fun q' => Sound (t :: held) q' ∧ q.heap t = none ∧
        q'.heap = Function.update q.heap t (some ⟨when, interval, q.numCreated⟩) ∧
        q'.timers = q.timers ∧ q'.timerFd = q.timerFd)
      OnlyBadAlloc (q.newTimer when interval t) := by
  unfold TimerQueue.newTimer
  split
  case isFalse => exact rfl
  case isTrue hfree =>
    have hnone : q.heap t = none := hfree.1
    have hidle : ∀ s, (t, s) ∉ q.activeTimers := by
      intro s hact
      obtain ⟨timer, hheap, -⟩ := h.mirror.active t s hact
      rw [hnone] at hheap
      cases hheap
    have hnot : t ∉ q.inHand held := by
      intro hmem
      obtain ⟨timer, hheap⟩ := h.allocated t hmem
      rw [hnone] at hheap
      cases hheap
    have hother : ∀ t' ∈ q.inHand held, t' ≠ t := by
      rintro t' hmem rfl
      exact hnot hmem
    refine ⟨⟨?_, ?_, ?_, ?_, ?_⟩, hnone, rfl, rfl, rfl⟩
    · exact h.heap_update hidle rfl rfl rfl
    · exact List.nodup_cons.mpr ⟨hnot, h.nodup⟩
    · intro t' hmem
      rcases List.mem_cons.mp hmem with rfl | hmem
      · exact ⟨_, Function.update_self ..⟩
      · obtain ⟨timer, hheap⟩ := h.allocated t' hmem
        exact ⟨timer, (Function.update_of_ne (hother t' hmem) ..).trans hheap⟩
    · intro t' hmem
      rcases List.mem_cons.mp hmem with rfl | hmem
      · exact hidle
      · exact h.idle t' hmem
    · intro when' t' htask
      have hmem : t' ∈ q.inHand held :=
        List.mem_append_right _ (List.mem_filterMap.mpr ⟨_, htask, rfl⟩)
      obtain ⟨timer, hheap, he⟩ := h.queued when' t' htask
      exact ⟨timer, (Function.update_of_ne (hother t' hmem) ..).trans hheap, he⟩

/-- `insert` of a timer in hand: both assertions hold, and the timer is in
the sets afterwards. -/
theorem insert (h : Sound (t :: held) q) :
    ∃ timer changed q', q.heap t = some timer ∧ q.insert t = .ok (changed, q') ∧ Sound held q' ∧
      q' = { q with
        timers := Insert.insert (toLex (timer.expiration, t)) q.timers
        activeTimers := Insert.insert (t, timer.sequence) q.activeTimers } ∧
      (changed = true ↔ ∀ entry ∈ first q.timers, timer.expiration < (ofLex entry).1) := by
  obtain ⟨timer, hheap⟩ := h.allocated t (mem_inHand_cons held q t)
  have hidle := h.idle t (mem_inHand_cons held q t)
  obtain ⟨hnot, hnodup⟩ := h.inHand_cons
  have hentry : toLex (timer.expiration, t) ∉ q.timers := h.mirror.not_mem_of_idle hidle _
  have hinsert : ∃ changed, q.insert t = .ok (changed, { q with
        timers := Insert.insert (toLex (timer.expiration, t)) q.timers
        activeTimers := Insert.insert (t, timer.sequence) q.activeTimers }) ∧
      (changed = true ↔ ∀ entry ∈ first q.timers, timer.expiration < (ofLex entry).1) := by
    unfold TimerQueue.insert
    simp only [deref_eq hheap, ok_bind, if_neg hentry, if_neg (hidle timer.sequence)]
    cases first q.timers with
    | none => exact ⟨true, rfl, by simp⟩
    | some begin => exact ⟨decide (timer.expiration < (ofLex begin).1), rfl, by simp⟩
  obtain ⟨changed, hrun, hchanged⟩ := hinsert
  refine ⟨timer, changed, _, hheap, hrun, ?_, rfl, hchanged⟩
  · have hother : ∀ t' ∈ q.inHand held, t' ≠ t := by
      rintro t' hmem rfl
      exact hnot hmem
    refine ⟨⟨fun e t' => ?_, fun t' s hact => ?_⟩, hnodup, ?_, ?_, h.queued⟩
    · simp only [Finset.mem_insert, EmbeddingLike.apply_eq_iff_eq, Prod.mk.injEq]
      rw [h.mirror.entries e t']
      constructor
      · rintro (⟨rfl, rfl⟩ | ⟨timer', hheap', hact, he⟩)
        · exact ⟨timer, hheap, .inl ⟨rfl, rfl⟩, rfl⟩
        · exact ⟨timer', hheap', .inr hact, he⟩
      · rintro ⟨timer', hheap', ⟨rfl, hseq⟩ | hact, rfl⟩
        · rw [hheap] at hheap'
          cases hheap'
          exact .inl ⟨rfl, rfl⟩
        · exact .inr ⟨timer', hheap', hact, rfl⟩
    · rcases Finset.mem_insert.mp hact with heq | hact
      · cases heq
        exact ⟨timer, hheap, rfl⟩
      · exact h.mirror.active t' s hact
    · exact fun t' hmem => h.allocated t' (List.mem_cons_of_mem _ hmem)
    · intro t' hmem s hact
      rcases Finset.mem_insert.mp hact with heq | hact
      · cases heq
        exact hnot hmem
      · exact h.idle t' (List.mem_cons_of_mem _ hmem) s hact

theorem delete (h : Sound (t :: held) q) : ∃ q', q.delete t = .ok q' ∧ Sound held q' ∧
    q' = { q with heap := Function.update q.heap t none } := by
  obtain ⟨timer, hheap⟩ := h.allocated t (mem_inHand_cons held q t)
  obtain ⟨hnot, hnodup⟩ := h.inHand_cons
  have hother : ∀ t' ∈ q.inHand held, t' ≠ t := by
    rintro t' hmem rfl
    exact hnot hmem
  refine ⟨{ q with heap := Function.update q.heap t none }, ?_, ⟨?_, hnodup, ?_, ?_, ?_⟩, rfl⟩
  · unfold TimerQueue.delete
    rw [hheap]
  · exact h.heap_update (h.idle t (mem_inHand_cons held q t)) rfl rfl rfl
  · intro t' hmem
    obtain ⟨timer', hheap'⟩ := h.allocated t' (List.mem_cons_of_mem _ hmem)
    exact ⟨timer', (Function.update_of_ne (hother t' hmem) ..).trans hheap'⟩
  · exact fun t' hmem => h.idle t' (List.mem_cons_of_mem _ hmem)
  · intro when t' htask
    have hmem : t' ∈ q.inHand held := List.mem_append_right _ (List.mem_filterMap.mpr ⟨_, htask, rfl⟩)
    obtain ⟨timer', hheap', he⟩ := h.queued when t' htask
    exact ⟨timer', (Function.update_of_ne (hother t' hmem) ..).trans hheap', he⟩

theorem addTimeInLoop (h : Sound (t :: held) q) (when now : ℤ) :
    ∃ q', q.addTimeInLoop when t now = .ok q' ∧ Sound held q' ∧ q'.heap = q.heap ∧
      ∃ timer, q.heap t = some timer ∧
        q'.timers = Insert.insert (toLex (timer.expiration, t)) q.timers ∧
        ((∀ entry ∈ first q.timers, timer.expiration < (ofLex entry).1) ∧
            q'.timerFd = detail.resetTimerFd when now ∨
          (∃ entry ∈ first q.timers, (ofLex entry).1 ≤ timer.expiration) ∧ q'.timerFd = q.timerFd) := by
  obtain ⟨timer, changed, q', hheap, hins, hs, rfl, hchanged⟩ := h.insert
  unfold TimerQueue.addTimeInLoop
  rw [hins]
  cases changed with
  | false =>
    have hnot : ∃ entry ∈ first q.timers, (ofLex entry).1 ≤ timer.expiration := by
      by_contra hall
      push Not at hall
      cases hchanged.mpr hall
    exact ⟨_, rfl, hs, rfl, timer, hheap, rfl, .inr ⟨hnot, rfl⟩⟩
  | true => exact ⟨_, rfl, hs.congr rfl rfl rfl rfl, rfl, timer, hheap, rfl, .inl ⟨hchanged.mp rfl, rfl⟩⟩

/-- A timer leaves both sets and is deleted. -/
theorem remove {q' : TimerQueue} (h : Sound held q) {timer : Timer} (hheap : q.heap t = some timer)
    (hact : (t, timer.sequence) ∈ q.activeTimers) (hheap' : q'.heap = Function.update q.heap t none)
    (htimers : q'.timers = q.timers.erase (toLex (timer.expiration, t)))
    (hactive : q'.activeTimers = q.activeTimers.erase (t, timer.sequence)) (htasks : q'.tasks = q.tasks) :
    Sound held q' := by
  have hin : q'.inHand held = q.inHand held := by
    unfold inHand
    rw [htasks]
  have hother : ∀ t' ∈ q.inHand held, t' ≠ t := by
    rintro t' hmem rfl
    exact h.idle _ hmem _ hact
  have hne : ∀ t' s, (t', s) ∈ q'.activeTimers → t' ≠ t := by
    rintro t' s hact' rfl
    rw [hactive, Finset.mem_erase] at hact'
    obtain ⟨timer', hheap2, hseq⟩ := h.mirror.active t' s hact'.2
    rw [hheap] at hheap2
    cases hheap2
    exact hact'.1 (by rw [hseq])
  refine ⟨⟨fun e t' => ?_, fun t' s hact' => ?_⟩, hin ▸ h.nodup, ?_, ?_, ?_⟩
  · by_cases ht : t' = t
    · subst ht
      refine iff_of_false (fun hmem => ?_) ?_
      · rw [htimers, Finset.mem_erase] at hmem
        obtain ⟨timer', hheap2, -, he⟩ := (h.mirror.entries e t').mp hmem.2
        rw [hheap] at hheap2
        cases hheap2
        exact hmem.1 (by rw [he])
      · rintro ⟨timer', -, hact', -⟩
        exact hne t' _ hact' rfl
    · have hentry : toLex (e, t') ∈ q'.timers ↔ toLex (e, t') ∈ q.timers := by
        have hneq : toLex (e, t') ≠ toLex (timer.expiration, t) := by
          intro heq
          exact ht (congrArg Prod.snd (toLex_inj.mp heq))
        rw [htimers, Finset.mem_erase]
        exact ⟨fun h' => h'.2, fun h' => ⟨hneq, h'⟩⟩
      have hmem : ∀ s, (t', s) ∈ q'.activeTimers ↔ (t', s) ∈ q.activeTimers := by
        intro s
        rw [hactive, Finset.mem_erase]
        refine ⟨fun h' => h'.2, fun h' => ⟨fun heq => ht (congrArg Prod.fst heq), h'⟩⟩
      rw [hentry, hheap', Function.update_of_ne ht, h.mirror.entries e t']
      simp only [hmem]
  · rw [hheap', Function.update_of_ne (hne t' s hact')]
    rw [hactive, Finset.mem_erase] at hact'
    exact h.mirror.active t' s hact'.2
  · intro t' hmem
    rw [hin] at hmem
    rw [hheap', Function.update_of_ne (hother t' hmem)]
    exact h.allocated t' hmem
  · intro t' hmem s hact'
    rw [hin] at hmem
    rw [hactive, Finset.mem_erase] at hact'
    exact h.idle t' hmem s hact'.2
  · intro when t' htask
    rw [htasks] at htask
    have hmem : t' ∈ q.inHand held := List.mem_append_right _ (List.mem_filterMap.mpr ⟨_, htask, rfl⟩)
    rw [hheap', Function.update_of_ne (hother t' hmem)]
    exact h.queued when t' htask

theorem cancelTimerInLoop (h : Sound held q) (id : ActiveTimer) (now : ℤ) :
    ∃ q', q.cancelTimerInLoop id now = .ok q' ∧ Sound held q' := by
  unfold TimerQueue.cancelTimerInLoop
  by_cases hid : id ∈ q.activeTimers
  · obtain ⟨timer, hheap, hseq⟩ := h.mirror.active id.1 id.2 hid
    have hact : (id.1, timer.sequence) = id := Prod.ext rfl hseq
    have hremove : ∀ fd, Sound held { q with
        heap := Function.update q.heap id.1 none
        timers := q.timers.erase (toLex (timer.expiration, id.1))
        activeTimers := q.activeTimers.erase id
        timerFd := fd } :=
      fun fd => h.remove hheap (hact ▸ hid) rfl rfl (by rw [hact]) rfl
    simp only [if_pos hid, deref_eq hheap, ok_bind, TimerQueue.delete, hheap]
    split
    · split
      · exact ⟨_, rfl, hremove _⟩
      · exact ⟨_, rfl, hremove _⟩
    · exact ⟨_, rfl, hremove _⟩
  · rw [if_neg hid]
    split
    · exact ⟨_, rfl, h.congr rfl rfl rfl rfl⟩
    · exact ⟨_, rfl, h⟩

theorem addTimer (h : Sound held q) (when : ℤ) (interval : Interval) (t : ℕ) (now : ℤ) :
    Gives (fun r => Sound held r.2 ∧ q.heap t = none ∧
        r.2.heap = Function.update q.heap t (some ⟨when, interval, q.numCreated⟩))
      OnlyBadAlloc (q.addTimer when interval t now) := by
  unfold TimerQueue.addTimer
  refine (h.newTimer when interval t).bind fun q1 ⟨h1, hfree, hheap1, _⟩ => ?_
  obtain ⟨q2, hadd, h2, hheap2, -⟩ := h1.addTimeInLoop when now
  have hheap : q2.heap t = some ⟨when, interval, q.numCreated⟩ := by
    rw [hheap2, hheap1, Function.update_self]
  rw [hadd, ok_bind, deref_eq hheap]
  exact ⟨h2, hfree, hheap2.trans hheap1⟩

/-- A timer in hand is handed over to a queued task. -/
theorem queue (h : Sound (t :: held) q) {timer : Timer} (hheap : q.heap t = some timer) :
    Sound held { q with tasks := q.tasks ++ [.addTimeInLoop timer.expiration t] } := by
  have hperm : (held ++ (q.tasks ++ [TimerTask.addTimeInLoop timer.expiration t]).filterMap
      TimerTask.timer?).Perm (q.inHand (t :: held)) := by
    rw [List.filterMap_append]
    show (held ++ (q.tasks.filterMap TimerTask.timer? ++ [t])).Perm (t :: (held ++ _))
    rw [← List.append_assoc]
    exact List.perm_append_singleton t _
  refine ⟨⟨h.mirror.entries, h.mirror.active⟩, hperm.nodup_iff.mpr h.nodup, ?_, ?_, ?_⟩
  · exact fun t' hmem => h.allocated t' (hperm.mem_iff.mp hmem)
  · exact fun t' hmem => h.idle t' (hperm.mem_iff.mp hmem)
  · intro when t' htask
    rcases List.mem_append.mp htask with htask | htask
    · exact h.queued when t' htask
    · obtain ⟨rfl, rfl⟩ : when = timer.expiration ∧ t' = t := by simpa using htask
      exact ⟨timer, hheap, rfl⟩

theorem queueTimer (h : Sound held q) (when : ℤ) (interval : Interval) (t : ℕ) :
    Gives (fun q' => Sound held q' ∧ q'.heap = Function.update q.heap t (some ⟨when, interval, q.numCreated⟩) ∧
        q'.timers = q.timers ∧ q'.timerFd = q.timerFd)
      OnlyBadAlloc (q.queueTimer when interval t) := by
  unfold TimerQueue.queueTimer
  refine (h.newTimer when interval t).bind fun q1 ⟨h1, _, hheap, htimers, hfd⟩ => ?_
  have hheap1 : q1.heap t = some ⟨when, interval, q.numCreated⟩ := by rw [hheap, Function.update_self]
  exact ⟨h1.queue hheap1, hheap, htimers, hfd⟩

theorem cancelTimer (h : Sound held q) (id : ActiveTimer) : Sound held (q.cancelTimer id) := by
  have hin : (q.cancelTimer id).inHand held = q.inHand held := by
    unfold inHand TimerQueue.cancelTimer
    simp [List.filterMap_append, TimerTask.timer?]
  refine ⟨⟨h.mirror.entries, h.mirror.active⟩, hin ▸ h.nodup, ?_, ?_, ?_⟩
  · rw [hin]
    exact h.allocated
  · rw [hin]
    exact h.idle
  · intro when t htask
    rcases List.mem_append.mp htask with htask | htask
    · exact h.queued when t htask
    · simp at htask

theorem runAct (h : Sound held q) (a : TimerAct) : Gives (Sound held) OnlyBadAlloc (q.runAct a) := by
  cases a with
  | addTimer when interval t now => exact (h.addTimer when interval t now).bind fun r hr => hr.1
  | cancelTimer id => exact h.cancelTimer id

/-- The loop takes an `AddTimeInLoop` from the front: its timer is in hand. -/
theorem takeAdd (h : Sound held q) {when : ℤ} {tasks : List TimerTask}
    (htasks : q.tasks = .addTimeInLoop when t :: tasks) : Sound (t :: held) { q with tasks } := by
  have hperm : (q.inHand held).Perm (t :: (held ++ tasks.filterMap TimerTask.timer?)) := by
    unfold inHand
    rw [htasks]
    exact List.perm_middle
  refine ⟨⟨h.mirror.entries, h.mirror.active⟩, hperm.nodup_iff.mp h.nodup, ?_, ?_, ?_⟩
  · exact fun t' hmem => h.allocated t' (hperm.mem_iff.mpr hmem)
  · exact fun t' hmem => h.idle t' (hperm.mem_iff.mpr hmem)
  · intro when' t' htask
    apply h.queued when' t'
    rw [htasks]
    exact List.mem_cons_of_mem _ htask

theorem takeCancel (h : Sound held q) {id : ActiveTimer} {tasks : List TimerTask}
    (htasks : q.tasks = .cancelTimerInLoop id :: tasks) : Sound held { q with tasks } := by
  have hin : ({ q with tasks } : TimerQueue).inHand held = q.inHand held := by
    unfold inHand
    rw [htasks]
    rfl
  refine ⟨⟨h.mirror.entries, h.mirror.active⟩, hin ▸ h.nodup, ?_, ?_, ?_⟩
  · rw [hin]
    exact h.allocated
  · rw [hin]
    exact h.idle
  · intro when' t' htask
    apply h.queued when' t'
    rw [htasks]
    exact List.mem_cons_of_mem _ htask

theorem runTask (h : Sound held q) (now : ℤ) : ∃ q', q.runTask now = .ok q' ∧ Sound held q' := by
  unfold TimerQueue.runTask
  split
  case h_1 => exact ⟨q, rfl, h⟩
  case h_2 when t tasks htasks =>
    obtain ⟨q', hadd, hs, -⟩ := (h.takeAdd htasks).addTimeInLoop when now
    exact ⟨q', hadd, hs⟩
  case h_3 id tasks htasks => exact (h.takeCancel htasks).cancelTimerInLoop id now

/-- The loop of `GetExpired` over timers of `timers_`: it takes exactly them
out of `active_timers_`. -/
theorem eraseActive {q : TimerQueue} : ∀ (entries : List Entry) (active : Finset ActiveTimer),
    (∀ entry ∈ entries, ∃ timer, q.heap (ofLex entry).2 = some timer) →
    ∃ active', entries.foldlM (fun active entry => do
        let timer ← q.deref (ofLex entry).2
        return active.erase ((ofLex entry).2, timer.sequence)) active = Except.ok active' ∧
      ∀ t s, (t, s) ∈ active' ↔ (t, s) ∈ active ∧
        ∀ entry ∈ entries, ∀ timer, (ofLex entry).2 = t → q.heap t = some timer → timer.sequence ≠ s
  | [], active, _ => ⟨active, rfl, by simp⟩
  | entry :: entries, active, hall => by
    obtain ⟨timer, hheap⟩ := hall entry List.mem_cons_self
    obtain ⟨active', hfold, hmem⟩ := eraseActive entries (active.erase ((ofLex entry).2, timer.sequence))
      fun e he => hall e (List.mem_cons_of_mem _ he)
    refine ⟨active', ?_, fun t s => ?_⟩
    · rw [List.foldlM_cons, deref_eq hheap]
      exact hfold
    · rw [hmem t s, Finset.mem_erase]
      constructor
      · rintro ⟨⟨hne, hact⟩, hrest⟩
        refine ⟨hact, fun e he timer' ht hheap' hseq => ?_⟩
        rcases List.mem_cons.mp he with rfl | he
        · rw [ht, hheap'] at hheap
          cases hheap
          exact hne (Prod.ext ht.symm hseq.symm)
        · exact hrest e he timer' ht hheap' hseq
      · rintro ⟨hact, hrest⟩
        refine ⟨⟨fun heq => ?_, hact⟩, fun e he => hrest e (List.mem_cons_of_mem _ he)⟩
        obtain ⟨rfl, rfl⟩ := Prod.mk.inj heq
        exact hrest entry List.mem_cons_self timer rfl hheap rfl

/-- The same by address: a timer has one sequence. -/
theorem eraseExpired (h : q.Mirror) (entries : List Entry) (hmem : ∀ entry ∈ entries, entry ∈ q.timers) :
    ∃ active', entries.foldlM (fun active entry => do
        let timer ← q.deref (ofLex entry).2
        return active.erase ((ofLex entry).2, timer.sequence)) q.activeTimers = Except.ok active' ∧
      ∀ t s, (t, s) ∈ active' ↔ (t, s) ∈ q.activeTimers ∧ t ∉ entries.map fun entry => (ofLex entry).2 := by
  obtain ⟨active', hfold, herase⟩ := eraseActive (q := q) entries q.activeTimers fun entry he => by
    obtain ⟨timer, hheap, -⟩ := h.of_mem (hmem entry he)
    exact ⟨timer, hheap⟩
  refine ⟨active', hfold, fun t s => ?_⟩
  rw [herase t s]
  refine and_congr_right fun hactive => ?_
  obtain ⟨timer, hheap, hseq⟩ := h.active t s hactive
  constructor
  · intro hnot ht
    obtain ⟨entry, he, heq⟩ := List.mem_map.mp ht
    exact hnot entry he timer heq hheap hseq
  · intro hnot entry he _ heq _ _
    exact hnot (List.mem_map.mpr ⟨entry, he, heq⟩)

/-- `GetExpired`: exactly the expired timers leave `active_timers_`, and they
are in hand. -/
theorem takeExpired (h : Sound held q) (now : ℤ) :
    ∃ active' : Finset ActiveTimer,
      q.getExpired now = .ok (below q.timers (toLex (now, uintptrMax)),
        { q with timers := notBelow q.timers (toLex (now, uintptrMax)), activeTimers := active' }) ∧
      Sound ((below q.timers (toLex (now, uintptrMax))).map (fun entry => (ofLex entry).2) ++ held)
        { q with timers := notBelow q.timers (toLex (now, uintptrMax)), activeTimers := active' } ∧
      ∀ t s, (t, s) ∈ active' ↔ (t, s) ∈ q.activeTimers ∧
        t ∉ (below q.timers (toLex (now, uintptrMax))).map fun entry => (ofLex entry).2 := by
  set bound : Entry := toLex (now, uintptrMax) with hbound
  have hmem : ∀ entry ∈ below q.timers bound, entry ∈ q.timers := fun entry he => (mem_below.mp he).1
  obtain ⟨active', hfold, hact⟩ := eraseExpired h.mirror (below q.timers bound) hmem
  refine ⟨active', ?_, ?_, hact⟩
  · unfold TimerQueue.getExpired
    simp only [← hbound, hfold]
    rfl
  -- an entry that stays is not among the expired ones, since a timer has one entry
  have hstay : ∀ {e : ℤ} {t : ℕ} {timer : Timer}, q.heap t = some timer →
      (t, timer.sequence) ∈ q.activeTimers → timer.expiration = e →
      ((t, timer.sequence) ∈ active' ↔ ¬ toLex (e, t) < bound) := by
    intro e t timer hheap hactive he
    have hentry : toLex (e, t) ∈ q.timers := (h.mirror.entries e t).mpr ⟨timer, hheap, hactive, he⟩
    rw [hact]
    constructor
    · rintro ⟨-, hnot⟩ hlt
      exact hnot (List.mem_map.mpr ⟨_, mem_below.mpr ⟨hentry, hlt⟩, rfl⟩)
    · intro hnlt
      refine ⟨hactive, fun ht => hnlt ?_⟩
      obtain ⟨entry, hexp, ht⟩ := List.mem_map.mp ht
      have heq : entry = toLex (e, t) := h.mirror.entry_eq (hmem entry hexp) hentry ht
      rw [← heq]
      exact (mem_below.mp hexp).2
  have hin : ∀ t, t ∈ (below q.timers bound).map (fun entry => (ofLex entry).2) ++ held ++
      q.tasks.filterMap TimerTask.timer? ↔
      t ∈ (below q.timers bound).map (fun entry => (ofLex entry).2) ∨ t ∈ q.inHand held := by
    intro t
    rw [List.append_assoc, List.mem_append]
    rfl
  refine ⟨⟨fun e t => ?_, fun t s hs => h.mirror.active t s ((hact t s).mp hs).1⟩, ?_, ?_, ?_, h.queued⟩
  · rw [mem_notBelow, h.mirror.entries e t]
    constructor
    · rintro ⟨⟨timer, hheap, hactive, he⟩, hnlt⟩
      exact ⟨timer, hheap, (hstay hheap hactive he).mpr hnlt, he⟩
    · rintro ⟨timer, hheap, hactive', he⟩
      have hactive := ((hact _ _).mp hactive').1
      exact ⟨⟨timer, hheap, hactive, he⟩, (hstay hheap hactive he).mp hactive'⟩
  · unfold inHand
    rw [List.append_assoc]
    refine List.nodup_append.mpr ⟨?_, h.nodup, ?_⟩
    · refine (below_nodup q.timers bound).map_on fun a ha b hb hab => ?_
      exact h.mirror.entry_eq (hmem a ha) (hmem b hb) hab
    · rintro t ht t' ht' rfl
      obtain ⟨entry, he, rfl⟩ := List.mem_map.mp ht
      obtain ⟨timer, -, hactive, -⟩ := h.mirror.of_mem (hmem entry he)
      exact h.idle _ ht' _ hactive
  · intro t ht
    rcases (hin t).mp ht with ht | ht
    · obtain ⟨entry, he, rfl⟩ := List.mem_map.mp ht
      obtain ⟨timer, hheap, -⟩ := h.mirror.of_mem (hmem entry he)
      exact ⟨timer, hheap⟩
    · exact h.allocated t ht
  · intro t ht s hs
    obtain ⟨hactive, hnot⟩ := (hact t s).mp hs
    rcases (hin t).mp ht with ht | ht
    · exact hnot ht
    · exact h.idle t ht s hactive

theorem getExpired (h : Sound [] q) (now : ℤ) :
    ∃ q', q.getExpired now = .ok (below q.timers (toLex (now, uintptrMax)), q') ∧ q'.heap = q.heap ∧
      Sound ((below q.timers (toLex (now, uintptrMax))).map fun entry => (ofLex entry).2) q' := by
  obtain ⟨active', hexp, hs, -⟩ := h.takeExpired now
  rw [List.append_nil] at hs
  exact ⟨_, hexp, rfl, hs⟩

theorem run (h : Sound held q) (ht : t ∈ held) (script : ℕ → List TimerAct) :
    Gives (Sound held) OnlyBadAlloc (q.run script t) := by
  obtain ⟨timer, hheap⟩ := h.allocated t (List.mem_append_left _ ht)
  unfold TimerQueue.run
  rw [deref_eq hheap, ok_bind]
  exact Gives.foldlM (h.congr rfl rfl rfl rfl) fun q hq a _ => hq.runAct a

theorem restart (h : Sound (t :: held) q) (now : ℤ) : ∃ q', q.restart now t = .ok q' ∧ Sound held q' ∧
    ∃ timer, q.heap t = some timer ∧
      (timer.interval.repeats = true ∧ q'.heap = Function.update q.heap t (some (timer.reset now)) ∨
        q'.heap = Function.update q.heap t none) := by
  obtain ⟨timer, hheap⟩ := h.allocated t (mem_inHand_cons held q t)
  unfold TimerQueue.restart
  rw [deref_eq hheap, ok_bind]
  split
  case isTrue hrep =>
    obtain ⟨hnot, hnodup⟩ := h.inHand_cons
    have hother : ∀ t' ∈ q.inHand held, t' ≠ t := by
      rintro t' hmem rfl
      exact hnot hmem
    have h' : Sound (t :: held) { q with heap := Function.update q.heap t (some (timer.reset now)) } := by
      refine ⟨h.heap_update (h.idle t (mem_inHand_cons held q t)) rfl rfl rfl, h.nodup, ?_, h.idle, ?_⟩
      · intro t' hmem
        rcases List.mem_cons.mp hmem with rfl | hmem
        · exact ⟨_, Function.update_self ..⟩
        · obtain ⟨timer', hheap'⟩ := h.allocated t' (List.mem_cons_of_mem _ hmem)
          exact ⟨timer', (Function.update_of_ne (hother t' hmem) ..).trans hheap'⟩
      · intro when t' htask
        have hmem : t' ∈ q.inHand held := List.mem_append_right _ (List.mem_filterMap.mpr ⟨_, htask, rfl⟩)
        obtain ⟨timer', hheap', he⟩ := h.queued when t' htask
        exact ⟨timer', (Function.update_of_ne (hother t' hmem) ..).trans hheap', he⟩
    obtain ⟨timer', changed, q', -, hins, hs, rfl, -⟩ := h'.insert
    refine ⟨_, ?_, hs, timer, hheap, .inl ⟨hrep.1, rfl⟩⟩
    simp only [hins]
    rfl
  case isFalse =>
    obtain ⟨q', hdel, hs, rfl⟩ := h.delete
    exact ⟨_, hdel, hs, timer, hheap, .inr rfl⟩

/-- The loop of `Reset`: nothing is left in hand. -/
theorem restartAll (now : ℤ) : ∀ {expired : List ℕ} {q : TimerQueue}, Sound expired q →
    ∃ q', expired.foldlM (TimerQueue.restart now) q = Except.ok q' ∧ Sound [] q'
  | [], q, h => ⟨q, rfl, h⟩
  | t :: expired, q, h => by
    obtain ⟨q1, hr, h1, -⟩ := h.restart now
    obtain ⟨q', hfold, h'⟩ := restartAll now h1
    refine ⟨q', ?_, h'⟩
    rw [List.foldlM_cons, hr]
    exact hfold

theorem reset {expired : List ℕ} (h : Sound expired q) (now nowArm : ℤ) :
    ∃ q', q.reset expired now nowArm = .ok q' ∧ Sound [] q' := by
  obtain ⟨q1, hfold, h1⟩ := restartAll now h
  unfold TimerQueue.reset
  simp only [hfold, ok_bind]
  split
  · exact ⟨_, rfl, h1.congr rfl rfl rfl rfl⟩
  · exact ⟨_, rfl, h1.congr rfl rfl rfl rfl⟩

theorem handleRead (h : Sound [] q) (now : ℤ) (script : ℕ → List TimerAct) (nowArm : ℤ) :
    Gives (Sound []) OnlyBadAlloc (q.handleRead now script nowArm) := by
  unfold TimerQueue.handleRead
  have h0 : Sound [] { q with timerFd := detail.readTimerFd q.timerFd } := h.congr rfl rfl rfl rfl
  obtain ⟨q1, hexp, -, h1⟩ := h0.getExpired now
  simp only [hexp, ok_bind]
  set expired := (below q.timers (toLex (now, uintptrMax))).map fun entry => (ofLex entry).2 with hexpired
  have h2 : Sound expired { q1 with callingExpiredTimers := true } := h1.congr rfl rfl rfl rfl
  refine (Gives.foldlM h2 fun q hq t ht => hq.run ht script).bind fun q3 h3 => ?_
  obtain ⟨q4, hreset, h4⟩ := h3.reset now nowArm
  rw [hreset, ok_bind]
  exact h4.congr rfl rfl rfl rfl

/-- Deleting allocated timers, no two of them the same. -/
theorem deleteAll : ∀ (ts : List ℕ) (q : TimerQueue), ts.Nodup → (∀ t ∈ ts, ∃ timer, q.heap t = some timer) →
    ∃ q', ts.foldlM (fun q t => q.delete t) q = Except.ok q' ∧ q'.tasks = q.tasks ∧
      ∀ t, t ∉ ts → q'.heap t = q.heap t
  | [], q, _, _ => ⟨q, rfl, rfl, fun _ _ => rfl⟩
  | t :: ts, q, hnodup, hall => by
    obtain ⟨hnot, hnodup⟩ := List.nodup_cons.mp hnodup
    obtain ⟨timer, hheap⟩ := hall t List.mem_cons_self
    have hdel : q.delete t = .ok { q with heap := Function.update q.heap t none } := by
      unfold TimerQueue.delete
      rw [hheap]
    obtain ⟨q', hfold, htasks, hrest⟩ := deleteAll ts
      { q with heap := Function.update q.heap t none } hnodup fun t' ht' => by
        obtain ⟨timer', hheap'⟩ := hall t' (List.mem_cons_of_mem _ ht')
        have hne : t' ≠ t := by
          rintro rfl
          exact hnot ht'
        exact ⟨timer', (Function.update_of_ne hne ..).trans hheap'⟩
    refine ⟨q', ?_, htasks, fun t' ht' => ?_⟩
    · rw [List.foldlM_cons, hdel]
      exact hfold
    · have hne : t' ≠ t := fun heq => ht' (heq ▸ List.mem_cons_self)
      rw [hrest t' fun hmem => ht' (List.mem_cons_of_mem _ hmem)]
      exact Function.update_of_ne hne ..

theorem destroy (h : Sound [] q) : ∃ q', q.destroy = .ok q' ∧ Sound [] q' := by
  have hmem : ∀ entry ∈ elements q.timers, entry ∈ q.timers := fun entry he => mem_elements.mp he
  set ts := (elements q.timers).map fun entry => (ofLex entry).2 with hts
  have hnodup : ts.Nodup := (elements_nodup q.timers).map_on fun a ha b hb hab =>
    h.mirror.entry_eq (hmem a ha) (hmem b hb) hab
  have hall : ∀ t ∈ ts, ∃ timer, q.heap t = some timer ∧ (t, timer.sequence) ∈ q.activeTimers := by
    intro t ht
    obtain ⟨entry, he, rfl⟩ := List.mem_map.mp ht
    obtain ⟨timer, hheap, hactive, -⟩ := h.mirror.of_mem (hmem entry he)
    exact ⟨timer, hheap, hactive⟩
  obtain ⟨q', hfold, htasks, hrest⟩ := deleteAll ts q hnodup fun t ht => by
    obtain ⟨timer, hheap, -⟩ := hall t ht
    exact ⟨timer, hheap⟩
  have hother : ∀ t ∈ q.inHand [], t ∉ ts := by
    intro t hmem' ht
    obtain ⟨timer, -, hactive⟩ := hall t ht
    exact h.idle t hmem' _ hactive
  refine ⟨{ q' with timers := ∅, activeTimers := ∅, cancellingTimers := ∅, destroyed := true }, ?_, ?_⟩
  · unfold TimerQueue.destroy
    simp only [← hts, hfold]
    rfl
  · have hin : ({ q' with timers := ∅, activeTimers := ∅, cancellingTimers := ∅, destroyed := true } :
        TimerQueue).inHand [] = q.inHand [] := by
      unfold inHand
      rw [htasks]
    refine ⟨⟨fun e t => ?_, fun t s hs => ?_⟩, hin ▸ h.nodup, ?_, ?_, ?_⟩
    · simp
    · simp at hs
    · intro t ht
      rw [hin] at ht
      obtain ⟨timer, hheap⟩ := h.allocated t ht
      exact ⟨timer, (hrest t (hother t ht)).trans hheap⟩
    · intro t _ s hs
      simp at hs
    · intro when t htask
      have htask' : TimerTask.addTimeInLoop when t ∈ q.tasks := htasks ▸ htask
      have ht : t ∈ q.inHand [] := List.mem_append_right _ (List.mem_filterMap.mpr ⟨_, htask', rfl⟩)
      obtain ⟨timer, hheap, he⟩ := h.queued when t htask'
      exact ⟨timer, (hrest t (hother t ht)).trans hheap, he⟩

theorem step (h : Sound [] q) (a : TimerStep) : Gives (Sound []) OnlyBadAlloc (q.step a) := by
  cases a with
  | addTimer when interval t now => exact (h.addTimer when interval t now).bind fun r hr => hr.1
  | queueTimer when interval t => exact (h.queueTimer when interval t).mono fun q' hq => hq.1
  | cancelTimer id => exact h.cancelTimer id
  | runTask now =>
    obtain ⟨q', hst, h'⟩ := h.runTask now
    exact Gives.of_ok hst h'
  | handleRead now script nowArm => exact h.handleRead now script nowArm
  | fire => exact h.congr rfl rfl rfl rfl
  | createElsewhere => exact h.congr rfl rfl rfl rfl
  | destroy =>
    obtain ⟨q', hst, h'⟩ := h.destroy
    exact Gives.of_ok hst h'

theorem create (numCreated : ℤ) : Sound [] (create numCreated) := by
  refine ⟨⟨fun e t => ?_, fun t s hs => ?_⟩, List.nodup_nil, ?_, ?_, ?_⟩
  · simp [TimerQueue.create]
  · simp [TimerQueue.create] at hs
  · intro t ht
    cases ht
  · intro t ht
    cases ht
  · intro when t ht
    cases ht

end Sound

end TimerQueue

open TimerQueue

/-- **The timer queue's representation invariant.** In every state that a
queue reaches between two steps, with any callbacks and any addresses from
the allocator: `(e, t)` is in `timers_` exactly when the timer at `t` is
allocated, in `active_timers_` with its sequence, and expires at `e`; every
timer in `active_timers_` is allocated; and no step fails an assertion of
`insert`, deletes a timer twice or uses a deleted one: the only fault is an
allocator that hands out an address in use. -/
theorem timers_mirror (numCreated : ℤ) {tr : List (TimerQueue × TimerStep)} {q : TimerQueue}
    (hr : Run timerMachine (TimerQueue.create numCreated) tr q) :
    (∀ e t, toLex (e, t) ∈ q.timers ↔
      ∃ timer, q.heap t = some timer ∧ (t, timer.sequence) ∈ q.activeTimers ∧ timer.expiration = e) ∧
    (∀ t s, (t, s) ∈ q.activeTimers → ∃ timer, q.heap t = some timer ∧ timer.sequence = s) ∧
    ∀ a f, q.step a = .error f → f = .badAlloc := by
  have h : Sound [] q := hr.always (fun q a q' h _ hst => (h.step a).ok_of hst) (Sound.create numCreated)
  exact ⟨h.mirror.entries, h.mirror.active, fun a f hf => (h.step a).error_of hf⟩

/-- A repeating timer is cancelled from the batch it expires in, and the
address of the one-shot timer that did so is used again. -/
theorem timers_mirror_reused_address :
    let steps : List TimerStep := [.addTimer 10 ⟨false, 0⟩ 8 5, .addTimer 12 ⟨true, 3⟩ 16 5, .fire,
      .handleRead 20 (fun t => if t = 8 then [.addTimer 15 ⟨false, 0⟩ 24 20, .cancelTimer (16, 1)] else []) 20,
      .addTimer 30 ⟨false, 0⟩ 8 21, .runTask 22]
    let q := final timerMachine (TimerQueue.create 0) steps
    q.activeTimers = {(24, 2), (8, 3)} ∧ ∀ a f, q.step a = .error f → f = .badAlloc :=
  ⟨by decide +kernel, (timers_mirror 0 (run_of_accepts _ _ (by decide +kernel))).2.2⟩

end MiniMuduo
