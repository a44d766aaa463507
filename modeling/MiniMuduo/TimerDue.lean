/-
# HandleRead fires the timers that are due

`GetExpired` cuts the due timers off with a `lower_bound` of the pair of `now`
and the greatest address; the callbacks then add timers, due ones too, to what
is left, and `Reset` puts the repeating ones back. Seen from outside: the
timers queued at the start with an expiration at most `now` are called, each
once and in the order of their expirations, and nothing else is.

A queue at rest (`AtRest`) is one between two steps of its loop: the sets
mirror each other, its timers have real addresses, and `cancelling_timers_` is
empty. Every queue that is reached is (`atRest_of_run`). What the callbacks add
is read off their scripts (`additions`).

Key definitions: `TimerQueue.AtRest`, `TimerQueue.Queued`, `TimerQueue.FiresDue`.
Key theorems: `TimerQueue.callbacks_spec`, `TimerQueue.restarts_spec`,
`TimerQueue.atRest_of_run`, `handleRead_fires_due`.
-/
import MiniMuduo.TimerLoop

namespace MiniMuduo

open Fallible Runs Word OrderedSet

/-- The address of the timer that an act creates. -/
def TimerAct.timer? : TimerAct → Option ℕ
  | .addTimer _ _ t _ => some t
  | .cancelTimer _ => none

namespace TimerQueue

/-- A queue between two steps of its loop. -/
structure AtRest (q : TimerQueue) : Prop where
  sound : Sound [] q
  addresses : ∀ t timer, q.heap t = some timer → t < uintptrMax
  calling : q.callingExpiredTimers = false
  cancelling : q.cancellingTimers = ∅

/-- The timer at `t` is in both sets, and is this one. -/
structure Queued (q : TimerQueue) (t : ℕ) (timer : Timer) : Prop where
  heap : q.heap t = some timer
  active : (t, timer.sequence) ∈ q.activeTimers
  entry : toLex (timer.expiration, t) ∈ q.timers

/-- `Timer::g_num_created_` after the acts. -/
def created (n : ℤ) : List TimerAct → ℤ
  | [] => n
  | .addTimer .. :: acts => created (int64 (n + 1)) acts
  | .cancelTimer _ :: acts => created n acts

/-- The timers that the acts add, where the first of them has the sequence
`n`. -/
def additions (n : ℤ) : List TimerAct → List (ℕ × Timer)
  | [] => []
  | .addTimer when interval t _ :: acts => (t, ⟨when, interval, n⟩) :: additions (int64 (n + 1)) acts
  | .cancelTimer _ :: acts => additions n acts

/-- The allocator gives the acts addresses that are free, no two the same. -/
structure Allocates (q : TimerQueue) (acts : List TimerAct) : Prop where
  distinct : (acts.filterMap TimerAct.timer?).Nodup
  free : ∀ t ∈ acts.filterMap TimerAct.timer?, q.heap t = none ∧ 0 < t ∧ t < uintptrMax

/-- The timers due at `now`, in the order in which they expire. -/
structure Due (now : ℤ) (q : TimerQueue) (due : List Entry) : Prop where
  exactly : ∀ entry, entry ∈ due ↔ entry ∈ q.timers ∧ (ofLex entry).1 ≤ now
  once : due.Nodup
  ordered : due.Pairwise fun a b => (ofLex a).1 ≤ (ofLex b).1

/-- The acts of the callbacks of the timers `due`, one after the other. -/
def acts (script : ℕ → List TimerAct) (due : List Entry) : List TimerAct :=
  due.flatMap fun entry => script (ofLex entry).2

/-- What `HandleRead` at `now` is to do, from `q` to `q'`. -/
structure FiresDue (now : ℤ) (script : ℕ → List TimerAct) (due : List Entry) (q q' : TimerQueue) : Prop where
  /-- The due timers are called, one after the other, and no other. -/
  fired : ∃ ids : List ActiveTimer, q'.fired = ids.reverse ++ q.fired ∧
    ids.map Prod.fst = due.map (fun entry => (ofLex entry).2) ∧ ∀ id ∈ ids, id ∈ q.activeTimers
  /-- An added timer is not one of them. -/
  added : ∀ a ∈ additions q.numCreated (acts script due), a.1 ∉ due.map fun entry => (ofLex entry).2
  /-- Queued afterwards are the timers that were not due, the repeating ones
  that were, and those added. -/
  queued : ∀ t timer, Queued q' t timer ↔
    (Queued q t timer ∧ now < timer.expiration) ∨
    (∃ old, Queued q t old ∧ old.expiration ≤ now ∧ old.interval.repeats = true ∧
      timer = { old with expiration := addTime now old.interval.micros }) ∨
    (t, timer) ∈ additions q.numCreated (acts script due)
  /-- A repeating timer is due again one interval from `now`, where that is a
  time. -/
  again : ∀ t timer, Queued q t timer → timer.expiration ≤ now → timer.interval.repeats = true →
    IsInt64 (now + timer.interval.micros) → Queued q' t { timer with expiration := now + timer.interval.micros }
  /-- A one-shot timer is in neither set. -/
  gone : ∀ t timer, Queued q t timer → timer.expiration ≤ now → timer.interval.repeats = false →
    (∀ sequence, (t, sequence) ∉ q'.activeTimers) ∧ ∀ e, toLex (e, t) ∉ q'.timers
  mirror : q'.Mirror

/-! ### The callbacks -/

theorem queued_iff {q : TimerQueue} (h : q.Mirror) {t : ℕ} {timer : Timer} :
    Queued q t timer ↔ q.heap t = some timer ∧ (t, timer.sequence) ∈ q.activeTimers := by
  constructor
  · intro hq
    exact ⟨hq.heap, hq.active⟩
  · rintro ⟨hheap, hact⟩
    exact ⟨hheap, hact, (h.entries _ _).mpr ⟨timer, hheap, hact, rfl⟩⟩

theorem queued_congr {q q' : TimerQueue} (hheap : q'.heap = q.heap) (htimers : q'.timers = q.timers)
    (hactive : q'.activeTimers = q.activeTimers) {t : ℕ} {timer : Timer} : Queued q' t timer ↔ Queued q t timer := by
  constructor
  · rintro ⟨h1, h2, h3⟩
    exact ⟨hheap ▸ h1, hactive ▸ h2, htimers ▸ h3⟩
  · rintro ⟨h1, h2, h3⟩
    exact ⟨hheap.symm ▸ h1, hactive.symm ▸ h2, htimers.symm ▸ h3⟩

theorem created_append (n : ℤ) (as bs : List TimerAct) : created n (as ++ bs) = created (created n as) bs := by
  induction as generalizing n with
  | nil => rfl
  | cons a as ih =>
    cases a with
    | addTimer => exact ih _
    | cancelTimer => exact ih _

theorem additions_append (n : ℤ) (as bs : List TimerAct) :
    additions n (as ++ bs) = additions n as ++ additions (created n as) bs := by
  induction as generalizing n with
  | nil => rfl
  | cons a as ih =>
    cases a with
    | addTimer => exact congrArg (_ :: ·) (ih _)
    | cancelTimer => exact ih _

theorem additions_address (n : ℤ) (as : List TimerAct) :
    (additions n as).map Prod.fst = as.filterMap TimerAct.timer? := by
  induction as generalizing n with
  | nil => rfl
  | cons a as ih =>
    cases a with
    | addTimer => exact congrArg (_ :: ·) (ih _)
    | cancelTimer => exact ih _

theorem address_of_addition {n : ℤ} {as : List TimerAct} {t : ℕ} {timer : Timer} (h : (t, timer) ∈ additions n as) :
    t ∈ as.filterMap TimerAct.timer? := by
  rw [← additions_address n as]
  exact List.mem_map_of_mem h

/-- What callbacks with these `acts` have done; they belong to the timers
`ids`. -/
structure Called (held : List ℕ) (ids : List ActiveTimer) (acts : List TimerAct) (q q' : TimerQueue) : Prop where
  sound : Sound held q'
  fresh : ∀ t ∈ acts.filterMap TimerAct.timer?, q.heap t = none ∧ t < uintptrMax
  untouched : ∀ t, t ∉ acts.filterMap TimerAct.timer? → q'.heap t = q.heap t
  queued : ∀ t timer, Queued q' t timer ↔ Queued q t timer ∨ (t, timer) ∈ additions q.numCreated acts
  numCreated : q'.numCreated = created q.numCreated acts
  fired : q'.fired = ids.reverse ++ q.fired
  cancelling : q'.cancellingTimers = q.cancellingTimers

namespace Called

variable {held : List ℕ} {ids ids' : List ActiveTimer} {acts acts' : List TimerAct} {q q' q'' : TimerQueue}

theorem kept (h : Called held ids acts q q') {t : ℕ} {timer : Timer} (ht : q.heap t = some timer) :
    q'.heap t = some timer := by
  rw [h.untouched t, ht]
  intro hmem
  rw [(h.fresh t hmem).1] at ht
  cases ht

theorem trans (h : Called held ids acts q q') (h' : Called held ids' acts' q' q'') :
    Called held (ids ++ ids') (acts ++ acts') q q'' := by
  constructor
  case sound => exact h'.sound
  case fresh =>
    intro t ht
    rw [List.filterMap_append] at ht
    rcases List.mem_append.mp ht with ht | ht
    · exact h.fresh t ht
    · obtain ⟨hnone, hlt⟩ := h'.fresh t ht
      refine ⟨?_, hlt⟩
      by_contra hsome
      obtain ⟨timer, htimer⟩ := Option.ne_none_iff_exists'.mp hsome
      rw [h.kept htimer] at hnone
      cases hnone
  case untouched =>
    intro t ht
    rw [List.filterMap_append, List.mem_append, not_or] at ht
    rw [h'.untouched t ht.2, h.untouched t ht.1]
  case queued =>
    intro t timer
    rw [h'.queued, h.queued, h.numCreated, additions_append, List.mem_append, or_assoc]
  case numCreated => rw [h'.numCreated, h.numCreated, created_append]
  case fired => rw [h'.fired, h.fired, List.reverse_append, List.append_assoc]
  case cancelling => rw [h'.cancelling, h.cancelling]

end Called

theorem newTimer_lt {q q' : TimerQueue} {when : ℤ} {interval : Interval} {t : ℕ}
    (h : q.newTimer when interval t = .ok q') : t < uintptrMax := by
  unfold newTimer at h
  split at h
  case isTrue hfree => exact hfree.2.2
  case isFalse => cases h

theorem addTimer_lt {q : TimerQueue} {r : ActiveTimer × TimerQueue} {when now : ℤ} {interval : Interval} {t : ℕ}
    (h : q.addTimer when interval t now = .ok r) : t < uintptrMax := by
  unfold addTimer at h
  obtain ⟨q1, hnew, -⟩ := bind_eq_ok h
  exact newTimer_lt hnew

section Callbacks

variable {held : List ℕ} {q : TimerQueue}

/-- One act of a callback. -/
theorem runAct_spec (h : Sound held q) (a : TimerAct) : Gives (Called held [] [a] q) OnlyBadAlloc (q.runAct a) := by
  have hsound := h.runAct a
  rcases hrun : q.runAct a with f | q'
  case error => exact hsound.error_of hrun
  case ok =>
    replace hsound : Sound held q' := hsound.ok_of hrun
    cases a with
    | addTimer when interval t now =>
      obtain ⟨⟨id, q1⟩, hadd, hq1⟩ := bind_eq_ok hrun
      cases hq1
      obtain ⟨hfree, -, -, fd, hq'⟩ := addTimer_ok hadd
      constructor
      case sound => exact hsound
      case fresh =>
        intro t' ht'
        obtain rfl : t' = t := by simpa [TimerAct.timer?] using ht'
        exact ⟨hfree, addTimer_lt hadd⟩
      case untouched =>
        intro t' ht'
        have hne : t' ≠ t := by simpa [TimerAct.timer?] using ht'
        rw [hq']
        exact Function.update_of_ne hne ..
      case queued =>
        intro t' timer
        rw [queued_iff hsound.mirror, queued_iff h.mirror, hq']
        simp only [additions, List.mem_singleton, Prod.mk.injEq, Finset.mem_insert]
        by_cases hne : t' = t
        · subst hne
          rw [Function.update_self, hfree]
          constructor
          · rintro ⟨hheap, -⟩
            exact .inr ⟨rfl, (Option.some.inj hheap).symm⟩
          · rintro (⟨hnone, -⟩ | ⟨-, rfl⟩)
            · cases hnone
            · exact ⟨rfl, .inl ⟨rfl, rfl⟩⟩
        · rw [Function.update_of_ne hne]
          simp only [hne, false_and, false_or, or_false]
      case numCreated =>
        rw [hq']
        rfl
      case fired =>
        rw [hq']
        rfl
      case cancelling => rw [hq']
    | cancelTimer id =>
      cases hrun
      refine ⟨hsound, by simp [TimerAct.timer?], fun t _ => rfl, ?_, rfl, rfl, rfl⟩
      intro t timer
      rw [queued_iff hsound.mirror, queued_iff h.mirror]
      simp [additions, TimerQueue.cancelTimer]

theorem runActs_spec : ∀ (acts : List TimerAct) {q : TimerQueue}, Sound held q →
    Gives (Called held [] acts q) OnlyBadAlloc (acts.foldlM runAct q)
  | [], q, h => ⟨h, by simp, fun _ _ => rfl, by simp [additions], rfl, rfl, rfl⟩
  | a :: acts, q, h => by
    rw [List.foldlM_cons]
    apply (runAct_spec h a).bind
    intro q1 h1
    apply (runActs_spec acts h1.sound).mono
    intro q2 h2
    exact h1.trans h2

theorem run_spec (h : Sound held q) (script : ℕ → List TimerAct) {t : ℕ} {timer : Timer}
    (ht : q.heap t = some timer) :
    Gives (Called held [(t, timer.sequence)] (script t) q) OnlyBadAlloc (q.run script t) := by
  unfold run
  rw [deref_eq ht, ok_bind]
  have h0 : Sound held { q with fired := (t, timer.sequence) :: q.fired } := h.congr rfl rfl rfl rfl
  apply (runActs_spec (script t) h0).mono
  intro q' h'
  refine ⟨h'.sound, h'.fresh, h'.untouched, ?_, h'.numCreated, h'.fired, h'.cancelling⟩
  intro t' timer'
  rw [h'.queued, queued_iff h0.mirror, queued_iff h.mirror]

/-- The loop over the expired timers calls each of them. -/
theorem callbacks_spec (script : ℕ → List TimerAct) : ∀ (ts : List ℕ) {q : TimerQueue}, Sound held q →
    (∀ t ∈ ts, ∃ timer, q.heap t = some timer) →
    Gives (fun q' => ∃ ids : List ActiveTimer, Called held ids (ts.flatMap script) q q' ∧ ids.map Prod.fst = ts ∧
        ∀ id ∈ ids, ∃ timer, q.heap id.1 = some timer ∧ timer.sequence = id.2)
      OnlyBadAlloc (ts.foldlM (run script) q)
  | [], q, h, _ => ⟨[], ⟨h, by simp, fun _ _ => rfl, by simp [additions], rfl, rfl, rfl⟩, rfl, by simp⟩
  | t :: ts, q, h, hall => by
    obtain ⟨timer, ht⟩ := hall t List.mem_cons_self
    rw [List.foldlM_cons]
    apply (run_spec h script ht).bind
    intro q1 h1
    have hall1 : ∀ t' ∈ ts, ∃ timer', q1.heap t' = some timer' := by
      intro t' ht'
      obtain ⟨timer', htimer'⟩ := hall t' (List.mem_cons_of_mem _ ht')
      exact ⟨timer', h1.kept htimer'⟩
    apply (callbacks_spec script ts h1.sound hall1).mono
    rintro q2 ⟨ids, h2, hids, hseq⟩
    refine ⟨(t, timer.sequence) :: ids, h1.trans h2, by rw [List.map_cons, hids], ?_⟩
    intro id hid
    rcases List.mem_cons.mp hid with rfl | hid
    · exact ⟨timer, ht, rfl⟩
    · -- an expired timer is allocated from the start
      obtain ⟨timer', htimer', hsequence⟩ := hseq id hid
      have hmem : id.1 ∈ ts := by
        rw [← hids]
        exact List.mem_map_of_mem hid
      obtain ⟨old, hold⟩ := hall id.1 (List.mem_cons_of_mem _ hmem)
      have heq : old = timer' := Option.some.inj ((h1.kept hold).symm.trans htimer')
      exact ⟨old, hold, heq ▸ hsequence⟩

end Callbacks

/-! ### An allocator that allocates -/

namespace Allocates

variable {held : List ℕ} {q q' : TimerQueue} {as bs : List TimerAct}

theorem left (h : Allocates q (as ++ bs)) : Allocates q as := by
  obtain ⟨hnodup, hfree⟩ := h
  rw [List.filterMap_append] at hnodup hfree
  exact ⟨hnodup.of_append_left, fun t ht => hfree t (List.mem_append_left _ ht)⟩

/-- What was free and was not given away is still free. -/
theorem right (h : Allocates q (as ++ bs)) {ids : List ActiveTimer} (hcalled : Called held ids as q q') :
    Allocates q' bs := by
  obtain ⟨hnodup, hfree⟩ := h
  rw [List.filterMap_append] at hnodup hfree
  refine ⟨hnodup.of_append_right, ?_⟩
  intro t ht
  have hnot : t ∉ as.filterMap TimerAct.timer? := fun hin => List.disjoint_of_nodup_append hnodup hin ht
  rw [hcalled.untouched t hnot]
  exact hfree t (List.mem_append_right _ ht)

end Allocates

section Total

variable {held : List ℕ} {q : TimerQueue}

theorem runAct_total (h : Sound held q) {a : TimerAct} (ha : Allocates q [a]) : ∃ q', q.runAct a = .ok q' := by
  cases a with
  | addTimer when interval t now =>
    have hfree : q.heap t = none ∧ 0 < t ∧ t < uintptrMax := ha.free t (by simp [TimerAct.timer?])
    have hnew : q.newTimer when interval t = .ok { q with
        heap := Function.update q.heap t (some ⟨when, interval, q.numCreated⟩)
        numCreated := int64 (q.numCreated + 1) } := if_pos hfree
    obtain ⟨h1, -⟩ := (h.newTimer when interval t).ok_of hnew
    obtain ⟨q2, hadd, -, hheap, -⟩ := h1.addTimeInLoop when now
    have hderef : q2.heap t = some ⟨when, interval, q.numCreated⟩ := by
      rw [hheap]
      exact Function.update_self ..
    refine ⟨q2, ?_⟩
    simp only [runAct, addTimer, hnew, hadd, deref_eq hderef, ok_bind, pure_eq_ok]
  | cancelTimer id => exact ⟨_, rfl⟩

theorem runActs_total : ∀ (acts : List TimerAct) {q : TimerQueue}, Sound held q → Allocates q acts →
    ∃ q', acts.foldlM runAct q = .ok q'
  | [], q, _, _ => ⟨q, rfl⟩
  | a :: acts, q, h, ha => by
    have ha0 : Allocates q ([a] ++ acts) := ha
    obtain ⟨q1, hrun⟩ := runAct_total h ha0.left
    have h1 := (runAct_spec h a).ok_of hrun
    obtain ⟨q2, hruns⟩ := runActs_total acts h1.sound (ha0.right h1)
    refine ⟨q2, ?_⟩
    rw [List.foldlM_cons, hrun]
    exact hruns

theorem callbacks_total (script : ℕ → List TimerAct) : ∀ (ts : List ℕ) {q : TimerQueue}, Sound held q →
    (∀ t ∈ ts, ∃ timer, q.heap t = some timer) → Allocates q (ts.flatMap script) →
    ∃ q', ts.foldlM (run script) q = .ok q'
  | [], q, _, _, _ => ⟨q, rfl⟩
  | t :: ts, q, h, hall, ha => by
    obtain ⟨timer, ht⟩ := hall t List.mem_cons_self
    have h0 : Sound held { q with fired := (t, timer.sequence) :: q.fired } := h.congr rfl rfl rfl rfl
    have ha0 : Allocates q (script t) := ha.left
    obtain ⟨q1, hacts⟩ := runActs_total (script t) h0 ⟨ha0.distinct, ha0.free⟩
    have hrun : q.run script t = .ok q1 := by
      unfold run
      rw [deref_eq ht]
      exact hacts
    have h1 := (run_spec h script ht).ok_of hrun
    obtain ⟨q2, hruns⟩ := callbacks_total script ts h1.sound (fun t' ht' => by
      obtain ⟨timer', htimer'⟩ := hall t' (List.mem_cons_of_mem _ ht')
      exact ⟨timer', h1.kept htimer'⟩) (ha.right h1)
    refine ⟨q2, ?_⟩
    rw [List.foldlM_cons, hrun]
    exact hruns

end Total

/-! ### Reset -/

/-- What the loop of `Reset` over the timers `ts` has done. -/
structure Restarted (now : ℤ) (ts : List ℕ) (q q' : TimerQueue) : Prop where
  queued : ∀ t timer, Queued q' t timer ↔ Queued q t timer ∨
    t ∈ ts ∧ ∃ old, q.heap t = some old ∧ old.interval.repeats = true ∧
      timer = { old with expiration := addTime now old.interval.micros }
  untouched : ∀ t, t ∉ ts → q'.heap t = q.heap t
  free : ∀ t, q.heap t = none → q'.heap t = none
  fired : q'.fired = q.fired
  cancelling : q'.cancellingTimers = q.cancellingTimers

/-- One pass of the loop of `Reset`, with nothing to cancel. -/
theorem restart_spec {now : ℤ} {t : ℕ} {held : List ℕ} {q q' : TimerQueue} (h : Sound (t :: held) q)
    (hcancel : q.cancellingTimers = ∅) (hr : q.restart now t = .ok q') (hsound : Sound held q') :
    Restarted now [t] q q' := by
  have hidle := h.idle t (Sound.mem_inHand_cons held q t)
  have hnot : ∀ timer, ¬ Queued q t timer := fun timer hq => hidle _ hq.active
  obtain ⟨old, hold, ⟨hrep, -, rfl⟩ | ⟨hrep, rfl⟩⟩ := restart_ok hr
  · have hreset : old.reset now = { old with expiration := addTime now old.interval.micros } := by
      unfold Timer.reset
      rw [if_pos hrep]
    refine ⟨?_, ?_, ?_, rfl, rfl⟩
    · intro t' timer
      rw [queued_iff hsound.mirror]
      simp only [Finset.mem_insert, Prod.mk.injEq, List.mem_singleton]
      by_cases hne : t' = t
      · subst hne
        rw [Function.update_self, hreset]
        constructor
        · rintro ⟨hheap, -⟩
          exact .inr ⟨rfl, old, hold, hrep, (Option.some.inj hheap).symm⟩
        · rintro (hq | ⟨-, old', hold', -, rfl⟩)
          · exact absurd hq (hnot timer)
          · obtain rfl : old = old' := Option.some.inj (hold.symm.trans hold')
            exact ⟨rfl, .inl ⟨rfl, rfl⟩⟩
      · rw [Function.update_of_ne hne, queued_iff h.mirror]
        simp only [hne, false_and, false_or, or_false]
    · intro t' ht'
      exact Function.update_of_ne (by simpa using ht') ..
    · intro t' ht'
      have hne : t' ≠ t := by
        rintro rfl
        rw [hold] at ht'
        cases ht'
      exact (Function.update_of_ne hne ..).trans ht'
  · rw [hcancel] at hrep
    refine ⟨?_, ?_, ?_, rfl, rfl⟩
    · intro t' timer
      rw [queued_iff hsound.mirror]
      by_cases hne : t' = t
      · subst hne
        simp only [Function.update_self, List.mem_singleton]
        constructor
        · rintro ⟨hnone, -⟩
          cases hnone
        · rintro (hq | ⟨-, old', hold', hrep', -⟩)
          · exact absurd hq (hnot timer)
          · obtain rfl : old = old' := Option.some.inj (hold.symm.trans hold')
            exact absurd ⟨hrep', Finset.notMem_empty _⟩ hrep
      · simp only [Function.update_of_ne hne, queued_iff h.mirror, List.mem_singleton, hne, false_and, or_false]
    · intro t' ht'
      exact Function.update_of_ne (by simpa using ht') ..
    · intro t' ht'
      by_cases hne : t' = t
      · subst hne
        exact Function.update_self ..
      · exact (Function.update_of_ne hne ..).trans ht'

/-- The loop of `Reset`, with nothing to cancel. -/
theorem restarts_spec (now : ℤ) : ∀ (ts : List ℕ) {q : TimerQueue}, Sound ts q → q.cancellingTimers = ∅ →
    ∃ q', ts.foldlM (restart now) q = .ok q' ∧ Sound [] q' ∧ Restarted now ts q q'
  | [], q, h, _ => ⟨q, rfl, h, by simp, fun _ _ => rfl, fun _ ht => ht, rfl, rfl⟩
  | t :: ts, q, h, hcancel => by
    obtain ⟨q1, hr, h1, -⟩ := h.restart now
    have hone := restart_spec h hcancel hr h1
    obtain ⟨q2, hrs, h2, hrest⟩ := restarts_spec now ts h1 (hone.cancelling.trans hcancel)
    have hnot : t ∉ ts := fun ht => h.inHand_cons.1 (List.mem_append_left _ ht)
    refine ⟨q2, ?_, h2, ?_, ?_, ?_, hrest.fired.trans hone.fired, hrest.cancelling.trans hone.cancelling⟩
    · rw [List.foldlM_cons, hr]
      exact hrs
    · intro t' timer
      rw [hrest.queued, hone.queued, or_assoc]
      refine or_congr_right ?_
      rw [List.mem_singleton, List.mem_cons, or_and_right]
      refine or_congr_right (and_congr_right fun ht' => ?_)
      have hne : t' ∉ [t] := by
        rw [List.mem_singleton]
        rintro rfl
        exact hnot ht'
      rw [hone.untouched t' hne]
    · intro t' ht'
      obtain ⟨hne, hts⟩ := List.ne_and_not_mem_of_not_mem_cons ht'
      rw [hrest.untouched t' hts, hone.untouched t' (by simpa using hne)]
    · intro t' ht'
      exact hrest.free t' (hone.free t' ht')

/-! ### GetExpired -/

/-- The `lower_bound` with the greatest address is a bound on the time. -/
theorem lt_bound_iff {q : TimerQueue} (h : AtRest q) {entry : Entry} (hmem : entry ∈ q.timers) (now : ℤ) :
    entry < toLex (now, uintptrMax) ↔ (ofLex entry).1 ≤ now := by
  obtain ⟨timer, hheap, -⟩ := h.sound.mirror.of_mem hmem
  have haddr : (ofLex entry).2 < uintptrMax := h.addresses _ timer hheap
  rw [Prod.Lex.lt_iff]
  constructor
  · rintro (hlt | ⟨heq, -⟩)
    · exact le_of_lt hlt
    · exact le_of_eq heq
  · intro hle
    rcases lt_or_eq_of_le hle with hlt | heq
    · exact .inl hlt
    · exact .inr ⟨heq, haddr⟩

/-- What `GetExpired` cuts off are the timers that are due. -/
theorem due_below {q : TimerQueue} (h : AtRest q) (now : ℤ) :
    Due now q (below q.timers (toLex (now, uintptrMax))) where
  exactly := by
    intro entry
    rw [mem_below]
    exact and_congr_right fun hmem => lt_bound_iff h hmem now
  once := below_nodup ..
  ordered := by
    refine (elements_pairwise _).imp ?_
    intro a b hab
    rcases Prod.Lex.lt_iff.mp hab with hlt | ⟨heq, -⟩
    · exact le_of_lt hlt
    · exact le_of_eq heq

namespace Due

variable {now : ℤ} {q : TimerQueue} {due : List Entry}

/-- A queued timer is among the due ones by its expiration. -/
theorem address_iff (hd : Due now q due) (h : q.Mirror) {t : ℕ} {timer : Timer} (hq : Queued q t timer) :
    t ∈ due.map (fun entry => (ofLex entry).2) ↔ timer.expiration ≤ now := by
  constructor
  · intro ht
    obtain ⟨entry, hentry, haddr⟩ := List.mem_map.mp ht
    obtain ⟨hmem, hle⟩ := (hd.exactly entry).mp hentry
    have heq : entry = toLex (timer.expiration, t) := h.entry_eq hmem hq.entry haddr
    rw [heq] at hle
    exact hle
  · intro hle
    exact List.mem_map.mpr ⟨_, (hd.exactly _).mpr ⟨hq.entry, hle⟩, rfl⟩

theorem queued (hd : Due now q due) (h : q.Mirror) {t : ℕ} (ht : t ∈ due.map fun entry => (ofLex entry).2) :
    ∃ timer, Queued q t timer := by
  obtain ⟨entry, hentry, rfl⟩ := List.mem_map.mp ht
  obtain ⟨timer, hheap, hact, he⟩ := h.of_mem ((hd.exactly entry).mp hentry).1
  exact ⟨timer, (queued_iff h).mpr ⟨hheap, hact⟩⟩

end Due

/-- What `HandleRead` has done before the first callback: the due timers are
out of the sets. -/
structure Begun (now : ℤ) (due : List Entry) (q q1 : TimerQueue) : Prop where
  sound : Sound (due.map fun entry => (ofLex entry).2) q1
  heap : q1.heap = q.heap
  numCreated : q1.numCreated = q.numCreated
  fired : q1.fired = q.fired
  cancelling : q1.cancellingTimers = q.cancellingTimers
  queued : ∀ t timer, Queued q1 t timer ↔ Queued q t timer ∧ now < timer.expiration

theorem begin_spec {q : TimerQueue} (h : AtRest q) (now : ℤ) :
    ∃ q1, q.beginHandleRead now =
        .ok ((below q.timers (toLex (now, uintptrMax))).map fun entry => (ofLex entry).2, q1) ∧
      Begun now (below q.timers (toLex (now, uintptrMax))) q q1 := by
  have h0 : Sound [] { q with timerFd := detail.readTimerFd q.timerFd } := h.sound.congr rfl rfl rfl rfl
  obtain ⟨active, hexp, hsound, hactive⟩ := h0.takeExpired now
  rw [List.append_nil] at hsound
  have hsound1 : Sound ((below q.timers (toLex (now, uintptrMax))).map fun entry => (ofLex entry).2)
      { q with
        timers := notBelow q.timers (toLex (now, uintptrMax))
        activeTimers := active
        callingExpiredTimers := true
        timerFd := detail.readTimerFd q.timerFd } := hsound.congr rfl rfl rfl rfl
  refine ⟨_, ?_, ⟨hsound1, rfl, rfl, rfl, rfl, ?_⟩⟩
  · simp only [beginHandleRead, hexp, ok_bind]
    rfl
  · intro t timer
    have hd := due_below h now
    rw [queued_iff hsound1.mirror]
    constructor
    · rintro ⟨hheap, hact⟩
      obtain ⟨hact, hnot⟩ := (hactive t _).mp hact
      have hq : Queued q t timer := (queued_iff h.sound.mirror).mpr ⟨hheap, hact⟩
      exact ⟨hq, not_le.mp (mt (hd.address_iff h.sound.mirror hq).mpr hnot)⟩
    · rintro ⟨hq, hlt⟩
      refine ⟨hq.heap, (hactive t _).mpr ⟨hq.active, ?_⟩⟩
      exact mt (hd.address_iff h.sound.mirror hq).mp (not_le.mpr hlt)

/-- The rest of `HandleRead` leaves the timers and the sets as they are. -/
theorem end_spec (nowArm : ℤ) (q : TimerQueue) :
    ∃ fd, q.endHandleRead nowArm =
      { q with cancellingTimers := ∅, callingExpiredTimers := false, timerFd := fd } := by
  unfold endHandleRead
  dsimp only
  split
  · exact ⟨_, rfl⟩
  · exact ⟨_, rfl⟩

/-! ### HandleRead -/

/-- Nothing is allocated where no address is. -/
theorem AtRest.free_above {q : TimerQueue} (h : AtRest q) {t : ℕ} (hge : ¬ t < uintptrMax) : q.heap t = none := by
  by_contra hsome
  obtain ⟨timer, htimer⟩ := Option.ne_none_iff_exists'.mp hsome
  exact hge (h.addresses t timer htimer)

section HandleRead

variable {now : ℤ} {script : ℕ → List TimerAct} {due : List Entry} {ids : List ActiveTimer}
  {q q1 q2 q3 : TimerQueue}

/-- What is queued after `HandleRead`, from what its parts did. -/
theorem queued_after (h : AtRest q) (hd : Due now q due) (hbegun : Begun now due q q1)
    (hcalled : Called (due.map fun entry => (ofLex entry).2) ids (acts script due) q1 q2)
    (hrest : Restarted now (due.map fun entry => (ofLex entry).2) q2 q3) (t : ℕ) (timer : Timer) :
    Queued q3 t timer ↔ (Queued q t timer ∧ now < timer.expiration) ∨
      (∃ old, Queued q t old ∧ old.expiration ≤ now ∧ old.interval.repeats = true ∧
        timer = { old with expiration := addTime now old.interval.micros }) ∨
      (t, timer) ∈ additions q.numCreated (acts script due) := by
  have hagain : (t ∈ due.map (fun entry => (ofLex entry).2) ∧ ∃ old, q2.heap t = some old ∧
        old.interval.repeats = true ∧ timer = { old with expiration := addTime now old.interval.micros }) ↔
      ∃ old, Queued q t old ∧ old.expiration ≤ now ∧ old.interval.repeats = true ∧
        timer = { old with expiration := addTime now old.interval.micros } := by
    constructor
    · rintro ⟨ht, old, hold, hrep, htimer⟩
      obtain ⟨old', hq⟩ := hd.queued h.sound.mirror ht
      have hold' : q2.heap t = some old' := hcalled.kept (hbegun.heap ▸ hq.heap)
      obtain rfl : old = old' := Option.some.inj (hold.symm.trans hold')
      exact ⟨old, hq, (hd.address_iff h.sound.mirror hq).mp ht, hrep, htimer⟩
    · rintro ⟨old, hq, hle, hrep, htimer⟩
      exact ⟨(hd.address_iff h.sound.mirror hq).mpr hle, old, hcalled.kept (hbegun.heap ▸ hq.heap), hrep, htimer⟩
  rw [hrest.queued, hcalled.queued, hbegun.queued, hagain, hbegun.numCreated, or_assoc,
    or_comm (a := (t, timer) ∈ _)]

/-- A one-shot timer that was due is not active afterwards: its address was in
use until `Reset`, so no added timer has it. -/
theorem gone_after (hsound : Sound [] q3)
    (hqueued : ∀ t timer, Queued q3 t timer ↔ (Queued q t timer ∧ now < timer.expiration) ∨
      (∃ old, Queued q t old ∧ old.expiration ≤ now ∧ old.interval.repeats = true ∧
        timer = { old with expiration := addTime now old.interval.micros }) ∨
      (t, timer) ∈ additions q.numCreated (acts script due))
    (hfree : ∀ t timer, (t, timer) ∈ additions q.numCreated (acts script due) → q.heap t = none)
    {t : ℕ} {timer : Timer} (hq : Queued q t timer) (hle : timer.expiration ≤ now)
    (hrep : timer.interval.repeats = false) (sequence : ℤ) : (t, sequence) ∉ q3.activeTimers := by
  intro hact
  obtain ⟨timer', hheap', rfl⟩ := hsound.mirror.active t sequence hact
  rcases (hqueued t timer').mp ((queued_iff hsound.mirror).mpr ⟨hheap', hact⟩) with
    ⟨hq', hlt⟩ | ⟨old, hq', -, hrep', -⟩ | hadd
  · obtain rfl : timer = timer' := Option.some.inj (hq.heap.symm.trans hq'.heap)
    exact absurd hlt (not_lt.mpr hle)
  · obtain rfl : timer = old := Option.some.inj (hq.heap.symm.trans hq'.heap)
    rw [hrep] at hrep'
    cases hrep'
  · have hnone := hq.heap
    rw [hfree t timer' hadd] at hnone
    cases hnone

/-- The parts of `HandleRead` together fire what is due. -/
theorem firesDue_of_parts (h : AtRest q) (hd : Due now q due) (hbegun : Begun now due q q1)
    (hcalled : Called (due.map fun entry => (ofLex entry).2) ids (acts script due) q1 q2)
    (hids : ids.map Prod.fst = due.map fun entry => (ofLex entry).2)
    (hseq : ∀ id ∈ ids, ∃ timer, q1.heap id.1 = some timer ∧ timer.sequence = id.2) (hsound : Sound [] q3)
    (hrest : Restarted now (due.map fun entry => (ofLex entry).2) q2 q3) : FiresDue now script due q q3 := by
  have hqueued := queued_after h hd hbegun hcalled hrest
  have hfree : ∀ t timer, (t, timer) ∈ additions q.numCreated (acts script due) → q.heap t = none := by
    intro t timer hadd
    rw [← hbegun.heap]
    exact (hcalled.fresh t (address_of_addition hadd)).1
  constructor
  case fired =>
    refine ⟨ids, by rw [hrest.fired, hcalled.fired, hbegun.fired], hids, ?_⟩
    intro id hid
    obtain ⟨timer, hheap1, hsequence⟩ := hseq id hid
    obtain ⟨timer', hq⟩ := hd.queued h.sound.mirror (hids ▸ List.mem_map_of_mem hid)
    rw [hbegun.heap] at hheap1
    obtain rfl : timer = timer' := Option.some.inj (hheap1.symm.trans hq.heap)
    have hact := hq.active
    rw [hsequence] at hact
    exact hact
  case added =>
    intro a ha hmem
    obtain ⟨timer, hq⟩ := hd.queued h.sound.mirror hmem
    have hnone := hq.heap
    rw [hfree a.1 a.2 ha] at hnone
    cases hnone
  case queued => exact hqueued
  case again =>
    intro t timer hq hle hrep hint
    refine (hqueued t _).mpr (.inr (.inl ⟨timer, hq, hle, hrep, ?_⟩))
    rw [addTime, int64_of_isInt64 hint]
  case gone =>
    intro t timer hq hle hrep
    have hnot := gone_after hsound hqueued hfree hq hle hrep
    exact ⟨hnot, hsound.mirror.not_mem_of_idle hnot⟩
  case mirror => exact hsound.mirror

/-- The rest of `HandleRead` does not touch what was done. -/
theorem FiresDue.finish (h : FiresDue now script due q q3) (nowArm : ℤ) :
    FiresDue now script due q (q3.endHandleRead nowArm) := by
  obtain ⟨fd, hend⟩ := end_spec nowArm q3
  have hqueued : ∀ {t timer}, Queued (q3.endHandleRead nowArm) t timer ↔ Queued q3 t timer := by
    intro t timer
    rw [hend]
    apply queued_congr <;> rfl
  constructor
  case fired =>
    rw [hend]
    exact h.fired
  case added => exact h.added
  case queued =>
    intro t timer
    rw [hqueued]
    exact h.queued t timer
  case again =>
    intro t timer hq hle hrep hint
    exact hqueued.mpr (h.again t timer hq hle hrep hint)
  case gone =>
    rw [hend]
    exact h.gone
  case mirror =>
    rw [hend]
    exact ⟨h.mirror.entries, h.mirror.active⟩

/-- `Reset` after the callbacks, and the rest of `HandleRead`. -/
theorem reset_spec (h : AtRest q) (hd : Due now q due) (hbegun : Begun now due q q1)
    (hcalled : Called (due.map fun entry => (ofLex entry).2) ids (acts script due) q1 q2)
    (hids : ids.map Prod.fst = due.map fun entry => (ofLex entry).2)
    (hseq : ∀ id ∈ ids, ∃ timer, q1.heap id.1 = some timer ∧ timer.sequence = id.2) (nowArm : ℤ) :
    ∃ q3, (due.map fun entry => (ofLex entry).2).foldlM (restart now) q2 = .ok q3 ∧
      FiresDue now script due q (q3.endHandleRead nowArm) ∧ AtRest (q3.endHandleRead nowArm) := by
  obtain ⟨q3, hrs, hsound, hrest⟩ := restarts_spec now _ hcalled.sound
    (hcalled.cancelling.trans (hbegun.cancelling.trans h.cancelling))
  have hfires := firesDue_of_parts h hd hbegun hcalled hids hseq hsound hrest
  refine ⟨q3, hrs, hfires.finish nowArm, ?_⟩
  obtain ⟨fd, hend⟩ := end_spec nowArm q3
  rw [hend]
  refine ⟨hsound.congr rfl rfl rfl rfl, ?_, rfl, rfl⟩
  intro t timer ht
  by_contra hge
  have hnone : q1.heap t = none := by
    rw [hbegun.heap]
    exact h.free_above hge
  have hnot : t ∉ (acts script due).filterMap TimerAct.timer? := fun hin => hge (hcalled.fresh t hin).2
  have hnone3 := hrest.free t ((hcalled.untouched t hnot).trans hnone)
  rw [hnone3] at ht
  cases ht

/-- Every part of `HandleRead` on a queue at rest. -/
theorem handleRead_spec (h : AtRest q) (now : ℤ) (script : ℕ → List TimerAct) (nowArm : ℤ) :
    Gives (fun q' => FiresDue now script (below q.timers (toLex (now, uintptrMax))) q q' ∧ AtRest q') OnlyBadAlloc
        (q.handleRead now script nowArm) ∧
      (Allocates q (acts script (below q.timers (toLex (now, uintptrMax)))) →
        ∃ q', q.handleRead now script nowArm = .ok q') := by
  set due := below q.timers (toLex (now, uintptrMax)) with hdue
  have hd : Due now q due := due_below h now
  obtain ⟨q1, hbegin, hbegun⟩ := begin_spec h now
  rw [← hdue] at hbegin hbegun
  have hacts : (due.map fun entry => (ofLex entry).2).flatMap script = acts script due := List.flatMap_map ..
  have hall : ∀ t ∈ due.map (fun entry => (ofLex entry).2), ∃ timer, q1.heap t = some timer := by
    intro t ht
    exact hbegun.sound.allocated t (List.mem_append_left _ ht)
  have hcallbacks := callbacks_spec script (due.map fun entry => (ofLex entry).2) hbegun.sound hall
  rw [hacts] at hcallbacks
  rw [handleRead_eq, hbegin]
  simp only [ok_bind]
  constructor
  · apply hcallbacks.bind
    rintro q2 ⟨ids, hcalled, hids, hseq⟩
    obtain ⟨q3, hrs, hres⟩ := reset_spec h hd hbegun hcalled hids hseq nowArm
    rw [hrs]
    exact hres
  · intro ha
    have ha1 : Allocates q1 (acts script due) := ⟨ha.distinct, fun t ht => hbegun.heap ▸ ha.free t ht⟩
    rw [← hacts] at ha1
    obtain ⟨q2, hruns⟩ := callbacks_total script _ hbegun.sound hall ha1
    obtain ⟨ids, hcalled, hids, hseq⟩ := hcallbacks.ok_of hruns
    obtain ⟨q3, hrs, -⟩ := reset_spec h hd hbegun hcalled hids hseq nowArm
    refine ⟨q3.endHandleRead nowArm, ?_⟩
    rw [hruns, ok_bind, hrs]
    rfl

end HandleRead

/-! ### A queue between two steps is at rest -/

theorem update_none {heap : ℕ → Option Timer} {t : ℕ} (ht : heap t = none) (b : ℕ) :
    Function.update heap b none t = none := by
  by_cases hne : t = b
  · rw [hne, Function.update_self]
  · rw [Function.update_of_ne hne, ht]

/-- Deleting timers allocates none. -/
theorem deletes_spec : ∀ (ts : List ℕ) {q q' : TimerQueue}, ts.foldlM (fun q t => q.delete t) q = .ok q' →
    (∀ t, q.heap t = none → q'.heap t = none) ∧ q'.callingExpiredTimers = q.callingExpiredTimers
  | [], q, q', h => by
    cases h
    exact ⟨fun _ ht => ht, rfl⟩
  | t :: ts, q, q', h => by
    rw [List.foldlM_cons] at h
    obtain ⟨q1, hdel, h⟩ := bind_eq_ok h
    obtain rfl := delete_ok hdel
    obtain ⟨hheap, hcalling⟩ := deletes_spec ts h
    exact ⟨fun t' ht' => hheap t' (update_none ht' t), hcalling⟩

namespace AtRest

variable {q q' : TimerQueue}

theorem create (numCreated : ℤ) : AtRest (TimerQueue.create numCreated) :=
  ⟨Sound.create numCreated, by simp [TimerQueue.create], rfl, rfl⟩

/-- A step after which the heap has nothing new keeps a queue at rest. -/
theorem of_heap (h : AtRest q) (hsound : Sound [] q') (hheap : ∀ t, q.heap t = none → q'.heap t = none)
    (hcalling : q'.callingExpiredTimers = q.callingExpiredTimers)
    (hcancelling : q'.cancellingTimers = q.cancellingTimers) : AtRest q' := by
  refine ⟨hsound, ?_, hcalling.trans h.calling, hcancelling.trans h.cancelling⟩
  intro t timer ht
  by_contra hge
  rw [hheap t (h.free_above hge)] at ht
  cases ht

/-- A step that allocates one timer keeps a queue at rest. -/
theorem of_update (h : AtRest q) (hsound : Sound [] q') {t : ℕ} {timer : Timer} (hlt : t < uintptrMax)
    (hheap : q'.heap = Function.update q.heap t (some timer))
    (hcalling : q'.callingExpiredTimers = q.callingExpiredTimers)
    (hcancelling : q'.cancellingTimers = q.cancellingTimers) : AtRest q' := by
  refine ⟨hsound, ?_, hcalling.trans h.calling, hcancelling.trans h.cancelling⟩
  intro t' timer' ht'
  by_cases hne : t' = t
  · rw [hne]
    exact hlt
  · rw [hheap, Function.update_of_ne hne] at ht'
    exact h.addresses t' timer' ht'

theorem runTask (h : AtRest q) {now : ℤ} (hst : q.runTask now = .ok q') (hsound : Sound [] q') : AtRest q' := by
  unfold TimerQueue.runTask at hst
  split at hst
  case h_1 =>
    cases hst
    exact h
  case h_2 =>
    obtain ⟨timer, fd, -, rfl⟩ := addTimeInLoop_ok hst
    exact h.of_heap hsound (fun _ ht => ht) rfl rfl
  case h_3 =>
    rcases cancelTimerInLoop_ok hst with ⟨-, timer, fd, -, rfl⟩ | ⟨-, cancelling, hkeep, rfl⟩
    · refine h.of_heap hsound ?_ rfl rfl
      intro t ht
      exact update_none ht _
    · exact h.of_heap hsound (fun _ ht => ht) rfl (hkeep h.calling)

theorem step (h : AtRest q) {a : TimerStep} (hst : q.step a = .ok q') : AtRest q' := by
  have hsound : Sound [] q' := (h.sound.step a).ok_of hst
  cases a with
  | addTimer when interval t now =>
    obtain ⟨⟨id, q1⟩, hadd, hq1⟩ := bind_eq_ok hst
    cases hq1
    have hlt := addTimer_lt hadd
    obtain ⟨-, -, -, fd, rfl⟩ := addTimer_ok hadd
    exact h.of_update hsound hlt rfl rfl rfl
  | queueTimer when interval t =>
    obtain ⟨q1, hnew, hq'⟩ := bind_eq_ok hst
    cases hq'
    have hlt := newTimer_lt hnew
    obtain ⟨-, -, rfl⟩ := newTimer_ok hnew
    exact h.of_update hsound hlt rfl rfl rfl
  | cancelTimer id =>
    cases hst
    exact h.of_heap hsound (fun _ ht => ht) rfl rfl
  | runTask now => exact h.runTask hst hsound
  | handleRead now script nowArm => exact ((handleRead_spec h now script nowArm).1.ok_of hst).2
  | fire =>
    cases hst
    exact h.of_heap hsound (fun _ ht => ht) rfl rfl
  | createElsewhere =>
    cases hst
    exact h.of_heap hsound (fun _ ht => ht) rfl rfl
  | destroy =>
    obtain ⟨q1, hdel, hq'⟩ := bind_eq_ok hst
    cases hq'
    obtain ⟨hheap, hcalling⟩ := deletes_spec _ hdel
    exact h.of_heap hsound hheap hcalling h.cancelling.symm

end AtRest

/-- Every queue that is reached is at rest between two steps. -/
theorem atRest_of_run (numCreated : ℤ) {tr : List (TimerQueue × TimerStep)} {q : TimerQueue}
    (hr : Run timerMachine (TimerQueue.create numCreated) tr q) : AtRest q :=
  hr.always (fun _ _ _ h _ hst => h.step hst) (AtRest.create numCreated)

end TimerQueue

open TimerQueue

/-- **`HandleRead` fires exactly the due timers.** On a queue at rest, for any
`now` and any callbacks: the timers queued with an expiration at most `now` are
called, each once and in the order of their expirations. Timers that the
callbacks add, due or not, are not called and stay queued, the one-shot timers
are gone from both sets, the repeating ones are queued one interval from `now`,
and the others as they were. It ends so unless an allocation fails. -/
theorem handleRead_fires_due {q : TimerQueue} (h : AtRest q) (now : ℤ) (script : ℕ → List TimerAct) (nowArm : ℤ) :
    ∃ due, Due now q due ∧
      Gives (FiresDue now script due q) OnlyBadAlloc (q.handleRead now script nowArm) ∧
      (Allocates q (acts script due) → ∃ q', q.handleRead now script nowArm = .ok q') := by
  obtain ⟨hgives, htotal⟩ := handleRead_spec h now script nowArm
  exact ⟨_, due_below h now, hgives.mono fun q' h' => h'.1, htotal⟩

/-- A one-shot and a repeating timer expire together, a third one does not, and
a callback adds a timer that is already due. -/
theorem handleRead_fires_due_tie :
    let q := final timerMachine (TimerQueue.create 0) [.addTimer 10 ⟨false, 0⟩ 8 5, .addTimer 10 ⟨true, 0⟩ 16 5,
      .addTimer 30 ⟨false, 0⟩ 24 5, .fire]
    let script := fun t => if t = 8 then [.addTimer 7 ⟨false, 0⟩ 32 20] else []
    ∃ due q', Due 20 q due ∧ due.map (fun entry => (ofLex entry).2) = [8, 16] ∧ q.handleRead 20 script 20 = .ok q' ∧
      FiresDue 20 script due q q' ∧ q'.fired = [(16, 1), (8, 0)] ∧
      elements q'.timers = [toLex (7, 32), toLex (20, 16), toLex (30, 24)] := by
  intro q script
  have hrest : AtRest q := atRest_of_run 0 (run_of_accepts _ _ (by decide +kernel))
  obtain ⟨due, hdue, hgives, -⟩ := handleRead_fires_due hrest 20 script 20
  have hran : ((q.handleRead 20 script 20).toOption.map fun q' => (q'.fired, elements q'.timers)) =
      some ([(16, 1), (8, 0)], [toLex (7, 32), toLex (20, 16), toLex (30, 24)]) := by decide +kernel
  obtain ⟨q', hopt, hresult⟩ := Option.map_eq_some_iff.mp hran
  obtain ⟨hfired, htimers⟩ := Prod.mk.inj hresult
  have hok : q.handleRead 20 script 20 = .ok q' := by
    cases h : q.handleRead 20 script 20 with
    | error e =>
      rw [h] at hopt
      cases hopt
    | ok q1 =>
      rw [h] at hopt
      exact congrArg Except.ok (Option.some.inj hopt)
  have hfires : FiresDue 20 script due q q' := hgives.ok_of hok
  obtain ⟨ids, hids, hdueids, -⟩ := hfires.fired
  have hnone : q.fired = [] := by decide +kernel
  rw [hfired, hnone, List.append_nil] at hids
  rw [List.reverse_eq_iff.mp hids.symm] at hdueids
  exact ⟨due, q', hdue, hdueids.symm, hok, hfires, hfired, htimers⟩

end MiniMuduo
