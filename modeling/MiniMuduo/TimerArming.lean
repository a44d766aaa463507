/-
# The timerfd is set for the earliest timer

Four places set or stop the timerfd: `AddTimeInLoop` when the new timer is
earlier than the first, `CancelTimerInLoop` when it takes out the first (by
address), `Reset` always, and a callback's `AddTimer` in the middle of a
batch. After each step the timerfd counts, or has fired and waits to be read,
for the expiration at `timers_.begin()`, and the relative timeout it was last
given is a valid `timespec` of exactly `max(expiration - now, 100)`
microseconds, whatever the clock said.

Expirations are read off the heap (`Sound`), so they have to be timestamps
there; `Clocked` says so, and that the timers in hand can start again.

Key definitions: `Arming.Exact`, `TimerFd.SetFor`, `TimerQueue.Timely`,
`TimerQueue.Clocked`.
Key theorems: `resetTimerFd_setFor`, `addTimeInLoop_armed`,
`cancelTimerInLoop_armed`, `Clocked.handleRead`, `timerfd_set_for_earliest`.
-/
import MiniMuduo.TimerMirror
import Mathlib.Order.Monotone.Basic

namespace MiniMuduo

open Fallible Runs Word OrderedSet

/-- A nonnegative `int64_t`. -/
def IsTimestamp (t : ℤ) : Prop := 0 ≤ t ∧ t < 0x8000000000000000

instance (t : ℤ) : Decidable (IsTimestamp t) := inferInstanceAs (Decidable (_ ∧ _))

theorem IsTimestamp.isInt64 {t : ℤ} (h : IsTimestamp t) : IsInt64 t := by
  obtain ⟨hlo, hhi⟩ := h
  exact ⟨by omega, hhi⟩

/-- The timeout is a valid `timespec`, not zero, and worth the time from
`now` to the target, or 100 microseconds where that is less. -/
structure Arming.Exact (a : Arming) : Prop where
  sec : 0 ≤ a.timeout.tvSec
  nsec : 0 ≤ a.timeout.tvNsec ∧ a.timeout.tvNsec < 1000000000
  nonzero : a.timeout ≠ ⟨0, 0⟩
  worth : a.timeout.tvSec * 1000000000 + a.timeout.tvNsec = max (a.target - a.now) 100 * 1000

/-- The timerfd counts or has fired unread, and was last set for
`expiration`. -/
structure TimerFd.SetFor (fd : TimerFd) (expiration : ℤ) : Prop where
  active : fd.state = .armed ∨ fd.state = .fired
  last : ∃ arming, fd.last = some arming ∧ arming.target = expiration ∧ arming.Exact

theorem howMuchTimeFromNow_exact {when now : ℤ} (hw : IsTimestamp when) (hn : IsTimestamp now) :
    Arming.Exact ⟨when, now, detail.howMuchTimeFromNow when now⟩ := by
  obtain ⟨hw0, hw1⟩ := hw
  obtain ⟨hn0, hn1⟩ := hn
  have hsub : int64 (when - now) = when - now := int64_of_isInt64 ⟨by omega, by omega⟩
  have hmax : (if when - now < 100 then 100 else when - now) = max (when - now) 100 := by
    split <;> omega
  set micros := max (when - now) 100 with hmicros
  have hpos : 100 ≤ micros := le_max_right _ _
  have htimeout : detail.howMuchTimeFromNow when now = ⟨micros / 1000000, micros % 1000000 * 1000⟩ := by
    simp only [detail.howMuchTimeFromNow, hsub, hmax]
    rw [Int.tdiv_eq_ediv_of_nonneg (by omega), Int.tmod_eq_emod_of_nonneg (by omega)]
  rw [htimeout]
  refine ⟨?_, ⟨?_, ?_⟩, ?_, ?_⟩
  · show 0 ≤ micros / 1000000
    omega
  · show 0 ≤ micros % 1000000 * 1000
    omega
  · show micros % 1000000 * 1000 < 1000000000
    omega
  · intro hzero
    injection hzero with hsec hnsec
    omega
  · show micros / 1000000 * 1000000000 + micros % 1000000 * 1000 = micros * 1000
    omega

/-- `ResetTimerFd` sets the timerfd; its timeout is never zero. -/
theorem resetTimerFd_setFor {expiration now : ℤ} (he : IsTimestamp expiration) (hn : IsTimestamp now) :
    (detail.resetTimerFd expiration now).SetFor expiration := by
  have hexact := howMuchTimeFromNow_exact he hn
  exact ⟨.inl (if_neg hexact.nonzero), _, rfl, rfl, hexact⟩

/-- The values of the clock in a callback's act are timestamps. -/
def TimerAct.Timely : TimerAct → Prop
  | .addTimer when _ _ now => IsTimestamp when ∧ IsTimestamp now
  | .cancelTimer _ => True

instance : (a : TimerAct) → Decidable a.Timely
  | .addTimer _ _ _ _ => inferInstanceAs (Decidable (_ ∧ _))
  | .cancelTimer _ => inferInstanceAs (Decidable True)

namespace TimerQueue

/-- The values of the clock in a step are timestamps, and `AddTime` gives one
for each repeating timer that is due. -/
def Timely (q : TimerQueue) : TimerStep → Prop
  | .addTimer when _ _ now => IsTimestamp when ∧ IsTimestamp now
  | .queueTimer when _ _ => IsTimestamp when
  | .runTask now => IsTimestamp now
  | .handleRead now script nowArm => (IsTimestamp now ∧ IsTimestamp nowArm) ∧
    ∀ entry ∈ below q.timers (toLex (now, uintptrMax)), (∀ a ∈ script (ofLex entry).2, a.Timely) ∧
      ∀ timer ∈ q.heap (ofLex entry).2, timer.interval.repeats = true → IsTimestamp (now + timer.interval.micros)
  | _ => True

instance (q : TimerQueue) : (a : TimerStep) → Decidable (q.Timely a)
  | .addTimer _ _ _ _ => inferInstanceAs (Decidable (_ ∧ _))
  | .queueTimer when _ _ => inferInstanceAs (Decidable (IsTimestamp when))
  | .runTask now => inferInstanceAs (Decidable (IsTimestamp now))
  | .handleRead now script nowArm => inferInstanceAs (Decidable ((IsTimestamp now ∧ IsTimestamp nowArm) ∧
    ∀ entry ∈ below q.timers (toLex (now, uintptrMax)), (∀ a ∈ script (ofLex entry).2, a.Timely) ∧
      ∀ timer ∈ q.heap (ofLex entry).2, timer.interval.repeats = true → IsTimestamp (now + timer.interval.micros)))
  | .cancelTimer _ | .fire | .createElsewhere | .destroy => inferInstanceAs (Decidable True)

/-- The timerfd is set for the first timer. -/
def Armed (q : TimerQueue) : Prop := ∀ entry ∈ first q.timers, q.timerFd.SetFor (ofLex entry).1

/-- The expirations on the heap are timestamps. -/
def InRange (q : TimerQueue) : Prop := ∀ t, ∀ timer ∈ q.heap t, IsTimestamp timer.expiration

/-- A queue in order whose expirations are timestamps, and the timers in hand
can start again at `now`. -/
structure Clocked (now : ℤ) (held : List ℕ) (q : TimerQueue) : Prop extends Sound held q where
  range : q.InRange
  renew : ∀ t ∈ held, ∀ timer ∈ q.heap t, timer.interval.repeats = true →
    IsTimestamp (now + timer.interval.micros)

variable {q q' : TimerQueue} {held : List ℕ} {now : ℤ} {t : ℕ}

theorem Armed.congr (h : q.Armed) (htimers : q'.timers = q.timers) (hfd : q'.timerFd = q.timerFd) : q'.Armed := by
  unfold Armed
  rw [htimers, hfd]
  exact h

theorem Armed.of_empty (h : q.timers = ∅) : q.Armed := by
  intro entry hfirst
  rw [h, first_eq_none_iff.mpr rfl] at hfirst
  cases hfirst

/-- One timer appears, changes or goes. -/
theorem InRange.update (h : q.InRange) {timer? : Option Timer} (hheap : q'.heap = Function.update q.heap t timer?)
    (htimer : ∀ timer ∈ timer?, IsTimestamp timer.expiration) : q'.InRange := by
  intro t' timer ht'
  rw [hheap] at ht'
  by_cases ht : t' = t
  · rw [ht, Function.update_self] at ht'
    exact htimer timer ht'
  · rw [Function.update_of_ne ht] at ht'
    exact h t' timer ht'

theorem InRange.congr (h : q.InRange) (hheap : q'.heap = q.heap) : q'.InRange := by
  unfold InRange
  rw [hheap]
  exact h

theorem InRange.delete (h : q.InRange) (t : ℕ) : Gives InRange (fun _ => True) (q.delete t) := by
  unfold TimerQueue.delete
  split
  case h_1 => exact h.update rfl fun timer ht => by cases ht
  case h_2 => trivial

namespace Clocked

theorem first_range (h : Clocked now held q) {entry : Entry} (hfirst : first q.timers = some entry) :
    IsTimestamp (ofLex entry).1 := by
  obtain ⟨timer, hheap, -, he⟩ := h.mirror.of_mem (first_eq_some_iff.mp hfirst).1
  rw [← he]
  exact h.range _ timer hheap

theorem of_sound (h : Clocked now held q) (hs : Sound held q') (hheap : q'.heap = q.heap) :
    Clocked now held q' := by
  refine ⟨hs, h.range.congr hheap, ?_⟩
  rw [hheap]
  exact h.renew

/-- A timer appears at a free address, which is not one in hand. -/
theorem of_new (h : Clocked now held q) (hs : Sound held q') {timer : Timer} (hfree : q.heap t = none)
    (hheap : q'.heap = Function.update q.heap t (some timer)) (htimer : IsTimestamp timer.expiration) :
    Clocked now held q' := by
  have hheld : ∀ t' ∈ held, t' ≠ t := by
    rintro t' hmem rfl
    obtain ⟨timer', hheap'⟩ := h.allocated t' (List.mem_append_left _ hmem)
    rw [hfree] at hheap'
    cases hheap'
  refine ⟨hs, h.range.update hheap ?_, fun t' hmem => ?_⟩
  · intro timer' ht'
    cases ht'
    exact htimer
  · rw [hheap, Function.update_of_ne (hheld t' hmem)]
    exact h.renew t' hmem

theorem runAct (h : Clocked now held q) {a : TimerAct} (ha : a.Timely) :
    Gives (Clocked now held) OnlyBadAlloc (q.runAct a) := by
  cases a with
  | addTimer when interval t now' =>
    refine (h.toSound.addTimer when interval t now').bind fun r ⟨hs, hfree, hheap⟩ => ?_
    exact h.of_new hs hfree hheap ha.1
  | cancelTimer id => exact h.of_sound (h.toSound.cancelTimer id) rfl

theorem run (h : Clocked now held q) (ht : t ∈ held) {script : ℕ → List TimerAct}
    (hscript : ∀ a ∈ script t, a.Timely) : Gives (Clocked now held) OnlyBadAlloc (q.run script t) := by
  obtain ⟨timer, hheap⟩ := h.allocated t (List.mem_append_left _ ht)
  unfold TimerQueue.run
  rw [deref_eq hheap, ok_bind]
  have h0 : Clocked now held { q with fired := (t, timer.sequence) :: q.fired } :=
    h.of_sound (h.toSound.congr rfl rfl rfl rfl) rfl
  exact Gives.foldlM h0 fun q hq a ha => hq.runAct (hscript a ha)

/-- One pass of `Reset`: a timer that starts again expires at a timestamp. -/
theorem restart (h : Clocked now (t :: held) q) : ∃ q', q.restart now t = .ok q' ∧ Clocked now held q' := by
  obtain ⟨q', hok, hs, timer, hheap, hcase⟩ := h.toSound.restart now
  refine ⟨q', hok, hs, ?_, fun t' hmem timer' ht' => ?_⟩
  · rcases hcase with ⟨hrep, hheap'⟩ | hheap'
    · refine h.range.update hheap' fun timer' ht' => ?_
      cases ht'
      have hnext := h.renew t List.mem_cons_self timer hheap hrep
      have hreset : (timer.reset now).expiration = now + timer.interval.micros := by
        unfold Timer.reset addTime
        rw [if_pos hrep]
        exact int64_of_isInt64 hnext.isInt64
      rw [hreset]
      exact hnext
    · exact h.range.update hheap' fun timer' ht' => by cases ht'
  · have hne : t' ≠ t := by
      rintro rfl
      exact (List.nodup_cons.mp h.nodup).1 (List.mem_append_left _ hmem)
    have hother : q'.heap t' = q.heap t' := by
      rcases hcase with ⟨-, hheap'⟩ | hheap'
      · rw [hheap', Function.update_of_ne hne]
      · rw [hheap', Function.update_of_ne hne]
    rw [hother] at ht'
    exact h.renew t' (List.mem_cons_of_mem _ hmem) timer' ht'

theorem restartAll : ∀ {expired : List ℕ} {q : TimerQueue}, Clocked now expired q →
    ∃ q', expired.foldlM (TimerQueue.restart now) q = Except.ok q' ∧ Clocked now [] q'
  | [], q, h => ⟨q, rfl, h⟩
  | t :: expired, q, h => by
    obtain ⟨q1, hr, h1⟩ := h.restart
    obtain ⟨q', hfold, h'⟩ := restartAll h1
    refine ⟨q', ?_, h'⟩
    rw [List.foldlM_cons, hr]
    exact hfold

/-- `Reset` leaves the timerfd set for the first timer, whatever it was set
for before. -/
theorem reset {expired : List ℕ} (h : Clocked now expired q) {nowArm : ℤ} (harm : IsTimestamp nowArm) :
    ∃ q', q.reset expired now nowArm = .ok q' ∧ Clocked now [] q' ∧ q'.Armed := by
  obtain ⟨q1, hfold, h1⟩ := restartAll h
  unfold TimerQueue.reset
  simp only [hfold, ok_bind]
  split
  case h_1 begin hfirst =>
    refine ⟨_, rfl, h1.of_sound (h1.toSound.congr rfl rfl rfl rfl) rfl, fun entry hentry => ?_⟩
    have heq : begin = entry := Option.some.inj (hfirst.symm.trans hentry)
    rw [← heq]
    exact resetTimerFd_setFor (h1.first_range hfirst) harm
  case h_2 hfirst =>
    refine ⟨_, rfl, h1.of_sound (h1.toSound.congr rfl rfl rfl rfl) rfl, Armed.of_empty ?_⟩
    exact first_eq_none_iff.mp hfirst

theorem handleRead {now' : ℤ} (h : Clocked now' [] q) {script : ℕ → List TimerAct} {nowArm : ℤ}
    (htime : q.Timely (.handleRead now script nowArm)) :
    Gives (fun q' => Clocked now [] q' ∧ q'.Armed) OnlyBadAlloc (q.handleRead now script nowArm) := by
  obtain ⟨⟨-, hnowArm⟩, hdue⟩ := htime
  unfold TimerQueue.handleRead
  have h0 : Sound [] { q with timerFd := detail.readTimerFd q.timerFd } := h.toSound.congr rfl rfl rfl rfl
  obtain ⟨q1, hexp, hheap1, h1⟩ := h0.getExpired now
  simp only [hexp, ok_bind]
  set expired := (below q.timers (toLex (now, uintptrMax))).map fun entry => (ofLex entry).2 with hexpired
  have hdue' : ∀ t ∈ expired, (∀ a ∈ script t, a.Timely) ∧ ∀ timer ∈ q.heap t,
      timer.interval.repeats = true → IsTimestamp (now + timer.interval.micros) := by
    intro t ht
    obtain ⟨entry, hmem, rfl⟩ := List.mem_map.mp ht
    exact hdue entry hmem
  have h2 : Clocked now expired { q1 with callingExpiredTimers := true } := by
    refine ⟨h1.congr rfl rfl rfl rfl, h.range.congr hheap1, ?_⟩
    rw [hheap1]
    exact fun t ht => (hdue' t ht).2
  refine (Gives.foldlM h2 fun q hq t ht => hq.run ht (hdue' t ht).1).bind fun q3 h3 => ?_
  obtain ⟨q4, hreset, h4, harmed⟩ := h3.reset hnowArm
  rw [hreset, ok_bind]
  exact ⟨h4.of_sound (h4.toSound.congr rfl rfl rfl rfl) rfl, harmed⟩

/-- With nothing in hand the clock does not matter. -/
theorem of_range (hs : Sound [] q) (hrange : q.InRange) : Clocked now [] q :=
  ⟨hs, hrange, fun t ht => by cases ht⟩

end Clocked

/-- `AddTimeInLoop`: a timer that is not earlier than the first leaves the
first expiration, also where it ties with it and its address is lower. -/
theorem addTimeInLoop_armed (h : Sound (t :: held) q) (harmed : q.Armed) {timer : Timer}
    (hheap : q.heap t = some timer) (htimer : IsTimestamp timer.expiration) (hnow : IsTimestamp now) :
    ∃ q', q.addTimeInLoop timer.expiration t now = .ok q' ∧ Sound held q' ∧ q'.heap = q.heap ∧ q'.Armed := by
  obtain ⟨q', hok, hs, hheap', timer', hheap2, htimers, hcase⟩ := h.addTimeInLoop timer.expiration now
  have heq : timer' = timer := Option.some.inj (hheap2.symm.trans hheap)
  rw [heq] at htimers hcase
  refine ⟨q', hok, hs, hheap', fun entry hentry => ?_⟩
  rw [htimers, first_insert] at hentry
  have hentry := Option.some.inj hentry
  rcases hcase with ⟨hearlier, hfd⟩ | ⟨⟨begin, hbegin, hle⟩, hfd⟩
  · have hfirst : (ofLex entry).1 = timer.expiration := by
      cases hfirst : first q.timers with
      | none => rw [← hentry, hfirst, Option.elim_none, ofLex_toLex]
      | some begin =>
        have hlt : toLex (timer.expiration, t) < begin := Prod.Lex.lt_iff.mpr (.inl (hearlier begin hfirst))
        rw [← hentry, hfirst, Option.elim_some, min_eq_left hlt.le, ofLex_toLex]
    rw [hfd, hfirst]
    exact resetTimerFd_setFor htimer hnow
  · have hfirst : (ofLex entry).1 = (ofLex begin).1 := by
      rw [← hentry, Option.mem_def.mp hbegin, Option.elim_some]
      calc (ofLex (min (toLex (timer.expiration, t)) begin)).1
          = min timer.expiration (ofLex begin).1 := Prod.Lex.monotone_fst_ofLex.map_min
        _ = (ofLex begin).1 := min_eq_right hle
    rw [hfd, hfirst]
    exact harmed begin hbegin

/-- `CancelTimerInLoop`: taking out another timer than the first leaves the
first, and after the first the timerfd is set for the next. -/
theorem cancelTimerInLoop_armed (h : Clocked now [] q) (harmed : q.Armed) (id : ActiveTimer) {nowArm : ℤ}
    (hnow : IsTimestamp nowArm) :
    ∃ q', q.cancelTimerInLoop id nowArm = .ok q' ∧ Clocked now [] q' ∧ q'.Armed := by
  obtain ⟨q', hok, hs⟩ := h.toSound.cancelTimerInLoop id nowArm
  refine ⟨q', hok, ?_⟩
  unfold cancelTimerInLoop at hok
  by_cases hid : id ∈ q.activeTimers
  · obtain ⟨timer, hheap, -⟩ := h.mirror.active id.1 id.2 hid
    simp only [if_pos hid, deref_eq hheap, ok_bind, delete, hheap] at hok
    have hclocked : q'.heap = Function.update q.heap id.1 none → Clocked now [] q' := fun hheap' =>
      Clocked.of_range hs (h.range.update hheap' fun timer ht => by cases ht)
    split at hok
    case isTrue =>
      split at hok
      case h_1 begin hfirst =>
        cases hok
        have hc := hclocked rfl
        refine ⟨hc, fun entry hentry => ?_⟩
        have heq : begin = entry := Option.some.inj (hfirst.symm.trans hentry)
        rw [← heq]
        exact resetTimerFd_setFor (hc.first_range hfirst) hnow
      case h_2 hfirst =>
        cases hok
        exact ⟨hclocked rfl, Armed.of_empty (first_eq_none_iff.mp hfirst)⟩
    case isFalse hother =>
      cases hok
      refine ⟨hclocked rfl, fun entry hentry => ?_⟩
      cases hfirst : first q.timers with
      | none =>
        have hempty : q.timers.erase (toLex (timer.expiration, id.1)) = ∅ := by
          rw [first_eq_none_iff.mp hfirst, Finset.erase_empty]
        exact Armed.of_empty hempty entry hentry
      | some begin =>
        have hne : begin ≠ toLex (timer.expiration, id.1) := by
          rintro rfl
          exact hother (by rw [hfirst]; simp)
        have heq : begin = entry := Option.some.inj ((first_erase hfirst hne).symm.trans hentry)
        rw [← heq]
        exact harmed begin hfirst
  · rw [if_neg hid] at hok
    split at hok
    · cases hok
      exact ⟨h.of_sound hs rfl, harmed.congr rfl rfl⟩
    · cases hok
      exact ⟨h, harmed⟩

theorem step_armed (h : Clocked now [] q) (harmed : q.Armed) {a : TimerStep}
    (htime : q.Timely a) (hst : q.step a = .ok q') : Clocked now [] q' ∧ q'.Armed := by
  have hs : Sound [] q' := (h.toSound.step a).ok_of hst
  cases a with
  | addTimer when interval t now' =>
    obtain ⟨r, hadd, hr⟩ := bind_eq_ok hst
    cases hr
    obtain ⟨q1, hnew, hadd⟩ := bind_eq_ok hadd
    obtain ⟨h1, -, hheap1, htimers1, hfd1⟩ := (h.toSound.newTimer when interval t).ok_of hnew
    have hheap : q1.heap t = some ⟨when, interval, q.numCreated⟩ := by rw [hheap1, Function.update_self]
    obtain ⟨q2, hok, -, hheap2, harmed2⟩ :=
      addTimeInLoop_armed h1 (harmed.congr htimers1 hfd1) hheap htime.1 htime.2
    rw [hok, ok_bind, deref_eq (hheap2 ▸ hheap)] at hadd
    cases hadd
    refine ⟨Clocked.of_range hs (h.range.update (hheap2.trans hheap1) fun timer ht => ?_), harmed2⟩
    cases ht
    exact htime.1
  | queueTimer when interval t =>
    obtain ⟨-, hheap, htimers, hfd⟩ := (h.toSound.queueTimer when interval t).ok_of hst
    refine ⟨Clocked.of_range hs (h.range.update hheap fun timer ht => ?_), harmed.congr htimers hfd⟩
    cases ht
    exact htime
  | cancelTimer id =>
    cases hst
    exact ⟨h.of_sound hs rfl, harmed.congr rfl rfl⟩
  | runTask now' =>
    simp only [step, runTask] at hst
    split at hst
    case h_1 =>
      cases hst
      exact ⟨h, harmed⟩
    case h_2 when t tasks htasks =>
      obtain ⟨timer, hheap, rfl⟩ := h.queued when t (htasks ▸ List.mem_cons_self)
      obtain ⟨q2, hok, -, hheap2, harmed2⟩ :=
        addTimeInLoop_armed (h.toSound.takeAdd htasks) (harmed.congr rfl rfl) hheap (h.range t timer hheap) htime
      cases hok.symm.trans hst
      exact ⟨h.of_sound hs hheap2, harmed2⟩
    case h_3 id tasks htasks =>
      have h' : Clocked now [] { q with tasks } := h.of_sound (h.toSound.takeCancel htasks) rfl
      obtain ⟨q2, hok, hc, harmed2⟩ := cancelTimerInLoop_armed h' (harmed.congr rfl rfl) id htime
      cases hok.symm.trans hst
      exact ⟨hc, harmed2⟩
  | handleRead now' script nowArm =>
    obtain ⟨hc, harmed'⟩ := (h.handleRead htime).ok_of hst
    exact ⟨Clocked.of_range hs hc.range, harmed'⟩
  | fire =>
    cases hst
    refine ⟨h.of_sound hs rfl, fun entry hentry => ?_⟩
    exact ⟨.inr rfl, (harmed entry hentry).last⟩
  | createElsewhere =>
    cases hst
    exact ⟨h.of_sound hs rfl, harmed.congr rfl rfl⟩
  | destroy =>
    obtain ⟨q1, hdel, hq'⟩ := bind_eq_ok hst
    cases hq'
    have hrange : q1.InRange := (Gives.foldlM h.range fun q hq t _ => hq.delete t).ok_of hdel
    exact ⟨Clocked.of_range hs hrange, Armed.of_empty rfl⟩

end TimerQueue

open TimerQueue

/-- **The timerfd is set for the earliest timer.** In every state that a
queue reaches between two steps, where the clock's values are timestamps and
`AddTime` does not overflow: if `timers_` is not empty then the timerfd
counts or has fired unread, it was last set for `timers_.begin()->first`, and
the timeout was a valid non-zero `timespec` of exactly
`max(expiration - now, 100)` microseconds. -/
theorem timerfd_set_for_earliest (numCreated : ℤ) {tr : List (TimerQueue × TimerStep)} {q : TimerQueue}
    (hr : Run timerMachine (TimerQueue.create numCreated) tr q) (htime : ∀ p ∈ tr, p.1.Timely p.2) :
    ∀ entry, first q.timers = some entry → q.timerFd.SetFor (ofLex entry).1 := by
  have hinit : Clocked 0 [] (TimerQueue.create numCreated) ∧ (TimerQueue.create numCreated).Armed :=
    ⟨Clocked.of_range (Sound.create numCreated) fun t timer ht => (by cases ht), Armed.of_empty rfl⟩
  have hstep : ∀ (q : TimerQueue) (a : TimerStep) (q' : TimerQueue), Clocked 0 [] q ∧ q.Armed →
      timerMachine.enabled q a → q.Timely a → timerMachine.step q a = .ok q' → Clocked 0 [] q' ∧ q'.Armed :=
    fun q a q' h _ ha hst => step_armed h.1 h.2 ha hst
  exact (hr.invariant hstep hinit htime).2

/-- A repeating timer that is due goes behind one that a callback added, and
a cancelled first timer makes room for it. -/
theorem timerfd_set_for_earliest_repeating :
    let steps : List TimerStep := [.addTimer 10 ⟨false, 0⟩ 8 5, .addTimer 12 ⟨true, 3⟩ 16 5, .fire,
      .handleRead 20 (fun t => if t = 8 then [.addTimer 21 ⟨false, 0⟩ 24 20] else []) 20,
      .cancelTimer (24, 2), .runTask 19]
    let q := final timerMachine (TimerQueue.create 0) steps
    first q.timers = some (toLex (23, 16)) ∧ q.timerFd.SetFor 23 :=
  ⟨by decide +kernel, timerfd_set_for_earliest 0 (run_of_accepts _ _ (by decide +kernel)) (by decide +kernel)
    (toLex (23, 16)) (by decide +kernel)⟩

end MiniMuduo
