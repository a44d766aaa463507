/-
# EnableIdleTimeout and the size of the wheel

`EventLoop::EnableIdleTimeout` of `src/EventLoop.cc` makes a `TimingWheel` with
as many buckets as `timeout_seconds / kTimerInterval` says, after a
`static_cast<size_t>` that nothing guards. `Feed` and `OnTimer` of
`src/TimingWheel.cc` are here with what the language asks of them:
`wheel_[current_bucket_]` is an access of the vector, `% wheel_.size()` a
division.

The division by `kTimerInterval` is exact, and so is the conversion of a result
that is not negative. The language leaves the conversion of a negative one
undefined: it gives any size (on x86-64 one near `2 ^ 64`, which the vector
rejects). Zero seconds make a wheel without buckets, which the vector accepts:
the first `OnTimer` divides by zero, and the first `Feed` writes outside the
vector (`idle_timeout_safe_iff`).

Key definitions: `TimingWheel.construct`, `TimingWheel.feedAt`,
`TimingWheel.onTimerAt`, `idleMachine`.
Key theorems: `TimingWheel.InRing.step`, `idle_timeout_safe_iff`.
-/
import MiniMuduo.TimingWheel

namespace MiniMuduo

open Fallible Runs

namespace TimingWheel

variable {κ : Type}

/-- `max_size()` of the vector: a bucket has 56 bytes. -/
def maxBuckets : ℕ := 0x7FFFFFFFFFFFFFFF / 56

/-- `static_cast<size_t>(timeout_ / kTimerInterval)`; `undefined` is what the
conversion of a negative number gives. -/
def wheelSize (timeout : Int32) (undefined : ℕ) : ℕ := if 0 ≤ timeout.toInt then timeout.toInt.toNat else undefined

/-- `TimingWheel(loop, timeout_seconds)`; `room` says that the memory is there. -/
def construct (timeout : Int32) (undefined : ℕ) (room : Bool) : Except Fault (TimingWheel κ) :=
  if maxBuckets < wheelSize timeout undefined then .error .lengthError
  else if !room then .error .badAlloc
  else .ok (create (wheelSize timeout undefined))

/-- `wheel_[b]`. -/
def bucketAt (b : ℕ) (w : TimingWheel κ) : Except Fault (List ℕ) :=
  if b < w.size then .ok (w.wheel b) else .error .outOfRange

variable [DecidableEq κ]

/-- `Feed` with its access of the vector. -/
def feedAt (inLoop : Bool) (c : κ) (w : TimingWheel κ) : Except Fault (TimingWheel κ) :=
  if !inLoop then .error .notInLoopThread
  else
    match w.lock c with
    | some e => do
      let _ ← w.bucketAt w.currentBucket
      return w.put c e
    | none => do
      let _ ← (w.make c).bucketAt (w.make c).currentBucket
      return (w.make c).put c w.entries

/-- `OnTimer` with its division and its accesses of the vector. -/
def onTimerAt (order : List ℕ) (w : TimingWheel κ) : Except Fault (TimingWheel κ) :=
  if w.size = 0 then .error .divisionByZero
  else do
    let w := { w with currentBucket := (w.currentBucket + 1) % w.size, ticks := w.ticks + 1 }
    let bucket ← w.bucketAt w.currentBucket
    if bucket ≠ [] then return order.foldl dropEntry w else return w

end TimingWheel

/-- `EventLoop::EnableIdleTimeout(seconds)`: the new `timing_wheel_`. -/
def enableIdleTimeout {κ : Type} (seconds : Int32) (undefined : ℕ) (room : Bool) : Except Fault (TimingWheel κ) :=
  TimingWheel.construct seconds undefined room

section machine

variable {κ : Type} [DecidableEq κ]

/-- One call on the loop's thread, or the end of a connection. -/
def idleStep (w : TimingWheel κ) : WheelStep κ → Except Fault (TimingWheel κ)
  | .feed c => w.feedAt true c
  | .onTimer order => w.onTimerAt order
  | .release c => .ok (w.release c)

/-- The runs of a wheel whose accesses are looked at. -/
def idleMachine (κ : Type) [DecidableEq κ] : Machine (TimingWheel κ) (WheelStep κ) Fault :=
  ⟨wheelEnabled, idleStep⟩

instance (w : TimingWheel κ) (a : WheelStep κ) : Decidable ((idleMachine κ).enabled w a) :=
  inferInstanceAs (Decidable (wheelEnabled w a))

end machine

namespace TimingWheel

variable {κ : Type}

/-- The current bucket is one of the wheel's. -/
def InRing (w : TimingWheel κ) : Prop := w.currentBucket < w.size

variable [DecidableEq κ] {w w' : TimingWheel κ}

theorem InRing.feedAt (h : w.InRing) (c : κ) : w.feedAt true c = w.feed true c := by
  have hmake : (w.make c).currentBucket < (w.make c).size := h
  unfold TimingWheel.feedAt TimingWheel.feed
  cases w.lock c with
  | none => simp [bucketAt, hmake]
  | some e => simp [bucketAt, show w.currentBucket < w.size from h]

theorem InRing.onTimerAt (h : w.InRing) {order : List ℕ}
    (horder : order.Perm (w.wheel ((w.currentBucket + 1) % w.size))) : w.onTimerAt order = .ok (w.onTimer order) := by
  have hpos : 0 < w.size := Nat.zero_lt_of_lt h
  have hlt : (w.currentBucket + 1) % w.size < w.size := Nat.mod_lt _ hpos
  unfold TimingWheel.onTimerAt TimingWheel.onTimer
  rw [if_neg hpos.ne']
  simp only [bucketAt, if_pos hlt, ok_bind]
  by_cases hempty : w.wheel ((w.currentBucket + 1) % w.size) = []
  · rw [hempty, List.perm_nil] at horder
    rw [if_neg (not_not.mpr hempty), horder]
    rfl
  · rw [if_pos hempty]
    rfl

/-- In the ring every step is the wheel's own. -/
theorem InRing.idleStep (h : w.InRing) {a : WheelStep κ} (hen : wheelEnabled w a) :
    MiniMuduo.idleStep w a = wheelStep w a := by
  cases a with
  | feed c => exact h.feedAt c
  | onTimer order => exact h.onTimerAt hen
  | release c => rfl

theorem endEntry_ring (e : ℕ) (w : TimingWheel κ) :
    (w.endEntry e).currentBucket = w.currentBucket ∧ (w.endEntry e).size = w.size := by
  rw [endEntry_eq]
  exact ⟨rfl, rfl⟩

theorem InRing.dropEntry (h : w.InRing) (e : ℕ) : (w.dropEntry e).InRing := by
  unfold InRing TimingWheel.dropEntry
  dsimp only
  split
  · exact h
  · obtain ⟨hcurrent, hsize⟩ := endEntry_ring e (w.setBucket w.currentBucket ((w.wheel w.currentBucket).erase e))
    rw [hcurrent, hsize]
    exact h

theorem InRing.dropAll (order : List ℕ) (h : w.InRing) : (order.foldl TimingWheel.dropEntry w).InRing := by
  induction order generalizing w with
  | nil => exact h
  | cons e order ih => exact ih (h.dropEntry e)

theorem InRing.step (h : w.InRing) {a : WheelStep κ} (hen : wheelEnabled w a) :
    ∃ w', MiniMuduo.idleStep w a = .ok w' ∧ w'.InRing := by
  rw [h.idleStep hen]
  cases a with
  | feed c =>
    cases hlock : w.lock c with
    | none => exact ⟨(w.make c).put c w.entries, by simp [wheelStep, feed, hlock], h⟩
    | some e => exact ⟨w.put c e, by simp [wheelStep, feed, hlock], h⟩
  | onTimer order =>
    refine ⟨_, rfl, InRing.dropAll order ?_⟩
    exact Nat.mod_lt _ (Nat.zero_lt_of_lt h)
  | release c => exact ⟨_, rfl, h⟩

end TimingWheel

open TimingWheel

/-- **The wheel is safe for every timeout but zero.** For every timeout that
`EnableIdleTimeout` accepts: whatever is fed and however often the timer ticks,
`current_bucket_ < wheel_.size()` holds and the next call neither divides by
zero nor leaves the vector, exactly when the timeout is positive, or is
negative and its undefined conversion did not give zero. -/
theorem idle_timeout_safe_iff {κ : Type} [DecidableEq κ] {seconds : Int32} {undefined : ℕ} {room : Bool}
    {w : TimingWheel κ} (hw : enableIdleTimeout seconds undefined room = .ok w) :
    (∀ (tr : List (TimingWheel κ × WheelStep κ)) (w' : TimingWheel κ), Run (idleMachine κ) w tr w' →
      w'.currentBucket < w'.size ∧ ∀ a, (idleMachine κ).enabled w' a → ∃ u, (idleMachine κ).step w' a = .ok u) ↔
      0 < seconds.toInt ∨ seconds.toInt < 0 ∧ undefined ≠ 0 := by
  have hcreate : w = create (wheelSize seconds undefined) := by
    unfold enableIdleTimeout construct at hw
    split at hw
    · cases hw
    · split at hw
      · cases hw
      · exact (Except.ok.inj hw).symm
  have hring : w.InRing ↔ 0 < seconds.toInt ∨ seconds.toInt < 0 ∧ undefined ≠ 0 := by
    have hsize : w.InRing ↔ 0 < wheelSize seconds undefined := by rw [hcreate]; rfl
    rw [hsize, wheelSize]
    split <;> omega
  rw [← hring]
  constructor
  · intro hall
    exact (hall [] w .nil).1
  · intro h tr w' hr
    have hin : w'.InRing := by
      refine hr.always (fun t a u ht hen hst => ?_) h
      obtain ⟨u', hu', hring'⟩ := ht.step hen
      obtain rfl : u' = u := Except.ok.inj (hu'.symm.trans hst)
      exact hring'
    refine ⟨hin, fun a hen => ?_⟩
    obtain ⟨u, hu, -⟩ := hin.step hen
    exact ⟨u, hu⟩

/-- Two seconds, one connection that is fed before and after a tick. -/
theorem idle_timeout_safe_two :
    let steps : List (WheelStep ℕ) := [.feed 1, .onTimer [], .feed 1, .onTimer [0]]
    let w : TimingWheel ℕ := create 2
    (final (idleMachine ℕ) w steps).currentBucket < (final (idleMachine ℕ) w steps).size :=
  have hw : enableIdleTimeout 2 0 true = .ok (create 2 : TimingWheel ℕ) := rfl
  ((idle_timeout_safe_iff hw).mpr (.inl (by decide)) _ _ (run_of_accepts _ _ (by decide +kernel))).1

/-- Zero seconds are accepted: the wheel has no bucket, `OnTimer` divides by
zero, and `Feed` leaves the vector. -/
theorem idle_timeout_zero_unsafe :
    ∃ w : TimingWheel ℕ, enableIdleTimeout 0 0 true = .ok w ∧ ¬ w.currentBucket < w.size ∧
      (idleMachine ℕ).enabled w (.onTimer []) ∧ fault? ((idleMachine ℕ).step w (.onTimer [])) = some .divisionByZero ∧
      (idleMachine ℕ).enabled w (.feed 1) ∧ fault? ((idleMachine ℕ).step w (.feed 1)) = some .outOfRange :=
  ⟨create 0, rfl, by decide, by decide +kernel, by decide +kernel, by decide +kernel, by decide +kernel⟩

end MiniMuduo
