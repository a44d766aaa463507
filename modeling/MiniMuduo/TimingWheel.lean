/-
# TimingWheel: closing idle connections

`TimingWheel` of `src/TimingWheel.cc`, over connections of any type `κ`. An
`Entry` is a number given out once; the buckets hold the only shared
pointers to it between two calls, so it exists as long as some bucket holds
it. A connection's context is the weak pointer that `Feed` puts there:
`lock()` gives the entry while it exists. A bucket is an `unordered_set`:
the order in which `clear()` releases its entries is the environment's, an
argument of `OnTimer`. A connection may be destroyed at any time (`release`);
its entry then does nothing when it ends.

The wheel sees a feed as long as it is one of the last `N` ticks' (`Recent`):
an entry is in the buckets that were current at those feeds and ends with
the last of them, at the tick at which the feeds of its connection lapse
(`idle_timeout_exact`). `shut` logs the calls of `ShutDown`; `ticks` and `fed`
are what the proofs know of the past, and are the ticks and the feeds of the
run (`history_eq`).

Key definitions: `TimingWheel`, `TimingWheel.feed`, `TimingWheel.onTimer`,
`wheelMachine`, `ticksOf`, `feedsOf`, `Tracked`.
Key theorems: `TimingWheel.dropAll_spec`, `feed_tracked`,
`onTimer_tracked`, `idle_timeout_exact`.
-/
import Mathlib.Data.List.Nodup
import Mathlib.Logic.Function.Basic
import MiniMuduo.Fault
import MiniMuduo.Lib.Fallible
import MiniMuduo.Lib.Run
import MiniMuduo.Lib.Window

namespace MiniMuduo

open Fallible Runs Window

/-- `TimingWheel`, with the contexts of the connections it is fed. -/
structure TimingWheel (κ : Type) where
  /-- `wheel_.size()`. -/
  size : ℕ
  /-- `wheel_`: the entries of each bucket. -/
  wheel : ℕ → List ℕ
  currentBucket : ℕ
  /-- How many entries were made. -/
  entries : ℕ
  /-- `Entry::conn_`. -/
  conn : ℕ → Option κ
  /-- The `weak_ptr<Entry>` in a connection's context. -/
  context : κ → Option ℕ
  /-- The connection exists. -/
  alive : κ → Bool
  /-- How often `OnTimer` was called. -/
  ticks : ℕ
  /-- The calls of `Feed`: how many ticks there had been, and the bucket that
  was current. -/
  fed : κ → List (ℕ × ℕ)
  /-- The ticks at which an entry called `ShutDown`. -/
  shut : κ → List ℕ

namespace TimingWheel

variable {κ : Type}

/-- `TimingWheel(loop, N)`; `kTimerInterval` is one second. -/
def create (N : ℕ) : TimingWheel κ where
  size := N
  wheel := fun _ => []
  currentBucket := 0
  entries := 0
  conn := fun _ => none
  context := fun _ => none
  alive := fun _ => true
  ticks := 0
  fed := fun _ => []
  shut := fun _ => []

/-- Some bucket holds the entry: it exists. -/
def holds (w : TimingWheel κ) (e : ℕ) : Bool := (List.range w.size).any fun b => e ∈ w.wheel b

/-- `wp->lock()` on a connection's context. -/
def lock (w : TimingWheel κ) (c : κ) : Option ℕ := (w.context c).filter w.holds

/-- Change one bucket. -/
def setBucket (b : ℕ) (es : List ℕ) (w : TimingWheel κ) : TimingWheel κ :=
  { w with wheel := Function.update w.wheel b es }

variable [DecidableEq κ]

/-- `make_shared<Entry>(conn)` and its weak pointer in the context. -/
def make (c : κ) (w : TimingWheel κ) : TimingWheel κ :=
  { w with
    entries := w.entries + 1
    conn := Function.update w.conn w.entries (some c)
    context := Function.update w.context c (some w.entries) }

/-- `wheel_[current_bucket_].insert(entry)`, and the call is logged. -/
def put (c : κ) (e : ℕ) (w : TimingWheel κ) : TimingWheel κ :=
  { w.setBucket w.currentBucket ((w.wheel w.currentBucket).insert e) with
    fed := Function.update w.fed c (w.fed c ++ [(w.ticks, w.currentBucket)]) }

/-- `Feed`. -/
def feed (inLoop : Bool) (c : κ) (w : TimingWheel κ) : Except Fault (TimingWheel κ) :=
  if !inLoop then .error .notInLoopThread
  else
    match w.lock c with
    | some e => .ok (w.put c e)
    | none => .ok ((w.make c).put c w.entries)

/-- `~Entry`. -/
def endEntry (e : ℕ) (w : TimingWheel κ) : TimingWheel κ :=
  match w.conn e with
  | some c =>
    if w.alive c then
      { w with
        context := Function.update w.context c none
        shut := Function.update w.shut c (w.shut c ++ [w.ticks]) }
    else w
  | none => w

/-- The current bucket drops its pointer to an entry. -/
def dropEntry (w : TimingWheel κ) (e : ℕ) : TimingWheel κ :=
  let w := w.setBucket w.currentBucket ((w.wheel w.currentBucket).erase e)
  if w.holds e then w else w.endEntry e

/-- `OnTimer`, clearing the bucket in this order. -/
def onTimer (order : List ℕ) (w : TimingWheel κ) : TimingWheel κ :=
  order.foldl dropEntry { w with currentBucket := (w.currentBucket + 1) % w.size, ticks := w.ticks + 1 }

/-- The last reference to a connection goes. -/
def release (c : κ) (w : TimingWheel κ) : TimingWheel κ := { w with alive := Function.update w.alive c false }

end TimingWheel

/-- What happens to a wheel. -/
inductive WheelStep (κ : Type)
  | feed (c : κ)
  | onTimer (order : List ℕ)
  | release (c : κ)

section machine

variable {κ : Type} [DecidableEq κ]

/-- `Feed` takes a live connection; `clear()` releases the entries of the next
bucket in some order. -/
def wheelEnabled (w : TimingWheel κ) : WheelStep κ → Prop
  | .feed c => w.alive c = true
  | .onTimer order => order.Perm (w.wheel ((w.currentBucket + 1) % w.size))
  | .release _ => True

instance (w : TimingWheel κ) : ∀ a, Decidable (wheelEnabled w a)
  | .feed _ => inferInstanceAs (Decidable (_ = _))
  | .onTimer _ => inferInstanceAs (Decidable (List.Perm _ _))
  | .release _ => inferInstanceAs (Decidable True)

/-- One call on the loop's thread, or the end of a connection. -/
def wheelStep (w : TimingWheel κ) : WheelStep κ → Except Fault (TimingWheel κ)
  | .feed c => w.feed true c
  | .onTimer order => .ok (w.onTimer order)
  | .release c => .ok (w.release c)

/-- The runs of a wheel. -/
def wheelMachine (κ : Type) [DecidableEq κ] : Machine (TimingWheel κ) (WheelStep κ) Fault :=
  ⟨wheelEnabled, wheelStep⟩

instance (w : TimingWheel κ) (a : WheelStep κ) : Decidable ((wheelMachine κ).enabled w a) :=
  inferInstanceAs (Decidable (wheelEnabled w a))

end machine

/-! ### The past of a run -/

section history

variable {κ : Type}

/-- How often a run called `OnTimer`. -/
def ticksOf : List (TimingWheel κ × WheelStep κ) → ℕ
  | [] => 0
  | (_, .onTimer _) :: tr => ticksOf tr + 1
  | (_, .feed _) :: tr | (_, .release _) :: tr => ticksOf tr

theorem ticksOf_append (tr' : List (TimingWheel κ × WheelStep κ)) :
    ∀ tr : List (TimingWheel κ × WheelStep κ), ticksOf (tr ++ tr') = ticksOf tr + ticksOf tr'
  | [] => (Nat.zero_add _).symm
  | (_, .onTimer _) :: tr => by
    show ticksOf (tr ++ tr') + 1 = ticksOf tr + 1 + ticksOf tr'
    rw [ticksOf_append tr' tr]
    omega
  | (_, .feed _) :: tr => ticksOf_append tr' tr
  | (_, .release _) :: tr => ticksOf_append tr' tr

variable [DecidableEq κ]

/-- The calls of `Feed(c)` in a run that begins after `n` ticks: how many
ticks there had been, and the bucket that was current. -/
def feedsFrom (c : κ) : ℕ → List (TimingWheel κ × WheelStep κ) → List (ℕ × ℕ)
  | _, [] => []
  | n, (_, .onTimer _) :: tr => feedsFrom c (n + 1) tr
  | n, (w, .feed d) :: tr => if d = c then (n, w.currentBucket) :: feedsFrom c n tr else feedsFrom c n tr
  | n, (_, .release _) :: tr => feedsFrom c n tr

/-- The calls of `Feed(c)` in a run. -/
def feedsOf (c : κ) (tr : List (TimingWheel κ × WheelStep κ)) : List (ℕ × ℕ) := feedsFrom c 0 tr

theorem feedsFrom_append (c : κ) (tr' : List (TimingWheel κ × WheelStep κ)) :
    ∀ (n : ℕ) (tr : List (TimingWheel κ × WheelStep κ)),
      feedsFrom c n (tr ++ tr') = feedsFrom c n tr ++ feedsFrom c (n + ticksOf tr) tr'
  | _, [] => rfl
  | n, (_, .onTimer _) :: tr => by
    show feedsFrom c (n + 1) (tr ++ tr') = feedsFrom c (n + 1) tr ++ feedsFrom c (n + (ticksOf tr + 1)) tr'
    rw [feedsFrom_append c tr' (n + 1) tr, Nat.add_assoc, Nat.add_comm 1]
  | n, (w, .feed d) :: tr => by
    have ih := feedsFrom_append c tr' n tr
    simp only [List.cons_append, feedsFrom, ticksOf]
    by_cases hd : d = c
    · rw [if_pos hd, if_pos hd, ih, List.cons_append]
    · rw [if_neg hd, if_neg hd, ih]
  | n, (_, .release _) :: tr => feedsFrom_append c tr' n tr

end history

namespace TimingWheel

variable {κ : Type} {w : TimingWheel κ}

theorem holds_iff {e : ℕ} : w.holds e = true ↔ ∃ b, b < w.size ∧ e ∈ w.wheel b := by
  simp [holds]

/-! ### Clearing a bucket -/

/-- Another bucket than the current one holds the entry. -/
def elsewhere (w : TimingWheel κ) (e : ℕ) : Bool :=
  (List.range w.size).any fun b => b ≠ w.currentBucket && e ∈ w.wheel b

theorem elsewhere_iff {e : ℕ} :
    w.elsewhere e = true ↔ ∃ b, b < w.size ∧ b ≠ w.currentBucket ∧ e ∈ w.wheel b := by
  simp [elsewhere]

/-- An entry that the current bucket no longer holds exists elsewhere or not
at all. -/
theorem holds_erase {e : ℕ} (hnodup : (w.wheel w.currentBucket).Nodup) :
    (w.setBucket w.currentBucket ((w.wheel w.currentBucket).erase e)).holds e = w.elsewhere e := by
  rw [Bool.eq_iff_iff, holds_iff, elsewhere_iff]
  have hgone : e ∉ (w.wheel w.currentBucket).erase e := fun h => (hnodup.mem_erase_iff.mp h).1 rfl
  constructor
  · rintro ⟨b, hb, he⟩
    by_cases hcur : b = w.currentBucket
    · subst hcur
      simp only [setBucket, Function.update_self] at he
      exact absurd he hgone
    · refine ⟨b, hb, hcur, ?_⟩
      simpa [setBucket, Function.update_of_ne hcur] using he
  · rintro ⟨b, hb, hcur, he⟩
    refine ⟨b, hb, ?_⟩
    simpa [setBucket, Function.update_of_ne hcur] using he

variable [DecidableEq κ]

/-- The end of the entry shuts down `c`. -/
def shuts (w : TimingWheel κ) (c : κ) (e : ℕ) : Bool := w.conn e = some c && w.alive c

/-- What `~Entry` does, connection by connection. -/
theorem endEntry_eq (w : TimingWheel κ) (e : ℕ) :
    w.endEntry e = { w with
      context := fun c => if w.shuts c e then none else w.context c
      shut := fun c => if w.shuts c e then w.shut c ++ [w.ticks] else w.shut c } := by
  unfold endEntry
  cases hconn : w.conn e with
  | none => simp [shuts, hconn]
  | some c0 =>
    cases halive : w.alive c0 with
    | false =>
      have hno : ∀ c, w.shuts c e = false := by
        intro c
        by_cases hc : c0 = c
        · simp [shuts, ← hc, halive]
        · simp [shuts, hconn, hc]
      simp [hno, halive]
    | true =>
      have hyes : ∀ c, w.shuts c e = decide (c = c0) := by
        intro c
        by_cases hc : c = c0
        · simp [shuts, hconn, hc, halive]
        · simp [shuts, hconn, hc, Ne.symm hc]
      simp only [hyes, decide_eq_true_eq, halive, if_true]
      congr 1
      · funext c
        rw [Function.update_apply]
      · funext c
        by_cases hc : c = c0
        · simp [hc]
        · simp [hc]

/-- The entry of `c` ends when the current bucket drops it. -/
def dies (w : TimingWheel κ) (c : κ) (e : ℕ) : Bool := w.shuts c e && !w.elsewhere e

/-- What the wheel is after the current bucket was left with `bucket` and its
entries `es` were dropped. -/
def dropped (w : TimingWheel κ) (bucket es : List ℕ) : TimingWheel κ :=
  { w.setBucket w.currentBucket bucket with
    context := fun c => if es.any (w.dies c) then none else w.context c
    shut := fun c => w.shut c ++ (es.filter (w.dies c)).map fun _ => w.ticks }

/-- The current bucket drops one entry. -/
theorem dropEntry_eq {e : ℕ} (hnodup : (w.wheel w.currentBucket).Nodup) :
    w.dropEntry e = w.dropped ((w.wheel w.currentBucket).erase e) [e] := by
  have hshuts : ∀ bucket c, (w.setBucket w.currentBucket bucket).shuts c e = w.shuts c e := fun _ _ => rfl
  unfold dropEntry
  simp only [holds_erase hnodup, endEntry_eq, hshuts]
  cases helse : w.elsewhere e with
  | true => simp [dropped, dies, helse, setBucket]
  | false =>
    simp only [dropped, dies, helse, setBucket, Bool.not_false, Bool.and_true, List.any_cons, List.any_nil,
      Bool.or_false, Bool.false_eq_true, if_false]
    congr 1
    funext c
    cases hs : w.shuts c e with
    | true => simp [dies, helse, hs]
    | false => simp [dies, helse, hs]

/-- The other buckets, the owners and the lives of the connections are as
before, so the same entries end. -/
theorem dies_dropped (bucket es : List ℕ) (c : κ) (e : ℕ) : (w.dropped bucket es).dies c e = w.dies c e := by
  have helse : (w.dropped bucket es).elsewhere e = w.elsewhere e := by
    rw [Bool.eq_iff_iff, elsewhere_iff, elsewhere_iff]
    apply exists_congr
    intro b
    apply and_congr_right
    intro _
    apply and_congr_right
    intro hcur
    have hcur' : b ≠ w.currentBucket := hcur
    simp [dropped, setBucket, Function.update_of_ne hcur']
  unfold dies
  rw [helse]
  rfl

/-- The current bucket drops its entries, one after the other. -/
theorem dropAll_spec : ∀ (es : List ℕ) (w : TimingWheel κ), (w.wheel w.currentBucket).Nodup →
    es.foldl dropEntry w = w.dropped ((w.wheel w.currentBucket).diff es) es
  | [], w, _ => by simp [dropped, setBucket]
  | e :: es, w, hnodup => by
    set w1 := w.dropped ((w.wheel w.currentBucket).erase e) [e] with hw1
    have hbucket : w1.wheel w1.currentBucket = (w.wheel w.currentBucket).erase e := by
      simp [hw1, dropped, setBucket]
    have hnodup1 : (w1.wheel w1.currentBucket).Nodup := by
      rw [hbucket]
      exact hnodup.erase e
    rw [List.foldl_cons, dropEntry_eq hnodup, ← hw1, dropAll_spec es w1 hnodup1, hbucket]
    have hdies : ∀ c, w1.dies c = w.dies c := fun c => funext fun e' => dies_dropped _ _ c e'
    unfold dropped
    simp only [hdies]
    simp only [hw1, dropped, setBucket, Function.update_idem, List.diff_cons]
    congr 1
    · funext c
      cases hd : w.dies c e with
      | true => simp [hd]
      | false => simp [hd]
    · funext c
      cases hd : w.dies c e with
      | true => simp [hd]
      | false => simp [hd]

/-- The ticks at which `c` was fed. -/
def fedAt (w : TimingWheel κ) (c : κ) : Set ℕ := { f | ∃ b, (f, b) ∈ w.fed c }

end TimingWheel

/-! ### What a wheel keeps -/

/-- The ring: the current bucket follows the ticks, and what is in the
buckets, the contexts and the log was put there before. -/
structure Rolling {κ : Type} (N : ℕ) (w : TimingWheel κ) : Prop where
  size : w.size = N
  current : w.currentBucket = w.ticks % N
  nodup : ∀ b, (w.wheel b).Nodup
  made : ∀ b e, e ∈ w.wheel b → e < w.entries
  context : ∀ c e, w.context c = some e → e < w.entries
  fed : ∀ c f, f ∈ w.fed c → f.1 ≤ w.ticks ∧ f.2 = f.1 % N

/-- `e` is the one entry of `c`, in the buckets of its recent feeds. -/
structure Attached {κ : Type} (N : ℕ) (w : TimingWheel κ) (c : κ) (e : ℕ) : Prop where
  context : w.context c = some e
  conn : w.conn e = some c
  only : ∀ b e', b < N → e' ∈ w.wheel b → w.conn e' = some c → e' = e
  buckets : ∀ b, b < N → (e ∈ w.wheel b ↔ ∃ f ∈ w.fed c, w.ticks < f.1 + N ∧ f.2 = b)

/-- What holds of a connection between two calls: it has no entry and no
recent feed, or one of each. -/
structure Tracked {κ : Type} (N : ℕ) (w : TimingWheel κ) (c : κ) : Prop where
  idle : w.context c = none → (∀ b e, b < N → e ∈ w.wheel b → w.conn e ≠ some c) ∧
    ∀ f ∈ w.fed c, f.1 + N ≤ w.ticks
  busy : ∀ e, w.context c = some e → Attached N w c e ∧ ∃ f ∈ w.fed c, w.ticks < f.1 + N
  shut : ∀ k, k ∈ w.shut c ↔ k ≤ w.ticks ∧ Lapses N (w.fedAt c) k
  once : (w.shut c).Nodup

section wheel

variable {κ : Type} {N : ℕ} {w : TimingWheel κ} {c c' : κ} {e : ℕ}

theorem create_rolling (N : ℕ) : Rolling N (TimingWheel.create N : TimingWheel κ) :=
  ⟨rfl, (Nat.zero_mod N).symm, fun _ => List.nodup_nil, nofun, nofun, nofun⟩

theorem create_tracked (N : ℕ) (c : κ) : Tracked N (TimingWheel.create N) c := by
  refine ⟨fun _ => ⟨nofun, nofun⟩, nofun, fun k => ?_, List.nodup_nil⟩
  constructor
  · intro hk
    cases hk
  · rintro ⟨-, f, ⟨b, hf⟩, -⟩
    cases hf

/-! ### The next tick -/

/-- A feed drops out of the last `N` ticks when its bucket comes up. -/
theorem fed_recent (hw : Rolling N w) {f : ℕ × ℕ} (hf : f ∈ w.fed c) :
    w.ticks + 1 < f.1 + N ↔ w.ticks < f.1 + N ∧ f.2 ≠ (w.ticks + 1) % N := by
  obtain ⟨hle, hbucket⟩ := hw.fed c f hf
  have h := recent_succ_iff (N := N) hle
  unfold Recent at h
  rw [hbucket]
  constructor
  · intro hlt
    obtain ⟨⟨-, hrecent⟩, hne⟩ := h.mp ⟨by omega, hlt⟩
    exact ⟨hrecent, hne⟩
  · intro hboth
    exact (h.mpr ⟨⟨hle, hboth.1⟩, hboth.2⟩).2

theorem fedAt_le (hw : Rolling N w) : ∀ f ∈ w.fedAt c, f ≤ w.ticks := by
  rintro f ⟨b, hf⟩
  exact (hw.fed c _ hf).1

/-- The feeds of `c` lapse at the next tick when some are recent now and none
is then. -/
theorem fedAt_lapses_iff (hw : Rolling N w) : Lapses N (w.fedAt c) (w.ticks + 1) ↔
    (∃ f ∈ w.fed c, w.ticks < f.1 + N) ∧ ∀ f ∈ w.fed c, f.1 + N ≤ w.ticks + 1 := by
  rw [lapses_succ_iff (fedAt_le hw)]
  apply and_congr
  · constructor
    · rintro ⟨f, ⟨b, hf⟩, -, hrecent⟩
      exact ⟨(f, b), hf, hrecent⟩
    · rintro ⟨f, hf, hrecent⟩
      exact ⟨f.1, ⟨f.2, hf⟩, (hw.fed c f hf).1, hrecent⟩
  · constructor
    · intro hnone f hf
      have hle := (hw.fed c f hf).1
      by_contra hlt
      exact hnone f.1 ⟨f.2, hf⟩ ⟨by omega, by omega⟩
    · rintro hold f ⟨b, hf⟩ ⟨-, hrecent⟩
      have hlapsed : f + N ≤ w.ticks + 1 := hold (f, b) hf
      omega

/-- What the log of `ShutDown` calls must be after the next tick. -/
theorem shut_succ_iff {shut : List ℕ} (hshut : ∀ k, k ∈ shut ↔ k ≤ w.ticks ∧ Lapses N (w.fedAt c) k) (k : ℕ) :
    k ≤ w.ticks + 1 ∧ Lapses N (w.fedAt c) k ↔
      k ∈ shut ∨ (k = w.ticks + 1 ∧ Lapses N (w.fedAt c) (w.ticks + 1)) := by
  rw [hshut k]
  constructor
  · rintro ⟨hk, hlapse⟩
    by_cases hlast : k = w.ticks + 1
    · subst hlast
      exact .inr ⟨rfl, hlapse⟩
    · exact .inl ⟨by omega, hlapse⟩
  · rintro (⟨hk, hlapse⟩ | ⟨rfl, hlapse⟩)
    · exact ⟨by omega, hlapse⟩
    · exact ⟨Nat.le_refl _, hlapse⟩

/-- What `OnTimer` does as far as `c` sees it: the bucket that comes up is
emptied, and the entries `ends` of `c`, those in no other bucket, end. -/
structure Ticked (N : ℕ) (w : TimingWheel κ) (c : κ) (ends : List ℕ) (w' : TimingWheel κ) : Prop where
  ticks : w'.ticks = w.ticks + 1
  wheel : ∀ b e, e ∈ w'.wheel b ↔ b ≠ (w.ticks + 1) % N ∧ e ∈ w.wheel b
  conn : w'.conn = w.conn
  fed : w'.fed = w.fed
  context : w'.context c = if ends = [] then w.context c else none
  shut : w'.shut c = w.shut c ++ ends.map fun _ => w.ticks + 1
  nodup : ends.Nodup
  ends : ∀ e, e ∈ ends ↔ e ∈ w.wheel ((w.ticks + 1) % N) ∧ w.conn e = some c ∧
    ∀ b, b < N → b ≠ (w.ticks + 1) % N → e ∉ w.wheel b

namespace Ticked

variable {ends : List ℕ} {w' : TimingWheel κ}

theorem fedAt (ht : Ticked N w c ends w') : w'.fedAt c = w.fedAt c := by
  unfold TimingWheel.fedAt
  rw [ht.fed]

theorem mem_shut (ht : Ticked N w c ends w') (h : Tracked N w c)
    (hlapse : Lapses N (w.fedAt c) (w.ticks + 1) ↔ ends ≠ []) (k : ℕ) :
    k ∈ w'.shut c ↔ k ≤ w'.ticks ∧ Lapses N (w'.fedAt c) k := by
  rw [ht.ticks, ht.fedAt, shut_succ_iff h.shut k, hlapse, ht.shut, List.mem_append]
  apply or_congr_right
  rw [List.mem_map]
  constructor
  · rintro ⟨e, he, rfl⟩
    exact ⟨rfl, List.ne_nil_of_mem he⟩
  · rintro ⟨rfl, hne⟩
    obtain ⟨e, he⟩ := List.exists_mem_of_ne_nil ends hne
    exact ⟨e, he, rfl⟩

/-- No entry of `c` ends. -/
theorem shut_of_nil (ht : Ticked N w c [] w') : w'.shut c = w.shut c := by
  rw [ht.shut]
  simp

/-- A connection with no entry. -/
theorem idle (ht : Ticked N w c ends w') (hN : 1 ≤ N) (hw : Rolling N w) (h : Tracked N w c)
    (hctx : w.context c = none) : Tracked N w' c := by
  obtain ⟨hno, hold⟩ := h.idle hctx
  obtain rfl : ends = [] := by
    apply List.eq_nil_iff_forall_not_mem.mpr
    intro e he
    obtain ⟨hin, hconn, -⟩ := (ht.ends e).mp he
    exact hno _ e (Nat.mod_lt _ hN) hin hconn
  have hctx' : w'.context c = none := by
    rw [ht.context, if_pos rfl, hctx]
  have hlapse : ¬ Lapses N (w.fedAt c) (w.ticks + 1) := by
    rw [fedAt_lapses_iff hw]
    rintro ⟨⟨f, hf, hrecent⟩, -⟩
    have := hold f hf
    omega
  refine ⟨fun _ => ⟨fun b e hb he => ?_, fun f hf => ?_⟩, fun e he => ?_, ?_, ?_⟩
  · rw [ht.conn]
    exact hno b e hb ((ht.wheel b e).mp he).2
  · rw [ht.fed] at hf
    rw [ht.ticks]
    exact Nat.le_succ_of_le (hold f hf)
  · rw [hctx'] at he
    cases he
  · exact ht.mem_shut h (iff_of_false hlapse fun hne => hne rfl)
  · rw [ht.shut_of_nil]
    exact h.once

/-- A connection with a feed that stays recent: a bucket of that feed keeps
its entry. -/
theorem kept (ht : Ticked N w c ends w') (hN : 1 ≤ N) (hw : Rolling N w) (h : Tracked N w c)
    (ha : Attached N w c e) (hlater : ∃ f ∈ w.fed c, w.ticks + 1 < f.1 + N) : Tracked N w' c := by
  obtain rfl : ends = [] := by
    apply List.eq_nil_iff_forall_not_mem.mpr
    intro x hx
    obtain ⟨hin, hconn, hgone⟩ := (ht.ends x).mp hx
    obtain rfl := ha.only _ x (Nat.mod_lt _ hN) hin hconn
    obtain ⟨f, hf, hrecent⟩ := hlater
    obtain ⟨hr, hne⟩ := (fed_recent hw hf).mp hrecent
    have hb : f.2 < N := by
      rw [(hw.fed c f hf).2]
      exact Nat.mod_lt _ hN
    exact hgone f.2 hb hne ((ha.buckets f.2 hb).mpr ⟨f, hf, hr, rfl⟩)
  have hctx' : w'.context c = some e := by
    rw [ht.context, if_pos rfl, ha.context]
  have hlapse : ¬ Lapses N (w.fedAt c) (w.ticks + 1) := by
    rw [fedAt_lapses_iff hw]
    rintro ⟨-, hold⟩
    obtain ⟨f, hf, hrecent⟩ := hlater
    have := hold f hf
    omega
  refine ⟨fun hnone => ?_, fun e' he' => ?_, ?_, ?_⟩
  · rw [hctx'] at hnone
    cases hnone
  · obtain rfl : e = e' := Option.some.inj (hctx'.symm.trans he')
    refine ⟨⟨hctx', ?_, fun b x hb hx hx' => ?_, fun b hb => ?_⟩, ?_⟩
    · rw [ht.conn]
      exact ha.conn
    · rw [ht.conn] at hx'
      exact ha.only b x hb ((ht.wheel b x).mp hx).2 hx'
    · rw [ht.wheel b e, ha.buckets b hb, ht.fed, ht.ticks]
      constructor
      · rintro ⟨hne, f, hf, hr, rfl⟩
        exact ⟨f, hf, (fed_recent hw hf).mpr ⟨hr, hne⟩, rfl⟩
      · rintro ⟨f, hf, hr, rfl⟩
        obtain ⟨hr', hne⟩ := (fed_recent hw hf).mp hr
        exact ⟨hne, f, hf, hr', rfl⟩
    · rw [ht.fed, ht.ticks]
      exact hlater
  · exact ht.mem_shut h (iff_of_false hlapse fun hne => hne rfl)
  · rw [ht.shut_of_nil]
    exact h.once

/-- The last recent feed drops out: the entry ends. -/
theorem ended (ht : Ticked N w c ends w') (hN : 1 ≤ N) (hw : Rolling N w) (h : Tracked N w c)
    (ha : Attached N w c e) (hrecent : ∃ f ∈ w.fed c, w.ticks < f.1 + N)
    (hold : ∀ f ∈ w.fed c, f.1 + N ≤ w.ticks + 1) : Tracked N w' c := by
  have hcur : (w.ticks + 1) % N < N := Nat.mod_lt _ hN
  -- a recent feed in another bucket would stay recent
  have hbucket : ∀ f ∈ w.fed c, w.ticks < f.1 + N → f.2 = (w.ticks + 1) % N := by
    intro f hf hr
    by_contra hne
    have hstays := (fed_recent hw hf).mpr ⟨hr, hne⟩
    have := hold f hf
    omega
  have hgone : ∀ b, b < N → b ≠ (w.ticks + 1) % N → e ∉ w.wheel b := by
    intro b hb hne he
    obtain ⟨f, hf, hr, rfl⟩ := (ha.buckets b hb).mp he
    exact hne (hbucket f hf hr)
  obtain ⟨f0, hf0, hr0⟩ := hrecent
  have hin : e ∈ w.wheel ((w.ticks + 1) % N) := (ha.buckets _ hcur).mpr ⟨f0, hf0, hr0, hbucket f0 hf0 hr0⟩
  obtain rfl : ends = [e] := by
    apply List.perm_singleton.mp
    apply (List.perm_ext_iff_of_nodup ht.nodup (List.nodup_singleton e)).mpr
    intro x
    rw [List.mem_singleton, ht.ends x]
    constructor
    · rintro ⟨hx, hconn, -⟩
      exact ha.only _ x hcur hx hconn
    · rintro rfl
      exact ⟨hin, ha.conn, hgone⟩
  have hctx' : w'.context c = none := by
    rw [ht.context]
    rfl
  have hlapse : Lapses N (w.fedAt c) (w.ticks + 1) := (fedAt_lapses_iff hw).mpr ⟨⟨f0, hf0, hr0⟩, hold⟩
  refine ⟨fun _ => ⟨fun b x hb hx hx' => ?_, fun f hf => ?_⟩, fun e' he' => ?_, ?_, ?_⟩
  · rw [ht.conn] at hx'
    obtain ⟨hne, hx⟩ := (ht.wheel b x).mp hx
    obtain rfl := ha.only b x hb hx hx'
    exact hgone b hb hne hx
  · rw [ht.fed] at hf
    rw [ht.ticks]
    exact hold f hf
  · rw [hctx'] at he'
    cases he'
  · exact ht.mem_shut h (iff_of_true hlapse (List.cons_ne_nil e []))
  · rw [ht.shut]
    refine List.nodup_append.mpr ⟨h.once, List.nodup_singleton _, fun k hk j hj => ?_⟩
    have hle := ((h.shut k).mp hk).1
    have hj' : j = w.ticks + 1 := List.mem_singleton.mp hj
    omega

end Ticked

variable [DecidableEq κ]

/-! ### Feed -/

theorem mem_put {b e' : ℕ} : e' ∈ (w.put c e).wheel b ↔ (b = w.currentBucket ∧ e' = e) ∨ e' ∈ w.wheel b := by
  simp only [TimingWheel.put, TimingWheel.setBucket]
  by_cases hb : b = w.currentBucket
  · subst hb
    rw [Function.update_self, List.mem_insert_iff]
    simp
  · rw [Function.update_of_ne hb]
    simp [hb]

theorem put_fed : (w.put c e).fed c = w.fed c ++ [(w.ticks, w.currentBucket)] := by
  simp [TimingWheel.put]

theorem put_fed_other (hc : c' ≠ c) : (w.put c e).fed c' = w.fed c' := by
  simp [TimingWheel.put, hc]

theorem put_fedAt : (w.put c e).fedAt c = insert w.ticks (w.fedAt c) := by
  ext f
  simp only [TimingWheel.fedAt, put_fed, Set.mem_ofPred_eq, Set.mem_insert_iff, List.mem_append,
    List.mem_singleton, Prod.mk.injEq]
  constructor
  · rintro ⟨b, h | ⟨h, -⟩⟩
    · exact .inr ⟨b, h⟩
    · exact .inl h
  · rintro (h | ⟨b, h⟩)
    · exact ⟨w.currentBucket, .inr ⟨h, rfl⟩⟩
    · exact ⟨b, .inl h⟩

theorem put_rolling (h : Rolling N w) (he : e < w.entries) : Rolling N (w.put c e) := by
  refine ⟨h.size, h.current, fun b => ?_, fun b e' he' => ?_, h.context, fun c0 f hf => ?_⟩
  · simp only [TimingWheel.put, TimingWheel.setBucket]
    by_cases hb : b = w.currentBucket
    · subst hb
      rw [Function.update_self]
      exact (h.nodup _).insert
    · rw [Function.update_of_ne hb]
      exact h.nodup b
  · rcases mem_put.mp he' with ⟨-, rfl⟩ | hold
    · exact he
    · exact h.made b e' hold
  · by_cases hc : c0 = c
    · subst hc
      rw [put_fed] at hf
      rcases List.mem_append.mp hf with hold | hnew
      · exact h.fed c0 f hold
      · obtain rfl := List.mem_singleton.mp hnew
        exact ⟨Nat.le_refl _, h.current⟩
    · rw [put_fed_other hc] at hf
      exact h.fed c0 f hf

/-- The entry goes to the current bucket: `c` is tracked from now. -/
theorem put_tracked (hN : 1 ≤ N) (ha : Attached N w c e)
    (hshut : ∀ k, k ∈ w.shut c ↔ k ≤ w.ticks ∧ Lapses N (w.fedAt c) k) (honce : (w.shut c).Nodup) :
    Tracked N (w.put c e) c := by
  have hctx : (w.put c e).context c = some e := ha.context
  refine ⟨fun hnone => ?_, fun e0 he0 => ?_, fun k => ?_, honce⟩
  · rw [hctx] at hnone
    cases hnone
  · obtain rfl : e = e0 := Option.some.inj (hctx.symm.trans he0)
    refine ⟨⟨hctx, ha.conn, fun b e' hb he' hconn => ?_, fun b hb => ?_⟩, ?_⟩
    · rcases mem_put.mp he' with ⟨-, h⟩ | hold
      · exact h
      · exact ha.only b e' hb hold hconn
    · rw [mem_put, ha.buckets b hb, put_fed]
      constructor
      · rintro (⟨hcur, -⟩ | ⟨f, hf, hrecent, hfb⟩)
        · exact ⟨(w.ticks, w.currentBucket), by simp, by show w.ticks < w.ticks + N; omega, hcur.symm⟩
        · exact ⟨f, List.mem_append_left _ hf, hrecent, hfb⟩
      · rintro ⟨f, hf, hrecent, hfb⟩
        rcases List.mem_append.mp hf with hold | hnew
        · exact .inr ⟨f, hold, hrecent, hfb⟩
        · obtain rfl := List.mem_singleton.mp hnew
          exact .inl ⟨hfb.symm, rfl⟩
    · rw [put_fed]
      exact ⟨(w.ticks, w.currentBucket), by simp, by show w.ticks < w.ticks + N; omega⟩
  · rw [put_fedAt]
    show k ∈ w.shut c ↔ k ≤ w.ticks ∧ _
    rw [hshut k]
    apply and_congr_right
    intro hk
    exact (lapses_insert_iff hN hk).symm

/-- The other connections do not notice. -/
theorem put_tracked_other (hconn : w.conn e = some c) (hc : c' ≠ c) (h : Tracked N w c') :
    Tracked N (w.put c e) c' := by
  have hmem : ∀ b e', w.conn e' = some c' → (e' ∈ (w.put c e).wheel b ↔ e' ∈ w.wheel b) := by
    intro b e' he'
    have hne : e' ≠ e := by
      intro heq
      rw [heq, hconn] at he'
      exact hc (Option.some.inj he').symm
    rw [mem_put]
    simp [hne]
  have hfed := put_fed_other (w := w) (e := e) hc
  refine ⟨fun hnone => ?_, fun e0 he0 => ?_, fun k => ?_, h.once⟩
  · obtain ⟨hno, hold⟩ := h.idle hnone
    refine ⟨fun b e' hb he' hce => hno b e' hb ((hmem b e' hce).mp he') hce, ?_⟩
    rw [hfed]
    exact hold
  · obtain ⟨ha, hrecent⟩ := h.busy e0 he0
    refine ⟨⟨ha.context, ha.conn, fun b e' hb he' hce => ?_, fun b hb => ?_⟩, ?_⟩
    · exact ha.only b e' hb ((hmem b e' hce).mp he') hce
    · rw [hmem b e0 ha.conn, ha.buckets b hb, hfed]
      rfl
    · rw [hfed]
      exact hrecent
  · have hat : (w.put c e).fedAt c' = w.fedAt c' := by
      unfold TimingWheel.fedAt
      rw [hfed]
    rw [hat]
    exact h.shut k

/-- A new entry for `c`. -/
theorem make_rolling (h : Rolling N w) : Rolling N (w.make c) := by
  refine ⟨h.size, h.current, h.nodup, fun b e' he' => ?_, fun c0 e0 he0 => ?_, h.fed⟩
  · exact Nat.lt_succ_of_lt (h.made b e' he')
  · by_cases hc : c0 = c
    · subst hc
      simp only [TimingWheel.make, Function.update_self, Option.some.injEq] at he0
      subst he0
      exact Nat.lt_succ_self _
    · simp only [TimingWheel.make, Function.update_of_ne hc] at he0
      exact Nat.lt_succ_of_lt (h.context c0 e0 he0)

theorem make_conn_old (hw : Rolling N w) {b e' : ℕ} (he : e' ∈ w.wheel b) :
    (w.make c).conn e' = w.conn e' := by
  have hne : e' ≠ w.entries := Nat.ne_of_lt (hw.made b e' he)
  simp [TimingWheel.make, hne]

theorem make_attached (hw : Rolling N w) (h : Tracked N w c) (hnone : w.context c = none) :
    Attached N (w.make c) c w.entries := by
  obtain ⟨hno, hold⟩ := h.idle hnone
  refine ⟨by simp [TimingWheel.make], by simp [TimingWheel.make], fun b e' hb he' hconn => ?_, fun b hb => ?_⟩
  · rw [make_conn_old hw he'] at hconn
    exact absurd hconn (hno b e' hb he')
  · -- the entry is in no bucket, and no feed is recent
    apply iff_of_false
    · intro hmem
      exact Nat.lt_irrefl _ (hw.made b _ hmem)
    · rintro ⟨f, hf, hrecent, -⟩
      have hlapsed := hold f hf
      have hticks : (w.make c).ticks = w.ticks := rfl
      omega

theorem make_tracked_other (hw : Rolling N w) (hc : c' ≠ c) (h : Tracked N w c') :
    Tracked N (w.make c) c' := by
  have hctx : (w.make c).context c' = w.context c' := by simp [TimingWheel.make, hc]
  refine ⟨fun hnone => ?_, fun e0 he0 => ?_, h.shut, h.once⟩
  · obtain ⟨hno, hold⟩ := h.idle (hctx.symm.trans hnone)
    refine ⟨fun b e' hb he' hce => ?_, hold⟩
    rw [make_conn_old hw he'] at hce
    exact hno b e' hb he' hce
  · have hctx0 := hctx.symm.trans he0
    obtain ⟨ha, hrecent⟩ := h.busy e0 hctx0
    refine ⟨⟨he0, ?_, fun b e' hb he' hce => ?_, ha.buckets⟩, hrecent⟩
    · have hne : e0 ≠ w.entries := Nat.ne_of_lt (hw.context c' e0 hctx0)
      simp [TimingWheel.make, hne, ha.conn]
    · rw [make_conn_old hw he'] at hce
      exact ha.only b e' hb he' hce

/-- `Feed` of `c`: `c` and the other connections stay tracked. -/
theorem feed_tracked (hN : 1 ≤ N) (hw : Rolling N w) (h : Tracked N w c) {w' : TimingWheel κ}
    (hst : w.feed true c = .ok w') :
    Rolling N w' ∧ Tracked N w' c ∧ (∀ c', c' ≠ c → Tracked N w c' → Tracked N w' c') ∧
      w'.alive = w.alive := by
  simp only [TimingWheel.feed, Bool.not_true, Bool.false_eq_true, if_false] at hst
  cases hctx : w.context c with
  | some e =>
    obtain ⟨ha, f, hf, hrecent⟩ := h.busy e hctx
    -- the entry still exists
    have hholds : w.holds e = true := by
      have hb : f.2 < N := by
        rw [(hw.fed c f hf).2]
        exact Nat.mod_lt _ hN
      refine TimingWheel.holds_iff.mpr ⟨f.2, ?_, (ha.buckets f.2 hb).mpr ⟨f, hf, hrecent, rfl⟩⟩
      rw [hw.size]
      exact hb
    have hlock : w.lock c = some e := by simp [TimingWheel.lock, hctx, Option.filter, hholds]
    rw [hlock] at hst
    obtain rfl := Except.ok.inj hst
    refine ⟨put_rolling hw (hw.context c e hctx), put_tracked hN ha h.shut h.once, ?_, rfl⟩
    exact fun c' hc h' => put_tracked_other ha.conn hc h'
  | none =>
    have hlock : w.lock c = none := by simp [TimingWheel.lock, hctx]
    rw [hlock] at hst
    obtain rfl := Except.ok.inj hst
    have ha := make_attached hw h hctx
    refine ⟨put_rolling (make_rolling hw) (Nat.lt_succ_self _), put_tracked hN ha h.shut h.once, ?_, rfl⟩
    exact fun c' hc h' => put_tracked_other ha.conn hc (make_tracked_other hw hc h')

/-! ### OnTimer -/

/-- The bucket that comes up is emptied. -/
theorem onTimer_eq (hw : Rolling N w) {order : List ℕ}
    (hperm : order.Perm (w.wheel ((w.currentBucket + 1) % w.size))) :
    w.onTimer order =
      TimingWheel.dropped { w with currentBucket := (w.ticks + 1) % N, ticks := w.ticks + 1 } [] order := by
  have hcur : (w.currentBucket + 1) % w.size = (w.ticks + 1) % N := by
    rw [hw.size, hw.current, Nat.mod_add_mod]
  rw [hcur] at hperm
  have hempty : (w.wheel ((w.ticks + 1) % N)).diff order = [] := by
    apply List.eq_nil_iff_forall_not_mem.mpr
    intro e he
    obtain ⟨hin, hout⟩ := (hw.nodup _).mem_sdiff_iff.mp he
    exact hout (hperm.mem_iff.mpr hin)
  unfold TimingWheel.onTimer
  rw [hcur]
  set w1 : TimingWheel κ := { w with currentBucket := (w.ticks + 1) % N, ticks := w.ticks + 1 } with hw1
  have hbucket : w1.wheel w1.currentBucket = w.wheel ((w.ticks + 1) % N) := rfl
  have hnodup : (w1.wheel w1.currentBucket).Nodup := hw.nodup _
  rw [TimingWheel.dropAll_spec order w1 hnodup, hbucket, hempty]

theorem onTimer_rolling (hw : Rolling N w) {order : List ℕ}
    (hperm : order.Perm (w.wheel ((w.currentBucket + 1) % w.size))) : Rolling N (w.onTimer order) := by
  rw [onTimer_eq hw hperm]
  refine ⟨hw.size, rfl, fun b => ?_, fun b e he => ?_, fun c e he => ?_, fun c f hf => ?_⟩
  · simp only [TimingWheel.dropped, TimingWheel.setBucket]
    by_cases hb : b = (w.ticks + 1) % N
    · rw [hb, Function.update_self]
      exact List.nodup_nil
    · rw [Function.update_of_ne hb]
      exact hw.nodup b
  · simp only [TimingWheel.dropped, TimingWheel.setBucket] at he
    by_cases hb : b = (w.ticks + 1) % N
    · rw [hb, Function.update_self] at he
      cases he
    · rw [Function.update_of_ne hb] at he
      exact hw.made b e he
  · simp only [TimingWheel.dropped] at he
    split at he
    · cases he
    · exact hw.context c e he
  · obtain ⟨hle, hbucket⟩ := hw.fed c f hf
    exact ⟨Nat.le_succ_of_le hle, hbucket⟩

/-- `OnTimer` of a live connection. -/
theorem onTimer_ticked (hw : Rolling N w) (halive : w.alive c = true) {order : List ℕ}
    (hperm : order.Perm (w.wheel ((w.currentBucket + 1) % w.size))) :
    ∃ ends, Ticked N w c ends (w.onTimer order) := by
  have heq := onTimer_eq hw hperm
  have hcur : (w.currentBucket + 1) % w.size = (w.ticks + 1) % N := by
    rw [hw.size, hw.current, Nat.mod_add_mod]
  rw [hcur] at hperm
  set w1 : TimingWheel κ := { w with currentBucket := (w.ticks + 1) % N, ticks := w.ticks + 1 } with hw1
  have hdies : ∀ e, w1.dies c e = true ↔
      w.conn e = some c ∧ ∀ b, b < N → b ≠ (w.ticks + 1) % N → e ∉ w.wheel b := by
    intro e
    have helse : w1.elsewhere e = true ↔ ∃ b, b < N ∧ b ≠ (w.ticks + 1) % N ∧ e ∈ w.wheel b := by
      rw [TimingWheel.elsewhere_iff, show w1.size = N from hw.size]
    unfold TimingWheel.dies TimingWheel.shuts
    rw [Bool.and_eq_true, Bool.and_eq_true, Bool.not_eq_true', ← Bool.not_eq_true, helse]
    simp [hw1, halive]
  refine ⟨order.filter (w1.dies c), ?_⟩
  rw [heq]
  refine ⟨rfl, fun b e => ?_, rfl, rfl, ?_, rfl, (hperm.nodup_iff.mpr (hw.nodup _)).filter _, fun e => ?_⟩
  · simp only [TimingWheel.dropped, TimingWheel.setBucket]
    by_cases hb : b = (w.ticks + 1) % N
    · rw [hb, Function.update_self]
      simp
    · rw [Function.update_of_ne hb]
      simp [hb, hw1]
  · show (if order.any (w1.dies c) then none else w.context c) = _
    cases hany : order.any (w1.dies c) with
    | true =>
      have hne : order.filter (w1.dies c) ≠ [] := by
        obtain ⟨e, he, hd⟩ := List.any_eq_true.mp hany
        exact List.ne_nil_of_mem (List.mem_filter.mpr ⟨he, hd⟩)
      rw [if_neg hne]
      rfl
    | false =>
      have hnil : order.filter (w1.dies c) = [] := by
        rw [List.filter_eq_nil_iff]
        intro e he hd
        exact Bool.false_ne_true (hany.symm.trans (List.any_eq_true.mpr ⟨e, he, hd⟩))
      rw [if_pos hnil]
      rfl
  · rw [List.mem_filter, hdies, hperm.mem_iff]

/-- `OnTimer`: a live connection stays tracked, and is shut down when its
feeds lapse. -/
theorem onTimer_tracked (hN : 1 ≤ N) (hw : Rolling N w) (halive : w.alive c = true) (h : Tracked N w c)
    {order : List ℕ} (hperm : order.Perm (w.wheel ((w.currentBucket + 1) % w.size))) :
    Tracked N (w.onTimer order) c := by
  obtain ⟨ends, ht⟩ := onTimer_ticked hw halive hperm
  cases hctx : w.context c with
  | none => exact ht.idle hN hw h hctx
  | some e =>
    obtain ⟨ha, hrecent⟩ := h.busy e hctx
    by_cases hlater : ∃ f ∈ w.fed c, w.ticks + 1 < f.1 + N
    · exact ht.kept hN hw h ha hlater
    · refine ht.ended hN hw h ha hrecent fun f hf => ?_
      by_contra hlt
      exact hlater ⟨f, hf, by omega⟩

theorem onTimer_alive (hw : Rolling N w) {order : List ℕ}
    (hperm : order.Perm (w.wheel ((w.currentBucket + 1) % w.size))) : (w.onTimer order).alive = w.alive := by
  rw [onTimer_eq hw hperm]
  rfl

/-! ### Runs -/

/-- What `Feed` writes into the history. -/
theorem feed_history {w' : TimingWheel κ} (hst : w.feed true c = .ok w') :
    w'.ticks = w.ticks ∧ w'.fed c = w.fed c ++ [(w.ticks, w.currentBucket)] ∧ ∀ c', c' ≠ c → w'.fed c' = w.fed c' := by
  simp only [TimingWheel.feed, Bool.not_true, Bool.false_eq_true, if_false] at hst
  cases hlock : w.lock c with
  | some e =>
    rw [hlock] at hst
    obtain rfl := Except.ok.inj hst
    exact ⟨rfl, put_fed, fun c' hc => put_fed_other hc⟩
  | none =>
    rw [hlock] at hst
    obtain rfl := Except.ok.inj hst
    exact ⟨rfl, put_fed, fun c' hc => put_fed_other (w := w.make c) hc⟩

/-- The end of an entry adds nothing to the ticks and feeds. -/
theorem dropAll_history : ∀ (es : List ℕ) (w : TimingWheel κ),
    (es.foldl TimingWheel.dropEntry w).ticks = w.ticks ∧ (es.foldl TimingWheel.dropEntry w).fed = w.fed
  | [], _ => ⟨rfl, rfl⟩
  | e :: es, w => by
    have hone : (w.dropEntry e).ticks = w.ticks ∧ (w.dropEntry e).fed = w.fed := by
      unfold TimingWheel.dropEntry
      simp only [TimingWheel.endEntry_eq]
      split <;> exact ⟨rfl, rfl⟩
    obtain ⟨hticks, hfed⟩ := dropAll_history es (w.dropEntry e)
    exact ⟨hticks.trans hone.1, hfed.trans hone.2⟩

/-- The wheel's history is that of the run. -/
theorem history_eq {tr : List (TimingWheel κ × WheelStep κ)} (hr : Run (wheelMachine κ) (TimingWheel.create N) tr w)
    (c : κ) : w.ticks = ticksOf tr ∧ w.fed c = feedsOf c tr := by
  induction hr with
  | nil => exact ⟨rfl, rfl⟩
  | @snoc tr t u a _ hen hst ih =>
    obtain ⟨hticks, hfed⟩ := ih
    unfold feedsOf at hfed ⊢
    rw [ticksOf_append, feedsFrom_append, Nat.zero_add, ← hfed, ← hticks]
    cases a with
    | feed d =>
      obtain ⟨hticks', hself, hother⟩ := feed_history hst
      refine ⟨hticks', ?_⟩
      by_cases hd : d = c
      · subst hd
        simpa [feedsFrom] using hself
      · simpa [feedsFrom, hd] using hother c (Ne.symm hd)
    | onTimer order =>
      obtain rfl := Except.ok.inj hst
      obtain ⟨hticks', hfed'⟩ := dropAll_history order
        { t with currentBucket := (t.currentBucket + 1) % t.size, ticks := t.ticks + 1 }
      exact ⟨hticks', (congrFun hfed' c).trans (List.append_nil _).symm⟩
    | release d =>
      obtain rfl := Except.ok.inj hst
      exact ⟨rfl, (List.append_nil _).symm⟩

/-- What holds of a wheel between two calls. -/
structure Timing (N : ℕ) (w : TimingWheel κ) : Prop where
  rolling : Rolling N w
  tracked : ∀ c, w.alive c = true → Tracked N w c

/-- One step. -/
theorem wheelStep_timing (hN : 1 ≤ N) (h : Timing N w) {a : WheelStep κ} {w' : TimingWheel κ}
    (hen : wheelEnabled w a) (hst : wheelStep w a = .ok w') : Timing N w' := by
  cases a with
  | feed c =>
    obtain ⟨hroll, hself, hother, halive⟩ := feed_tracked hN h.rolling (h.tracked c hen) hst
    refine ⟨hroll, fun c' hc' => ?_⟩
    by_cases hc : c' = c
    · subst hc
      exact hself
    · rw [halive] at hc'
      exact hother c' hc (h.tracked c' hc')
  | onTimer order =>
    obtain rfl := Except.ok.inj hst
    refine ⟨onTimer_rolling h.rolling hen, fun c hc => ?_⟩
    rw [onTimer_alive h.rolling hen] at hc
    exact onTimer_tracked hN h.rolling hc (h.tracked c hc) hen
  | release c =>
    obtain rfl := Except.ok.inj hst
    have hroll := h.rolling
    refine ⟨⟨hroll.size, hroll.current, hroll.nodup, hroll.made, hroll.context, hroll.fed⟩, fun c' hc' => ?_⟩
    have halive : w.alive c' = true := by
      by_cases hc : c' = c
      · simp [TimingWheel.release, hc] at hc'
      · simpa [TimingWheel.release, hc] using hc'
    have ht := h.tracked c' halive
    refine ⟨ht.idle, fun e he => ?_, ht.shut, ht.once⟩
    obtain ⟨ha, hrecent⟩ := ht.busy e he
    exact ⟨⟨ha.context, ha.conn, ha.only, ha.buckets⟩, hrecent⟩

end wheel

/-- **The idle timeout is exact in ticks.** For every wheel of `N ≥ 1` buckets
and every interleaving of feeds and ticks, and every connection `c` that still
exists: the wheel has shut `c` down once at each `N`-th tick of the run after a
`Feed(c)` with no other one in between, and at no other tick; an existing
entry of `c` is the one its context refers to, and is in exactly the buckets
that were current at the calls of `Feed(c)` within the last `N` ticks; and the
context is clear exactly when there were none. -/
theorem idle_timeout_exact {κ : Type} [DecidableEq κ] {N : ℕ} (hN : 1 ≤ N)
    {tr : List (TimingWheel κ × WheelStep κ)} {w : TimingWheel κ}
    (hr : Run (wheelMachine κ) (TimingWheel.create N) tr w) {c : κ} (halive : w.alive c = true) :
    (w.shut c).Nodup ∧
      (∀ k, k ∈ w.shut c ↔ k ≤ ticksOf tr ∧
        ∃ f ∈ feedsOf c tr, k = f.1 + N ∧ ∀ g ∈ feedsOf c tr, g.1 ≤ f.1 ∨ k ≤ g.1) ∧
      (∀ e, w.holds e = true → w.conn e = some c → w.context c = some e) ∧
      (∀ e, w.context c = some e → w.holds e = true ∧ w.conn e = some c ∧
        ∀ b, b < N → (e ∈ w.wheel b ↔ ∃ f ∈ feedsOf c tr, ticksOf tr < f.1 + N ∧ f.2 = b)) ∧
      (w.context c = none ↔ ∀ f ∈ feedsOf c tr, f.1 + N ≤ ticksOf tr) := by
  have h : Timing N w := hr.always (fun _ _ _ ht hen hst => wheelStep_timing hN ht hen hst)
    ⟨create_rolling N, fun c _ => create_tracked N c⟩
  have hw := h.rolling
  have ht := h.tracked c halive
  obtain ⟨hticks, hfed⟩ := history_eq hr c
  rw [← hticks, ← hfed]
  refine ⟨ht.once, fun k => ?_, fun e he hconn => ?_, fun e he => ?_, fun hnone => (ht.idle hnone).2, fun hold => ?_⟩
  · rw [ht.shut k]
    apply and_congr_right
    intro _
    constructor
    · rintro ⟨f, ⟨b, hf⟩, hk, hlast⟩
      exact ⟨(f, b), hf, hk, fun g hg => hlast g.1 ⟨g.2, hg⟩⟩
    · rintro ⟨f, hf, hk, hlast⟩
      refine ⟨f.1, ⟨f.2, hf⟩, hk, ?_⟩
      rintro g ⟨b, hg⟩
      exact hlast (g, b) hg
  · obtain ⟨b, hb, hmem⟩ := TimingWheel.holds_iff.mp he
    rw [hw.size] at hb
    cases hctx : w.context c with
    | none => exact absurd hconn ((ht.idle hctx).1 b e hb hmem)
    | some e0 => rw [(ht.busy e0 hctx).1.only b e hb hmem hconn]
  · obtain ⟨ha, f, hf, hrecent⟩ := ht.busy e he
    have hb : f.2 < N := by
      rw [(hw.fed c f hf).2]
      exact Nat.mod_lt _ hN
    refine ⟨TimingWheel.holds_iff.mpr ⟨f.2, ?_, (ha.buckets f.2 hb).mpr ⟨f, hf, hrecent, rfl⟩⟩, ha.conn,
      ha.buckets⟩
    rw [hw.size]
    exact hb
  · cases hctx : w.context c with
    | none => rfl
    | some e =>
      obtain ⟨-, f, hf, hrecent⟩ := ht.busy e hctx
      have := hold f hf
      omega

/-- Two buckets and two connections, one fed before and after the first tick,
the other after it: both are shut down at the third tick, and the second is
fed again. -/
theorem idle_timeout_exact_two :
    let steps : List (WheelStep Bool) := [.feed true, .onTimer [], .feed true, .feed false, .onTimer [0],
      .onTimer [1, 0], .feed false]
    let w := final (wheelMachine Bool) (TimingWheel.create 2) steps
    let tr := trace (wheelMachine Bool) (TimingWheel.create 2) steps
    (accepts (wheelMachine Bool) (TimingWheel.create 2) steps = true ∧ ticksOf tr = 3 ∧
        feedsOf true tr = [(0, 0), (1, 1)] ∧ feedsOf false tr = [(1, 1), (3, 1)] ∧ w.shut true = [3] ∧
        w.shut false = [3] ∧ w.context true = none ∧ w.context false = some 2) ∧
      (3 ∈ w.shut true ↔ 3 ≤ ticksOf tr ∧
        ∃ f ∈ feedsOf true tr, 3 = f.1 + 2 ∧ ∀ g ∈ feedsOf true tr, g.1 ≤ f.1 ∨ 3 ≤ g.1) :=
  ⟨by decide +kernel,
    (idle_timeout_exact (by decide) (run_of_accepts _ _ (by decide +kernel)) (by decide +kernel)).2.1 3⟩

end MiniMuduo
