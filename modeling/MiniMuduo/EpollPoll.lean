/-
# EpollPoller::Poll and its list of events

`EpollPoller::Poll` and `FillActiveChannels` of `src/EpollPoller.cc`. The list
`events_` is a vector whose size is handed to `epoll_wait` as `maxevents`.
After a call that returned events the code doubles the list when the number
of events is its *capacity*, and shrinks it to `kInitEventListSize` when they
are few. A shrunk vector keeps its capacity, so from then on a full list is
no longer at its capacity and does not grow: a `Poll` that finds the list
full makes it larger exactly when size and capacity agree before it
(`pollList_grows_iff`).

What `epoll_wait` returns and which capacity a growing vector takes is the
environment's choice. An element of the list that the kernel has not written
is `none`; its pointer is null.

Key definitions: `WaitResult`, `EventList`, `EpollPoller.poll`, `pollMachine`.
Key theorems: `EpollPoller.poll_spec`, `EpollPoller.poll_grows_iff`,
`pollList_grows_iff`.
-/
import MiniMuduo.Lib.Vec
import MiniMuduo.Lib.Word
import MiniMuduo.Poller

namespace MiniMuduo

open Fallible Runs Word

/-- What `epoll_wait` returns. -/
inductive WaitResult (ι : Type)
  | ready (events : List (EpollEvent ι))
  /-- -1, with `errno`. -/
  | failed (errno : ℕ)
  deriving DecidableEq, Repr

/-- `events_`. -/
abbrev EventList (ι : Type) := Vec (Option (EpollEvent ι))

namespace EpollPoller

variable {ι : Type}

def kInitEventListSize : ℕ := 16

/-- `events_(kInitEventListSize)`. -/
def createEvents (grown : ℕ) : EventList ι := .replicate kInitEventListSize none grown

/-- `static_cast<int>(events_.size())`. -/
def maxevents (events : EventList ι) : ℤ := int32 events.size

/-- `FillActiveChannels`: the pointers and masks of the first `numEvents`
elements. -/
def fillActiveChannels (events : EventList ι) : ℕ → Except Fault (List (EpollEvent ι))
  | 0 => .ok []
  | i + 1 => do
    let active ← fillActiveChannels events i
    match events.elems[i]? with
    | none => .error .outOfRange
    | some none => .error .useAfterFree
    | some (some event) => return active ++ [event]

/-- `events_` after a call that returned `numEvents > 0`. -/
def adapt (numEvents grown : ℕ) (events : EventList ι) : EventList ι :=
  if numEvents = events.capacity then events.resize (events.capacity * 2) none grown
  else if numEvents ≤ kInitEventListSize then events.resize kInitEventListSize none grown
  else events

/-- `EpollPoller::Poll`: the active channels with their masks, and `events_`. -/
def poll (result : WaitResult ι) (grown : ℕ) (events : EventList ι) :
    Except Fault (List (EpollEvent ι) × EventList ι) :=
  match result with
  | .failed _ => .error .epollWait
  | .ready ready =>
    let events := events.store (ready.map some)
    let numEvents := ready.length
    if 0 < numEvents then do
      let activeChannels ← fillActiveChannels events numEvents
      return (activeChannels, adapt numEvents grown events)
    else .ok ([], events)

/-- `epoll_wait` writes at most `maxevents` events, and refuses a `maxevents`
that is not positive. -/
def waits (events : EventList ι) : WaitResult ι → Prop
  | .ready ready => 0 < maxevents events ∧ (ready.length : ℤ) ≤ maxevents events
  | .failed _ => True

instance (events : EventList ι) : ∀ result, Decidable (waits events result)
  | .ready _ => inferInstanceAs (Decidable (_ ∧ _))
  | .failed _ => inferInstanceAs (Decidable True)

/-- The call filled the list: `numEvents` is the `maxevents` it passed. -/
def full (events : EventList ι) : WaitResult ι → Prop
  | .ready ready => (ready.length : ℤ) = maxevents events
  | .failed _ => False

instance (events : EventList ι) : ∀ result, Decidable (full events result)
  | .ready _ => inferInstanceAs (Decidable (_ = _))
  | .failed _ => inferInstanceAs (Decidable False)

/-! ### One call -/

/-- The list is never smaller than it began, and its size has 32 bits. -/
structure Sized (events : EventList ι) : Prop where
  init_le : kInitEventListSize ≤ events.size
  lt : events.size < 0x100000000

theorem createEvents_sized (grown : ℕ) : Sized (createEvents grown : EventList ι) := by
  constructor
  · simp [createEvents]
  · simp [createEvents, kInitEventListSize]

/-- A positive `maxevents` is the size. -/
theorem maxevents_eq {events : EventList ι} (h : Sized events) (hpos : 0 < maxevents events) :
    maxevents events = events.size ∧ events.size < 0x80000000 := by
  have hlt := h.lt
  unfold maxevents int32 at hpos ⊢
  rw [Int.bmod_def] at hpos ⊢
  split at hpos <;> split <;> omega

theorem fillActiveChannels_store {events : EventList ι} {ready : List (EpollEvent ι)}
    (hfit : ready.length ≤ events.size) : ∀ n ≤ ready.length,
    fillActiveChannels (events.store (ready.map some)) n = .ok (ready.take n)
  | 0, _ => by simp [fillActiveChannels]
  | n + 1, hn => by
    have hlt : n < ready.length := hn
    have hread : (events.store (ready.map some)).elems[n]? = some (some ready[n]) := by
      rw [Vec.getElem?_store (by simpa using hfit) (by simpa using hlt), List.getElem?_map,
        List.getElem?_eq_getElem hlt]
      rfl
    unfold fillActiveChannels
    rw [fillActiveChannels_store hfit n (by omega), ok_bind, hread, List.take_add_one,
      List.getElem?_eq_getElem hlt]
    rfl

theorem adapt_size (n grown : ℕ) (events : EventList ι) :
    (adapt n grown events).size =
      if n = events.capacity then events.capacity * 2
      else if n ≤ kInitEventListSize then kInitEventListSize else events.size := by
  unfold adapt
  split
  · exact Vec.size_resize ..
  · split
    · exact Vec.size_resize ..
    · rfl

/-- A `Poll` reads only what the kernel wrote: it gives the ready channels. -/
theorem poll_spec {events : EventList ι} (h : Sized events) {ready : List (EpollEvent ι)}
    (hw : waits events (.ready ready)) (grown : ℕ) :
    ∃ events', poll (.ready ready) grown events = .ok (ready, events') ∧ Sized events' ∧
      events'.size = if 0 < ready.length then
        (if ready.length = events.capacity then events.capacity * 2
          else if ready.length ≤ kInitEventListSize then kInitEventListSize else events.size)
        else events.size := by
  obtain ⟨hpos, hle⟩ := hw
  obtain ⟨hmax, hlt⟩ := maxevents_eq h hpos
  have hfit : ready.length ≤ events.size := by omega
  have hinit := h.init_le
  unfold poll
  by_cases hn : 0 < ready.length
  · simp only [if_pos hn, fillActiveChannels_store hfit _ (Nat.le_refl _), ok_bind, pure_eq_ok, List.take_length]
    have hsize := adapt_size ready.length grown (events.store (ready.map some))
    rw [Vec.capacity_store, Vec.size_store] at hsize
    refine ⟨_, rfl, ⟨?_, ?_⟩, hsize⟩
    · rw [hsize]
      have hcap := events.size_le
      split
      · omega
      · split <;> omega
    · rw [hsize]
      have hk : kInitEventListSize = 16 := rfl
      split
      · omega
      · split <;> omega
  · simp only [if_neg hn]
    have hnil : ready = [] := List.length_eq_zero_iff.mp (by omega)
    refine ⟨_, by rw [hnil], ⟨?_, ?_⟩, ?_⟩ <;> rw [Vec.size_store]
    · exact hinit
    · exact h.lt

/-- **A full list grows exactly when it is at its capacity.** -/
theorem poll_grows_iff {events events' : EventList ι} (h : Sized events) {result : WaitResult ι} {grown : ℕ}
    {active : List (EpollEvent ι)} (hw : waits events result) (hfull : full events result)
    (hpoll : poll result grown events = .ok (active, events')) :
    events.size < events'.size ↔ events.size = events.capacity := by
  cases result with
  | failed errno => exact absurd hfull (by simp [full])
  | ready ready =>
    obtain ⟨events'', hpoll', -, hsize⟩ := poll_spec h hw grown
    obtain rfl : events'' = events' := congrArg Prod.snd (Except.ok.inj (hpoll'.symm.trans hpoll))
    obtain ⟨hpos, -⟩ := hw
    obtain ⟨hmax, -⟩ := maxevents_eq h hpos
    have hlen : ready.length = events.size := by
      have hfull' : (ready.length : ℤ) = maxevents events := hfull
      omega
    have hinit := h.init_le
    have hcap := events.size_le
    have hk : kInitEventListSize = 16 := rfl
    rw [hlen, if_pos (by omega)] at hsize
    rw [hsize]
    split
    · omega
    · split <;> omega

end EpollPoller

/-! ### The life of a poller -/

section

variable {ι : Type}

open EpollPoller

/-- The calls of `Poll` on a poller: what `epoll_wait` returns, and the
capacity a growing `events_` takes. -/
def pollMachine (ι : Type) : Machine (EventList ι) (WaitResult ι × ℕ) Fault where
  enabled events a := waits events a.1
  step events a := do
    let (_, events) ← poll a.1 a.2 events
    return events

instance (events : EventList ι) (a : WaitResult ι × ℕ) : Decidable ((pollMachine ι).enabled events a) :=
  inferInstanceAs (Decidable (waits events a.1))

theorem pollMachine_step {events events' : EventList ι} {a : WaitResult ι × ℕ}
    (hst : (pollMachine ι).step events a = .ok events') :
    ∃ active, poll a.1 a.2 events = .ok (active, events') := by
  obtain ⟨⟨active, events1⟩, hpoll, hst⟩ := bind_eq_ok hst
  obtain rfl : events1 = events' := Except.ok.inj hst
  exact ⟨active, hpoll⟩

theorem sized_step {events events' : EventList ι} {a : WaitResult ι × ℕ} (h : Sized events)
    (hen : (pollMachine ι).enabled events a) (hst : (pollMachine ι).step events a = .ok events') :
    Sized events' := by
  obtain ⟨active, hpoll⟩ := pollMachine_step hst
  obtain ⟨result, grown⟩ := a
  cases result with
  | failed errno => cases hpoll
  | ready ready =>
    obtain ⟨events'', hpoll', hsized, -⟩ := poll_spec h hen grown
    obtain rfl : events'' = events' := congrArg Prod.snd (Except.ok.inj (hpoll'.symm.trans hpoll))
    exact hsized

/-- The call leaves the list larger for the next. -/
def Enlarges (events : EventList ι) (a : WaitResult ι × ℕ) : Prop :=
  ∀ active events', poll a.1 a.2 events = .ok (active, events') → events.size < events'.size

/-- What every life of a poller keeps. -/
theorem sized_run {grown : ℕ} {tr : List (EventList ι × (WaitResult ι × ℕ))} {events : EventList ι}
    (hr : Run (pollMachine ι) (createEvents grown) tr events) : Sized events ∧ ∀ p ∈ tr, Sized p.1 := by
  have hstep : ∀ (t : EventList ι) a u, Sized t → (pollMachine ι).enabled t a → True →
      (pollMachine ι).step t a = .ok u → Sized u := by
    intro t a u ht hen _ hst
    exact sized_step ht hen hst
  have hstart : Sized (createEvents grown : EventList ι) := createEvents_sized grown
  exact ⟨hr.invariant hstep hstart fun _ _ => trivial, hr.invariant_trace hstep hstart fun _ _ => trivial⟩

/-- In a run, a list that was full grows exactly when it was at its capacity. -/
theorem enlarges_iff {grown : ℕ} {tr : List (EventList ι × (WaitResult ι × ℕ))} {events : EventList ι}
    (hr : Run (pollMachine ι) (createEvents grown) tr events) :
    ∀ p ∈ tr, full p.1 p.2.1 → (Enlarges p.1 p.2 ↔ p.1.size = p.1.capacity) := by
  obtain ⟨-, hway⟩ := sized_run hr
  intro p hp hfull
  obtain ⟨hen, events', hst⟩ := hr.taken p hp
  obtain ⟨active, hpoll⟩ := pollMachine_step hst
  have hgrows := poll_grows_iff (hway p hp) hen hfull hpoll
  refine ⟨fun h => hgrows.mp (h active events' hpoll), ?_⟩
  intro hcap active' events'' hpoll'
  obtain ⟨-, rfl⟩ := Prod.mk.inj (Except.ok.inj (hpoll.symm.trans hpoll'))
  exact hgrows.mpr hcap

/-- **The poll list grows, if it was at its capacity.** In every life of a
poller: the list never has fewer than `kInitEventListSize` elements;
`FillActiveChannels` stays inside the list and gives the channels that are
ready; and every `Poll` that filled the list leaves it larger exactly when
every such `Poll` found size and capacity equal. -/
theorem pollList_grows_iff {grown : ℕ} {tr : List (EventList ι × (WaitResult ι × ℕ))} {events : EventList ι}
    (hr : Run (pollMachine ι) (createEvents grown) tr events) :
    (kInitEventListSize ≤ events.size ∧ ∀ p ∈ tr, kInitEventListSize ≤ p.1.size) ∧
    (∀ ready grown', waits events (.ready ready) →
      ∃ events', poll (.ready ready) grown' events = .ok (ready, events')) ∧
    ((∀ p ∈ tr, full p.1 p.2.1 → Enlarges p.1 p.2) ↔
      ∀ p ∈ tr, full p.1 p.2.1 → p.1.size = p.1.capacity) := by
  obtain ⟨hend, hway⟩ := sized_run hr
  have hiff := enlarges_iff hr
  refine ⟨⟨hend.init_le, fun p hp => (hway p hp).init_le⟩, ?_, ?_, ?_⟩
  · intro ready grown' hw
    obtain ⟨events', hpoll, -⟩ := poll_spec hend hw grown'
    exact ⟨events', hpoll⟩
  · intro h p hp hfull
    exact (hiff p hp hfull).mp (h p hp hfull)
  · intro h p hp hfull
    exact (hiff p hp hfull).mpr (h p hp hfull)

/-- Sixteen events, then the thirty-two that the grown list holds. -/
theorem pollList_grows_twice :
    let event : EpollEvent ℕ := ⟨{ epollIn := true }, 5⟩
    let polls : List (WaitResult ℕ × ℕ) :=
      [(.ready (List.replicate 16 event), 32), (.ready (List.replicate 32 event), 64)]
    let start : EventList ℕ := createEvents 16
    (final (pollMachine ℕ) start polls).size = 64 ∧
      ∀ p ∈ trace (pollMachine ℕ) start polls, full p.1 p.2.1 → Enlarges p.1 p.2 :=
  ⟨by decide +kernel,
    (pollList_grows_iff (run_of_accepts _ _ (by decide +kernel))).2.2.mpr (by decide +kernel)⟩

/-- Sixteen events grow the list to 32, one event shrinks it to 16 again. The
next sixteen fill it, and it stays at 16. -/
theorem pollList_stays_full :
    let event : EpollEvent ℕ := ⟨{ epollIn := true }, 5⟩
    let polls : List (WaitResult ℕ × ℕ) :=
      [(.ready (List.replicate 16 event), 32), (.ready [event], 0), (.ready (List.replicate 16 event), 0)]
    let start : EventList ℕ := createEvents 16
    Run (pollMachine ℕ) start (trace (pollMachine ℕ) start polls) (final (pollMachine ℕ) start polls) ∧
      ¬ ∀ p ∈ trace (pollMachine ℕ) start polls, full p.1 p.2.1 → Enlarges p.1 p.2 := by
  intro event polls start
  have hr : Run (pollMachine ℕ) start (trace (pollMachine ℕ) start polls) (final (pollMachine ℕ) start polls) :=
    run_of_accepts _ _ (by decide +kernel)
  refine ⟨hr, fun h => ?_⟩
  have hcap : ∀ p ∈ trace (pollMachine ℕ) start polls, full p.1 p.2.1 → p.1.size = p.1.capacity :=
    fun p hp hfull => (enlarges_iff hr p hp hfull).mp (h p hp hfull)
  revert hcap
  decide +kernel

end

end MiniMuduo
