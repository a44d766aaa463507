/-
# What `channels_` remembers

`channels_` of `Poller` over the life of many channels: channels are
constructed and destroyed, and both the address of a destroyed channel and its
fd are used again. The addresses are the elements of `ι`. A channel that lives
has its fd for itself, and it is destroyed only when it is not registered.

`UpdateChannel` writes `channels_` for a new channel, and nothing erases from
it: `RemoveChannel` takes the fd out of epoll only. From the first `Remove` of
a channel that has been registered on, `hasChannel` says that it "is still in
the poller", and its destruction leaves the pointer behind. Where no such
channel is removed, `channels_` is exact (`channels_exact_iff`).

Key definitions: `ChannelMap`, `channelMapMachine`, `ChannelMap.Forgets`,
`ChannelMap.Exact`.
Key theorems: `ChannelMap.Exact.step`, `ChannelMap.Exact.remove_breaks`,
`channels_exact_iff`.
-/
import Mathlib.Data.Fintype.Defs
import Mathlib.Data.Fintype.Basic
import MiniMuduo.Poller

namespace MiniMuduo

open Fallible Runs

/-- A poller, with the channels that live and what has become of them. -/
structure ChannelMap (ι : Type) where
  poller : Poller ι
  /-- The channel that lives at an address, by the order of construction. -/
  object : ι → Option ℕ
  /-- The channels constructed so far. -/
  constructed : ℕ
  /-- The channels that have been registered and not since removed. -/
  registered : ι → Bool
  /-- The channel whose pointer `channels_` was given for an fd. -/
  stored : ℕ → ℕ

/-- What happens to the channels of a loop. -/
inductive ChannelEvent (ι : Type)
  | construct (i : ι) (fd : ℕ)
  | call (i : ι) (op : ChannelOp)
  | destroy (i : ι)
  deriving DecidableEq, Repr

namespace ChannelMap

variable {ι : Type} [DecidableEq ι]

/-- A new poller; no channel lives. -/
def create (ι : Type) : ChannelMap ι :=
  ⟨⟨fun _ => ⟨0, Events.kNoneEvent, .kNew⟩, fun _ => none, fun _ => none, []⟩, fun _ => none, 0, fun _ => false,
    fun _ => 0⟩

/-- The channel at an address that lives. -/
def Live (m : ChannelMap ι) (i : ι) : Prop := (m.object i).isSome = true

instance (m : ChannelMap ι) (i : ι) : Decidable (m.Live i) := inferInstanceAs (Decidable (_ = _))

/-- `Channel(loop, fd)` at the address `i`. -/
def construct (i : ι) (fd : ℕ) (m : ChannelMap ι) : ChannelMap ι :=
  { m with
    poller := m.poller.setChannel i ⟨fd, Events.kNoneEvent, .kNew⟩
    object := Function.update m.object i (some m.constructed)
    constructed := m.constructed + 1
    registered := Function.update m.registered i false }

/-- An operation of the channel at `i`. -/
def call (i : ι) (op : ChannelOp) (m : ChannelMap ι) : Except Fault (ChannelMap ι) := do
  let poller ← pollerStep m.poller (i, op)
  -- the one place where `channels_` is written
  let written := op ≠ .remove ∧ (m.poller.channel i).index = .kNew
  return { m with
    poller
    registered := Function.update m.registered i (op ≠ .remove)
    stored := if written then
        Function.update m.stored (m.poller.channel i).fd ((m.object i).getD 0) else m.stored }

/-- `~Channel`. -/
def destroy (i : ι) (m : ChannelMap ι) : ChannelMap ι := { m with object := Function.update m.object i none }

end ChannelMap

section machine

variable {ι : Type} [DecidableEq ι]

/-- A channel is constructed where none lives, with an fd that no other
channel has; it is destroyed when it is not registered. -/
def channelMapEnabled (m : ChannelMap ι) : ChannelEvent ι → Prop
  | .construct i fd => ¬ m.Live i ∧ ∀ j, m.Live j → (m.poller.channel j).fd ≠ fd
  | .call i op => m.Live i ∧ pollerEnabled m.poller (i, op)
  | .destroy i => m.Live i ∧ m.registered i = false

def channelMapStep (m : ChannelMap ι) : ChannelEvent ι → Except Fault (ChannelMap ι)
  | .construct i fd => .ok (m.construct i fd)
  | .call i op => m.call i op
  | .destroy i => .ok (m.destroy i)

/-- The runs of a poller whose channels come and go. -/
def channelMapMachine (ι : Type) [DecidableEq ι] : Machine (ChannelMap ι) (ChannelEvent ι) Fault :=
  ⟨channelMapEnabled, channelMapStep⟩

instance [Fintype ι] (m : ChannelMap ι) (a : ChannelEvent ι) : Decidable ((channelMapMachine ι).enabled m a) :=
  match a with
  | .construct _ _ => inferInstanceAs (Decidable (_ ∧ _))
  | .call _ _ => inferInstanceAs (Decidable (_ ∧ _))
  | .destroy _ => inferInstanceAs (Decidable (_ ∧ _))

end machine

namespace ChannelMap

variable {ι : Type} {m m' : ChannelMap ι}

section statements

variable [DecidableEq ι]

/-- `hasChannel` is true of exactly the channels registered and not removed,
and a pointer in `channels_` is that of a channel that lives. -/
structure Forgets (m : ChannelMap ι) : Prop where
  has : ∀ i, m.Live i → (m.poller.hasChannel i = true ↔ m.registered i = true)
  pointers : ∀ n i, m.poller.channels n = some i → m.object i = some (m.stored n)

/-- A `Remove` of a channel that was never registered, or anything else. -/
def Spares (m : ChannelMap ι) : ChannelEvent ι → Prop
  | .call i .remove => (m.poller.channel i).index = .kNew
  | _ => True

instance (m : ChannelMap ι) (a : ChannelEvent ι) : Decidable (m.Spares a) :=
  match a with
  | .construct _ _ => .isTrue trivial
  | .destroy _ => .isTrue trivial
  | .call _ op =>
    match op with
    | .remove => inferInstanceAs (Decidable (_ = _))
    | .enableReading => .isTrue trivial
    | .enableWriting => .isTrue trivial
    | .disableWriting => .isTrue trivial
    | .disableAll => .isTrue trivial

end statements

/-- `channels_` and the index of every channel agree with what has become of
the channels. -/
structure Exact (m : ChannelMap ι) : Prop where
  index : ∀ i, m.Live i → (m.registered i = true ↔ (m.poller.channel i).index ≠ .kNew)
  known : ∀ i, m.Live i →
    m.poller.channels (m.poller.channel i).fd = if (m.poller.channel i).index = .kNew then none else some i
  pointers : ∀ n i, m.poller.channels n = some i → m.object i = some (m.stored n) ∧ (m.poller.channel i).fd = n
  distinct : ∀ i j, m.Live i → m.Live j → (m.poller.channel i).fd = (m.poller.channel j).fd → i = j

theorem create_exact (ι : Type) : (create ι).Exact := by
  have hlive : ∀ i, ¬ (create ι).Live i := fun i h => nomatch h
  refine ⟨fun i hi => absurd hi (hlive i), fun i hi => absurd hi (hlive i), fun n i hn => ?_,
    fun i j hi => absurd hi (hlive i)⟩
  cases hn

theorem update_frame {p p' : Poller ι} {op : CtlOp} {i : ι} (h : p.update op i = .ok p') :
    p'.channel = p.channel ∧ p'.channels = p.channels := by
  unfold Poller.update at h
  dsimp only at h
  split at h
  · obtain rfl := Except.ok.inj h
    exact ⟨rfl, rfl⟩
  · split at h
    · obtain rfl := Except.ok.inj h
      exact ⟨rfl, rfl⟩
    · cases h

variable [DecidableEq ι]

theorem Exact.forgets (h : m.Exact) : m.Forgets := by
  refine ⟨fun i hi => ?_, fun n i hn => (h.pointers n i hn).1⟩
  rw [h.index i hi]
  unfold Poller.hasChannel
  rw [h.known i hi]
  split
  · simp [*]
  · simp [*]

/-! ### The steps -/

/-- `Update()` leaves a channel that is not new; `channels_` is written for a
new one. -/
theorem channelUpdate_frame {p p' : Poller ι} {i : ι} {ev : Events}
    (h : Poller.channelUpdate true i (p.setEvents i ev) = .ok p') :
    (∃ index, index ≠ .kNew ∧ p'.channel = Function.update p.channel i ⟨(p.channel i).fd, ev, index⟩) ∧
      p'.channels = if (p.channel i).index = .kNew then Function.update p.channels (p.channel i).fd (some i)
        else p.channels := by
  unfold Poller.channelUpdate at h
  rw [if_neg (by decide)] at h
  unfold Poller.updateChannel at h
  rw [if_neg (by decide)] at h
  simp only [Poller.setEvents, Poller.setChannel, Poller.setIndex, Function.update_self] at h
  cases hindex : (p.channel i).index with
  | kNew =>
    simp only [hindex, true_or, if_true, Function.update_idem] at h
    obtain ⟨hchannel, hchannels⟩ := update_frame h
    refine ⟨⟨.kAdded, by decide, ?_⟩, ?_⟩
    · rw [hchannel, Function.update_self]
    · rw [hchannels, if_pos rfl]
  | kDeleted =>
    rw [if_pos (Or.inr hindex), if_neg (by rw [hindex]; decide)] at h
    obtain ⟨hchannel, hchannels⟩ := update_frame h
    refine ⟨⟨.kAdded, by decide, ?_⟩, ?_⟩
    · rw [hchannel]
      simp only [Function.update_self, Function.update_idem]
    · rw [hchannels, if_neg (by decide)]
  | kAdded =>
    rw [if_neg (by rw [hindex]; decide)] at h
    rw [if_neg (by decide)]
    by_cases hev : ev = Events.kNoneEvent
    · rw [if_pos hev] at h
      obtain ⟨q, hq, h⟩ := bind_eq_ok h
      obtain rfl := Except.ok.inj h
      obtain ⟨hchannel, hchannels⟩ := update_frame hq
      refine ⟨⟨.kDeleted, by decide, ?_⟩, hchannels⟩
      rw [hchannel]
      simp only [Function.update_self, Function.update_idem]
    · rw [if_neg hev] at h
      obtain ⟨hchannel, hchannels⟩ := update_frame h
      refine ⟨⟨.kAdded, by decide, ?_⟩, hchannels⟩
      rw [hchannel, hindex]

theorem remove_frame {p p' : Poller ι} {i : ι} (h : p.remove true i = .ok p') :
    p'.channels = p.channels ∧ (p'.channel i).fd = (p.channel i).fd ∧
      ((p.channel i).index = .kNew → p' = p) := by
  unfold Poller.remove at h
  split at h
  swap
  · cases h
  unfold Poller.removeChannel at h
  rw [if_neg (by decide)] at h
  by_cases hadded : (p.channel i).index = .kAdded
  · rw [if_pos hadded] at h
    obtain ⟨q, hq, h⟩ := bind_eq_ok h
    obtain rfl := Except.ok.inj h
    obtain ⟨hchannel, hchannels⟩ := update_frame hq
    refine ⟨hchannels, ?_, fun hnew => ?_⟩
    · simp [Poller.setIndex, Poller.setChannel, hchannel]
    · rw [hadded] at hnew
      cases hnew
  · rw [if_neg hadded] at h
    obtain rfl := Except.ok.inj h
    exact ⟨rfl, rfl, fun _ => rfl⟩

theorem pollerStep_update (p : Poller ι) (i : ι) {op : ChannelOp} (hop : op ≠ .remove) :
    ∃ ev, pollerStep p (i, op) = Poller.channelUpdate true i (p.setEvents i ev) := by
  cases op with
  | remove => exact absurd rfl hop
  | enableReading => exact ⟨_, rfl⟩
  | enableWriting => exact ⟨_, rfl⟩
  | disableWriting => exact ⟨_, rfl⟩
  | disableAll => exact ⟨_, rfl⟩

theorem Exact.construct (h : m.Exact) {i : ι} {fd : ℕ} (hi : ¬ m.Live i)
    (hfd : ∀ j, m.Live j → (m.poller.channel j).fd ≠ fd) : (m.construct i fd).Exact := by
  have hlive : ∀ j, j ≠ i → (m.construct i fd).Live j → m.Live j := by
    intro j hj hl
    simpa [Live, ChannelMap.construct, Function.update_of_ne hj] using hl
  have hchannel : ∀ j, j ≠ i → (m.construct i fd).poller.channel j = m.poller.channel j :=
    fun j hj => Function.update_of_ne hj ..
  have hself : (m.construct i fd).poller.channel i = ⟨fd, Events.kNoneEvent, .kNew⟩ := Function.update_self ..
  -- whoever is in `channels_` lives, so it is neither here nor under this fd
  have hheld : ∀ n j, m.poller.channels n = some j → m.Live j ∧ j ≠ i := by
    intro n j hn
    have hj : m.Live j := by simp [Live, (h.pointers n j hn).1]
    exact ⟨hj, fun hji => hi (hji ▸ hj)⟩
  refine ⟨fun j hj => ?_, fun j hj => ?_, fun n j hn => ?_, fun j k hj hk hjk => ?_⟩
  · by_cases hji : j = i
    · subst hji
      rw [hself]
      simp [ChannelMap.construct]
    · rw [hchannel j hji]
      have hreg : (m.construct i fd).registered j = m.registered j := Function.update_of_ne hji ..
      rw [hreg]
      exact h.index j (hlive j hji hj)
  · by_cases hji : j = i
    · subst hji
      rw [hself, if_pos rfl]
      cases hn : m.poller.channels fd with
      | none => exact hn
      | some k => exact absurd (h.pointers fd k hn).2 (hfd k (hheld fd k hn).1)
    · rw [hchannel j hji]
      exact h.known j (hlive j hji hj)
  · obtain ⟨-, hji⟩ := hheld n j hn
    rw [hchannel j hji]
    have hobj : (m.construct i fd).object j = m.object j := Function.update_of_ne hji ..
    rw [hobj]
    exact h.pointers n j hn
  · by_cases hji : j = i
    · by_cases hki : k = i
      · rw [hji, hki]
      · rw [hji, hself, hchannel k hki] at hjk
        exact absurd hjk.symm (hfd k (hlive k hki hk))
    · by_cases hki : k = i
      · rw [hki, hself, hchannel j hji] at hjk
        exact absurd hjk (hfd j (hlive j hji hj))
      · rw [hchannel j hji, hchannel k hki] at hjk
        exact h.distinct j k (hlive j hji hj) (hlive k hki hk) hjk

/-- The end of a channel that is not registered: it is not in `channels_`. -/
theorem Exact.destroy (h : m.Exact) {i : ι} (hi : m.Live i) (hreg : m.registered i = false) :
    (m.destroy i).Exact := by
  have hnew : (m.poller.channel i).index = .kNew := by
    by_contra hne
    rw [← ne_eq, ← h.index i hi, hreg] at hne
    cases hne
  have hlive : ∀ j, (m.destroy i).Live j → m.Live j := by
    intro j hl
    by_cases hji : j = i
    · rw [hji]
      exact hi
    · simpa [Live, ChannelMap.destroy, Function.update_of_ne hji] using hl
  refine ⟨fun j hj => h.index j (hlive j hj), fun j hj => h.known j (hlive j hj), fun n j hn => ?_,
    fun j k hj hk => h.distinct j k (hlive j hj) (hlive k hk)⟩
  have hji : j ≠ i := by
    rintro rfl
    have hknown := h.known j hi
    rw [if_pos hnew, (h.pointers n j hn).2, show m.poller.channels n = some j from hn] at hknown
    cases hknown
  have hobj : (m.destroy i).object j = m.object j := Function.update_of_ne hji ..
  rw [hobj]
  exact h.pointers n j hn

theorem Exact.update (h : m.Exact) {i : ι} (hi : m.Live i) {op : ChannelOp} (hop : op ≠ .remove)
    (hst : m.call i op = .ok m') : m'.Exact := by
  unfold ChannelMap.call at hst
  obtain ⟨p, hp, hst⟩ := bind_eq_ok hst
  obtain rfl := Except.ok.inj hst
  obtain ⟨ev, hupdate⟩ := pollerStep_update m.poller i hop
  rw [hupdate] at hp
  obtain ⟨⟨index, hindex, hchannel⟩, hchannels⟩ := channelUpdate_frame hp
  have hfd : ∀ j, (p.channel j).fd = (m.poller.channel j).fd := by
    intro j
    rw [hchannel]
    by_cases hji : j = i
    · rw [hji, Function.update_self]
    · rw [Function.update_of_ne hji]
  have hother : ∀ j, j ≠ i → p.channel j = m.poller.channel j := by
    intro j hji
    rw [hchannel, Function.update_of_ne hji]
  have hself : (p.channel i).index ≠ .kNew := by
    rw [hchannel, Function.update_self]
    exact hindex
  obtain ⟨k, hk⟩ := Option.isSome_iff_exists.mp hi
  refine ⟨fun j hj => ?_, fun j hj => ?_, fun n j hn => ?_, fun j k hj hk hjk => ?_⟩
  · by_cases hji : j = i
    · rw [hji]
      simp [hop, hself]
    · dsimp only
      rw [Function.update_of_ne hji, hother j hji]
      exact h.index j hj
  · dsimp only
    rw [hfd, hchannels]
    by_cases hji : j = i
    · rw [hji, if_neg hself]
      split
      · rw [Function.update_self]
      · rw [h.known i hi, if_neg (by assumption)]
    · rw [hother j hji, ← h.known j hj]
      split
      · rw [Function.update_of_ne fun heq => hji (h.distinct j i hj hi heq)]
      · rfl
  · dsimp only at hn ⊢
    rw [hfd]
    rw [hchannels] at hn
    by_cases hnew : (m.poller.channel i).index = .kNew
    · rw [if_pos hnew] at hn
      rw [if_pos ⟨hop, hnew⟩]
      by_cases hnum : n = (m.poller.channel i).fd
      · rw [hnum, Function.update_self, Option.some.injEq] at hn
        rw [← hn, hnum, Function.update_self, hk]
        exact ⟨rfl, rfl⟩
      · rw [Function.update_of_ne hnum] at hn
        rw [Function.update_of_ne hnum]
        exact h.pointers n j hn
    · rw [if_neg hnew] at hn
      rw [if_neg fun hw => hnew hw.2]
      exact h.pointers n j hn
  · dsimp only at hjk
    rw [hfd, hfd] at hjk
    exact h.distinct j k hj hk hjk

theorem Exact.remove (h : m.Exact) {i : ι} (hi : m.Live i) (hnew : (m.poller.channel i).index = .kNew)
    (hst : m.call i .remove = .ok m') : m'.Exact := by
  unfold ChannelMap.call at hst
  obtain ⟨p, hp, hst⟩ := bind_eq_ok hst
  obtain rfl := Except.ok.inj hst
  obtain ⟨-, -, hsame⟩ := remove_frame hp
  obtain rfl := hsame hnew
  have hreg : m.registered i = false := by
    rw [← Bool.not_eq_true, h.index i hi, not_not]
    exact hnew
  have hregs : Function.update m.registered i false = m.registered := by
    rw [← hreg]
    exact Function.update_eq_self i _
  simpa [hregs] using h

/-- `Remove` of any other channel: `hasChannel` goes on to say that the
channel is there. -/
theorem Exact.remove_breaks (h : m.Exact) {i : ι} (hi : m.Live i) (hold : (m.poller.channel i).index ≠ .kNew)
    (hst : m.call i .remove = .ok m') : ¬ m'.Forgets := by
  unfold ChannelMap.call at hst
  obtain ⟨p, hp, hst⟩ := bind_eq_ok hst
  obtain rfl := Except.ok.inj hst
  obtain ⟨hchannels, hfd, -⟩ := remove_frame hp
  intro hforgets
  have hhas : p.hasChannel i = true := by
    unfold Poller.hasChannel
    rw [hfd, hchannels, h.known i hi, if_neg hold, decide_eq_true_eq]
  have hgone := (hforgets.has i hi).mp hhas
  simp at hgone

theorem Exact.step (h : m.Exact) {a : ChannelEvent ι} (hen : channelMapEnabled m a) (hspares : m.Spares a)
    (hst : channelMapStep m a = .ok m') : m'.Exact := by
  cases a with
  | construct i fd =>
    obtain rfl := Except.ok.inj hst
    exact h.construct hen.1 hen.2
  | destroy i =>
    obtain rfl := Except.ok.inj hst
    exact h.destroy hen.1 hen.2
  | call i op =>
    by_cases hop : op = .remove
    · subst hop
      exact h.remove hen.1 hspares hst
    · exact h.update hen.1 hop hst

theorem Exact.breaks (h : m.Exact) {a : ChannelEvent ι} (hen : channelMapEnabled m a) (hspares : ¬ m.Spares a)
    (hst : channelMapStep m a = .ok m') : ¬ m'.Forgets := by
  cases a with
  | construct i fd => exact absurd trivial hspares
  | destroy i => exact absurd trivial hspares
  | call i op =>
    cases op with
    | remove => exact h.remove_breaks hen.1 hspares hst
    | enableReading => exact absurd trivial hspares
    | enableWriting => exact absurd trivial hspares
    | disableWriting => exact absurd trivial hspares
    | disableAll => exact absurd trivial hspares

end ChannelMap

open ChannelMap

/-- **`channels_` is exact while no registered channel is removed.** In a run of
constructions, operations and destructions: `hasChannel` is true of exactly
the channels registered and not since removed, and `channels_` holds pointers
of living channels only, in every state, exactly when every `Remove` of the
run is one of a channel that was never registered. -/
theorem channels_exact_iff {ι : Type} [DecidableEq ι] {tr : List (ChannelMap ι × ChannelEvent ι)}
    {m : ChannelMap ι} (hr : Run (channelMapMachine ι) (ChannelMap.create ι) tr m) :
    ((∀ p ∈ tr, p.1.Forgets) ∧ m.Forgets) ↔ ∀ p ∈ tr, p.1.Spares p.2 :=
  hr.property_iff (fun _ h => h.forgets) (fun _ _ _ h hen hspares hst => h.step hen hspares hst)
    (fun _ _ _ h hen hspares hst => h.breaks hen hspares hst) (create_exact ι)

/-- A channel is registered and disabled; another is removed and destroyed
before it asked for anything, and its address and fd are used again. -/
theorem channels_exact_two :
    let events : List (ChannelEvent (Fin 2)) := [.construct 0 7, .call 0 .enableReading, .construct 1 8,
      .call 1 .remove, .destroy 1, .construct 1 8, .call 1 .enableWriting, .call 0 .disableAll]
    let m := final (channelMapMachine (Fin 2)) (ChannelMap.create (Fin 2)) events
    m.Forgets ∧ m.poller.hasChannel 0 = true ∧ m.poller.hasChannel 1 = true :=
  ⟨((channels_exact_iff (run_of_accepts _ _ (by decide +kernel))).mpr (by decide +kernel)).2,
    by decide +kernel, by decide +kernel⟩

/-- A channel is registered, disabled and removed: `hasChannel` still says
that it is there, and after its destruction its pointer is still held. A new
channel at its address and with its fd is there before it is registered. -/
theorem removed_channel_remembered :
    let events : List (ChannelEvent (Fin 1)) :=
      [.construct 0 7, .call 0 .enableReading, .call 0 .disableAll, .call 0 .remove]
    let m := final (channelMapMachine (Fin 1)) (ChannelMap.create (Fin 1)) events
    let m₁ := final (channelMapMachine (Fin 1)) m [.destroy 0]
    let m₂ := final (channelMapMachine (Fin 1)) m₁ [.construct 0 7]
    accepts (channelMapMachine (Fin 1)) (ChannelMap.create (Fin 1)) (events ++ [.destroy 0, .construct 0 7]) = true ∧
      (m.registered 0 = false ∧ m.poller.hasChannel 0 = true) ∧
      (m₁.poller.channels 7 = some 0 ∧ m₁.object 0 = none) ∧
      (m₂.registered 0 = false ∧ m₂.poller.hasChannel 0 = true) ∧
      ¬ m.Forgets ∧ ¬ m₁.Forgets ∧ ¬ m₂.Forgets := by
  intro events m m₁ m₂
  have hm : m.registered 0 = false ∧ m.poller.hasChannel 0 = true := by decide +kernel
  have hm₁ : m₁.poller.channels 7 = some 0 ∧ m₁.object 0 = none := by decide +kernel
  have hm₂ : m₂.registered 0 = false ∧ m₂.poller.hasChannel 0 = true := by decide +kernel
  refine ⟨by decide +kernel, hm, hm₁, hm₂, fun h => ?_, fun h => ?_, fun h => ?_⟩
  · have hreg := (h.has 0 (by decide +kernel)).mp hm.2
    rw [hm.1] at hreg
    cases hreg
  · have hobj := h.pointers 7 0 hm₁.1
    rw [hm₁.2] at hobj
    cases hobj
  · have hreg := (h.has 0 (by decide +kernel)).mp hm₂.2
    rw [hm₂.1] at hreg
    cases hreg

end MiniMuduo
