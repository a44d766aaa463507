/-
# Disabling a channel toggles its registration

`EpollPoller::UpdateChannel` of `src/EpollPoller.cc` adds a channel that is
`kNew` or `kDeleted` without a look at its mask, and deletes a channel that is
`kAdded` when its mask is empty. So an operation that leaves `events_` empty
takes the fd out of epoll if it was there, and puts it in, with an empty mask,
if it was not (`disabling_toggles`). `TcpConnection::ConnectDestroyed` calls
`DisableAll` twice on a connection that is up, and once more after
`HandleClose`: every second one registers the fd again.

A disabling operation therefore leaves the fd out of epoll exactly when it was
in it before, and a second `DisableAll` never leaves things as they were
(`disabling_not_idempotent`).

Key definitions: `Disables`. Key theorems: `disabling_toggles`,
`disabling_not_idempotent`.
-/
import MiniMuduo.Poller

namespace MiniMuduo

open Fallible Runs

/-- The operation leaves `events_` equal to `kNoneEvent`: `DisableAll`, or
`DisableWriting` when nothing else was enabled. -/
def Disables (events : Events) : ChannelOp → Prop
  | .disableAll => True
  | .disableWriting => { events with epollOut := false } = Events.kNoneEvent
  | .enableReading | .enableWriting | .remove => False

instance (events : Events) : ∀ op, Decidable (Disables events op)
  | .disableAll => inferInstanceAs (Decidable True)
  | .disableWriting => inferInstanceAs (Decidable (_ = _))
  | .enableReading => inferInstanceAs (Decidable False)
  | .enableWriting => inferInstanceAs (Decidable False)
  | .remove => inferInstanceAs (Decidable False)

section

variable {ι : Type} {fd : ι → ℕ} {p : Poller ι}

theorem table_eq_none_iff (h : p.Mirrors fd) (i : ι) :
    p.table (fd i) = none ↔ (p.channel i).index ≠ .kAdded := by
  rw [h.entry i]
  unfold PolledChannel.entry
  split
  case isTrue hadded => simp [hadded]
  case isFalse hadded => simp [hadded]

variable [DecidableEq ι]

/-- **A disabling operation toggles.** An added channel is deleted, any other
is added; `channels_` knows the channel afterwards. -/
theorem disabling_toggles (hfd : Function.Injective fd) (h : p.Mirrors fd) {i : ι} {op : ChannelOp}
    (hop : Disables (p.channel i).events op) :
    ∃ p', pollerStep p (i, op) = .ok p' ∧ p'.Mirrors fd ∧
      p'.channel = Function.update p.channel i
        ⟨fd i, Events.kNoneEvent, if (p.channel i).index = .kAdded then .kDeleted else .kAdded⟩ := by
  have hrun : pollerStep p (i, op) = Poller.channelUpdate true i (p.setEvents i Events.kNoneEvent) := by
    cases op with
    | disableAll => rfl
    | disableWriting =>
      have hnone : { (p.channel i).events with epollOut := false } = Events.kNoneEvent := hop
      change Poller.channelUpdate true i (p.setEvents i { (p.channel i).events with epollOut := false }) = _
      rw [hnone]
    | enableReading => exact hop.elim
    | enableWriting => exact hop.elim
    | remove => exact hop.elim
  obtain ⟨p', hstep, hm, hch⟩ := Poller.updateChannel_spec hfd h i Events.kNoneEvent
  refine ⟨p', hrun.trans hstep, hm, ?_⟩
  rw [hch]
  simp

/-- What an idempotent disabling would do: after the operation the fd is not
in epoll, and a second `DisableAll` leaves the table, the index and `channels_`
as they were. -/
def DisablesOnce (i : ι) (op : ChannelOp) (p : Poller ι) : Prop :=
  ∃ p₁ p₂, pollerStep p (i, op) = .ok p₁ ∧ pollerStep p₁ (i, .disableAll) = .ok p₂ ∧
    p₁.table (p.channel i).fd = none ∧
    p₂.table = p₁.table ∧ (p₂.channel i).index = (p₁.channel i).index ∧ p₂.channels = p₁.channels

/-- **Disabling is never idempotent.** In every state that operations of the
loop's thread lead to, an operation that leaves `events_` empty leaves the fd
out of epoll exactly when the channel was added before it, and a second
`DisableAll` then changes both the entry of the fd and the index; so there is
no state in which disabling is idempotent and leaves nothing registered. -/
theorem disabling_not_idempotent (hfd : Function.Injective fd) {tr : List (Poller ι × (ι × ChannelOp))}
    (hr : Run (pollerMachine ι) (Poller.create fd) tr p) {i : ι} {op : ChannelOp}
    (hop : Disables (p.channel i).events op) :
    (∃ p₁ p₂, pollerStep p (i, op) = .ok p₁ ∧ pollerStep p₁ (i, .disableAll) = .ok p₂ ∧
      (p₁.table (fd i) = none ↔ (p.channel i).index = .kAdded) ∧
      (p₂.table (fd i) = none ↔ p₁.table (fd i) ≠ none) ∧ (p₂.channel i).index ≠ (p₁.channel i).index) ∧
    ¬ DisablesOnce i op p := by
  have h := run_mirrors hfd hr
  obtain ⟨p₁, hst₁, hm₁, hch₁⟩ := disabling_toggles hfd h hop
  have hop₁ : Disables (p₁.channel i).events .disableAll := trivial
  obtain ⟨p₂, hst₂, hm₂, hch₂⟩ := disabling_toggles hfd hm₁ hop₁
  have hindex₁ : (p₁.channel i).index = if (p.channel i).index = .kAdded then .kDeleted else .kAdded := by
    rw [hch₁, Function.update_self]
  have hindex₂ : (p₂.channel i).index = if (p₁.channel i).index = .kAdded then .kDeleted else .kAdded := by
    rw [hch₂, Function.update_self]
  have hne : (p₂.channel i).index ≠ (p₁.channel i).index := by
    rw [hindex₂]
    cases hi : (p₁.channel i).index <;> simp
  refine ⟨⟨p₁, p₂, hst₁, hst₂, ?_, ?_, hne⟩, ?_⟩
  · rw [table_eq_none_iff hm₁, hindex₁]
    by_cases hadded : (p.channel i).index = .kAdded
    · simp [hadded]
    · simp [hadded]
  · rw [Ne, table_eq_none_iff hm₁, table_eq_none_iff hm₂, hindex₂]
    cases hi : (p₁.channel i).index <;> simp
  · rintro ⟨q₁, q₂, hq₁, hq₂, -, -, hsame, -⟩
    obtain rfl : p₁ = q₁ := Except.ok.inj (hst₁.symm.trans hq₁)
    obtain rfl : p₂ = q₂ := Except.ok.inj (hst₂.symm.trans hq₂)
    exact hne hsame

/-- A channel that reads is disabled. -/
theorem disabling_not_idempotent_reader :
    let p := final (pollerMachine Unit) (Poller.create fun _ => 3) [((), .enableReading)]
    (p.channel ()).index = .kAdded ∧ ¬ DisablesOnce () .disableAll p :=
  ⟨by decide +kernel,
    (disabling_not_idempotent (fun _ _ _ => rfl) (run_of_accepts _ _ (by decide +kernel)) (by decide +kernel)).2⟩

/-- A channel that was never enabled: `DisableAll` registers its fd with an
empty mask. A channel that reads: the second `DisableAll` registers it again. -/
theorem disabling_registers :
    let start : Poller Unit := Poller.create fun _ => 3
    let fresh := final (pollerMachine Unit) start [((), .disableAll)]
    let once := final (pollerMachine Unit) start [((), .enableReading), ((), .disableAll)]
    let twice := final (pollerMachine Unit) start [((), .enableReading), ((), .disableAll), ((), .disableAll)]
    accepts (pollerMachine Unit) start [((), .disableAll)] = true ∧
      fresh.table 3 = some ⟨Events.kNoneEvent, ()⟩ ∧
      accepts (pollerMachine Unit) start [((), .enableReading), ((), .disableAll), ((), .disableAll)] = true ∧
      once.table 3 = none ∧ (once.channel ()).index = .kDeleted ∧
      twice.table 3 = some ⟨Events.kNoneEvent, ()⟩ ∧ (twice.channel ()).index = .kAdded := by
  decide +kernel

end

end MiniMuduo
