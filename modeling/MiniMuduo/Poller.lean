/-
# The poller and the kernel's table

`EpollPoller` of `src/EpollPoller.cc` with all the channels of a loop. The
channels are the elements of `ι`, each with its own fd. The kernel keeps for
an fd the mask and the `data.ptr` of the last `epoll_ctl` (`EpollEvent`), an
ADD of a present fd and a MOD or DEL of an absent one fails, and the failed
calls are logged in `failed`.

`Channel` of `MiniMuduo.Channel` is the same code for one channel with the
entry of its own fd beside it. It is what this model shows of each channel
(`Shows`): an operation on one channel does there what `Channel` says and
leaves alone what is shown of the others (`step_shows`, `step_shows_other`).

Key definitions: `Poller`, `Poller.updateChannel`, `Poller.removeChannel`,
`pollerMachine`, `Poller.Mirrors`.
Key theorems: `Poller.updateChannel_spec`, `Poller.remove_spec`,
`pollerStep_spec`, `registration_mirrors`, `step_shows`.
-/
import Mathlib.Logic.Function.Basic
import MiniMuduo.Channel
import MiniMuduo.Lib.Run

namespace MiniMuduo

open Fallible Runs

/-- `struct epoll_event`: a mask and `data.ptr`. -/
structure EpollEvent (ι : Type) where
  events : Events
  ptr : ι
  deriving DecidableEq, Repr

/-- What the poller reads and writes of a channel. -/
structure PolledChannel where
  fd : ℕ
  events : Events
  index : Index
  deriving DecidableEq, Repr

/-- A poller with its channels and the table of its epoll instance. -/
structure Poller (ι : Type) where
  channel : ι → PolledChannel
  /-- `channels_`. -/
  channels : ℕ → Option ι
  /-- The kernel's table. -/
  table : ℕ → Option (EpollEvent ι)
  /-- The calls of `epoll_ctl` that failed. -/
  failed : List (CtlOp × ℕ)

/-- `epoll_ctl`; `none` when it fails. -/
def epollCtlTable {ι : Type} (op : CtlOp) (fd : ℕ) (event : EpollEvent ι)
    (table : ℕ → Option (EpollEvent ι)) : Option (ℕ → Option (EpollEvent ι)) :=
  match op, table fd with
  | .add, none => some (Function.update table fd (some event))
  | .mod, some _ => some (Function.update table fd (some event))
  | .del, some _ => some (Function.update table fd none)
  | .add, some _ => none
  | .mod, none => none
  | .del, none => none

namespace Poller

variable {ι : Type} [DecidableEq ι]

/-- A poller whose channels have just been constructed. -/
def create (fd : ι → ℕ) : Poller ι :=
  ⟨fun i => ⟨fd i, Events.kNoneEvent, .kNew⟩, fun _ => none, fun _ => none, []⟩

/-- Change one channel. -/
def setChannel (i : ι) (ch : PolledChannel) (p : Poller ι) : Poller ι :=
  { p with channel := Function.update p.channel i ch }

/-- `set_index`. -/
def setIndex (i : ι) (index : Index) (p : Poller ι) : Poller ι :=
  p.setChannel i { p.channel i with index }

/-- `events_ = ev`. -/
def setEvents (i : ι) (ev : Events) (p : Poller ι) : Poller ι :=
  p.setChannel i { p.channel i with events := ev }

/-- `EpollPoller::Update`: a failed call aborts unless it was a DEL. -/
def update (op : CtlOp) (i : ι) (p : Poller ι) : Except Fault (Poller ι) :=
  let ch := p.channel i
  match epollCtlTable op ch.fd ⟨ch.events, i⟩ p.table with
  | some table => .ok { p with table }
  | none => if op = .del then .ok { p with failed := (op, ch.fd) :: p.failed } else .error .epollCtl

/-- `EpollPoller::UpdateChannel`. -/
def updateChannel (inLoop : Bool) (i : ι) (p : Poller ι) : Except Fault (Poller ι) :=
  if !inLoop then .error .notInLoopThread
  else
    let ch := p.channel i
    if ch.index = .kNew ∨ ch.index = .kDeleted then
      let p := if ch.index = .kNew then { p with channels := Function.update p.channels ch.fd (some i) } else p
      (p.setIndex i .kAdded).update .add i
    else if ch.events = Events.kNoneEvent then do
      let p ← p.update .del i
      return p.setIndex i .kDeleted
    else p.update .mod i

/-- `EpollPoller::RemoveChannel`. -/
def removeChannel (inLoop : Bool) (i : ι) (p : Poller ι) : Except Fault (Poller ι) :=
  if !inLoop then .error .notInLoopThread
  else if (p.channel i).index = .kAdded then do
    let p ← p.update .del i
    return p.setIndex i .kDeleted
  else .ok p

/-- `Poller::hasChannel`. -/
def hasChannel (i : ι) (p : Poller ι) : Bool := p.channels (p.channel i).fd = some i

/-! ### The operations of a channel -/

/-- `Channel::Update`, through `EventLoop::UpdateChannel`: off the loop's
thread it refuses. -/
def channelUpdate (inLoop : Bool) (i : ι) (p : Poller ι) : Except Fault (Poller ι) :=
  if !inLoop then .ok p else p.updateChannel inLoop i

def enableReading (inLoop : Bool) (i : ι) (p : Poller ι) : Except Fault (Poller ι) :=
  channelUpdate inLoop i (p.setEvents i { (p.channel i).events with epollIn := true, epollPri := true })

def enableWriting (inLoop : Bool) (i : ι) (p : Poller ι) : Except Fault (Poller ι) :=
  channelUpdate inLoop i (p.setEvents i { (p.channel i).events with epollOut := true })

def disableWriting (inLoop : Bool) (i : ι) (p : Poller ι) : Except Fault (Poller ι) :=
  channelUpdate inLoop i (p.setEvents i { (p.channel i).events with epollOut := false })

def disableAll (inLoop : Bool) (i : ι) (p : Poller ι) : Except Fault (Poller ι) :=
  channelUpdate inLoop i (p.setEvents i Events.kNoneEvent)

/-- `Channel::Remove`, through `EventLoop::RemoveChannel`. -/
def remove (inLoop : Bool) (i : ι) (p : Poller ι) : Except Fault (Poller ι) :=
  if (p.channel i).events = Events.kNoneEvent then p.removeChannel inLoop i else .error .assertion

end Poller

/-- The operations of a channel that reach the poller. -/
inductive ChannelOp
  | enableReading
  | enableWriting
  | disableWriting
  | disableAll
  | remove
  deriving DecidableEq, Repr

section machine

variable {ι : Type} [DecidableEq ι]

/-- `Remove` is called with no interest left, as it asserts. -/
def pollerEnabled (p : Poller ι) (a : ι × ChannelOp) : Prop :=
  a.2 = .remove → (p.channel a.1).events = Events.kNoneEvent

instance (p : Poller ι) (a : ι × ChannelOp) : Decidable (pollerEnabled p a) :=
  inferInstanceAs (Decidable (_ → _))

/-- One operation by the loop's thread. -/
def pollerStep (p : Poller ι) (a : ι × ChannelOp) : Except Fault (Poller ι) :=
  match a.2 with
  | .enableReading => p.enableReading true a.1
  | .enableWriting => p.enableWriting true a.1
  | .disableWriting => p.disableWriting true a.1
  | .disableAll => p.disableAll true a.1
  | .remove => p.remove true a.1

/-- The runs of a poller on its loop's thread. -/
def pollerMachine (ι : Type) [DecidableEq ι] : Machine (Poller ι) (ι × ChannelOp) Fault :=
  ⟨pollerEnabled, pollerStep⟩

instance (p : Poller ι) (a : ι × ChannelOp) : Decidable ((pollerMachine ι).enabled p a) :=
  inferInstanceAs (Decidable (pollerEnabled p a))

end machine

/-! ### The table mirrors the channels -/

/-- What the kernel should hold for the fd of channel `i`. -/
def PolledChannel.entry {ι : Type} (ch : PolledChannel) (i : ι) : Option (EpollEvent ι) :=
  if ch.index = .kAdded then some ⟨ch.events, i⟩ else none

namespace Poller

variable {ι : Type} {fd : ι → ℕ} {p : Poller ι}

/-- The kernel's table and `channels_` hold what the channels say, and no call
has failed. -/
structure Mirrors (fd : ι → ℕ) (p : Poller ι) : Prop where
  fds : ∀ i, (p.channel i).fd = fd i
  entry : ∀ i, p.table (fd i) = (p.channel i).entry i
  others : ∀ n, (∀ i, fd i ≠ n) → p.table n = none
  known : ∀ i, p.channels (fd i) = if (p.channel i).index = .kNew then none else some i
  silent : p.failed = []

theorem create_mirrors (fd : ι → ℕ) : (create fd).Mirrors fd :=
  ⟨fun _ => rfl, fun _ => rfl, fun _ _ => rfl, fun _ => rfl, rfl⟩

theorem Mirrors.known_update (h : p.Mirrors fd) {i : ι} (hi : (p.channel i).index ≠ .kNew) :
    Function.update p.channels (fd i) (some i) = p.channels := by
  rw [Function.update_eq_self_iff, h.known i, if_neg hi]

variable [DecidableEq ι]

/-- One channel changes, and with it the entries of its fd. -/
theorem Mirrors.change (hfd : Function.Injective fd) (h : p.Mirrors fd) {i : ι} {p' : Poller ι}
    {ch : PolledChannel} (hnum : ch.fd = fd i) (hch : p'.channel = Function.update p.channel i ch)
    (htable : p'.table = Function.update p.table (fd i) (ch.entry i))
    (hknown : p'.channels = Function.update p.channels (fd i) (if ch.index = .kNew then none else some i))
    (hfailed : p'.failed = p.failed) : p'.Mirrors fd := by
  refine ⟨fun j => ?_, fun j => ?_, fun n hn => ?_, fun j => ?_, hfailed.trans h.silent⟩
  · rw [hch]
    by_cases hj : j = i
    · rw [hj, Function.update_self, hnum]
    · rw [Function.update_of_ne hj, h.fds j]
  · rw [hch, htable]
    by_cases hj : j = i
    · rw [hj, Function.update_self, Function.update_self]
    · rw [Function.update_of_ne hj, Function.update_of_ne (hfd.ne hj), h.entry j]
  · rw [htable, Function.update_of_ne (Ne.symm (hn i)), h.others n hn]
  · rw [hch, hknown]
    by_cases hj : j = i
    · rw [hj, Function.update_self, Function.update_self]
    · rw [Function.update_of_ne hj, Function.update_of_ne (hfd.ne hj), h.known j]

/-- `Update()` of channel `i` after a change of its `events_`, on the loop's
thread: it makes no failing call, whatever the index. -/
theorem updateChannel_spec (hfd : Function.Injective fd) (h : p.Mirrors fd) (i : ι) (ev : Events) :
    ∃ p', channelUpdate true i (p.setEvents i ev) = .ok p' ∧ p'.Mirrors fd ∧
      p'.channel = Function.update p.channel i ⟨fd i, ev,
        if (p.channel i).index = .kAdded ∧ ev = Events.kNoneEvent then .kDeleted else .kAdded⟩ := by
  have hnum := h.fds i
  have hentry := h.entry i
  unfold PolledChannel.entry at hentry
  by_cases hadded : (p.channel i).index = .kAdded
  · -- the fd is in the table: DEL when no interest is left, else MOD
    rw [if_pos hadded] at hentry
    have hne : (p.channel i).index ≠ .kNew := by
      rw [hadded]
      decide
    have hne' : (p.channel i).index ≠ .kDeleted := by
      rw [hadded]
      decide
    have hknown := h.known_update hne
    by_cases hev : ev = Events.kNoneEvent
    · refine ⟨{ p with channel := Function.update p.channel i ⟨fd i, ev, .kDeleted⟩,
                       table := Function.update p.table (fd i) none }, ?_, ?_, ?_⟩
      · simp [channelUpdate, updateChannel, setEvents, setChannel, hadded, hev, update, epollCtlTable, hentry,
          setIndex, hnum]
      · exact h.change hfd rfl rfl rfl hknown.symm rfl
      · rw [if_pos ⟨hadded, hev⟩]
    · refine ⟨{ p with channel := Function.update p.channel i ⟨fd i, ev, .kAdded⟩,
                       table := Function.update p.table (fd i) (some ⟨ev, i⟩) }, ?_, ?_, ?_⟩
      · simp [channelUpdate, updateChannel, setEvents, setChannel, hadded, hev, update, epollCtlTable, hentry,
          hnum]
      · exact h.change hfd rfl rfl rfl hknown.symm rfl
      · rw [if_neg fun h' => hev h'.2]
  · -- the fd is absent: ADD
    rw [if_neg hadded] at hentry
    refine ⟨{ p with channel := Function.update p.channel i ⟨fd i, ev, .kAdded⟩,
                     channels := Function.update p.channels (fd i) (some i),
                     table := Function.update p.table (fd i) (some ⟨ev, i⟩) }, ?_, ?_, ?_⟩
    · cases hindex : (p.channel i).index with
      | kAdded => exact absurd hindex hadded
      | kNew =>
        simp [channelUpdate, updateChannel, setEvents, setChannel, hindex, update, epollCtlTable, hentry,
          setIndex, hnum]
      | kDeleted =>
        have hknown := h.known_update (i := i) (by rw [hindex]; decide)
        simp [channelUpdate, updateChannel, setEvents, setChannel, hindex, update, epollCtlTable, hentry,
          setIndex, hnum, hknown]
    · exact h.change hfd rfl rfl rfl rfl rfl
    · rw [if_neg fun h' => hadded h'.1]

theorem remove_spec (hfd : Function.Injective fd) (h : p.Mirrors fd) (i : ι)
    (hev : (p.channel i).events = Events.kNoneEvent) :
    ∃ p', p.remove true i = .ok p' ∧ p'.Mirrors fd ∧
      p'.channel = Function.update p.channel i { p.channel i with
        index := if (p.channel i).index = .kAdded then .kDeleted else (p.channel i).index } := by
  have hnum := h.fds i
  by_cases hadded : (p.channel i).index = .kAdded
  · have hentry := h.entry i
    unfold PolledChannel.entry at hentry
    rw [if_pos hadded] at hentry
    have hknown := h.known_update (i := i) (by rw [hadded]; decide)
    refine ⟨{ p with channel := Function.update p.channel i { p.channel i with index := .kDeleted },
                     table := Function.update p.table (fd i) none }, ?_, ?_, ?_⟩
    · simp [remove, hev, removeChannel, hadded, update, epollCtlTable, hentry, setIndex, setChannel, hnum]
    · have hnum' : ({ p.channel i with index := .kDeleted } : PolledChannel).fd = fd i := hnum
      exact h.change hfd hnum' rfl rfl hknown.symm rfl
    · rw [if_pos hadded]
  · refine ⟨p, ?_, h, ?_⟩
    · simp [remove, hev, removeChannel, hadded]
    · rw [if_neg hadded]
      exact (Function.update_eq_self i p.channel).symm

end Poller

section runs

variable {ι : Type} [DecidableEq ι] {fd : ι → ℕ} {p : Poller ι}

/-- An enabled operation makes no failing call and leaves the table mirroring
the channels; the other channels are untouched. -/
theorem pollerStep_spec (hfd : Function.Injective fd) (h : p.Mirrors fd) {a : ι × ChannelOp}
    (hen : pollerEnabled p a) :
    ∃ p', pollerStep p a = .ok p' ∧ p'.Mirrors fd ∧ ∀ j, j ≠ a.1 → p'.channel j = p.channel j := by
  have hupdate : ∀ ev, ∃ p', Poller.channelUpdate true a.1 (p.setEvents a.1 ev) = .ok p' ∧ p'.Mirrors fd ∧
      ∀ j, j ≠ a.1 → p'.channel j = p.channel j := by
    intro ev
    obtain ⟨p', hop, hm, hch⟩ := Poller.updateChannel_spec hfd h a.1 ev
    refine ⟨p', hop, hm, fun j hj => ?_⟩
    rw [hch, Function.update_of_ne hj]
  obtain ⟨i, op⟩ := a
  cases op with
  | enableReading => exact hupdate _
  | enableWriting => exact hupdate _
  | disableWriting => exact hupdate _
  | disableAll => exact hupdate _
  | remove =>
    obtain ⟨p', hop, hm, hch⟩ := Poller.remove_spec hfd h i (hen rfl)
    refine ⟨p', hop, hm, fun j hj => ?_⟩
    rw [hch, Function.update_of_ne hj]

theorem run_mirrors (hfd : Function.Injective fd) {tr : List (Poller ι × (ι × ChannelOp))}
    (hr : Run (pollerMachine ι) (Poller.create fd) tr p) : p.Mirrors fd := by
  refine hr.always (fun t a u ht hen hst => ?_) (Poller.create_mirrors fd)
  obtain ⟨u', hu, hm, -⟩ := pollerStep_spec hfd ht hen
  obtain rfl : u' = u := Except.ok.inj (hu.symm.trans hst)
  exact hm

/-- **Kernel registration mirrors the channels.** After any operations of the
loop's thread on channels with distinct fds: no call of `epoll_ctl` has
failed, and none does in the next operation; an fd is in the kernel's table
exactly when its channel's index is `kAdded`, with the channel's mask and the
channel's pointer; and no other fd is in it. -/
theorem registration_mirrors (hfd : Function.Injective fd) {tr : List (Poller ι × (ι × ChannelOp))}
    (hr : Run (pollerMachine ι) (Poller.create fd) tr p) :
    p.failed = [] ∧
      (∀ a, pollerEnabled p a → ∃ p', pollerStep p a = .ok p' ∧ p'.failed = []) ∧
      (∀ i, p.table (fd i) = if (p.channel i).index = .kAdded then some ⟨(p.channel i).events, i⟩ else none) ∧
      ∀ n, (∀ i, fd i ≠ n) → p.table n = none := by
  have h := run_mirrors hfd hr
  refine ⟨h.silent, fun a hen => ?_, h.entry, h.others⟩
  obtain ⟨p', hop, hm, -⟩ := pollerStep_spec hfd h hen
  exact ⟨p', hop, hm.silent⟩

/-- Two channels: one asks for both directions, stops writing and leaves; the
other is added with nothing to ask for, taken out and asks again. -/
theorem registration_mirrors_two :
    let ops : List (Fin 2 × ChannelOp) := [(0, .enableReading), (1, .disableAll), (0, .enableWriting),
      (1, .disableAll), (1, .remove), (0, .disableWriting), (1, .enableWriting), (0, .disableAll), (0, .remove)]
    let p := final (pollerMachine (Fin 2)) (Poller.create fun i => 7 + i.val) ops
    accepts (pollerMachine (Fin 2)) (Poller.create fun i => 7 + i.val) ops = true ∧ p.failed = [] ∧
      p.table 7 = none ∧ p.table 8 = some ⟨{ epollOut := true }, 1⟩ :=
  have hfd : Function.Injective fun i : Fin 2 => 7 + i.val := fun i j hij => Fin.ext (Nat.add_left_cancel hij)
  ⟨by decide +kernel, (registration_mirrors hfd (run_of_accepts _ _ (by decide +kernel))).1,
    by decide +kernel, by decide +kernel⟩

end runs

/-! ### One channel of the poller -/

section shows

variable {ι : Type} {fd : ι → ℕ} {p p' : Poller ι}

/-- What the poller shows of channel `i`: the channel, and the mask its fd
has in epoll. -/
structure Shows (p : Poller ι) (i : ι) (ch : Channel) : Prop where
  fd : ch.fd = (p.channel i).fd
  events : ch.events = (p.channel i).events
  index : ch.index = (p.channel i).index
  registered : ch.registered = (p.table (p.channel i).fd).map EpollEvent.events

/-- The operation on one channel. -/
def ChannelOp.run (ch : Channel) : ChannelOp → Except Fault Channel
  | .enableReading => ch.enableReading true
  | .enableWriting => ch.enableWriting true
  | .disableWriting => ch.disableWriting true
  | .disableAll => ch.disableAll true
  | .remove => ch.remove true

theorem Shows.synced (h : p.Mirrors fd) {i : ι} {ch : Channel} (hs : Shows p i ch) : ch.Synced := by
  unfold Channel.Synced
  rw [hs.registered, hs.index, hs.events, h.fds i, h.entry i]
  unfold PolledChannel.entry
  split
  · rfl
  · rfl

theorem shows_of_synced (h : p.Mirrors fd) {i : ι} {ch : Channel} (hsync : ch.Synced) (hnum : ch.fd = fd i)
    (hev : ch.events = (p.channel i).events) (hindex : ch.index = (p.channel i).index) : Shows p i ch := by
  refine ⟨hnum.trans (h.fds i).symm, hev, hindex, ?_⟩
  unfold Channel.Synced at hsync
  rw [hsync, h.fds i, h.entry i, hindex, hev]
  unfold PolledChannel.entry
  split
  · rfl
  · rfl

theorem remove_index {ch ch' : Channel} (h : ch.remove true = .ok ch') :
    ch'.index = if ch.index = .kAdded then .kDeleted else ch.index := by
  unfold Channel.remove EventLoop.removeChannel EpollPoller.removeChannel at h
  split at h
  swap
  · cases h
  rw [if_neg (by decide)] at h
  by_cases hadded : ch.index = .kAdded
  · rw [if_pos hadded] at h ⊢
    obtain ⟨ch1, -, h⟩ := bind_eq_ok h
    obtain rfl := Except.ok.inj h
    rfl
  · rw [if_neg hadded] at h ⊢
    obtain rfl := Except.ok.inj h
    rfl

variable [DecidableEq ι]

/-- An operation does to what the poller shows of its channel what it does to
a `Channel`. -/
theorem step_shows (hfd : Function.Injective fd) (h : p.Mirrors fd) {a : ι × ChannelOp}
    (hen : pollerEnabled p a) (hst : pollerStep p a = .ok p') {ch : Channel} (hs : Shows p a.1 ch) :
    ∃ ch', a.2.run ch = .ok ch' ∧ Shows p' a.1 ch' := by
  have hnum : ch.fd = fd a.1 := hs.fd.trans (h.fds a.1)
  have hupdate : ∀ ev, Poller.channelUpdate true a.1 (p.setEvents a.1 ev) = .ok p' →
      ∃ ch', EventLoop.updateChannel true { ch with events := ev } = .ok ch' ∧ Shows p' a.1 ch' := by
    intro ev hop
    obtain ⟨ch', hrun, hsync, hfd', hev, -, -, hindex⟩ := Channel.update_spec (hs.synced h) ev
    obtain ⟨p1, hop1, hm, hch⟩ := Poller.updateChannel_spec hfd h a.1 ev
    obtain rfl : p1 = p' := Except.ok.inj (hop1.symm.trans hop)
    refine ⟨ch', hrun, shows_of_synced hm hsync (hfd'.trans hnum) ?_ ?_⟩
    · rw [hev, hch, Function.update_self]
    · rw [hindex, hch, Function.update_self, hs.index]
  obtain ⟨i, op⟩ := a
  cases op with
  | enableReading =>
    have hop := hupdate _ hst
    rwa [← hs.events] at hop
  | enableWriting =>
    have hop := hupdate _ hst
    rwa [← hs.events] at hop
  | disableWriting =>
    have hop := hupdate _ hst
    rwa [← hs.events] at hop
  | disableAll => exact hupdate _ hst
  | remove =>
    have hnone := hen rfl
    obtain ⟨ch', hrun, hsync, hfd', hev, -⟩ := Channel.remove_spec (hs.synced h) (hs.events.trans hnone)
    obtain ⟨p1, hop1, hm, hch⟩ := Poller.remove_spec hfd h i hnone
    obtain rfl : p1 = p' := Except.ok.inj (hop1.symm.trans hst)
    refine ⟨ch', hrun, shows_of_synced hm hsync (hfd'.trans hnum) ?_ ?_⟩
    · rw [hev, hch, Function.update_self, hs.events]
    · rw [remove_index hrun, hch, Function.update_self, hs.index]

theorem step_shows_other (hfd : Function.Injective fd) (h : p.Mirrors fd) {a : ι × ChannelOp}
    (hen : pollerEnabled p a) (hst : pollerStep p a = .ok p') {j : ι} (hj : j ≠ a.1) {ch : Channel}
    (hs : Shows p j ch) : Shows p' j ch := by
  obtain ⟨p1, hop1, hm, hother⟩ := pollerStep_spec hfd h hen
  obtain rfl : p1 = p' := Except.ok.inj (hop1.symm.trans hst)
  have hsame := hother j hj
  apply shows_of_synced hm (hs.synced h) (hs.fd.trans (h.fds j))
  · rw [hsame, hs.events]
  · rw [hsame, hs.index]

end shows
end MiniMuduo
