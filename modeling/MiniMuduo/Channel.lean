/-
# Channel and its entry in epoll

`Channel` of `include/mini_muduo/Channel.h` and `src/Channel.cc`, with what
`EventLoop::UpdateChannel`, `EventLoop::RemoveChannel` and `EpollPoller` do
for it. A channel is the only one to register its fd, so the model keeps the
epoll entry of the fd beside it (`registered`): `epoll_ctl` fails on an ADD
of a present fd and on a MOD or DEL of an absent one, and `EpollPoller::Update`
aborts unless it was a DEL.

`Channel::events_` and the masks of epoll are sets of named bits (`Events`);
the code uses no other bits. `inLoop` is `IsInLoopThread()` of the calling
thread: off the loop's thread an update is refused with a log line and a
removal aborts.

Key definitions: `Events`, `Channel`, `EpollPoller.updateChannel`,
`Channel.Synced`. Key theorems: `Channel.update_spec`, `Channel.remove_spec`.
-/
import MiniMuduo.Fault
import MiniMuduo.Lib.Fallible

namespace MiniMuduo

open Fallible

/-- A set of epoll bits. -/
structure Events where
  epollIn : Bool := false
  epollPri : Bool := false
  epollOut : Bool := false
  epollErr : Bool := false
  epollHup : Bool := false
  epollRdhup : Bool := false
  deriving DecidableEq, Repr

namespace Events

/-- `kNoneEvent`. -/
def kNoneEvent : Events := {}

/-- A ready mask that epoll can report for an fd registered with `interest`:
the bits asked for, and EPOLLERR and EPOLLHUP in any case. -/
structure Within (mask interest : Events) : Prop where
  epollIn : mask.epollIn = true → interest.epollIn = true
  epollPri : mask.epollPri = true → interest.epollPri = true
  epollOut : mask.epollOut = true → interest.epollOut = true
  epollRdhup : mask.epollRdhup = true → interest.epollRdhup = true

instance (mask interest : Events) : Decidable (mask.Within interest) :=
  decidable_of_iff
    ((mask.epollIn = true → interest.epollIn = true) ∧ (mask.epollPri = true → interest.epollPri = true) ∧
      (mask.epollOut = true → interest.epollOut = true) ∧ (mask.epollRdhup = true → interest.epollRdhup = true))
    ⟨fun ⟨a, b, c, d⟩ => ⟨a, b, c, d⟩, fun ⟨a, b, c, d⟩ => ⟨a, b, c, d⟩⟩

end Events

/-- `kNew`, `kAdded`, `kDeleted` of `src/EpollPoller.cc`. -/
inductive Index
  | kNew
  | kAdded
  | kDeleted
  deriving DecidableEq, Repr

/-- `Channel`, and the entry of its fd in epoll. -/
structure Channel where
  fd : ℕ
  events : Events
  revents : Events
  index : Index
  tied : Bool
  registered : Option Events
  deriving DecidableEq, Repr

/-- The operations of `epoll_ctl`. -/
inductive CtlOp
  | add
  | mod
  | del
  deriving DecidableEq, Repr

/-- `epoll_ctl` on the entry of one fd; `none` when it fails. -/
def epollCtl (op : CtlOp) (events : Events) (registered : Option Events) : Option (Option Events) :=
  match op, registered with
  | .add, none => some (some events)
  | .mod, some _ => some (some events)
  | .del, some _ => some none
  | .add, some _ => none
  | .mod, none => none
  | .del, none => none

namespace Channel

/-- `Channel(loop, fd)`. -/
def create (fd : ℕ) : Channel :=
  ⟨fd, Events.kNoneEvent, Events.kNoneEvent, .kNew, false, none⟩

def isNoneEvent (ch : Channel) : Bool := ch.events = Events.kNoneEvent

def isWriting (ch : Channel) : Bool := ch.events.epollOut

end Channel

namespace EpollPoller

/-- `EpollPoller::Update`. -/
def update (op : CtlOp) (ch : Channel) : Except Fault Channel :=
  match epollCtl op ch.events ch.registered with
  | some registered => .ok { ch with registered }
  | none => if op = .del then .ok ch else .error .epollCtl

/-- `EpollPoller::UpdateChannel`. -/
def updateChannel (inLoop : Bool) (ch : Channel) : Except Fault Channel :=
  if !inLoop then .error .notInLoopThread
  else if ch.index = .kNew ∨ ch.index = .kDeleted then update .add { ch with index := .kAdded }
  else if ch.isNoneEvent then do
    let ch ← update .del ch
    return { ch with index := .kDeleted }
  else update .mod ch

/-- `EpollPoller::RemoveChannel`. -/
def removeChannel (inLoop : Bool) (ch : Channel) : Except Fault Channel :=
  if !inLoop then .error .notInLoopThread
  else if ch.index = .kAdded then do
    let ch ← update .del ch
    return { ch with index := .kDeleted }
  else .ok ch

end EpollPoller

namespace EventLoop

/-- `EventLoop::UpdateChannel`: off the loop's thread it refuses. -/
def updateChannel (inLoop : Bool) (ch : Channel) : Except Fault Channel :=
  if !inLoop then .ok ch else EpollPoller.updateChannel inLoop ch

/-- `EventLoop::RemoveChannel`. -/
def removeChannel (inLoop : Bool) (ch : Channel) : Except Fault Channel :=
  EpollPoller.removeChannel inLoop ch

end EventLoop

namespace Channel

/-- `EnableReading`, `kReadEvent` being EPOLLIN and EPOLLPRI. -/
def enableReading (inLoop : Bool) (ch : Channel) : Except Fault Channel :=
  EventLoop.updateChannel inLoop { ch with events := { ch.events with epollIn := true, epollPri := true } }

/-- `EnableWriting`, `kWriteEvent` being EPOLLOUT. -/
def enableWriting (inLoop : Bool) (ch : Channel) : Except Fault Channel :=
  EventLoop.updateChannel inLoop { ch with events := { ch.events with epollOut := true } }

def disableWriting (inLoop : Bool) (ch : Channel) : Except Fault Channel :=
  EventLoop.updateChannel inLoop { ch with events := { ch.events with epollOut := false } }

def disableAll (inLoop : Bool) (ch : Channel) : Except Fault Channel :=
  EventLoop.updateChannel inLoop { ch with events := Events.kNoneEvent }

/-- `Remove`, with its `assert(is_none_event())`. -/
def remove (inLoop : Bool) (ch : Channel) : Except Fault Channel :=
  if ch.isNoneEvent then EventLoop.removeChannel inLoop ch else .error .assertion

def tie (ch : Channel) : Channel := { ch with tied := true }

/-! ### What the loop's own updates do -/

/-- The index says whether the fd is in epoll, and epoll's mask is the
channel's. -/
def Synced (ch : Channel) : Prop :=
  ch.registered = if ch.index = .kAdded then some ch.events else none

theorem create_synced (fd : ℕ) : (create fd).Synced := rfl

/-- An update after a change of `events_`, on the loop's thread: no call of
`epoll_ctl` fails, the entry follows the channel, and the fd leaves epoll
exactly when an added channel has no interest left. -/
theorem update_spec {ch : Channel} (h : ch.Synced) (ev : Events) :
    ∃ ch', EventLoop.updateChannel true { ch with events := ev } = .ok ch' ∧ ch'.Synced ∧
      ch'.fd = ch.fd ∧ ch'.events = ev ∧ ch'.revents = ch.revents ∧ ch'.tied = ch.tied ∧
      ch'.index = if ch.index = .kAdded ∧ ev = Events.kNoneEvent then .kDeleted else .kAdded := by
  obtain ⟨fd, events, revents, index, tied, registered⟩ := ch
  simp only [Synced] at h
  subst h
  cases index
  · exact ⟨_, rfl, rfl, rfl, rfl, rfl, rfl, rfl⟩
  · by_cases hev : ev = Events.kNoneEvent
    · subst hev
      exact ⟨_, rfl, rfl, rfl, rfl, rfl, rfl, rfl⟩
    · refine ⟨⟨fd, ev, revents, .kAdded, tied, some ev⟩, ?_, rfl, rfl, rfl, rfl, rfl, by simp [hev]⟩
      simp [EventLoop.updateChannel, EpollPoller.updateChannel, isNoneEvent, hev, EpollPoller.update,
        epollCtl]
  · exact ⟨_, rfl, rfl, rfl, rfl, rfl, rfl, rfl⟩

/-- A removal with no interest left, on the loop's thread. -/
theorem remove_spec {ch : Channel} (h : ch.Synced) (hev : ch.events = Events.kNoneEvent) :
    ∃ ch', ch.remove true = .ok ch' ∧ ch'.Synced ∧ ch'.fd = ch.fd ∧ ch'.events = ch.events ∧
      ch'.registered = none := by
  obtain ⟨fd, events, revents, index, tied, registered⟩ := ch
  simp only [Synced] at h
  simp only at hev
  subst h hev
  cases index
  · exact ⟨_, rfl, rfl, rfl, rfl, rfl⟩
  · exact ⟨_, rfl, rfl, rfl, rfl, rfl⟩
  · exact ⟨_, rfl, rfl, rfl, rfl, rfl⟩

end Channel
end MiniMuduo
