/-
# A connection's entry in epoll

While a connection is up its fd is in epoll and readable bytes are asked
for; before and after, it is not there, so `Poll` reports events for
connections that are up and for no others (`Wired.up_of_registered`).
`ConnectDestroyed` passes through an entry with no interest at all: its
`DisableAll` adds the deleted fd again and `Remove` takes it out.

Key definitions: `Wired`.
Key theorems: `Wired.actPart`, `Wired.close`, `Wired.establish`,
`Wired.drains`.
-/
import MiniMuduo.Shutdown

namespace MiniMuduo

open Fallible TcpConnection

/-- The fd of a connection is in epoll exactly while the connection is up. -/
structure Wired (c : TcpConnection) : Prop where
  listening : c.Up → c.channel.index = .kAdded ∧ c.channel.events.epollIn = true
  gone : ¬ c.Up → c.channel.registered = none

namespace Wired

variable {tid : ℕ} {b : Bool} {c c' : TcpConnection}

theorem congr (h : Wired c) (hst : c'.state = c.state) (hch : c'.channel = c.channel) : Wired c' := by
  have hup : c'.Up ↔ c.Up := by
    unfold Up
    rw [hst]
  refine ⟨fun h' => ?_, fun h' => ?_⟩
  · rw [hch]
    exact h.listening (hup.mp h')
  · rw [hch]
    exact h.gone fun h'' => h' (hup.mpr h'')

theorem log (h : Wired c) (e : Event) : Wired (c.log e) := h.congr rfl rfl

/-- Epoll reports events for connections that are up. -/
theorem up_of_registered (h : Wired c) {ev : Events} (hreg : c.channel.registered = some ev) : c.Up := by
  by_contra hdown
  rw [h.gone hdown] at hreg
  cases hreg

/-- A change of interest that keeps EPOLLIN. -/
theorem change (ht : Tidy tid b c) (hup : c.Up) (ev : Events) (hin : ev.epollIn = true)
    {ch : Channel}
    (hop : EventLoop.updateChannel (tid = c.loop) { c.channel with events := ev } = .ok ch)
    (hst : c'.state = c.state) (hch : c'.channel = ch) : Wired c' := by
  have hup' : c'.Up := by
    unfold Up
    rw [hst]
    exact hup
  obtain ⟨-, hev, hindex⟩ := ht.update _ hop
  have hne : ev ≠ Events.kNoneEvent := by
    intro h0
    rw [h0] at hin
    cases hin
  refine ⟨fun _ => ?_, fun hdown => absurd hup' hdown⟩
  rw [hch, hev, hindex, if_neg fun h' => hne h'.2]
  exact ⟨rfl, hin⟩

theorem queue (h : Wired c) (ht : Tidy tid b c) (hst : c.state = .kConnected) {rest : List UInt8}
    (hq : c.queue tid rest = .ok c') : Wired c' := by
  obtain ⟨out, -, ⟨-, rfl⟩ | ⟨-, ch, hop, rfl⟩⟩ := queue_ok hq
  · exact h.congr rfl rfl
  · have hup : c.Up := .inl hst
    exact change ht hup { c.channel.events with epollOut := true } (h.listening hup).2 hop rfl rfl

/-- A connection that was up goes down: its fd leaves epoll. -/
theorem goDown (h : Wired c) (ht : Tidy tid b c) (hup : c.Up)
    (hop : (c.setState .kDisconnected).onChannel tid Channel.disableAll = .ok c') : Wired c' := by
  obtain ⟨ch, hch, rfl⟩ := onChannel_ok hop
  obtain ⟨hsync, -, hindex⟩ := ht.update Events.kNoneEvent hch
  rw [if_pos ⟨(h.listening hup).1, rfl⟩] at hindex
  have hreg : ch.registered = none := by
    unfold Channel.Synced at hsync
    rw [hsync, hindex, if_neg (by decide)]
  refine ⟨fun hup' => ?_, fun _ => hreg⟩
  rcases hup' with h' | h' <;> cases h'

theorem destroyTail (ht : Tidy tid b c) (hdown : ¬ c.Up) (htail : destroyTail tid c = .ok c') :
    Wired c' := by
  obtain ⟨c1, hop, hrm⟩ := bind_eq_ok htail
  obtain ⟨ch, hch, rfl⟩ := onChannel_ok hop
  obtain ⟨hsync, hev, -⟩ := ht.update Events.kNoneEvent hch
  obtain ⟨ch', hrm', hc⟩ := bind_eq_ok hrm
  cases hc
  obtain ⟨-, -, hreg⟩ := Tidy.removed_spec hsync hev ht.loop hrm'
  exact ⟨fun hup => absurd hup hdown, fun _ => hreg⟩

theorem sends (h : Wired c) (ht : Tidy tid b c) {message : List UInt8} {res : WriteResult} {k : Bool}
    (hs : Sends tid message res c c' k) : Wired c' := by
  cases hs with
  | ignored _ => exact h
  | whole => exact h.congr rfl rfl
  | complete => exact h.congr rfl rfl
  | fault => exact h.congr rfl rfl
  | nothing => exact h.congr rfl rfl
  | part hst _ _ _ hq => exact ((h.log _).log _).queue ((ht.log _).log _) hst hq
  | queued hst _ _ _ hq => exact (h.log _).queue (ht.log _) hst hq

theorem shutDown (h : Wired c) : Wired (shutDown .self c) := by
  have hset : c.state = .kConnected → Wired (c.setState .kDisconnecting) := fun hst =>
    ⟨fun _ => h.listening (.inl hst), fun hdown => absurd (.inr rfl) hdown⟩
  rcases shutDown_cases c with ⟨-, hc⟩ | ⟨hst, -, hc⟩ | ⟨hst, -, hc⟩
  · rwa [hc]
  · rw [hc]
    exact hset hst
  · rw [hc]
    exact (hset hst).log _

/-- What user code does. -/
theorem actPart {d : Bool} (h : Wired c) (ht : Tidy tid b c) (hp : ActPart tid d c c') : Wired c' := by
  cases hp with
  | sends hs => exact h.sends ht hs
  | shutDown => exact h.shutDown
  | retrieve _ => exact h.congr rfl rfl
  | destroyDown _ _ => exact h.log _
  | destroyUp _ hup hcore =>
    obtain ⟨c1, hop, hc⟩ := bind_eq_ok hcore
    cases hc
    exact ((h.log _).goDown (ht.log _) hup hop).log _
  | destroyTail _ hdown htail => exact destroyTail ht hdown htail

/-- The part of `HandleWrite` before the callback. -/
theorem drains (h : Wired c) (ht : Tidy tid b c) {res : WriteResult} {k : Bool}
    (hd : Drains tid res c c' k) : Wired c' := by
  rcases ht.drains_up hd with hup | ⟨rfl, -⟩
  swap
  · exact h
  cases hd with
  | idle _ => exact h
  | part => exact h.congr rfl rfl
  | whole _ _ _ _ _ _ hop =>
    exact change ht hup { c.channel.events with epollOut := false } (h.listening hup).2 hop rfl rfl

/-- `HandleClose` of a connection that is up. -/
theorem close (h : Wired c) (ht : Tidy tid b c) (hup : c.Up) (hcore : closeCore tid c = .ok c') :
    Wired c' :=
  (h.log _).goDown (ht.log _) hup hcore

/-- `ConnectEstablished` of a new connection. -/
theorem establish (ht : Tidy tid b c) (hcore : establishCore tid c = .ok c') : Wired c' := by
  obtain ⟨c1, hop, hc⟩ := bind_eq_ok hcore
  cases hc
  obtain ⟨ch, hch, rfl⟩ := onChannel_ok hop
  obtain ⟨-, hev, hindex⟩ := ht.update _ hch
  have hne : ({ c.channel.events with epollIn := true, epollPri := true } : Events) ≠ Events.kNoneEvent := by
    intro h0
    cases congrArg Events.epollIn h0
  refine ⟨fun _ => ⟨?_, congrArg Events.epollIn hev⟩, fun hdown => absurd (.inl rfl) hdown⟩
  exact hindex.trans (if_neg fun h' => hne h'.2)

end Wired

theorem newConnection_wired (tid : ℕ) (name : String) (sockfd : ℕ) (cbs : Callbacks) :
    Wired (newConnection tid name sockfd cbs) := by
  refine ⟨fun hup => ?_, fun _ => rfl⟩
  rcases hup with h' | h' <;> cases h'

end MiniMuduo
