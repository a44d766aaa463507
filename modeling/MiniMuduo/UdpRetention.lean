/-
# A retained datagram never changes

The buffers in the free list, in the `datagrams` of the running `HandleRead`
and on their way back to the free list are all different, and none of them is
the buffer of a copy that user code holds (`Owned`). Only these buffers are
handed out by `Acquire`, written by `recvmmsg` and reset, so what a copy shows
stays what it showed when it was delivered, whatever the other copies and the
receiver do (`retained_datagram_unchanged`).

Key definitions: `UdpReceiver.held`, `Owned`.
Key theorems: `Owned.change`, `move_owned`, `retained_datagram_unchanged`.
-/
import Mathlib.Data.List.Nodup
import MiniMuduo.UdpReceiver

namespace MiniMuduo

open Fallible Runs

namespace UdpReceiver

/-- The buffers that no copy of a delivered datagram holds. -/
def held (s : UdpReceiver) : List ℕ := s.freeBuffers ++ s.returning ++ s.pc.slots

/-! ### Changes of a buffer -/

theorem setBuffer_other {s : UdpReceiver} {a a' : ℕ} {f : PacketBuffer → PacketBuffer} (h : a' ≠ a) :
    (s.setBuffer a f).heap a' = s.heap a' := by
  simp [setBuffer, h]

theorem setBuffer_isSome {s : UdpReceiver} {a : ℕ} {f : PacketBuffer → PacketBuffer} (a' : ℕ) :
    ((s.setBuffer a f).heap a').isSome = (s.heap a').isSome := by
  by_cases h : a' = a
  · subst h
    simp [setBuffer]
  · rw [setBuffer_other h]

/-- The kernel writes into the buffers it was given, and into no other. -/
theorem write_spec : ∀ (slots : List ℕ) (data : List (List UInt8)) (s : UdpReceiver),
    (∀ a, a ∉ slots → (s.write slots data).heap a = s.heap a) ∧
      (∀ a, ((s.write slots data).heap a).isSome = (s.heap a).isSome) ∧
      { s.write slots data with heap := s.heap } = s
  | [], _, s => by simp [write]
  | _ :: _, [], s => by simp [write]
  | b :: slots, bytes :: data, s => by
    set s1 := s.setBuffer b fun buffer => { buffer with data := bytes } with hs1
    have hwrite : s.write (b :: slots) (bytes :: data) = s1.write slots data := by
      simp [write, hs1]
    obtain ⟨hother, hsome, hrest⟩ := write_spec slots data s1
    rw [hwrite]
    refine ⟨fun a ha => ?_, fun a => ?_, ?_⟩
    · obtain ⟨hne, hout⟩ := not_or.mp (List.mem_cons.not.mp ha)
      rw [hother a hout, hs1, setBuffer_other hne]
    · rw [hsome a, hs1, setBuffer_isSome]
    · calc { s1.write slots data with heap := s.heap }
          = { { s1.write slots data with heap := s1.heap } with heap := s.heap } := rfl
        _ = { s1 with heap := s.heap } := by rw [hrest]
        _ = s := rfl

end UdpReceiver

open UdpReceiver

/-- No buffer is in two hands, and every copy shows what it showed when it
was delivered. -/
structure Owned (s : UdpReceiver) : Prop where
  nodup : s.held.Nodup
  exist : ∀ a ∈ s.held, (s.heap a).isSome = true
  apart : ∀ d ∈ s.handles, d.buffer ∉ s.held
  shown : ∀ d ∈ s.handles, s.shown d = some d.delivered

namespace Owned

variable {s s' : UdpReceiver}

/-- What a copy shows depends on its own buffer only. -/
theorem shown_congr {d : UdpDatagram} (h : s'.heap d.buffer = s.heap d.buffer) : s'.shown d = s.shown d := by
  unfold UdpReceiver.shown
  rw [h]

/-- The held buffers go from hand to hand and change, the copies stay. -/
theorem change (h : Owned s) (hperm : s'.held.Perm s.held) (hhandles : s'.handles = s.handles)
    (hother : ∀ a, a ∉ s.held → s'.heap a = s.heap a)
    (hsome : ∀ a, (s'.heap a).isSome = (s.heap a).isSome) : Owned s' := by
  refine ⟨hperm.nodup_iff.mpr h.nodup, fun a ha => ?_, fun d hd hin => ?_, fun d hd => ?_⟩
  · rw [hsome a]
    exact h.exist a (hperm.mem_iff.mp ha)
  · rw [hhandles] at hd
    exact h.apart d hd (hperm.mem_iff.mp hin)
  · rw [hhandles] at hd
    rw [shown_congr (hother d.buffer (h.apart d hd))]
    exact h.shown d hd

/-- A buffer that no copy holds, or no copy any more, joins the held ones. -/
theorem join (h : Owned s) {b : ℕ} (hperm : s'.held.Perm (b :: s.held)) (hout : b ∉ s.held)
    (hhandles : ∀ d ∈ s'.handles, d ∈ s.handles ∧ d.buffer ≠ b)
    (hother : ∀ a, a ≠ b → s'.heap a = s.heap a) (hsome : (s'.heap b).isSome = true) : Owned s' := by
  refine ⟨hperm.nodup_iff.mpr (List.nodup_cons.mpr ⟨hout, h.nodup⟩), fun a ha => ?_, fun d hd hin => ?_,
    fun d hd => ?_⟩
  · by_cases hab : a = b
    · rw [hab]
      exact hsome
    · have hold : a ∈ s.held := (List.mem_cons.mp (hperm.mem_iff.mp ha)).resolve_left hab
      rw [hother a hab]
      exact h.exist a hold
  · obtain ⟨hd, hne⟩ := hhandles d hd
    exact h.apart d hd ((List.mem_cons.mp (hperm.mem_iff.mp hin)).resolve_left hne)
  · obtain ⟨hd, hne⟩ := hhandles d hd
    rw [shown_congr (hother d.buffer hne)]
    exact h.shown d hd

/-- A held buffer becomes the buffer of a new datagram. -/
theorem hand (h : Owned s) {d : UdpDatagram} (hperm : s.held.Perm (d.buffer :: s'.held))
    (hhandles : s'.handles = d :: s.handles) (hother : ∀ a, a ≠ d.buffer → s'.heap a = s.heap a)
    (hshown : s'.shown d = some d.delivered) : Owned s' := by
  obtain ⟨hout, hnodup⟩ := List.nodup_cons.mp (hperm.nodup_iff.mp h.nodup)
  have hin : ∀ a ∈ s'.held, a ∈ s.held := fun a ha => hperm.mem_iff.mpr (List.mem_cons_of_mem _ ha)
  have hself : d.buffer ∈ s.held := hperm.mem_iff.mpr List.mem_cons_self
  refine ⟨hnodup, fun a ha => ?_, fun d' hd' => ?_, fun d' hd' => ?_⟩
  · have hne : a ≠ d.buffer := fun heq => hout (heq ▸ ha)
    rw [hother a hne]
    exact h.exist a (hin a ha)
  · rw [hhandles] at hd'
    rcases List.mem_cons.mp hd' with rfl | hold
    · exact hout
    · exact fun hbad => h.apart d' hold (hin _ hbad)
  · rw [hhandles] at hd'
    rcases List.mem_cons.mp hd' with rfl | hold
    · exact hshown
    · have hne : d'.buffer ≠ d.buffer := fun heq => h.apart d' hold (heq ▸ hself)
      rw [shown_congr (hother d'.buffer hne)]
      exact h.shown d' hold

/-- Nothing happens to the buffers. -/
theorem same (h : Owned s) (hb : SameBuffers s s') (hslots : s'.pc.slots = s.pc.slots) : Owned s' := by
  have hheld : s'.held = s.held := by
    unfold held
    rw [hb.freeBuffers, hb.returning, hslots]
  refine h.change (by rw [hheld]) hb.handles (fun a _ => ?_) fun a => ?_
  · rw [hb.heap]
  · rw [hb.heap]

end Owned

theorem round_slots (s : UdpReceiver) (read : ℕ) : (s.round read).slots = [] := by
  unfold UdpReceiver.round
  split
  · rfl
  · rfl

section moves

variable {s s' : UdpReceiver}

theorem handleEvent_owned (h : Owned s) (hpc : s.pc = .outside) (hst : s.handleEvent = .ok s') : Owned s' := by
  have hslots : s.pc.slots = [] := by rw [hpc]; rfl
  unfold UdpReceiver.handleEvent at hst
  simp only at hst
  split at hst
  · cases hst
  split at hst
  · obtain rfl := Except.ok.inj hst
    refine h.same ⟨rfl, rfl, rfl, rfl⟩ ?_
    rw [hslots]
    exact round_slots _ 0
  · obtain rfl := Except.ok.inj hst
    exact h.same ⟨rfl, rfl, rfl, rfl⟩ rfl

/-- `Acquire` hands out a free buffer, or one at an address that nobody
holds. -/
theorem acquire_owned (h : Owned s) {read : ℕ} {slots : List ℕ} (hpc : s.pc = .filling read slots) {address : ℕ}
    (haddr : s.heap address = none) (data : List UInt8) : Owned (s.acquire read slots address data) := by
  have hslots : s.pc.slots = slots := by rw [hpc]; rfl
  cases hfree : s.freeBuffers with
  | cons b rest =>
    have hacq : s.acquire read slots address data =
        { s.resetBuffer b with freeBuffers := rest, pc := .filling read (slots ++ [b]) } := by
      simp [UdpReceiver.acquire, hfree]
    rw [hacq]
    have hheld : s.held = b :: rest ++ s.returning ++ slots := by
      unfold held
      rw [hfree, hslots]
    have hb : b ∈ s.held := by
      rw [hheld]
      simp
    refine h.change ?_ rfl (fun a ha => ?_) fun a => ?_
    · show (rest ++ s.returning ++ (slots ++ [b])).Perm s.held
      rw [hheld, ← List.append_assoc]
      exact List.perm_append_singleton b _
    · have hne : a ≠ b := fun heq => ha (heq ▸ hb)
      exact setBuffer_other hne
    · exact setBuffer_isSome a
  | nil =>
    have hacq : s.acquire read slots address data = { s with
        heap := Function.update s.heap address (some ⟨s.bufferSize, data, 0⟩)
        pc := .filling read (slots ++ [address]) } := by
      simp [UdpReceiver.acquire, hfree]
    rw [hacq]
    have hout : address ∉ s.held := by
      intro hin
      have := h.exist address hin
      rw [haddr] at this
      cases this
    have hheld : s.held = s.returning ++ slots := by
      unfold held
      rw [hfree, hslots, List.nil_append]
    -- no copy is at the address either: what it shows exists
    have hcopy : ∀ d ∈ s.handles, d.buffer ≠ address := by
      intro d hd heq
      have hshown := h.shown d hd
      unfold UdpReceiver.shown at hshown
      rw [heq, haddr] at hshown
      cases hshown
    refine h.join (b := address) ?_ hout (fun d hd => ⟨hd, hcopy d hd⟩) (fun a hne => ?_) ?_
    · show (s.freeBuffers ++ s.returning ++ (slots ++ [address])).Perm _
      rw [hheld, hfree, List.nil_append, ← List.append_assoc]
      exact List.perm_append_singleton address _
    · exact Function.update_of_ne hne _ _
    · simp

/-- `recvmmsg` is passed the buffers of `datagrams` only. -/
theorem recvmmsg_owned (h : Owned s) {read : ℕ} {slots : List ℕ} (hpc : s.pc = .filling read slots)
    (res : RecvResult) (data : List (List UInt8)) : Owned (s.recvmmsg read slots res data) := by
  obtain ⟨hother, hsome, hrest⟩ := write_spec slots data s
  have hslots : s.pc.slots = slots := by rw [hpc]; rfl
  set s1 := s.write slots data with hs1
  have hwritten : ∀ pc : ReadPc, pc.slots = slots → Owned { s1 with pc := pc } := by
    intro pc hpcs
    have hfields : { s1 with heap := s.heap } = s := hrest
    have hfree : s1.freeBuffers = s.freeBuffers := (congrArg UdpReceiver.freeBuffers hfields :)
    have hret : s1.returning = s.returning := (congrArg UdpReceiver.returning hfields :)
    have hhand : s1.handles = s.handles := (congrArg UdpReceiver.handles hfields :)
    have hheld : ({ s1 with pc := pc } : UdpReceiver).held = s.held := by
      simp only [held, hfree, hret, hpcs, hslots]
    refine h.change (by rw [hheld]) hhand (fun a ha => hother a fun hin => ha ?_) hsome
    unfold held
    rw [hslots]
    exact List.mem_append_right _ hin
  unfold UdpReceiver.recvmmsg
  simp only [← hs1]
  split
  · exact hwritten _ rfl
  · exact hwritten _ rfl
  · split
    · exact hwritten _ rfl
    · exact hwritten _ rfl

theorem afterDelivery_owned {read : ℕ} {kept slots : List ℕ} {messages : List Message} (h : Owned s)
    (hslots : s.pc.slots = kept ++ slots) : Owned (s.afterDelivery read kept slots messages) := by
  unfold UdpReceiver.afterDelivery
  split
  · exact h.same ⟨rfl, rfl, rfl, rfl⟩ hslots.symm
  · exact h.same ⟨rfl, rfl, rfl, rfl⟩ hslots.symm

theorem deliver_owned (h : Owned s) {read b : ℕ} {kept slots : List ℕ} {m : Message} {messages : List Message}
    (hpc : s.pc = .delivering read kept (b :: slots) (m :: messages))
    (hst : s.deliver read kept b slots m messages = .ok s') : Owned s' := by
  have hslots : s.pc.slots = kept ++ b :: slots := by rw [hpc]; rfl
  have hheld : s.held = s.freeBuffers ++ s.returning ++ (kept ++ b :: slots) := by
    unfold held
    rw [hslots]
  have hb : b ∈ s.held := by
    rw [hheld]
    simp
  obtain ⟨size, ⟨-, rfl⟩ | ⟨-, d, rfl, hshown, rfl⟩⟩ := deliver_ok hst
  · have hset : Owned (s.setSize b size) := by
      refine h.change (List.Perm.refl _) rfl (fun a ha => ?_) setBuffer_isSome
      have hne : a ≠ b := fun heq => ha (heq ▸ hb)
      exact setBuffer_other hne
    refine afterDelivery_owned hset ?_
    show s.pc.slots = _
    rw [hslots, List.append_assoc, List.singleton_append]
  · refine h.hand (d := d) ?_ rfl (fun a hne => setBuffer_other hne) hshown
    show s.held.Perm (d.buffer :: (s.freeBuffers ++ s.returning ++ (kept ++ slots)))
    rw [hheld, ← List.append_assoc, ← List.append_assoc]
    exact List.perm_middle

theorem unwind_owned (h : Owned s) {b : ℕ} {slots : List ℕ} {next : Option ℕ}
    (hpc : s.pc = .unwinding (b :: slots) next) : Owned (s.unwind b slots next) := by
  have hheld : s.held = s.freeBuffers ++ s.returning ++ b :: slots := by
    unfold held
    rw [hpc]
    rfl
  have hb : b ∈ s.held := by
    rw [hheld]
    simp
  refine h.change ?_ rfl (fun a ha => ?_) setBuffer_isSome
  · show (b :: s.freeBuffers ++ s.returning ++ slots).Perm s.held
    rw [hheld]
    exact List.perm_middle.symm
  · have hne : a ≠ b := fun heq => ha (heq ▸ hb)
    exact setBuffer_other hne

/-- A dropped copy is gone; the last copy's buffer is on its way back. -/
theorem drop_owned (h : Owned s) {d : UdpDatagram} (hd : d ∈ s.handles) : Owned (s.drop d) := by
  have hsub : ∀ d' ∈ s.handles.erase d, d' ∈ s.handles := fun d' => List.mem_of_mem_erase
  unfold UdpReceiver.drop
  simp only
  split
  case isTrue _ =>
    exact ⟨h.nodup, h.exist, fun d' hd' => h.apart d' (hsub d' hd'), fun d' hd' => h.shown d' (hsub d' hd')⟩
  case isFalse hlast =>
    have hsome : (s.heap d.buffer).isSome = true := by
      have hshown := h.shown d hd
      unfold UdpReceiver.shown at hshown
      rw [Option.map_eq_some_iff] at hshown
      obtain ⟨b, hb, -⟩ := hshown
      rw [hb]
      rfl
    refine h.join (b := d.buffer) ?_ (h.apart d hd) (fun d' hd' => ⟨hsub d' hd', fun heq => hlast ?_⟩)
      (fun a hne => setBuffer_other hne) ?_
    · show (s.freeBuffers ++ d.buffer :: s.returning ++ s.pc.slots).Perm
        (d.buffer :: (s.freeBuffers ++ s.returning ++ s.pc.slots))
      rw [List.append_assoc, List.append_assoc, List.cons_append]
      exact List.perm_middle
    · exact List.any_eq_true.mpr ⟨d', hd', decide_eq_true heq⟩
    · exact (setBuffer_isSome d.buffer).trans hsome

theorem giveBack_owned (h : Owned s) {b : ℕ} (hb : b ∈ s.returning) : Owned (s.giveBack b) := by
  refine h.change ?_ rfl (fun _ _ => rfl) fun _ => rfl
  show (b :: s.freeBuffers ++ s.returning.erase b ++ s.pc.slots).Perm (s.freeBuffers ++ s.returning ++ s.pc.slots)
  apply List.Perm.append_right
  have hmiddle : (b :: s.freeBuffers ++ s.returning.erase b).Perm (s.freeBuffers ++ b :: s.returning.erase b) :=
    List.perm_middle.symm
  exact hmiddle.trans ((List.perm_cons_erase hb).symm.append_left s.freeBuffers)

/-- The pool's state ends when nobody holds a copy. -/
theorem freeState_owned (hhandles : s.handles = []) (hslots : s.pc.slots = [])
    (hret : s.returning = []) : Owned s.freeState := by
  have hheld : s.freeState.held = [] := by
    show [] ++ s.returning ++ s.pc.slots = []
    rw [hret, hslots]
    rfl
  have hnone : ∀ d, d ∉ s.freeState.handles := by
    intro d hd
    have hd' : d ∈ s.handles := hd
    rw [hhandles] at hd'
    cases hd'
  refine ⟨?_, fun a ha => ?_, fun d hd => absurd hd (hnone d), fun d hd => absurd hd (hnone d)⟩
  · rw [hheld]
    exact List.nodup_nil
  · rw [hheld] at ha
    cases ha

/-- One step of any thread. -/
theorem move_owned (h : Owned s) {a : UdpStep} (hm : UdpMove s a s') : Owned s' := by
  cases hm with
  | pollReady mask _ => exact h.same ⟨rfl, rfl, rfl, rfl⟩ rfl
  | pollIdle => exact h
  | handleEvent hpc hst => exact handleEvent_owned h hpc hst
  | acquire address data hpc haddr => exact acquire_owned h hpc haddr data
  | recvmmsg res data hpc => exact recvmmsg_owned h hpc res data
  | deliver hpc hst => exact deliver_owned h hpc hst
  | returnCallback hpc => exact afterDelivery_owned h (by rw [hpc]; rfl)
  | finishBatch hpc => exact h.same ⟨rfl, rfl, rfl, rfl⟩ (by rw [hpc]; rfl)
  | unwind hpc => exact unwind_owned h hpc
  | @leaveRound next hpc =>
    refine h.same ⟨rfl, rfl, rfl, rfl⟩ ?_
    rw [hpc]
    cases next with
    | none => rfl
    | some read => exact round_slots s read
  | start _ hst =>
    obtain ⟨hb, hpc, -⟩ := start_ok hst
    exact h.same hb (by rw [hpc])
  | stop _ hst =>
    obtain ⟨hb, hpc, -⟩ := stop_ok hst
    exact h.same hb (by rw [hpc])
  | setMessageCallback set _ => exact h.same ⟨rfl, rfl, rfl, rfl⟩ rfl
  | destroy _ hst =>
    obtain ⟨hb, hpc, -⟩ := stop_ok hst
    exact h.same ⟨hb.heap, hb.freeBuffers, hb.returning, hb.handles⟩ (congrArg ReadPc.slots hpc)
  | @copy d hd =>
    have hmem : ∀ d' ∈ d :: s.handles, d' ∈ s.handles := by
      intro d' hd'
      rcases List.mem_cons.mp hd' with rfl | hold
      · exact hd
      · exact hold
    exact ⟨h.nodup, h.exist, fun d' hd' => h.apart d' (hmem d' hd'), fun d' hd' => h.shown d' (hmem d' hd')⟩
  | drop hd => exact drop_owned h hd
  | giveBack hb => exact giveBack_owned h hb
  | freeState hhandles hslots hret => exact freeState_owned hhandles hslots hret

end moves

theorem create_owned (fd maxPacketsPerRead bufferSize : ℕ) {addresses : List ℕ} (data : List UInt8)
    (haddr : addresses.Nodup) : Owned (create fd maxPacketsPerRead bufferSize addresses data) := by
  have hheld : (create fd maxPacketsPerRead bufferSize addresses data).held = addresses := by
    simp [held, create, ReadPc.slots]
  refine ⟨?_, fun a ha => ?_, nofun, nofun⟩
  · rw [hheld]
    exact haddr
  · rw [hheld] at ha
    simp [create, ha]

/-- **A retained datagram never changes.** In every run of a receiver, with
any results of `recvmmsg` and any threads that copy and drop the datagrams
they hold, also after the receiver and its pool are gone: every copy of a
delivered datagram shows the bytes, the size, the original size and the
truncation it showed when it was delivered, and its buffer is not in the free
list, not among those `HandleRead` has acquired and passes to `recvmmsg`, and
not on its way back. -/
theorem retained_datagram_unchanged (fd maxPacketsPerRead bufferSize : ℕ) {addresses : List ℕ}
    (data : List UInt8) (haddr : addresses.Nodup) {tr : List (UdpReceiver × UdpStep)} {s : UdpReceiver}
    (hr : Run udpMachine (create fd maxPacketsPerRead bufferSize addresses data) tr s) {d : UdpDatagram}
    (hd : d ∈ s.handles) :
    s.shown d = some d.delivered ∧ d.buffer ∉ s.freeBuffers ∧ d.buffer ∉ s.pc.slots ∧
      d.buffer ∉ s.returning := by
  have h : Owned s := hr.always (fun _ _ _ ht hen hst => move_owned ht (udpMove_of_step hen hst))
    (create_owned fd maxPacketsPerRead bufferSize data haddr)
  have hout := h.apart d hd
  unfold held at hout
  rw [List.mem_append, List.mem_append, not_or, not_or] at hout
  exact ⟨h.shown d hd, hout.1.1, hout.2, hout.1.2⟩

/-- A pool of one buffer: a datagram is copied and kept, a second one takes a
new buffer and is dropped, the receiver is destroyed and one of the two copies
goes. -/
theorem retained_datagram_unchanged_after_destroy :
    let d : UdpDatagram := ⟨0, 2, false, ⟨[7, 8], 2, 2, false⟩⟩
    let steps : List UdpStep := [.setMessageCallback true, .start,
      .poll (some { epollIn := true }), .handleEvent, .acquire 9 [0, 0],
      .recvmmsg (.received [⟨2, false⟩]) [[7, 8]], .deliver, .copy d, .returnCallback, .finishBatch, .leaveRound,
      .poll (some { epollIn := true }), .handleEvent, .acquire 9 [0, 0],
      .recvmmsg (.received [⟨3, true⟩]) [[5, 6]], .deliver, .drop ⟨9, 3, true, ⟨[5, 6], 2, 3, true⟩⟩,
      .giveBack 9, .returnCallback, .finishBatch, .leaveRound, .destroy, .drop d]
    let s := final udpMachine (create 5 1 2 [0] [0, 0]) steps
    s.handles = [d] ∧ s.destroyed = true ∧ s.shown d = some ⟨[7, 8], 2, 2, false⟩ :=
  ⟨by decide +kernel, by decide +kernel,
    (retained_datagram_unchanged 5 1 2 [0, 0] (by decide) (run_of_accepts _ _ (by decide +kernel))
      (by decide +kernel)).1⟩

end MiniMuduo
