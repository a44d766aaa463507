/-
# HandleRead as one function and as steps

`UdpReceiver::HandleRead` is modelled twice: as one function over the arrays of
its batches (`UdpBatch.handleRead`), and as the steps of the loop's thread
between which other code may come in (`udpMachine`). New receivers agree
(`create_agrees`), also once they are started (`start_agrees`), and where they
agree a call of the function is a run of the steps, after which they agree again
(`handleRead_steps`).

What the function's environment decides is there in the steps of other code:
where user code gives buffers back, the last copies of their datagrams are
dropped and pushed back; where a callback calls `Stop`, that is a step of it.
The kernel gives both the same results. Where the function stores datagrams
through the headers, the step is handed the buffers as they are afterwards.

Key definitions: `UdpBatch.Agrees`, `UdpBatch.Leads`, `UdpBatch.Laid`.
Key theorems: `acquire_leads`, `receive_writes`, `deliverAll_leads`,
`handleRead_leads`, `handleRead_steps`.
-/
import MiniMuduo.UdpBatch
import MiniMuduo.UdpRetention

namespace MiniMuduo

namespace UdpBatch

open Fallible Runs Slice

variable {ρ : Type}

/-- What the callback read of its datagram is what this copy showed. -/
structure View.Shows (v : View ρ) (d : Shown) : Prop where
  data : v.data = d.data.take d.size
  size : v.size = d.size
  originalSize : v.originalSize = d.originalSize
  truncated : v.truncated = d.truncated

/-- `u`, with its thread at `pc`, is the receiver `s`: it has the same buffers
in the same places, its callback was invoked as often, and the copies that user
code holds showed what was delivered. -/
structure Agrees (pc : ReadPc) (s : Receiver ρ) (u : UdpReceiver) : Prop where
  pc : u.pc = pc
  maxPacketsPerRead : u.maxPacketsPerRead = s.maxPacketsPerRead
  bufferSize : u.bufferSize = s.bufferSize
  started : u.started = s.started
  messageCallback : u.messageCallback = s.messageCallback
  heap : u.heap = s.heap
  freeBuffers : u.freeBuffers = s.freeBuffers
  held : (u.handles.map UdpDatagram.buffer).Perm s.held
  invoked : u.trace.count .message = s.delivered.length
  shown : ∀ d ∈ u.handles, ∃ v ∈ s.delivered, v.Shows d.delivered
  alive : u.destroyed = false
  synced : u.channel.Synced

/-- Steps of `u` lead to `pc`, and to the receiver `s`. -/
def Leads (u : UdpReceiver) (pc : ReadPc) (s : Receiver ρ) : Prop :=
  ∃ is u', Takes udpMachine u is u' ∧ Agrees pc s u'

section leads

variable {pc : ReadPc} {s : Receiver ρ} {u u' : UdpReceiver}

theorem Agrees.goTo (h : Agrees pc s u) (pc' : ReadPc) : Agrees pc' s { u with pc := pc' } :=
  ⟨rfl, h.maxPacketsPerRead, h.bufferSize, h.started, h.messageCallback, h.heap, h.freeBuffers, h.held, h.invoked,
    h.shown, h.alive, h.synced⟩

/-- Buffers are written, or taken from the free list or put there. -/
theorem Agrees.pool (h : Agrees pc s u) (heap : ℕ → Option PacketBuffer) (freeBuffers : List ℕ) :
    Agrees pc { s with heap, freeBuffers } { u with heap, freeBuffers } :=
  ⟨h.pc, h.maxPacketsPerRead, h.bufferSize, h.started, h.messageCallback, rfl, rfl, h.held, h.invoked, h.shown,
    h.alive, h.synced⟩

/-- How many calls were made is in the function's state only. -/
theorem Agrees.count (h : Agrees pc s u) (next acquires calls : ℕ) : Agrees pc { s with next, acquires, calls } u :=
  ⟨h.pc, h.maxPacketsPerRead, h.bufferSize, h.started, h.messageCallback, h.heap, h.freeBuffers, h.held, h.invoked,
    h.shown, h.alive, h.synced⟩

theorem Agrees.leads (h : Agrees pc s u) : Leads u pc s := ⟨[], u, Takes.none, h⟩

theorem Leads.after {is : List UdpStep} (h : Leads u' pc s) (htakes : Takes udpMachine u is u') : Leads u pc s := by
  obtain ⟨js, v, htakes', hv⟩ := h
  exact ⟨is ++ js, v, htakes.trans htakes', hv⟩

theorem Leads.step {a : UdpStep} (hen : udpEnabled u a = true) (hst : udpStep u a = .ok u') (h : Leads u' pc s) :
    Leads u pc s :=
  h.after (Takes.one hen hst)

end leads

/-! ### The memory -/

/-- Buffers that are not made yet are not there, and the others are full of
bytes. -/
structure Laid (slots : List ℕ) (s : Receiver ρ) : Prop extends Stock slots s where
  unmade : ∀ a, s.next ≤ a → s.heap a = none
  length : ∀ a p, s.heap a = some p → p.data.length = s.bufferSize

/-- Buffers change owners, and bytes. -/
theorem Laid.move {slots slots' : List ℕ} {s s' : Receiver ρ} (h : Laid slots s) (hstock : Stock slots' s')
    (hnext : s'.next = s.next) (hsize : s'.bufferSize = s.bufferSize)
    (hheap : ∀ a p', s'.heap a = some p' → ∃ p, s.heap a = some p ∧ p'.data.length = p.data.length) :
    Laid slots' s' where
  toStock := hstock
  unmade := by
    intro a ha
    rw [hnext] at ha
    cases hp : s'.heap a with
    | none => rfl
    | some p' =>
      obtain ⟨p, hold, -⟩ := hheap a p' hp
      cases (h.unmade a ha).symm.trans hold
  length := by
    intro a p' hp
    obtain ⟨p, hold, hlen⟩ := hheap a p' hp
    rw [hlen, hsize, h.length a p hold]

theorem heap_update_length {heap : ℕ → Option PacketBuffer} {b : ℕ} {f : PacketBuffer → PacketBuffer}
    (hf : ∀ p, heap b = some p → (f p).data.length = p.data.length) (a : ℕ) (p' : PacketBuffer)
    (hp : Function.update heap b ((heap b).map f) a = some p') :
    ∃ p, heap a = some p ∧ p'.data.length = p.data.length := by
  by_cases hab : a = b
  · subst hab
    rw [Function.update_self] at hp
    obtain ⟨p, hold, rfl⟩ := Option.map_eq_some_iff.mp hp
    exact ⟨p, hold, hf p hold⟩
  · rw [Function.update_of_ne hab] at hp
    exact ⟨p', hp, rfl⟩

theorem giveBack_laid {slots : List ℕ} {s : Receiver ρ} (h : Laid slots s) (a : ℕ) : Laid slots (s.giveBack a) := by
  have hstock := (giveBack_spec h.toStock a).1
  unfold Receiver.giveBack at hstock ⊢
  split
  case isTrue ha =>
    rw [if_pos ha] at hstock
    exact h.move hstock rfl rfl (heap_update_length fun _ _ => rfl)
  case isFalse => exact h

/-! ### Acquire -/

section acquire

variable {pc : ReadPc} {s : Receiver ρ} {u : UdpReceiver} {slots : List ℕ}

/-- The last copy of a datagram is dropped, and its buffer pushed back. -/
theorem giveBack_leads (h : Agrees pc s u) (hs : Laid slots s) (a : ℕ) : Leads u pc (s.giveBack a) := by
  unfold Receiver.giveBack
  split
  case isFalse => exact h.leads
  case isTrue ha =>
    obtain ⟨d, hd, rfl⟩ := List.mem_map.mp (h.held.mem_iff.mpr ha)
    have hperm : (d.buffer :: (u.handles.erase d).map UdpDatagram.buffer).Perm s.held :=
      ((List.perm_cons_erase hd).map UdpDatagram.buffer).symm.trans h.held
    have hnodup : s.held.Nodup := (hs.distinct.of_append_right).of_append_right
    have hlast : ¬ ((u.handles.erase d).any fun d' => d'.buffer = d.buffer) = true := by
      intro hany
      obtain ⟨d', hd', hsame⟩ := List.any_eq_true.mp hany
      have hin : d.buffer ∈ (u.handles.erase d).map UdpDatagram.buffer :=
        List.mem_map.mpr ⟨d', hd', of_decide_eq_true hsame⟩
      exact (List.nodup_cons.mp (hperm.nodup_iff.mpr hnodup)).1 hin
    have hdrop : u.drop d =
        { u.resetBuffer d.buffer with handles := u.handles.erase d, returning := d.buffer :: u.returning } :=
      if_neg hlast
    have hgive : d.buffer ∈ (u.drop d).returning := by
      rw [hdrop]
      exact List.mem_cons_self
    refine .step (a := .drop d) (decide_eq_true hd) rfl ?_
    refine .step (a := .giveBack d.buffer) (decide_eq_true hgive) rfl (Agrees.leads ?_)
    rw [hdrop]
    constructor
    case pc => exact h.pc
    case maxPacketsPerRead => exact h.maxPacketsPerRead
    case bufferSize => exact h.bufferSize
    case started => exact h.started
    case messageCallback => exact h.messageCallback
    case heap =>
      show Function.update u.heap d.buffer _ = _
      rw [h.heap]
      rfl
    case freeBuffers => exact congrArg (d.buffer :: ·) h.freeBuffers
    case held => exact (hperm.trans (List.perm_cons_erase ha)).cons_inv
    case invoked => exact h.invoked
    case shown => exact fun d' hd' => h.shown d' (List.mem_of_mem_erase hd')
    case alive => exact h.alive
    case synced => exact h.synced

theorem giveBacks_leads : ∀ (as : List ℕ) {s : Receiver ρ} {u : UdpReceiver}, Agrees pc s u → Laid slots s →
    Leads u pc (as.foldl Receiver.giveBack s) ∧ Laid slots (as.foldl Receiver.giveBack s)
  | [], _, _, h, hs => ⟨h.leads, hs⟩
  | a :: as, s, u, h, hs => by
    obtain ⟨is, v, htakes, hv⟩ := giveBack_leads h hs a
    obtain ⟨hrest, hs'⟩ := giveBacks_leads as hv (giveBack_laid hs a)
    exact ⟨hrest.after htakes, hs'⟩

/-- `Acquire`, after what user code gives back before it. -/
theorem acquire_leads {env : Env ρ} {read : ℕ} (hjunk : ∀ n, (env.junk n).length = s.bufferSize)
    (h : Agrees (.filling read slots) s u) (hs : Laid slots s)
    (hlt : slots.length < vlen s.maxPacketsPerRead read) :
    Leads u (.filling read (slots ++ [(s.acquire env).1])) (s.acquire env).2 ∧
      Laid (slots ++ [(s.acquire env).1]) (s.acquire env).2 := by
  obtain ⟨hstock, -⟩ := acquire_spec hs.toStock env
  have h0 : Agrees (.filling read slots) { s with acquires := s.acquires + 1 } u :=
    h.count s.next (s.acquires + 1) s.calls
  have hs0 : Laid slots { s with acquires := s.acquires + 1 } :=
    ⟨⟨hs.distinct, hs.lt, hs.buffers⟩, hs.unmade, hs.length⟩
  obtain ⟨hgiven, hs1⟩ := giveBacks_leads (env.released s.acquires) h0 hs0
  obtain ⟨-, hsame⟩ := giveBacks_spec (env.released s.acquires) hs0.toStock
  unfold Receiver.acquire at hstock ⊢
  revert hgiven hs1 hsame hstock
  generalize (env.released s.acquires).foldl Receiver.giveBack { s with acquires := s.acquires + 1 } = s1
  intro hstock hgiven hs1 hsame
  obtain ⟨is, v, htakes, hv⟩ := hgiven
  -- whether or not the list is empty, the next address is free for `new`
  have hfree : v.heap s1.next = none := by
    rw [hv.heap]
    exact hs1.unmade s1.next (Nat.le_refl _)
  have hroom : slots.length < v.batchSize read := by
    unfold UdpReceiver.batchSize
    rw [hv.maxPacketsPerRead, hsame.maxPacketsPerRead]
    exact hlt
  have hlen : (env.junk s1.next).length = v.bufferSize := by
    rw [hjunk, hv.bufferSize, hsame.bufferSize]
  have hen : udpEnabled v (.acquire s1.next (env.junk s1.next)) = true := by
    simp [udpEnabled, hv.pc, hfree, hroom, hlen]
  have hst : udpStep v (.acquire s1.next (env.junk s1.next)) =
      .ok (v.acquire read slots s1.next (env.junk s1.next)) := by
    simp [udpStep, hv.pc]
  revert hstock
  dsimp only
  split
  case h_1 b rest hlist =>
    intro hstock
    refine ⟨(Leads.step hen hst (Agrees.leads ?_)).after htakes,
      hs1.move hstock rfl rfl (heap_update_length fun _ _ => rfl)⟩
    have hacq : v.acquire read slots s1.next (env.junk s1.next) =
        { v with heap := (v.resetBuffer b).heap, freeBuffers := rest, pc := .filling read (slots ++ [b]) } := by
      simp only [UdpReceiver.acquire, hv.freeBuffers, hlist]
      rfl
    have hreset : (v.resetBuffer b).heap = (s1.resetBuffer b).heap := by
      show Function.update v.heap b _ = _
      rw [hv.heap]
      rfl
    rw [hacq, hreset]
    exact (hv.pool (s1.resetBuffer b).heap rest).goTo (.filling read (slots ++ [b]))
  case h_2 hlist =>
    intro hstock
    refine ⟨(Leads.step hen hst (Agrees.leads ?_)).after htakes, hstock, fun a ha => ?_, fun a p hp => ?_⟩
    · have hacq : v.acquire read slots s1.next (env.junk s1.next) =
          { v with
            heap := Function.update s1.heap s1.next (some ⟨s1.bufferSize, env.junk s1.next, 0⟩)
            freeBuffers := s1.freeBuffers
            pc := .filling read (slots ++ [s1.next]) } := by
        simp only [UdpReceiver.acquire, hv.freeBuffers, hv.heap, hv.bufferSize, hlist]
      have hpool := hv.pool (Function.update s1.heap s1.next (some ⟨s1.bufferSize, env.junk s1.next, 0⟩)) s1.freeBuffers
      rw [hacq]
      exact (hpool.goTo (.filling read (slots ++ [s1.next]))).count (s1.next + 1) s1.acquires s1.calls
    · have hne : a ≠ s1.next := Nat.ne_of_gt ha
      exact (Function.update_of_ne hne ..).trans (hs1.unmade a (Nat.le_of_succ_le ha))
    · have hnew : Function.update s1.heap s1.next (some ⟨s1.bufferSize, env.junk s1.next, 0⟩) a = some p := hp
      by_cases hne : a = s1.next
      · rw [hne, Function.update_self] at hnew
        obtain rfl := Option.some.inj hnew
        exact (hjunk _).trans hsame.bufferSize.symm
      · exact hs1.length a p ((Function.update_of_ne hne ..).symm.trans hnew)

end acquire

/-! ### recvmmsg -/

/-- The kernel's writes change the heap and nothing else. -/
theorem write_eq (slots : List ℕ) (data : List (List UInt8)) (u : UdpReceiver) :
    u.write slots data = { u with heap := (u.write slots data).heap } := by
  obtain ⟨-, -, hrest⟩ := UdpReceiver.write_spec slots data u
  calc u.write slots data
      = { { u.write slots data with heap := u.heap } with heap := (u.write slots data).heap } := rfl
    _ = { u with heap := (u.write slots data).heap } := by rw [hrest]

/-- What the kernel stores through the headers, as bytes of the buffers. -/
theorem receive_writes : ∀ (packets : List (Packet ρ)) (k : ℕ) {slots : List ℕ} {b : Batch ρ} {s : Receiver ρ},
    Laid slots s → Aligned slots.length k slots b s → k + packets.length ≤ slots.length →
    ∃ data heap, (∀ bytes ∈ data, bytes.length = s.bufferSize) ∧
      (receive (b, s) k packets).2 = { s with heap } ∧ Laid slots { s with heap } ∧
      ∀ u : UdpReceiver, u.heap = s.heap → (u.write (slots.drop k) data).heap = heap
  | [], k, slots, b, s, hs, _, _ => by
    refine ⟨[], s.heap, by simp, rfl, hs, fun u hu => ?_⟩
    simp [UdpReceiver.write, hu]
  | packet :: packets, k, slots, b, s, hs, halign, hle => by
    rw [List.length_cons] at hle
    have hk : k < slots.length := by omega
    have ha : slots[k]? = some slots[k] := List.getElem?_eq_getElem hk
    obtain ⟨p, hp, hcap⟩ := hs.buffers slots[k] (hs.lt _ (List.mem_append_left _ (List.getElem_mem hk)))
    obtain ⟨hstock1, halign1, -⟩ := store_spec hs.toStock halign rfl hk packet
    have hlen : (overwrite p.data 0 (packet.bytes.take s.bufferSize)).length = p.data.length := by
      refine length_overwrite ?_
      rw [hs.length _ p hp, List.length_take]
      omega
    rw [store_eq halign ha packet] at hstock1 halign1
    have hs1 := hs.move hstock1 rfl rfl (heap_update_length fun q hq => by
      obtain rfl := Option.some.inj (hp.symm.trans hq)
      exact hlen)
    obtain ⟨data, heap, hdata, hrec, hs', hwrite⟩ := receive_writes packets (k + 1) hs1 halign1 (by omega)
    refine ⟨overwrite p.data 0 (packet.bytes.take s.bufferSize) :: data, heap, ?_, ?_, hs', fun u hu => ?_⟩
    · intro bytes hbytes
      rcases List.mem_cons.mp hbytes with rfl | hbytes
      · rw [hlen, hs.length _ p hp]
      · exact hdata bytes hbytes
    · rw [receive, store_eq halign ha packet]
      exact hrec
    · rw [List.drop_eq_getElem_cons hk]
      refine hwrite (u.setBuffer slots[k] fun q =>
        { q with data := overwrite p.data 0 (packet.bytes.take s.bufferSize) }) ?_
      show Function.update u.heap slots[k] _ = Function.update s.heap slots[k] _
      rw [hu, hp]
      rfl

/-- What `recvmmsg` says about a datagram. -/
def Packet.message (bufferSize : ℕ) (packet : Packet ρ) : Message :=
  ⟨packet.bytes.length, bufferSize < packet.bytes.length⟩

/-- In the loop over the messages: `kept` are the buffers of the datagrams
behind it, and the headers are filled for these packets. -/
structure Unpacking (kept slots : List ℕ) (i : ℕ) (packets : List (Packet ρ)) (b : Batch ρ) (s : Receiver ρ) :
    Prop where
  laid : Laid (kept ++ slots) s
  datagrams : ∃ done : List (Datagram ρ), b.datagrams = done ++ slots.map Datagram.fresh ∧ done.length = i ∧
    done.filterMap Datagram.buffer = kept
  headers : ∀ j q, packets[j]? = some q →
    b.messages[i + j]? = some (MmsgHdr.mk (i + j) (i + j) q.bytes.length (s.bufferSize < q.bytes.length))
  peers : ∀ j q, packets[j]? = some q → b.peerAddresses[i + j]? = some (some q.peer)

theorem Unpacking.buffers {kept slots : List ℕ} {i : ℕ} {packets : List (Packet ρ)} {b : Batch ρ} {s : Receiver ρ}
    (h : Unpacking kept slots i packets b s) : b.datagrams.filterMap Datagram.buffer = kept ++ slots := by
  obtain ⟨done, hb, -, hkept⟩ := h.datagrams
  rw [hb, List.filterMap_append, hkept, filterMap_fresh]

section recvmmsg

variable {s : Receiver ρ} {u : UdpReceiver} {slots : List ℕ} {read : ℕ}

/-- `recvmmsg` fails: nothing is written. -/
theorem failed_leads (h : Agrees (.filling read slots) s u) (hlen : slots.length = vlen s.maxPacketsPerRead read)
    (n : ℕ) :
    Leads u (.unwinding slots (some read)) { s with calls := n } ∧
      Leads u (.unwinding slots none) { s with calls := n } := by
  have hfull : slots.length = u.batchSize read := by
    unfold UdpReceiver.batchSize
    rw [h.maxPacketsPerRead]
    exact hlen
  have hwrite : u.write slots [] = u := by simp [UdpReceiver.write]
  have hagrees : ∀ next, Agrees (.unwinding slots next) { s with calls := n } { u with pc := .unwinding slots next } :=
    fun next => (h.count s.next s.acquires n).goTo (.unwinding slots next)
  constructor
  · refine .step (a := .recvmmsg .interrupted []) ?_ ?_ (hagrees (some read)).leads
    · simp [udpEnabled, h.pc, hfull, RecvResult.fits]
    · simp only [udpStep, h.pc, UdpReceiver.recvmmsg, hwrite]
  · refine .step (a := .recvmmsg .failed []) ?_ ?_ (hagrees none).leads
    · simp [udpEnabled, h.pc, hfull, RecvResult.fits]
    · simp only [udpStep, h.pc, UdpReceiver.recvmmsg, hwrite]

/-- `recvmmsg` takes datagrams from the socket. -/
theorem received_leads (h : Agrees (.filling read slots) s u) (hlen : slots.length = vlen s.maxPacketsPerRead read)
    {b : Batch ρ} (hs : Laid slots s) (halign : Aligned slots.length 0 slots b s) {packets : List (Packet ρ)}
    (hle : packets.length ≤ slots.length) :
    ∃ b' s', receive (b, s) 0 packets = (b', s') ∧ Unpacking [] slots 0 packets b' s' ∧ SameSetup s s' ∧
      Leads u (if packets = [] then .unwinding slots none
        else .delivering (read + packets.length) [] slots (packets.map (Packet.message s.bufferSize))) s' := by
  obtain ⟨b', s', hrec, -, hdata, hholds, hsame⟩ :=
    receive_spec rfl packets [] hs.toStock halign (by simpa using hle) (by simp)
  rw [List.length_nil] at hrec
  obtain ⟨data, heap, hbytes, hrec', hs', hwrite⟩ := receive_writes packets 0 hs halign (by omega)
  obtain rfl : s' = { s with heap } := by
    rw [← hrec', hrec]
  refine ⟨b', _, hrec, ⟨by simpa using hs', ⟨[], hdata, rfl, rfl⟩, fun j q hq => ?_, fun j q hq => ?_⟩,
    hsame.toSameSetup, ?_⟩
  · rw [Nat.zero_add]
    exact (hholds j q (by simpa using hq)).header
  · rw [Nat.zero_add]
    exact (hholds j q (by simpa using hq)).peer
  have hfull : slots.length = u.batchSize read := by
    unfold UdpReceiver.batchSize
    rw [h.maxPacketsPerRead]
    exact hlen
  have hheap : (u.write slots data).heap = heap := hwrite u h.heap
  generalize hnext : (if packets = [] then ReadPc.unwinding slots none else
    .delivering (read + packets.length) [] slots (packets.map (Packet.message s.bufferSize))) = next
  have hagrees : Agrees next { s with heap } { u with heap, freeBuffers := s.freeBuffers, pc := next } :=
    (h.pool heap s.freeBuffers).goTo next
  refine .step (a := .recvmmsg (.received (packets.map (Packet.message s.bufferSize))) data) ?_ ?_ hagrees.leads
  · simp only [udpEnabled, h.pc, hfull, RecvResult.fits, List.length_map, decide_true, Bool.true_and,
      Bool.and_eq_true, decide_eq_true_eq, List.all_eq_true]
    refine ⟨hfull ▸ hle, fun bytes hin => ?_⟩
    rw [h.bufferSize]
    exact hbytes bytes hin
  · simp only [udpStep, h.pc, UdpReceiver.recvmmsg, List.map_eq_nil_iff, List.length_map]
    rw [write_eq, hheap, ← hnext, ← h.freeBuffers]
    split <;> rfl

end recvmmsg

/-! ### The deliveries -/

/-- `Stop`, on the thread of a receiver whose channel is in order. -/
theorem stop_returns {u : UdpReceiver} (h : u.channel.Synced) :
    ∃ ch, ch.Synced ∧ u.stop = .ok ({ u with channel := ch, started := false }.log .stopped) := by
  unfold UdpReceiver.stop
  cases hstarted : u.started with
  | false =>
    have hsame : { u with channel := u.channel, started := false } = u := by rw [← hstarted]
    refine ⟨u.channel, h, ?_⟩
    rw [hsame]
    rfl
  | true =>
    obtain ⟨ch, hdisable, hch, -, hevents, -⟩ := Channel.update_spec h Events.kNoneEvent
    obtain ⟨ch', hremove, hch', -⟩ := Channel.remove_spec hch hevents
    refine ⟨ch', hch', ?_⟩
    have hdisable' : u.channel.disableAll true = .ok ch := hdisable
    simp only [Bool.not_true, Bool.false_eq_true, if_false, hdisable', hremove, ok_bind, pure_eq_ok]

/-- After a delivery the loop goes on, or what is left of `datagrams` is
destroyed. -/
def afterPc (started : Bool) (read : ℕ) (kept slots : List ℕ) (messages : List Message) : ReadPc :=
  if started then .delivering read kept slots messages else .unwinding (kept ++ slots) none

theorem afterDelivery_agrees {s : Receiver ρ} {u : UdpReceiver} {pc : ReadPc} (h : Agrees pc s u) (read : ℕ)
    (kept slots : List ℕ) (messages : List Message) :
    Agrees (afterPc s.started read kept slots messages) s (u.afterDelivery read kept slots messages) := by
  have hafter : u.afterDelivery read kept slots messages =
      { u with pc := afterPc s.started read kept slots messages } := by
    unfold UdpReceiver.afterDelivery afterPc
    rw [h.started]
    split <;> rfl
  rw [hafter]
  exact h.goTo _

/-- The message callback may call `Stop`, and returns. -/
theorem callback_leads {s : Receiver ρ} {u : UdpReceiver} {read : ℕ} {kept slots : List ℕ} {messages : List Message}
    (h : Agrees (.inCallback read kept slots messages) s u) (stops : Bool) :
    Leads u (afterPc (s.started && !stops) read kept slots messages) { s with started := s.started && !stops } := by
  have hreturn : ∀ {t : Receiver ρ} {v : UdpReceiver}, Agrees (.inCallback read kept slots messages) t v →
      Leads v (afterPc t.started read kept slots messages) t := by
    intro t v hv
    refine .step (a := .returnCallback) ?_ ?_ (afterDelivery_agrees hv read kept slots messages).leads
    · simp [udpEnabled, hv.pc]
    · simp [udpStep, hv.pc, UdpReceiver.returnCallback, hv.alive]
  cases stops with
  | false =>
    simp only [Bool.not_false, Bool.and_true]
    exact hreturn h
  | true =>
    simp only [Bool.not_true, Bool.and_false]
    obtain ⟨ch, hch, hstop⟩ := stop_returns h.synced
    refine .step (a := .stop) ?_ hstop (hreturn (t := { s with started := false }) ?_)
    · simp [udpEnabled, h.pc, ReadPc.inUserCode, h.alive]
    · exact ⟨h.pc, h.maxPacketsPerRead, h.bufferSize, rfl, h.messageCallback, h.heap, h.freeBuffers, h.held,
        by simpa [UdpReceiver.log] using h.invoked, h.shown, h.alive, hch⟩

/-- One delivery. Without a callback the datagram stays where it is. -/
theorem deliver_leads (env : Env ρ) (receiveTime : ℤ) {s : Receiver ρ} {u : UdpReceiver} {kept slots : List ℕ}
    {a i read : ℕ} {b : Batch ρ} {packet : Packet ρ} {packets : List (Packet ρ)} {messages : List Message}
    (h : Unpacking kept (a :: slots) i (packet :: packets) b s)
    (hu : Agrees (.delivering read kept (a :: slots) (packet.message s.bufferSize :: messages)) s u) :
    ∃ left b' s', deliver env receiveTime b s i = .ok (b', s') ∧ Unpacking left slots (i + 1) packets b' s' ∧
      s'.maxPacketsPerRead = s.maxPacketsPerRead ∧ s'.bufferSize = s.bufferSize ∧
      Leads u (afterPc s'.started read left slots messages) s' := by
  obtain ⟨done, hb, hlen, hkept⟩ := h.datagrams
  obtain ⟨p, hp, hcap⟩ := h.laid.buffers a (h.laid.lt a (by simp))
  have hheader := h.headers 0 packet rfl
  have hpeer := h.peers 0 packet rfl
  rw [Nat.add_zero] at hheader hpeer
  have hdatagram : b.datagrams[i]? = some (Datagram.fresh a) := by
    rw [hb, ← hlen, List.map_cons, List.getElem?_append_right (Nat.le_refl _), Nat.sub_self]
    rfl
  have hset : ∀ d : Datagram ρ, b.datagrams.set i d = (done ++ [d]) ++ slots.map Datagram.fresh := by
    intro d
    rw [hb, ← hlen, List.map_cons, List.set_append_right _ _ (Nat.le_refl _), Nat.sub_self, List.set_cons_zero,
      List.append_assoc]
    rfl
  set size := min packet.bytes.length p.capacity with hsize
  set heap := Function.update s.heap a (some { p with size := size }) with hheap
  have hle : size ≤ p.capacity := Nat.min_le_right ..
  have hheap' : heap = Function.update s.heap a ((s.heap a).map fun q => { q with size := size }) := by
    rw [hheap, hp]
    rfl
  have hheaders : ∀ j q, packets[j]? = some q → b.messages[i + 1 + j]? =
      some (MmsgHdr.mk (i + 1 + j) (i + 1 + j) q.bytes.length (s.bufferSize < q.bytes.length)) := by
    intro j q hq
    rw [Nat.add_assoc, Nat.add_comm 1 j]
    exact h.headers (j + 1) q hq
  have hpeers : ∀ j q, packets[j]? = some q → b.peerAddresses[i + 1 + j]? = some (some q.peer) := by
    intro j q hq
    rw [Nat.add_assoc, Nat.add_comm 1 j]
    exact h.peers (j + 1) q hq
  have hu1 : Agrees (.delivering read kept (a :: slots) (packet.message s.bufferSize :: messages)) { s with heap }
      (u.setSize a size) := by
    have hset : u.setSize a size = { u with heap, freeBuffers := s.freeBuffers } := by
      unfold UdpReceiver.setSize UdpReceiver.setBuffer
      rw [hu.heap, ← hheap', ← hu.freeBuffers]
    rw [hset]
    exact hu.pool heap s.freeBuffers
  generalize htruncated : (decide (s.bufferSize < packet.bytes.length) || decide (p.capacity < packet.bytes.length)) =
    truncated
  have hlaid : Laid (kept ++ a :: slots) { s with heap } := by
    have hstock : Stock (kept ++ a :: slots) { s with heap } := by
      refine h.laid.toStock.move (List.Perm.refl _) rfl rfl ?_
      rw [hheap']
      exact heap_update fun _ => rfl
    refine h.laid.move hstock rfl rfl ?_
    rw [hheap']
    exact heap_update_length fun _ _ => rfl
  have hen : udpEnabled u .deliver = true := by simp [udpEnabled, hu.pc]
  have hp' : u.heap a = some p := by rw [hu.heap, hp]
  cases hcb : s.messageCallback with
  | false =>
    refine ⟨kept ++ [a],
      { b with datagrams := b.datagrams.set i ⟨some a, some packet.peer, receiveTime, packet.bytes.length, truncated⟩ },
      { s with heap }, ?_, ⟨?_, ⟨_, hset _, by simp [hlen], ?_⟩, hheaders, hpeers⟩, rfl, rfl, ?_⟩
    · unfold deliver
      simp only [hdatagram, hheader, hpeer, Datagram.fresh, hp, ← hsize, if_pos hle, hcb, htruncated]
      rfl
    · rw [List.append_assoc]
      exact hlaid
    · simp [hkept]
    · refine .step hen ?_ (afterDelivery_agrees hu1 read (kept ++ [a]) slots messages).leads
      have hcb' : (u.setSize a size).messageCallback = false := hu1.messageCallback.trans hcb
      simp only [udpStep, hu.pc, UdpReceiver.deliver, hp', Packet.message, ← hsize, hcb']
      rfl
  | true =>
    -- the buffer goes into the hands of the callback
    obtain ⟨view, hview⟩ : ∃ view : View ρ, view =
      ⟨p.data.take size, size, packet.bytes.length, truncated, some packet.peer, receiveTime⟩ := ⟨_, rfl⟩
    refine ⟨kept, { b with datagrams := b.datagrams.set i { Datagram.fresh a with buffer := none } },
      { s with
        heap
        held := a :: s.held
        delivered := s.delivered ++ [view]
        started := s.started && !env.stops s.delivered.length },
      ?_, ⟨?_, ⟨_, hset _, by simp [hlen], ?_⟩, hheaders, hpeers⟩, rfl, rfl, ?_⟩
    · unfold deliver
      simp only [hdatagram, hheader, hpeer, Datagram.fresh, hp, ← hsize, if_pos hle, hcb, htruncated, hview, if_true]
      rfl
    · refine hlaid.move (hlaid.toStock.move ?_ rfl rfl fun c q hq => ⟨q, hq, rfl⟩) rfl rfl fun c q hq => ⟨q, hq, rfl⟩
      have hfree : (s.freeBuffers ++ a :: s.held).Perm (a :: (s.freeBuffers ++ s.held)) := List.perm_middle
      rw [List.append_assoc kept slots, List.append_assoc kept (a :: slots)]
      exact ((hfree.append_left slots).trans List.perm_middle).append_left kept
    · simp [hkept, Datagram.fresh]
    · have hcalled : Agrees (.inCallback read kept slots messages)
          { s with heap, held := a :: s.held, delivered := s.delivered ++ [view] }
          ({ u.setSize a size with
            handles := ⟨a, packet.bytes.length, truncated, ⟨p.data, size, packet.bytes.length, truncated⟩⟩ :: u.handles
            pc := .inCallback read kept slots messages }.log .message) := by
        constructor
        case pc => rfl
        case maxPacketsPerRead => exact hu1.maxPacketsPerRead
        case bufferSize => exact hu1.bufferSize
        case started => exact hu1.started
        case messageCallback => exact hu1.messageCallback
        case heap => exact hu1.heap
        case freeBuffers => exact hu1.freeBuffers
        case held => exact hu.held.cons a
        case invoked =>
          show (.message :: u.trace).count .message = _
          rw [List.count_cons_self, hu.invoked, List.length_append, List.length_singleton]
        case shown =>
          intro d hd
          rcases List.mem_cons.mp hd with rfl | hd
          · refine ⟨view, List.mem_append_right _ (List.mem_singleton_self _), ?_⟩
            rw [hview]
            exact ⟨rfl, rfl, rfl, rfl⟩
          · obtain ⟨v, hv, hshows⟩ := hu.shown d hd
            exact ⟨v, List.mem_append_left _ hv, hshows⟩
        case alive => exact hu1.alive
        case synced => exact hu1.synced
      refine .step hen ?_ (callback_leads hcalled (env.stops s.delivered.length))
      have hcb' : (u.setSize a size).messageCallback = true := hu1.messageCallback.trans hcb
      simp only [udpStep, hu.pc, UdpReceiver.deliver, hp', Packet.message, ← hsize, hcb', if_true, htruncated]
      rfl

/-- The loop over the messages, and where the rest of `datagrams` is destroyed:
another round follows when the batch was full. -/
theorem deliverAll_leads (env : Env ρ) (receiveTime : ℤ) {read : ℕ} : ∀ (packets : List (Packet ρ)) (i : ℕ)
    {kept slots : List ℕ} {b : Batch ρ} {s : Receiver ρ} {u : UdpReceiver}, Unpacking kept slots i packets b s →
    (packets = [] → s.started = true) → packets.length ≤ slots.length →
    Agrees (.delivering read kept slots (packets.map (Packet.message s.bufferSize))) s u →
    ∃ left b' s', deliverAll env receiveTime packets.length i b s = .ok (b', s') ∧
      b'.datagrams.filterMap Datagram.buffer = left ∧ Laid left s' ∧ s'.bufferSize = s.bufferSize ∧
      s'.maxPacketsPerRead = s.maxPacketsPerRead ∧
      Leads u (.unwinding left (if s'.started ∧ packets.length = slots.length then some read else none)) s'
  | [], i, kept, slots, b, s, u, h, hstarted, _, hu => by
    have hnext : (if s.started ∧ ([] : List (Packet ρ)).length = slots.length then some read else none) =
        if slots = [] then some read else none := by
      refine if_congr ?_ rfl rfl
      simp [hstarted rfl, eq_comm, List.length_eq_zero_iff]
    have hagrees : Agrees (.unwinding (kept ++ slots) (if slots = [] then some read else none)) s
        (u.finishBatch read kept slots) := hu.goTo _
    refine ⟨kept ++ slots, b, s, rfl, h.buffers, h.laid, rfl, rfl, ?_⟩
    rw [hnext]
    refine .step (a := .finishBatch) ?_ ?_ hagrees.leads
    · simp [udpEnabled, hu.pc]
    · simp only [udpStep, hu.pc, List.map_nil]
  | packet :: packets, i, kept, [], b, s, u, _, _, hle, _ => by simp at hle
  | packet :: packets, i, kept, a :: slots, b, s, u, h, _, hle, hu => by
    simp only [List.length_cons, Nat.add_le_add_iff_right] at hle
    obtain ⟨left, b1, s1, hdeliver, h1, hmax1, hsize1, is, v, htakes, hv⟩ :=
      deliver_leads env receiveTime h hu
    cases hs1 : s1.started with
    | false =>
      rw [hs1] at hv
      refine ⟨left ++ slots, b1, s1, ?_, h1.buffers, h1.laid, hsize1, hmax1, ?_⟩
      · simp [deliverAll, hdeliver, hs1]
      · have hstopped : ¬ (s1.started = true ∧ (packet :: packets).length = (a :: slots).length) := by simp [hs1]
        rw [if_neg hstopped]
        exact hv.leads.after htakes
    | true =>
      rw [hs1, ← hsize1] at hv
      obtain ⟨left', b2, s2, hall, hbuffers, hlaid, hsize2, hmax2, hleads⟩ :=
        deliverAll_leads env receiveTime packets (i + 1) h1 (fun _ => hs1) hle hv
      refine ⟨left', b2, s2, ?_, hbuffers, hlaid, hsize2.trans hsize1, hmax2.trans hmax1, ?_⟩
      · simp [deliverAll, hdeliver, hs1, hall]
      · simp only [List.length_cons, Nat.add_right_cancel_iff]
        exact hleads.after htakes

/-! ### The end of a round -/

theorem unwind_leads {next : Option ℕ} : ∀ (left : List ℕ) {s : Receiver ρ} {u : UdpReceiver},
    Agrees (.unwinding left next) s u → Laid left s →
    Leads u (.unwinding [] next) (left.foldl Receiver.release s) ∧ Laid [] (left.foldl Receiver.release s)
  | [], _, _, h, hs => ⟨h.leads, hs⟩
  | a :: left, s, u, h, hs => by
    have hs1 : Laid left (s.release a) :=
      hs.move (hs.toStock.move List.perm_middle rfl rfl (heap_update fun _ => rfl)) rfl rfl
        (heap_update_length fun _ _ => rfl)
    have h1 : Agrees (.unwinding left next) (s.release a) (u.unwind a left next) := by
      have hunwind : u.unwind a left next =
          { u with
            heap := (s.release a).heap
            freeBuffers := (s.release a).freeBuffers
            pc := .unwinding left next } := by
        unfold UdpReceiver.unwind UdpReceiver.resetBuffer UdpReceiver.setBuffer
        rw [h.heap, h.freeBuffers]
        rfl
      rw [hunwind]
      exact (h.pool _ _).goTo _
    obtain ⟨hleads, hs'⟩ := unwind_leads left h1 hs1
    refine ⟨.step (a := .unwind) ?_ ?_ hleads, hs'⟩
    · simp [udpEnabled, h.pc]
    · simp only [udpStep, h.pc]

/-- The test of the `while`. -/
def roundPc (max read : ℕ) : ReadPc := if read < max then .filling read [] else .outside

/-- The round is over: the next one begins, or `HandleRead` returns. -/
theorem destroy_leads {b : Batch ρ} {left : List ℕ} {s : Receiver ρ} {u : UdpReceiver} {next : Option ℕ}
    (h : Agrees (.unwinding left next) s u) (hs : Laid left s) (hb : b.datagrams.filterMap Datagram.buffer = left) :
    Leads u (next.elim .outside (roundPc s.maxPacketsPerRead)) (destroy b s) ∧ Laid [] (destroy b s) := by
  unfold destroy
  rw [hb]
  obtain ⟨⟨is, v, htakes, hv⟩, hs'⟩ := unwind_leads left h hs
  obtain ⟨-, hsame⟩ := destroys_spec left hs.toStock
  have hround : Agrees (next.elim .outside (roundPc s.maxPacketsPerRead)) (left.foldl Receiver.release s)
      (v.leaveRound next) := by
    have hpc : v.leaveRound next = { v with pc := next.elim .outside (roundPc s.maxPacketsPerRead) } := by
      rw [← hsame.maxPacketsPerRead, ← hv.maxPacketsPerRead]
      cases next <;> rfl
    rw [hpc]
    exact hv.goTo _
  refine ⟨(Leads.step (a := .leaveRound) ?_ ?_ hround.leads).after htakes, hs'⟩
  · simp [udpEnabled, hv.pc]
  · simp only [udpStep, hv.pc]

/-! ### HandleRead -/

theorem prepare_leads {env : Env ρ} {s s1 : Receiver ρ} {u : UdpReceiver} {b : Batch ρ} {read : ℕ}
    (hprep : prepare env (vlen s.maxPacketsPerRead read) s = (b, s1)) (hjunk : ∀ n, (env.junk n).length = s.bufferSize)
    (hu : Agrees (.filling read []) s u) (hs : Laid [] s) :
    ∃ slots, slots.length = vlen s.maxPacketsPerRead read ∧ Aligned slots.length 0 slots b s1 ∧ SameReads s s1 ∧
      Laid slots s1 ∧ Leads u (.filling read slots) s1 := by
  have hacquire : ∀ slots t, slots.length < vlen s.maxPacketsPerRead read → SameReads s t →
      Laid slots t ∧ Leads u (.filling read slots) t →
      Laid (slots ++ [(t.acquire env).1]) (t.acquire env).2 ∧
        Leads u (.filling read (slots ++ [(t.acquire env).1])) (t.acquire env).2 := by
    rintro slots t hlt hsame ⟨ht, is, v, htakes, hv⟩
    obtain ⟨hnext, ht'⟩ := acquire_leads (by rwa [hsame.bufferSize]) hv ht (by rwa [hsame.maxPacketsPerRead])
    exact ⟨ht', hnext.after htakes⟩
  obtain ⟨slots, hlen, -, halign, hsame, hs1, hleads⟩ := prepare_keeps env hs.toStock
    (P := fun slots t => Laid slots t ∧ Leads u (.filling read slots) t) ⟨hs, hu.leads⟩ hacquire
  rw [hprep] at halign hsame hs1 hleads
  exact ⟨slots, hlen, hlen ▸ halign, hsame, hs1, hleads⟩

section Round

variable {s : Receiver ρ} {u : UdpReceiver} {slots : List ℕ} {b : Batch ρ} {read : ℕ}
  (hlen : slots.length = vlen s.maxPacketsPerRead read) (halign : Aligned slots.length 0 slots b s) (hs : Laid slots s)
  (hu : Agrees (.filling read slots) s u)
include hlen halign hs hu

theorem failedRound_leads :
    SameSetup s (destroy b { s with calls := s.calls + 1 }) ∧ Laid [] (destroy b { s with calls := s.calls + 1 }) ∧
      Leads u (roundPc s.maxPacketsPerRead read) (destroy b { s with calls := s.calls + 1 }) ∧
      Leads u .outside (destroy b { s with calls := s.calls + 1 }) := by
  have hs1 : Laid slots { s with calls := s.calls + 1 } := ⟨⟨hs.distinct, hs.lt, hs.buffers⟩, hs.unmade, hs.length⟩
  have hbuffers : b.datagrams.filterMap Datagram.buffer = slots := by rw [halign.datagrams, filterMap_fresh]
  obtain ⟨⟨is, v, htakes, hv⟩, js, w, htakes', hw⟩ := failed_leads hu hlen (s.calls + 1)
  obtain ⟨hagain, -⟩ := destroy_leads hv hs1 hbuffers
  obtain ⟨hover, hs'⟩ := destroy_leads hw hs1 hbuffers
  obtain ⟨-, hsame⟩ := destroy_spec hs1.toStock hbuffers
  have hcount : SameSetup s { s with calls := s.calls + 1 } := ⟨rfl, rfl, rfl, rfl⟩
  exact ⟨hcount.trans hsame.toSameSetup, hs', hagain.after htakes, hover.after htakes'⟩

theorem receivedRound_leads (env : Env ρ) (receiveTime : ℤ) {packets : List (Packet ρ)}
    (hle : packets.length ≤ slots.length) {b2 : Batch ρ} {s2 : Receiver ρ}
    (hrec : receive (b, { s with calls := s.calls + 1 }) 0 packets = (b2, s2)) :
    (packets = [] → Leads u .outside (destroy b2 s2) ∧ Laid [] (destroy b2 s2)) ∧
      (packets ≠ [] → ∃ b3 s3, deliverAll env receiveTime packets.length 0 b2 s2 = .ok (b3, s3) ∧
        Laid [] (destroy b3 s3) ∧ (destroy b3 s3).maxPacketsPerRead = s.maxPacketsPerRead ∧
        (destroy b3 s3).bufferSize = s.bufferSize ∧
        Leads u (if (destroy b3 s3).started ∧ packets.length = slots.length
          then roundPc s.maxPacketsPerRead (read + packets.length) else .outside) (destroy b3 s3)) := by
  have hs1 : Laid slots { s with calls := s.calls + 1 } := ⟨⟨hs.distinct, hs.lt, hs.buffers⟩, hs.unmade, hs.length⟩
  have halign1 : Aligned slots.length 0 slots b { s with calls := s.calls + 1 } :=
    ⟨halign.datagrams, halign.peers, halign.headers, halign.vectors, halign.iov, halign.hdr⟩
  have hu1 : Agrees (.filling read slots) { s with calls := s.calls + 1 } u :=
    hu.count s.next s.acquires (s.calls + 1)
  obtain ⟨b', s', hrec', hunpack, hsame, is, v, htakes, hv⟩ := received_leads hu1 hlen hs1 halign1 hle
  obtain ⟨rfl, rfl⟩ := Prod.mk.inj (hrec.symm.trans hrec')
  constructor
  · intro hnil
    rw [if_pos hnil] at hv
    have hlaid : Laid slots s2 := hunpack.laid
    obtain ⟨hover, hs'⟩ := destroy_leads hv hlaid hunpack.buffers
    exact ⟨hover.after htakes, hs'⟩
  · intro hsome
    rw [if_neg hsome] at hv
    have hsize : s2.bufferSize = s.bufferSize := hsame.bufferSize
    obtain ⟨left, b3, s3, hall, hbuffers, hlaid, hsize3, hmax3, js, w, htakes', hw⟩ :=
      deliverAll_leads env receiveTime packets 0 hunpack (fun hnil => absurd hnil hsome) hle (by rwa [hsize])
    obtain ⟨hround, hs'⟩ := destroy_leads hw hlaid hbuffers
    obtain ⟨-, hsame3⟩ := destroy_spec hlaid.toStock hbuffers
    have hmax : s3.maxPacketsPerRead = s.maxPacketsPerRead := hmax3.trans hsame.maxPacketsPerRead
    refine ⟨b3, s3, hall, hs', hsame3.maxPacketsPerRead.trans hmax, hsame3.bufferSize.trans (hsize3.trans hsize), ?_⟩
    rw [hsame3.started, ← hmax]
    have hnext : (if s3.started ∧ packets.length = slots.length then some (read + packets.length) else none).elim
          ReadPc.outside (roundPc s3.maxPacketsPerRead) =
        if s3.started ∧ packets.length = slots.length then roundPc s3.maxPacketsPerRead (read + packets.length)
          else .outside := by
      split <;> rfl
    rw [← hnext]
    exact (hround.after htakes').after htakes

end Round

/-- The `while` of `HandleRead`: its rounds are steps of the receiver. -/
theorem handleRead_leads {env : Env ρ} (receiveTime : ℤ)
    (hvlen : ∀ n v packets, env.recvmmsg n v = .received packets → packets.length ≤ v) {s' : Receiver ρ} :
    ∀ (fuel read : ℕ) {s : Receiver ρ} {u : UdpReceiver}, (∀ n, (env.junk n).length = s.bufferSize) → Laid [] s →
    Agrees (roundPc s.maxPacketsPerRead read) s u → handleRead env receiveTime fuel read s = .ok (some s') →
    Leads u .outside s' ∧ Laid [] s' := by
  intro fuel
  induction fuel with
  | zero =>
    intro read s u _ _ _ hret
    cases hret
  | succ fuel ih =>
    intro read s u hjunk hs hu hret
    rw [handleRead] at hret
    split at hret
    case isFalse hread =>
      rw [roundPc, if_neg hread] at hu
      obtain rfl := Option.some.inj (Except.ok.inj hret)
      exact ⟨hu.leads, hs⟩
    case isTrue hread =>
      rw [roundPc, if_pos hread] at hu
      rcases hprep : prepare env (vlen s.maxPacketsPerRead read) s with ⟨b, s1⟩
      obtain ⟨slots, hlen, halign, hsame, hs1, is, v, htakes, hv⟩ := prepare_leads hprep hjunk hu hs
      have hn : min (s.maxPacketsPerRead - read) UdpReceiver.kDefaultMaxPacketPerRead = slots.length := hlen.symm
      have hlen1 : slots.length = vlen s1.maxPacketsPerRead read := by rw [hsame.maxPacketsPerRead, hlen]
      rw [← hlen] at hprep
      simp only [hn, hprep] at hret
      split at hret
      case h_3 packets hout =>
        rcases hrec : receive (b, { s1 with calls := s1.calls + 1 }) 0 packets with ⟨b2, s2⟩
        obtain ⟨hnone, hsome⟩ :=
          receivedRound_leads hlen1 halign hs1 hv env receiveTime (hvlen _ _ _ hout) hrec
        simp only [hrec] at hret
        split at hret
        case isTrue hnil =>
          obtain ⟨hover, hs2⟩ := hnone hnil
          obtain rfl := Option.some.inj (Except.ok.inj hret)
          exact ⟨hover.after htakes, hs2⟩
        case isFalse hpackets =>
          obtain ⟨b3, s3, hall, hs3, hmax, hsize, ks, y, htakes', hy⟩ := hsome hpackets
          simp only [hall, ok_bind] at hret
          by_cases hagain : (destroy b3 s3).started ∧ packets.length = slots.length
          · -- the batch was full: the next round
            obtain ⟨hstarted, hfull⟩ := hagain
            rw [if_pos ⟨hstarted, hfull⟩, ← hmax] at hy
            simp only [hstarted, if_true, hfull, Nat.lt_irrefl, if_false] at hret
            obtain ⟨hrest, hs''⟩ := ih _ (by rwa [hsize, hsame.bufferSize]) hs3 (by rwa [hfull] at hy) hret
            exact ⟨(hrest.after htakes').after htakes, hs''⟩
          · rw [if_neg hagain] at hy
            have hle : packets.length ≤ slots.length := hvlen _ _ _ hout
            have hover : s' = destroy b3 s3 := by
              split at hret
              case isFalse => exact (Option.some.inj (Except.ok.inj hret)).symm
              case isTrue hstarted =>
                have hne : packets.length ≠ slots.length := fun hfull => hagain ⟨hstarted, hfull⟩
                rw [if_pos (Nat.lt_of_le_of_ne hle hne)] at hret
                exact (Option.some.inj (Except.ok.inj hret)).symm
            rw [hover]
            exact ⟨(hy.leads.after htakes').after htakes, hs3⟩
      case h_1 =>
        -- EINTR: the round is done again
        obtain ⟨hsetup, hs', ⟨js, w, htakes', hw⟩, -⟩ := failedRound_leads hlen1 halign hs1 hv
        obtain ⟨hrest, hs''⟩ := ih read (by rwa [hsetup.bufferSize, hsame.bufferSize]) hs'
          (by rwa [hsetup.maxPacketsPerRead]) hret
        exact ⟨(hrest.after htakes').after htakes, hs''⟩
      case h_2 =>
        obtain ⟨-, hs', -, hover⟩ := failedRound_leads hlen1 halign hs1 hv
        obtain rfl := Option.some.inj (Except.ok.inj hret)
        exact ⟨hover.after htakes, hs'⟩

/-- **A call of `HandleRead` is a run of its steps.** Where the channel of a
receiver is handled and its socket is readable: whatever `recvmmsg` returns,
whatever user code gives back in between, and whether or not a callback calls
`Stop`, the steps of the receiver lead to where the call returns, with the same
buffers in the same hands and as many datagrams delivered, of which those still
held showed the same. -/
theorem handleRead_steps {env : Env ρ} (receiveTime : ℤ)
    (hvlen : ∀ n v packets, env.recvmmsg n v = .received packets → packets.length ≤ v) {fuel : ℕ}
    {s s' : Receiver ρ} {u : UdpReceiver} (hjunk : ∀ n, (env.junk n).length = s.bufferSize) (hs : Laid [] s)
    (hu : Agrees .outside s u) (hactive : u.active = true) (hready : .read ∈ TcpConnection.handlers u.channel.revents)
    (hret : handleRead env receiveTime fuel 0 s = .ok (some s')) :
    ∃ is u', Takes udpMachine u (.handleEvent :: is) u' ∧ Agrees .outside s' u' ∧ Laid [] s' := by
  have hen : udpEnabled u .handleEvent = true := by simp [udpEnabled, hu.pc, hactive]
  have hst : udpStep u .handleEvent = .ok { u with active := false, pc := roundPc s.maxPacketsPerRead 0 } := by
    simp only [udpStep, UdpReceiver.handleEvent, hu.alive, Bool.false_eq_true, if_false, if_pos hready,
      UdpReceiver.round, hu.maxPacketsPerRead]
    rfl
  have hu1 : Agrees (roundPc s.maxPacketsPerRead 0) s { u with active := false, pc := roundPc s.maxPacketsPerRead 0 } :=
    ⟨rfl, hu.maxPacketsPerRead, hu.bufferSize, hu.started, hu.messageCallback, hu.heap, hu.freeBuffers, hu.held,
      hu.invoked, hu.shown, hu.alive, hu.synced⟩
  obtain ⟨⟨is, u', htakes, hu'⟩, hs'⟩ := handleRead_leads receiveTime hvlen fuel 0 hjunk hs hu1 hret
  exact ⟨is, u', (Takes.one hen hst).trans htakes, hu', hs'⟩

/-- Two new receivers with the same buffers in their pools. -/
theorem create_agrees (data : List UInt8) (fd bufferSize initialBufferCount maxPacketsPerRead : ℕ)
    (hdata : data.length = bufferSize) :
    Agrees .outside
        (Receiver.create (fun _ => data) bufferSize initialBufferCount maxPacketsPerRead : Receiver ρ)
        (UdpReceiver.create fd maxPacketsPerRead bufferSize (List.range initialBufferCount).reverse data) ∧
      Laid [] (Receiver.create (fun _ => data) bufferSize initialBufferCount maxPacketsPerRead : Receiver ρ) := by
  refine ⟨⟨rfl, rfl, rfl, rfl, rfl, ?_, rfl, .nil, rfl, by simp [UdpReceiver.create], rfl, Channel.create_synced fd⟩,
    stock_create _ _ _ _, fun a ha => ?_, fun a p hp => ?_⟩
  · funext a
    simp [UdpReceiver.create, Receiver.create]
  · exact if_neg (Nat.not_lt.mpr ha)
  · have hnew : (if a < initialBufferCount then some (PacketBuffer.mk bufferSize data 0) else none) = some p := hp
    split at hnew
    · obtain rfl := Option.some.inj hnew
      exact hdata
    · cases hnew

/-- `Start`, where a callback is set: the channel waits for readability. -/
theorem start_returns {u : UdpReceiver} (h : u.channel.Synced) (hoff : u.started = false)
    (hcb : u.messageCallback = true) :
    ∃ ch, ch.Synced ∧ ch.reports { epollIn := true } = true ∧
      u.start = .ok ({ u with channel := ch, started := true }.log .started) := by
  obtain ⟨ev, hev⟩ : ∃ ev : Events, ev = { u.channel.events with epollIn := true, epollPri := true } := ⟨_, rfl⟩
  have hin : ev.epollIn = true := by rw [hev]
  obtain ⟨ch, henable, hch, -, hevents, -, -, hindex⟩ := Channel.update_spec h ev
  have hsome : ev ≠ Events.kNoneEvent := by
    rintro rfl
    cases hin
  rw [if_neg (fun hboth => hsome hboth.2)] at hindex
  have hregistered : ch.registered = some ev := by rw [hch, if_pos hindex, hevents]
  refine ⟨ch, hch, ?_, ?_⟩
  · simp only [Channel.reports, hregistered, decide_eq_true_eq]
    exact ⟨fun _ => hin, nofun, nofun, nofun⟩
  · have henable' : u.channel.enableReading true = .ok ch := by
      unfold Channel.enableReading
      rw [← hev]
      exact henable
    simp [UdpReceiver.start, hoff, hcb, henable']

/-- The callback is set, `Start` is called and the socket becomes readable:
`HandleRead` will be called. -/
theorem start_agrees {s : Receiver ρ} {u : UdpReceiver} (h : Agrees .outside s u) (hoff : u.started = false)
    (hidle : u.active = false) :
    ∃ u', Takes udpMachine u [.setMessageCallback true, .start, .poll (some { epollIn := true })] u' ∧
      Agrees .outside { s with started := true, messageCallback := true } u' ∧ u'.active = true ∧
      .read ∈ TcpConnection.handlers u'.channel.revents := by
  have h1 : Agrees .outside { s with messageCallback := true } { u with messageCallback := true } :=
    ⟨h.pc, h.maxPacketsPerRead, h.bufferSize, h.started, rfl, h.heap, h.freeBuffers, h.held, h.invoked, h.shown,
      h.alive, h.synced⟩
  obtain ⟨ch, hch, hreports, hstart⟩ := start_returns h1.synced hoff rfl
  have hset : Takes udpMachine u [.setMessageCallback true] { u with messageCallback := true } :=
    Takes.one (by simp [udpMachine, udpEnabled, h.pc, h.alive]) rfl
  have hstarts : Takes udpMachine { u with messageCallback := true } [.start] _ :=
    Takes.one (by simp [udpMachine, udpEnabled, h.pc, h.alive, ReadPc.inUserCode]) hstart
  have hpoll : Takes udpMachine _ [.poll (some { epollIn := true })] _ :=
    Takes.one (s := { u with messageCallback := true, channel := ch, started := true }.log .started)
      (by simp [udpMachine, udpEnabled, UdpReceiver.log, h.pc, hidle, hreports]) rfl
  have hready : Handler.read ∈ TcpConnection.handlers { epollIn := true } := by decide
  refine ⟨_, hset.trans (hstarts.trans hpoll), ?_, rfl, hready⟩
  exact ⟨h.pc, h.maxPacketsPerRead, h.bufferSize, rfl, rfl, h.heap, h.freeBuffers, h.held,
    by simpa [UdpReceiver.log] using h.invoked, h.shown, h.alive, hch⟩

end UdpBatch

end MiniMuduo
