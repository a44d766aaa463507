/-
# The thread pool of a server

`EventLoopThreadPool` of `src/EventLoopThreadPool.cc`: `Start` makes the
loops, `GetNextLoop` deals them out in turn. Loop 0 is the base loop and the
pool's loops are numbered from 1 on, in the order of `loops_`; `created` is
`Thread::thread_create_num_`, from which a thread without a name gets one.

For any number of threads, also a negative one, `GetNextLoop` never reads
outside `loops_` and deals the loops in turn (`Dealing.getNextLoop`), and the
init callback has run once on every loop it deals, exactly where the number
is not negative (`pool_deals_initialised`). A server gives its connections to the
loops in that order, and keeps them there, in every run, whatever happens to
the connections: the loads of two loops never differ by more than one
connection (`connections_balanced`).

Key definitions: `EventLoopThreadPool`, `dealt`, `TcpServer.load`.
Key theorems: `Dealing.getNextLoop`, `pool_deals_initialised`,
`TcpServer.Dealt.step`, `connections_balanced`.
-/
import MiniMuduo.Steady
import Mathlib.Data.Nat.Count

namespace MiniMuduo

open Fallible Runs Word TcpConnection

/-- `Thread(task, name)`: the name of the thread, and `thread_create_num_`
after it. -/
def Thread.create (created : ℤ) (name : String) : String × ℤ :=
  (if name = "" then "Thread-" ++ toString created else name, int32 (created + 1))

/-- `EventLoopThreadPool`; `threads` are the names of the threads. -/
structure EventLoopThreadPool where
  numThreads : ℤ
  started : Bool
  baseName : String
  threads : List String
  loops : List ℕ
  next : ℤ
  deriving DecidableEq, Repr

namespace EventLoopThreadPool

/-- `EventLoopThreadPool(base_loop, num_threads, base_name)`. -/
def create (numThreads : ℤ) (baseName : String) : EventLoopThreadPool := ⟨numThreads, false, baseName, [], [], 0⟩

/-- A pass of the loop in `Start`; the init callback runs in the new thread
before `StartLoop` returns. -/
def startThread (cb : Bool) (s : EventLoopThreadPool × ℤ × List ℕ) (i : ℕ) : EventLoopThreadPool × ℤ × List ℕ :=
  let (pool, created, inits) := s
  let threadName := if pool.baseName = "" then "" else pool.baseName ++ toString i
  let (name, created) := Thread.create created threadName
  let loop := pool.loops.length + 1
  ({ pool with threads := pool.threads ++ [name], loops := pool.loops ++ [loop] }, created,
    inits ++ if cb then [loop] else [])

/-- `Start(cb)`: the pool, `thread_create_num_` and the loops that `cb` was
called for. -/
def start (cb : Bool) (created : ℤ) (pool : EventLoopThreadPool) : Except Fault (EventLoopThreadPool × ℤ × List ℕ) :=
  if pool.started then .error .assertion
  else
    let (pool, created, inits) := (List.range pool.numThreads.toNat).foldl (startThread cb) (pool, created, [])
    .ok ({ pool with started := true }, created, inits ++ if pool.numThreads = 0 ∧ cb = true then [0] else [])

/-- `GetNextLoop()`. -/
def getNextLoop (pool : EventLoopThreadPool) : Except Fault (ℕ × EventLoopThreadPool) :=
  if pool.started = false then .error .assertion
  else if pool.loops = [] then .ok (0, pool)
  else
    match pool.loops[sizeOfInt pool.next]? with
    | none => .error .outOfRange
    | some loop =>
      let next := int32 (pool.next + 1)
      .ok (loop, { pool with next := if pool.loops.length ≤ sizeOfInt next then 0 else next })

/-- `k` calls of `GetNextLoop`, one after the other: the loops they give. -/
def getNextLoops : ℕ → EventLoopThreadPool → Except Fault (List ℕ × EventLoopThreadPool)
  | 0, pool => .ok ([], pool)
  | k + 1, pool => do
    let (loops, pool) ← getNextLoops k pool
    let (loop, pool) ← pool.getNextLoop
    return (loops ++ [loop], pool)

end EventLoopThreadPool

/-- The loop of the connection `i` where `n` loops take turns. -/
def dealt (n i : ℕ) : ℕ := if n = 0 then 0 else i % n + 1

namespace EventLoopThreadPool

/-! ### What Start makes -/

/-- The name that the thread `i` of a pool gets when `created` threads were
made before the pool's. -/
def threadName (baseName : String) (created : ℤ) (i : ℕ) : String :=
  if baseName = "" then "Thread-" ++ toString (int32 (created + i)) else baseName ++ toString i

/-- `Start` after `n` passes of its loop. -/
structure Starting (numThreads : ℤ) (baseName : String) (cb : Bool) (created : ℤ) (n : ℕ)
    (s : EventLoopThreadPool × ℤ × List ℕ) : Prop where
  pool : s.1 = ⟨numThreads, false, baseName, (List.range n).map (threadName baseName created),
    (List.range n).map (· + 1), 0⟩
  created : s.2.1 = int32 (created + n)
  inits : s.2.2 = if cb then (List.range n).map (· + 1) else []

theorem Starting.next {numThreads : ℤ} {baseName : String} {cb : Bool} {created : ℤ} {n : ℕ}
    {s : EventLoopThreadPool × ℤ × List ℕ} (h : Starting numThreads baseName cb created n s) :
    Starting numThreads baseName cb created (n + 1) (startThread cb s n) := by
  obtain ⟨pool, created', inits⟩ := s
  obtain ⟨hpool, hcreated, hinits⟩ := h
  simp only at hpool hcreated hinits
  subst hpool hcreated hinits
  refine ⟨?_, ?_, ?_⟩
  · simp only [startThread, Thread.create, List.length_map, List.length_range, List.range_succ, List.map_append,
      List.map_cons, List.map_nil, EventLoopThreadPool.mk.injEq, true_and, and_true]
    refine congrArg (fun name => _ ++ [name]) ?_
    unfold threadName
    by_cases hname : baseName = ""
    · simp [hname]
    · simp [hname]
  · show int32 (int32 (created + n) + 1) = int32 (created + (n + 1 : ℕ))
    unfold int32
    rw [Int.bmod_add_bmod, Nat.cast_succ, Int.add_assoc]
  · cases cb with
    | false => rfl
    | true => simp [startThread, List.range_succ]

theorem startThread_fold (numThreads : ℤ) (baseName : String) (cb : Bool) (created : ℤ) : ∀ n : ℕ,
    Starting numThreads baseName cb created n
      ((List.range n).foldl (startThread cb) (create numThreads baseName, int32 created, []))
  | 0 => ⟨rfl, by simp, by cases cb <;> rfl⟩
  | n + 1 => by
    rw [List.range_succ, List.foldl_append]
    exact (startThread_fold numThreads baseName cb created n).next

theorem start_eq (numThreads : ℤ) (baseName : String) (cb : Bool) (created : ℤ) :
    (create numThreads baseName).start cb (int32 created) =
      .ok (⟨numThreads, true, baseName, (List.range numThreads.toNat).map (threadName baseName created),
          (List.range numThreads.toNat).map (· + 1), 0⟩, int32 (created + numThreads.toNat),
        (if cb then (List.range numThreads.toNat).map (· + 1) else []) ++
          if numThreads = 0 ∧ cb = true then [0] else []) := by
  obtain ⟨hpool, hcreated, hinits⟩ := startThread_fold numThreads baseName cb created numThreads.toNat
  have hstarted : (create numThreads baseName).started = false := rfl
  have hnum : (create numThreads baseName).numThreads = numThreads := rfl
  unfold start
  rw [hstarted, if_neg (by decide), hnum]
  simp only [hpool, hcreated, hinits]

theorem threadName_inj (baseName : String) (created : ℤ) {i j : ℕ} (hi : i < 0x100000000) (hj : j < 0x100000000)
    (h : threadName baseName created i = threadName baseName created j) : i = j := by
  unfold threadName at h
  split at h
  · have hint := Int.repr_injective ((String.append_right_inj _).mp h)
    unfold int32 at hint
    rw [Int.bmod_def, Int.bmod_def] at hint
    omega
  · exact Nat.repr_injective ((String.append_right_inj _).mp h)

/-! ### What GetNextLoop deals -/

/-- A pool of `n` loops that has dealt `k` of them. -/
structure Dealing (n k : ℕ) (pool : EventLoopThreadPool) : Prop where
  started : pool.started = true
  loops : pool.loops = (List.range n).map (· + 1)
  next : pool.next = if n = 0 then 0 else ((k % n : ℕ) : ℤ)

theorem mod_succ_turn {n k : ℕ} (hn : n ≠ 0) :
    (k + 1) % n = if n ≤ k % n + 1 then 0 else k % n + 1 := by
  have hlt := Nat.mod_lt k (Nat.pos_of_ne_zero hn)
  rw [← Nat.mod_add_mod]
  split
  · have heq : k % n + 1 = n := by omega
    rw [heq, Nat.mod_self]
  · exact Nat.mod_eq_of_lt (by omega)

/-- `GetNextLoop` gives the loop whose turn it is. -/
theorem Dealing.getNextLoop {n k : ℕ} {pool : EventLoopThreadPool} (h : Dealing n k pool) (hn : n < 0x80000000) :
    ∃ pool', pool.getNextLoop = .ok (dealt n k, pool') ∧ Dealing n (k + 1) pool' := by
  obtain ⟨hstarted, hloops, hnext⟩ := h
  have hstarted' : ¬ pool.started = false := by simp [hstarted]
  unfold EventLoopThreadPool.getNextLoop
  rw [if_neg hstarted']
  by_cases h0 : n = 0
  · subst h0
    have hnil : pool.loops = [] := hloops
    refine ⟨pool, ?_, hstarted, hloops, hnext⟩
    rw [if_pos hnil]
    rfl
  · have hlt := Nat.mod_lt k (Nat.pos_of_ne_zero h0)
    rw [if_neg h0] at hnext
    have hne : pool.loops ≠ [] := by simp [hloops, h0]
    have hindex : sizeOfInt pool.next = k % n := by
      rw [hnext]
      exact sizeOfInt_natCast (by omega)
    have hint : int32 (pool.next + 1) = ((k % n + 1 : ℕ) : ℤ) := by
      rw [hnext]
      unfold int32
      rw [Int.bmod_eq_iff (by omega)]
      omega
    have hsize : sizeOfInt ((k % n + 1 : ℕ) : ℤ) = k % n + 1 := sizeOfInt_natCast (by omega)
    have hget : pool.loops[k % n]? = some (k % n + 1) := by
      rw [hloops, List.getElem?_map, List.getElem?_range hlt]
      rfl
    have hlength : pool.loops.length = n := by simp [hloops]
    rw [if_neg hne, hindex, hget]
    simp only [hint, hsize, hlength]
    have hdealt : dealt n k = k % n + 1 := if_neg h0
    rw [hdealt]
    refine ⟨_, rfl, hstarted, hloops, ?_⟩
    rw [if_neg h0, mod_succ_turn h0]
    split <;> rfl

/-- **The pool deals its loops in turn, and each has been initialised.** For
every number of threads that `SetThreadNum` can be given, every name and
every number `k` of calls: after `Start`, no `GetNextLoop` reads outside
`loops_`; the calls give the loops one after the other, over and over; the
threads have different names; and the init callback has run once for each
loop that is given out, exactly where the number is not negative (a negative
number leaves the base loop to the connections, without its callback). -/
theorem pool_deals_initialised (numThreads : ℤ) (hint : numThreads < 0x80000000) (baseName : String) (created : ℤ)
    (k : ℕ) : ∃ pool created' inits loops pool',
      (create numThreads baseName).start true (int32 created) = .ok (pool, created', inits) ∧
      pool.getNextLoops k = .ok (loops, pool') ∧ loops = (List.range k).map (dealt numThreads.toNat) ∧
      pool.threads.Nodup ∧ ((∀ loop ∈ loops, inits.count loop = 1) ↔ 0 ≤ numThreads ∨ k = 0) := by
  have hdeal : ∀ {n : ℕ} {pool : EventLoopThreadPool}, n < 0x80000000 → Dealing n 0 pool → ∀ k, ∃ pool',
      pool.getNextLoops k = .ok ((List.range k).map (dealt n), pool') ∧ Dealing n k pool' := by
    intro n pool hn h k
    induction k with
    | zero => exact ⟨pool, rfl, h⟩
    | succ k ih =>
      obtain ⟨pool1, hcalls, h1⟩ := ih
      obtain ⟨pool2, hcall, h2⟩ := h1.getNextLoop hn
      refine ⟨pool2, ?_, h2⟩
      simp [getNextLoops, hcalls, hcall, List.range_succ]
  have hn : numThreads.toNat < 0x80000000 := by omega
  have hstarted : Dealing numThreads.toNat 0 ⟨numThreads, true, baseName,
      (List.range numThreads.toNat).map (threadName baseName created), (List.range numThreads.toNat).map (· + 1), 0⟩ :=
    ⟨rfl, rfl, by split <;> simp⟩
  obtain ⟨pool', hcalls, -⟩ := hdeal hn hstarted k
  refine ⟨_, _, _, _, pool', start_eq numThreads baseName true created, hcalls, rfl, ?_, ?_⟩
  · refine List.Nodup.map_on ?_ List.nodup_range
    intro i hi j hj heq
    rw [List.mem_range] at hi hj
    exact threadName_inj baseName created (by omega) (by omega) heq
  · constructor
    · intro hall
      by_contra hnot
      have hneg : numThreads < 0 ∧ k ≠ 0 := by omega
      have hzero : numThreads.toNat = 0 := by omega
      have hmem : 0 ∈ (List.range k).map (dealt numThreads.toNat) := by
        rw [hzero]
        exact List.mem_map.mpr ⟨0, List.mem_range.mpr (Nat.pos_of_ne_zero hneg.2), rfl⟩
      have hcount := hall 0 hmem
      have hne : ¬ (numThreads = 0 ∧ true = true) := fun h => by omega
      rw [hzero, if_neg hne] at hcount
      cases hcount
    · rintro hnat loop hmem
      obtain ⟨i, hi, rfl⟩ := List.mem_map.mp hmem
      have hk := List.mem_range.mp hi
      unfold dealt
      by_cases h0 : numThreads = 0
      · subst h0
        rfl
      · have hpos : numThreads.toNat ≠ 0 := by omega
        have hlt := Nat.mod_lt i (Nat.pos_of_ne_zero hpos)
        simp only [hpos, h0, if_true, if_false, false_and, List.append_nil]
        refine List.count_eq_one_of_mem ?_ ?_
        · exact List.nodup_range.map (fun a b hab => Nat.succ.inj hab)
        · exact List.mem_map.mpr ⟨i % numThreads.toNat, List.mem_range.mpr hlt, rfl⟩

/-- Five calls on a pool of two named threads. -/
theorem pool_deals_initialised_two : ∃ pool created' inits loops pool',
    (create 2 "io").start true (int32 0) = .ok (pool, created', inits) ∧
    pool.getNextLoops 5 = .ok (loops, pool') ∧ loops = [1, 2, 1, 2, 1] ∧ pool.threads.Nodup ∧
    ∀ loop ∈ loops, inits.count loop = 1 := by
  obtain ⟨pool, created', inits, loops, pool', hstart, hcalls, hloops, hnames, hinit⟩ :=
    pool_deals_initialised 2 (by decide) "io" 0 5
  exact ⟨pool, created', inits, loops, pool', hstart, hcalls, hloops, hnames, hinit.mpr (.inl (by decide))⟩

end EventLoopThreadPool

/-! ### The loops of a server's connections -/

/-- The fd that a step accepts. -/
def ServerStep.acceptedFds : ServerStep → List ℕ
  | .accept (some sockfd) _ => [sockfd]
  | _ => []

namespace TcpServer

theorem setCallbacks_update (s : TcpServer) (writeComplete : Bool) (conns : ℕ → TcpConnection) (j k : ℕ) :
    (Function.update conns k (s.setCallbacks writeComplete (conns k)) j).loop = (conns j).loop ∧
      (Function.update conns k (s.setCallbacks writeComplete (conns k)) j).channel = (conns j).channel := by
  by_cases hk : j = k
  · rw [hk, Function.update_self]
    exact ⟨rfl, rfl⟩
  · rw [Function.update_of_ne hk]
    exact ⟨rfl, rfl⟩

theorem newConnectionCallback_conns (s : TcpServer) (sockfd : ℕ) (writeComplete : Bool) (j : ℕ) :
    ((s.newConnectionCallback sockfd writeComplete).conns j).loop =
        (if j = s.accepted.length then s.getNextLoop.1 else (s.conns j).loop) ∧
      ((s.newConnectionCallback sockfd writeComplete).conns j).channel =
        if j = s.accepted.length then Channel.create sockfd else (s.conns j).channel := by
  rw [newConnectionCallback_eq]
  obtain ⟨hloop, hchannel⟩ := s.setCallbacks_update writeComplete (Function.update s.conns s.accepted.length
    (TcpConnection.create s.getNextLoop.1 s.connName sockfd)) j
      ((s.connections.find s.connName).getD s.accepted.length)
  refine ⟨hloop.trans ?_, hchannel.trans ?_⟩
  · by_cases hnew : j = s.accepted.length
    · rw [if_pos hnew, hnew, Function.update_self]
      rfl
    · rw [if_neg hnew, Function.update_of_ne hnew]
  · by_cases hnew : j = s.accepted.length
    · rw [if_pos hnew, hnew, Function.update_self]
      rfl
    · rw [if_neg hnew, Function.update_of_ne hnew]

theorem newConnectionCallback_accepted (s : TcpServer) (sockfd : ℕ) (writeComplete : Bool) :
    (s.newConnectionCallback sockfd writeComplete).accepted = s.accepted ++ [sockfd] := by
  rw [newConnectionCallback_eq]
  rfl

/-- A step that accepts no connection leaves those accepted as they are. -/
theorem accepted_rooted (fds : List ℕ) : Rooted fun s => s.accepted = fds where
  set h _ := h
  books := by
    intro s s' h heq
    rw [heq]
    exact h

/-- The connections of a server are those that its steps accept. -/
theorem accepted_step {s s' : TcpServer} {a : ServerStep} (hen : s.enabled a = true) (hst : s.step a = .ok s') :
    s'.accepted = s.accepted ++ a.acceptedFds := by
  cases hacc : a.accepts with
  | true =>
    obtain ⟨sockfd, writeComplete, rfl⟩ := accept_of_accepts hacc
    simp only [enabled, Bool.and_eq_true] at hen
    obtain ⟨-, hen⟩ := hen
    split at hen
    case h_1 calls hround =>
      simp only [TcpServer.step, hround] at hst
      cases hst
      exact newConnectionCallback_accepted _ sockfd writeComplete
    case h_2 => cases hen
  | false =>
    have hsame : s'.accepted = s.accepted := by
      refine (accepted_rooted s.accepted).step (fun _ sockfd writeComplete ha _ => ?_) rfl hst
      rw [ha] at hacc
      cases hacc
    have hnone : a.acceptedFds = [] := by
      unfold ServerStep.acceptedFds
      split
      · cases hacc
      · rfl
    rw [hsame, hnone, List.append_nil]

/-- The connections are on the loops that were dealt to them, and the next
loop is the one whose turn it is. -/
structure Dealt (n : ℕ) (s : TcpServer) : Prop where
  numThreads : s.numThreads = n
  next : s.next = if n = 0 then 0 else s.accepted.length % n
  loop : ∀ i < s.accepted.length, (s.conns i).loop = dealt n i

theorem dealt_rooted (n : ℕ) : Rooted (Dealt n) where
  set := by
    intro s i c h hface
    refine ⟨h.numThreads, h.next, fun j hj => ?_⟩
    show (Function.update s.conns i c j).loop = _
    by_cases hji : j = i
    · rw [hji, Function.update_self, hface.loop, ← hji]
      exact h.loop j hj
    · rw [Function.update_of_ne hji]
      exact h.loop j hj
  books := by
    intro s s' h heq
    rw [heq]
    exact ⟨h.numThreads, h.next, h.loop⟩

namespace Dealt

variable {n : ℕ} {s s' : TcpServer} {l : ℕ}

theorem getNextLoop (h : Dealt n s) : s.getNextLoop.1 = dealt n s.accepted.length ∧
    s.getNextLoop.2.next = if n = 0 then 0 else (s.accepted.length + 1) % n := by
  have hnum := h.numThreads
  have hnext := h.next
  unfold TcpServer.getNextLoop dealt
  by_cases h0 : n = 0
  · simp [h0, hnum, hnext]
  · simp only [h0, hnum, hnext, if_false]
    exact ⟨trivial, (EventLoopThreadPool.mod_succ_turn h0).symm⟩

theorem getNextLoop_pool (h : Dealt n s) (hn : n < 0x80000000) {pool : EventLoopThreadPool}
    (hpool : pool.Dealing n s.accepted.length) :
    ∃ pool', pool.getNextLoop = .ok (s.getNextLoop.1, pool') ∧ pool'.next = s.getNextLoop.2.next := by
  obtain ⟨pool', hcall, hnext⟩ := hpool.getNextLoop hn
  obtain ⟨hloop, hturn⟩ := h.getNextLoop
  refine ⟨pool', hloop ▸ hcall, ?_⟩
  rw [hnext.next, hturn]
  split <;> rfl

/-- A new connection goes to the loop whose turn it is. -/
theorem newConnectionCallback (h : Dealt n s) (sockfd : ℕ) (writeComplete : Bool) :
    Dealt n (s.newConnectionCallback sockfd writeComplete) := by
  obtain ⟨hloop, hturn⟩ := h.getNextLoop
  have hlen : (s.newConnectionCallback sockfd writeComplete).accepted.length = s.accepted.length + 1 := by
    rw [newConnectionCallback_accepted, List.length_append, List.length_singleton]
  refine ⟨?_, ?_, fun j hj => ?_⟩
  · rw [newConnectionCallback_eq]
    exact h.numThreads
  · rw [hlen, ← hturn, newConnectionCallback_eq]
    rfl
  · rw [hlen] at hj
    rw [(s.newConnectionCallback_conns sockfd writeComplete j).1]
    by_cases hnew : j = s.accepted.length
    · rw [if_pos hnew, hnew, hloop]
    · rw [if_neg hnew]
      exact h.loop j (by omega)

theorem step (h : Dealt n s) {a : ServerStep} (hst : s.step a = .ok s') : Dealt n s' :=
  (dealt_rooted n).step (fun _ sockfd writeComplete _ h => h.newConnectionCallback sockfd writeComplete) h hst

end Dealt

theorem start_dealt (name : String) (connectionCallback messageCallback : Bool) (n : ℕ) :
    Dealt n (start name connectionCallback messageCallback n) := by
  refine ⟨rfl, ?_, fun i hi => absurd hi (Nat.not_lt_zero i)⟩
  show 0 = if n = 0 then 0 else 0 % n
  split
  · rfl
  · exact (Nat.zero_mod _).symm

/-- The number of connections that were given to the loop `l`. -/
def load (s : TcpServer) (l : ℕ) : ℕ := Nat.count (fun i => (s.conns i).loop = l) s.accepted.length

/-- The load of a loop that takes turns with `n` loops. -/
theorem Dealt.load_eq {n : ℕ} {s : TcpServer} (h : Dealt n s) {l : ℕ} (hl : 1 ≤ l) (hln : l ≤ n) :
    s.load l = s.accepted.length / n + if l ≤ s.accepted.length % n then 1 else 0 := by
  have hn : 0 < n := by omega
  have hcount : s.load l = Nat.count (· ≡ l - 1 [MOD n]) s.accepted.length := by
    unfold load
    rw [Nat.count_eq_card_filter_range, Nat.count_eq_card_filter_range]
    refine congrArg Finset.card (Finset.filter_congr fun i hi => ?_)
    rw [h.loop i (Finset.mem_range.mp hi), dealt, if_neg (by omega), Nat.ModEq, Nat.mod_eq_of_lt (by omega : l - 1 < n)]
    omega
  rw [hcount, Nat.count_modEq_card _ hn, Nat.mod_eq_of_lt (by omega : l - 1 < n)]
  refine congrArg _ (if_congr ?_ rfl rfl)
  omega

end TcpServer

open TcpServer

/-- **The loops of a server share its connections evenly.** In every run of a
server with any number of IO threads, whatever happens to its connections and
also at its end: the server has one connection for each fd that was accepted;
the connection `i` is on the loop whose turn it was and stays there; without IO
threads that is the base loop, and otherwise each IO loop was given the same
number of connections, or one more where its turn came in the last round. -/
theorem connections_balanced (name : String) (connectionCallback messageCallback : Bool) (numThreads : ℕ)
    {tr : List (TcpServer × ServerStep)} {s : TcpServer}
    (hr : Run serverMachine (TcpServer.start name connectionCallback messageCallback numThreads) tr s) :
    s.accepted = gathered (fun _ a => a.acceptedFds) tr ∧
      (∀ i < s.accepted.length, (s.conns i).loop = dealt numThreads i) ∧
      ∀ l, 1 ≤ l → l ≤ numThreads →
        s.load l = s.accepted.length / numThreads + if l ≤ s.accepted.length % numThreads then 1 else 0 := by
  have h : Dealt numThreads s := hr.always (fun t a u ht _ hst => ht.step hst) (start_dealt ..)
  have haccepted : ∀ t a u, serverMachine.enabled t a → serverMachine.step t a = .ok u →
      u.accepted = t.accepted ++ a.acceptedFds := fun _ _ _ hen hst => accepted_step hen hst
  exact ⟨hr.gathers haccepted, h.loop, fun l hl hln => h.load_eq hl hln⟩

/-- Three connections on two loops, the first of which is closed and
removed. -/
theorem connections_balanced_three :
    let steps : List ServerStep := [.poll 0 [(.acceptor, { epollIn := true })], .accept (some 7) false, .swap 0,
      .finish 0, .poll 1 [], .swap 1, .runTask 1 [], .finish 1, .poll 0 [(.acceptor, { epollIn := true })],
      .accept (some 8) false, .poll 1 [(.connection 0, { epollHup := true })], .handle 1 {}, .swap 0,
      .runTask 0 [], .finish 0, .poll 0 [(.acceptor, { epollIn := true })], .accept (some 7) false]
    let s := final serverMachine (TcpServer.start "s" true true 2) steps
    s.removed = [0] ∧ s.accepted = [7, 8, 7] ∧ s.load 1 = 2 ∧ s.load 2 = 1 := by
  intro steps s
  have hrun : Run serverMachine (TcpServer.start "s" true true 2)
      (trace serverMachine (TcpServer.start "s" true true 2) steps) s := run_of_accepts _ _ (by decide +kernel)
  have hlen : s.accepted = [7, 8, 7] := by decide +kernel
  have hload := (connections_balanced "s" true true 2 hrun).2.2
  rw [hlen] at hload
  exact ⟨by decide +kernel, hlen, hload 1 (by decide) (by decide), hload 2 (by decide) (by decide)⟩

end MiniMuduo
