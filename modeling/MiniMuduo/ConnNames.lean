/-
# The names of connections wrap

`NewConnectionCallback` names a connection after `next_conn_id_`, an `int` that
wraps, emplaces it in `connections_` and then takes what is under that name.
After `2 ^ 32` accepts the names begin again: where the old connection is still
there, `emplace` does nothing, the new one is dropped with its fd, and the old
one is set up and established a second time.

The entries of `connections_` carry the names of the numbers they were accepted
with, whatever the loops do (`EntriesNamed`), so a name is taken exactly when a
connection in the map was accepted a multiple of `2 ^ 32` accepts before.

A run that gets there: one connection stays up, and others come and hang up
again (`churn`), `2 ^ 32 - 1` of them.

Key definitions: `TcpServer.EntriesNamed`, `TcpServer.StoresNew`.
Key theorems: `TcpServer.EntriesNamed.step`, `storesNew_of_free`,
`connNames_fresh_iff`, `connNames_collide`.
-/
import MiniMuduo.Upkeep
import MiniMuduo.Visit

namespace MiniMuduo

open Fallible Runs Word TcpConnection

namespace TcpServer

/-- The entries of `connections_` have the names of their numbers. -/
structure EntriesNamed (s : TcpServer) : Prop where
  nextConnId : s.nextConnId = int32 s.accepted.length
  entries : ∀ key i, (key, i) ∈ s.connections.entries → i < s.accepted.length ∧ key = s.nameAt i

/-- What an accept should do: the name is not taken, the new connection is
stored under it with its fd and has its `ConnectEstablished` queued, and the
other connections are left alone. -/
structure StoresNew (s : TcpServer) (sockfd : ℕ) (writeComplete : Bool) : Prop where
  free : ∀ i, (s.connName, i) ∉ s.connections.entries
  stored : ∃ s', s.step (.accept (some sockfd) writeComplete) = .ok s' ∧
    s'.connections.find s.connName = some s.accepted.length ∧
    (s'.conns s.accepted.length).channel.fd = sockfd ∧ (∀ i < s.accepted.length, s'.conns i = s.conns i) ∧
    ∀ l, s'.tasks l = s.tasks l ++ if l = s.getNextLoop.1 then [.connectEstablished s.accepted.length] else []

/-! ### What does not look at the connections -/

/-- `P` does not depend on the connections, the queues and the rounds. -/
structure Blind (P : TcpServer → Prop) : Prop where
  set : ∀ {s i c}, P s → P ((connAt i).set s c)
  queue : ∀ {s l t}, P s → P (s.queueInLoop l t)
  round : ∀ {s l r}, P s → P (s.setRound l r)

namespace Blind

variable {P : TcpServer → Prop} (hP : Blind P) {s s' : TcpServer} {l i : ℕ}

include hP

theorem runActs {script : List (Act ℕ)} (hs : P s) (h : MiniMuduo.runActs l connAt script s = .ok s') : P s' :=
  runActs_keeps connAt_apart script (scriptAllowed_all script) (fun _ _ _ _ hs _ => hP.set hs) s s' hs h

theorem kept (i : ℕ) : Kept (connAt i) P := fun _ _ hs _ => hP.set hs

/-- One handler of a connection. -/
theorem handle {re : Reaction TcpServer} (hw : ∀ s s', P s → re.writeComplete s = .ok s' → P s')
    (hm : ∀ s s', P s → re.message s = .ok s' → P s') (hk : ∀ s s', P s → re.connection s = .ok s' → P s')
    (hkc : ∀ s s', P s → re.close s = .ok s' → P s') (hd : Handler) (hs : P s)
    (h : TcpConnection.handle l (connAt i) re hd s = .ok s') : P s' :=
  (hP.kept i).handle hw hk hkc hd hs
    (fun _ _ hs1 hread => (hP.kept i).handleRead hm hk hkc (fun _ _ _ _ => hP.set hs1) hread) h

end Blind

/-! ### Names follow the accepts -/

theorem blind_entriesNamed : Blind EntriesNamed :=
  ⟨fun h => ⟨h.nextConnId, h.entries⟩, fun h => ⟨h.nextConnId, h.entries⟩, fun h => ⟨h.nextConnId, h.entries⟩⟩

namespace EntriesNamed

variable {s s' : TcpServer} {l i : ℕ}

theorem connName_eq (h : EntriesNamed s) : s.connName = s.nameAt s.accepted.length := by
  unfold connName nameAt
  rw [h.nextConnId]

theorem start (name : String) (connectionCallback messageCallback : Bool) (numThreads : ℕ) :
    EntriesNamed (TcpServer.start name connectionCallback messageCallback numThreads) := by
  refine ⟨by simp [TcpServer.start, int32], ?_⟩
  intro key i hmem
  exact absurd hmem List.not_mem_nil

/-- A new connection. -/
theorem newConnectionCallback (h : EntriesNamed s) (sockfd : ℕ) (writeComplete : Bool) :
    EntriesNamed (s.newConnectionCallback sockfd writeComplete) := by
  rw [newConnectionCallback_eq]
  apply blind_entriesNamed.queue
  apply blind_entriesNamed.set
  constructor
  case nextConnId =>
    show int32 (s.nextConnId + 1) = int32 (s.accepted ++ [sockfd]).length
    rw [h.nextConnId, List.length_append]
    exact int32_succ _
  case entries =>
    intro key i hmem
    rw [List.length_append, List.length_singleton]
    rcases (OrderedMap.mem_emplace _).mp hmem with hmem | ⟨heq, -⟩
    · obtain ⟨hlt, hkey⟩ := h.entries key i hmem
      exact ⟨Nat.lt_succ_of_lt hlt, hkey⟩
    · obtain ⟨rfl, rfl⟩ := Prod.mk.inj heq
      exact ⟨Nat.lt_succ_self _, h.connName_eq⟩

/-- A removed connection. -/
theorem erased (h : EntriesNamed s) (i : ℕ) : EntriesNamed (s.erased i) := by
  refine ⟨h.nextConnId, ?_⟩
  intro key j hmem
  exact h.entries key j ((OrderedMap.mem_erase _).mp hmem).1

theorem setRevents (h : EntriesNamed s) (ready : List (ChannelRef × Events)) : EntriesNamed (s.setRevents ready) := by
  induction ready generalizing s with
  | nil => exact h
  | cons r ready ih =>
    unfold TcpServer.setRevents
    rw [List.foldl_cons]
    apply ih
    split
    · exact h
    · exact blind_entriesNamed.set h

theorem runTask (h : EntriesNamed s) {connection : List (Act ℕ)} {t : ServerTask}
    (hst : s.runTask l connection t = .ok s') : EntriesNamed s' := by
  have hk : ∀ s s', EntriesNamed s → MiniMuduo.runActs l connAt connection s = .ok s' → EntriesNamed s' :=
    fun _ _ hs hrun => blind_entriesNamed.runActs hs hrun
  cases t with
  | connectEstablished i => exact (blind_entriesNamed.kept i).connectEstablished hk h hst
  | removeConnectionInLoop i =>
    rcases removeConnectionInLoop_cases hst with ⟨-, hdes⟩ | ⟨-, rfl⟩
    · exact (blind_entriesNamed.kept i).connectDestroyed hk (h.erased i) hdes
    · exact blind_entriesNamed.queue (h.erased i)
  | connectDestroyed i => exact (blind_entriesNamed.kept i).connectDestroyed hk h hst

theorem destroy (h : EntriesNamed s) {connection : ℕ → List (Act ℕ)} (hst : s.destroy connection = .ok s') :
    EntriesNamed s' := by
  unfold TcpServer.destroy at hst
  obtain ⟨s1, hfold, hs'⟩ := bind_eq_ok hst
  cases hs'
  have hloop : ∀ (entries : List (String × ℕ)) {s s' : TcpServer}, EntriesNamed s → entries.foldlM (fun s entry =>
      TcpConnection.connectDestroyed 0 (connAt entry.2) (MiniMuduo.runActs 0 connAt (connection entry.2)) s) s =
        .ok s' → EntriesNamed s' := by
    intro entries
    induction entries with
    | nil =>
      intro s s' hs hrun
      cases hrun
      exact hs
    | cons entry entries ih =>
      intro s s' hs hrun
      rw [List.foldlM_cons] at hrun
      obtain ⟨s1, hdes, hrun⟩ := bind_eq_ok hrun
      have hs1 : EntriesNamed s1 :=
        (blind_entriesNamed.kept _).connectDestroyed (fun _ _ hs hrun => blind_entriesNamed.runActs hs hrun) hs hdes
      exact ih hs1 hrun
  have h1 := hloop _ h hfold
  exact ⟨h1.nextConnId, h1.entries⟩

/-- One step, by any loop. -/
theorem step (h : EntriesNamed s) {a : ServerStep} (hst : s.step a = .ok s') : EntriesNamed s' := by
  have hacts : ∀ l script s s', EntriesNamed s → MiniMuduo.runActs l connAt script s = .ok s' → EntriesNamed s' :=
    fun _ _ _ _ hs hrun => blind_entriesNamed.runActs hs hrun
  cases a with
  | poll l ready =>
    cases hst
    exact blind_entriesNamed.round (h.setRevents ready)
  | accept sockfd writeComplete =>
    simp only [TcpServer.step] at hst
    split at hst
    · rcases sockfd with _ | sockfd
      · cases hst
        exact blind_entriesNamed.round h
      · cases hst
        exact (blind_entriesNamed.round h).newConnectionCallback sockfd writeComplete
    · cases hst
      exact h
  | handle l re =>
    simp only [TcpServer.step] at hst
    split at hst
    · refine blind_entriesNamed.handle (hacts l _) (hacts l _) (hacts l _) ?_ _ (blind_entriesNamed.round h) hst
      intro s1 s2 hs1 hclose
      cases hclose
      exact blind_entriesNamed.queue hs1
    · cases hst
      exact h
  | swap l =>
    cases hst
    exact ⟨h.nextConnId, h.entries⟩
  | runTask l connection =>
    simp only [TcpServer.step] at hst
    split at hst
    · exact EntriesNamed.runTask (blind_entriesNamed.round h) hst
    · cases hst
      exact h
  | finish l =>
    cases hst
    exact blind_entriesNamed.round h
  | user l script => exact hacts l script _ _ h hst
  | destroy connection => exact h.destroy hst

end EntriesNamed

/-- Two names are the same after a multiple of `2 ^ 32` accepts. -/
theorem nameAt_eq_iff (s : TcpServer) {i j : ℕ} (hij : i < j) :
    s.nameAt i = s.nameAt j ↔ (j - i) % 0x100000000 = 0 := by
  unfold nameAt
  rw [String.append_right_inj]
  constructor
  · intro h
    have hint : int32 i = int32 j := Int.repr_injective h
    unfold int32 at hint
    rw [Int.bmod_def, Int.bmod_def] at hint
    omega
  · intro h
    have hint : int32 i = int32 j := by
      unfold int32
      rw [Int.bmod_def, Int.bmod_def]
      omega
    rw [hint]

/-- The name of the next connection is taken exactly when the counter has come
round to a connection that is still there. -/
theorem free_iff {s : TcpServer} (h : EntriesNamed s) :
    (∀ i, (s.connName, i) ∉ s.connections.entries) ↔
      ∀ key i, (key, i) ∈ s.connections.entries → (s.accepted.length - i) % 0x100000000 ≠ 0 := by
  rw [h.connName_eq]
  constructor
  · intro hfree key i hmem hzero
    obtain ⟨hlt, rfl⟩ := h.entries key i hmem
    rw [(nameAt_eq_iff s hlt).mpr hzero] at hmem
    exact hfree i hmem
  · intro hno i hmem
    obtain ⟨hlt, hkey⟩ := h.entries _ i hmem
    exact hno _ i hmem ((nameAt_eq_iff s hlt).mp hkey.symm)

theorem accept_of_accepts {a : ServerStep} (h : a.accepts = true) :
    ∃ sockfd writeComplete, a = .accept (some sockfd) writeComplete := by
  unfold ServerStep.accepts at h
  split at h
  · exact ⟨_, _, rfl⟩
  · cases h

/-- An accept under a free name does what it should. -/
theorem storesNew_of_free {s : TcpServer} {sockfd : ℕ} {writeComplete : Bool}
    (hen : s.enabled (.accept (some sockfd) writeComplete) = true)
    (hfree : ∀ i, (s.connName, i) ∉ s.connections.entries) : StoresNew s sockfd writeComplete := by
  simp only [enabled, Bool.and_eq_true] at hen
  obtain ⟨-, hen⟩ := hen
  split at hen
  case h_2 => cases hen
  case h_1 calls hround =>
    have hnone : (s.setRound 0 (.handling calls)).connections.find
        (s.setRound 0 (.handling calls)).connName = none := by
      apply Option.eq_none_iff_forall_ne_some.mpr
      intro i hi
      exact hfree i ((OrderedMap.find_eq_some_iff _).mp hi)
    have hloop : (s.setRound 0 (.handling calls)).getNextLoop.1 = s.getNextLoop.1 := by
      rw [getNextLoop_fst, getNextLoop_fst]
      rfl
    have hstep : s.step (.accept (some sockfd) writeComplete) = .ok
        (((s.setRound 0 (.handling calls)).added sockfd writeComplete).queueInLoop s.getNextLoop.1
          (.connectEstablished s.accepted.length)) := by
      simp only [step, hround]
      rw [newConnectionCallback_added hnone, hloop]
      rfl
    refine ⟨hfree, _, hstep, ?_, ?_, ?_, ?_⟩
    · show (s.connections.emplace s.connName s.accepted.length).find s.connName = _
      rw [OrderedMap.find_emplace]
      exact congrArg (fun v => some (Option.getD v _)) hnone
    · show (((s.setRound 0 (.handling calls)).added sockfd writeComplete).conns
        (s.setRound 0 (.handling calls)).accepted.length).channel.fd = sockfd
      rw [added_conns_new]
      rfl
    · intro i hi
      exact added_conns_old (s := s.setRound 0 (.handling calls)) hi
    · intro l
      have htasks : ((s.setRound 0 (.handling calls)).added sockfd writeComplete).tasks = s.tasks := by
        refine setRound_tasks_of_nil ?_ rfl
        rw [hround]
        rfl
      rw [queueInLoop_tasks, htasks]
      split
      · rfl
      · rw [List.append_nil]

end TcpServer

open TcpServer

/-- **The names of connections are unique but for the wrap.** In every run of a
server, with any number of IO threads: every accept finds its name free, stores
the new connection with its fd under it, queues `ConnectEstablished` for it and
touches no other connection, exactly when at no accept a connection still in
`connections_` was accepted a multiple of `2 ^ 32` accepts before. -/
theorem connNames_fresh_iff (name : String) (connectionCallback messageCallback : Bool) (numThreads : ℕ)
    {tr : List (TcpServer × ServerStep)} {s : TcpServer}
    (hr : Run serverMachine (TcpServer.start name connectionCallback messageCallback numThreads) tr s) :
    (∀ p ∈ tr, ∀ sockfd writeComplete, p.2 = .accept (some sockfd) writeComplete →
      p.1.StoresNew sockfd writeComplete) ↔
      ∀ p ∈ tr, p.2.accepts = true → ∀ key i, (key, i) ∈ p.1.connections.entries →
        (p.1.accepted.length - i) % 0x100000000 ≠ 0 := by
  have hnamed : ∀ p ∈ tr, EntriesNamed p.1 := hr.invariant_trace (P := fun _ _ => True)
    (fun _ _ _ h _ _ hst => h.step hst) (EntriesNamed.start ..) fun _ _ => trivial
  constructor
  · intro hall p hp haccepts
    obtain ⟨sockfd, writeComplete, ha⟩ := accept_of_accepts haccepts
    exact (free_iff (hnamed p hp)).mp (hall p hp sockfd writeComplete ha).free
  · intro hall p hp sockfd writeComplete ha
    have hen := (hr.taken p hp).1
    rw [ha] at hen
    refine storesNew_of_free hen ((free_iff (hnamed p hp)).mpr (hall p hp ?_))
    rw [ha]
    rfl

/-- Two connections come up under free names. -/
theorem connNames_fresh_iff_two :
    let steps : List ServerStep := [.poll 0 [(.acceptor, { epollIn := true })], .accept (some 7) false, .swap 0,
      .runTask 0 [], .finish 0, .poll 0 [(.acceptor, { epollIn := true })], .accept (some 8) true]
    let tr := trace serverMachine (TcpServer.start "s" true true 0) steps
    let s := final serverMachine (TcpServer.start "s" true true 0) steps
    s.connections.entries = [("s#0", 0), ("s#1", 1)] ∧ s.accepted = [7, 8] ∧
      (tr.map fun p => p.1.connName) = ["s#0", "s#0", "s#1", "s#1", "s#1", "s#1", "s#1"] ∧
      ∀ p ∈ tr, ∀ sockfd writeComplete, p.2 = .accept (some sockfd) writeComplete →
        p.1.StoresNew sockfd writeComplete := by
  intro steps tr s
  refine ⟨by decide +kernel, by decide +kernel, by decide +kernel, ?_⟩
  refine (connNames_fresh_iff "s" true true 0 (run_of_accepts _ _ (by decide +kernel))).mpr ?_
  have hentries : ∀ p ∈ tr, p.2.accepts = true → ∀ entry ∈ p.1.connections.entries,
      (p.1.accepted.length - entry.2) % 0x100000000 ≠ 0 := by decide +kernel
  intro p hp haccepts key i hmem
  exact hentries p hp haccepts (key, i) hmem

/-! ### A run that comes round -/

namespace TcpServer

/-- Connections come and go, fewer than `2 ^ 32`, while one stays. -/
theorem churn {base : TcpServer} (hidle : Idle base) (hnamed : EntriesNamed base) (hlen : base.accepted.length = 1) :
    ∀ k < 0x100000000, ∃ tr s, Run serverMachine base tr s ∧ Idle s ∧ EntriesNamed s ∧ s.accepted.length = k + 1 ∧
      s.conns 0 = base.conns 0 ∧ ∀ e, e ∈ s.connections.entries ↔ e ∈ base.connections.entries := by
  intro k
  induction k with
  | zero =>
    intro _
    exact ⟨[], base, .nil, hidle, hnamed, hlen, rfl, fun _ => Iff.rfl⟩
  | succ k ih =>
    intro hk
    obtain ⟨tr, s, hr, hidle', hnamed', hlen', hconn, hentries⟩ := ih (by omega)
    have hfree : ∀ i, (s.connName, i) ∉ s.connections.entries := by
      refine (free_iff hnamed').mpr ?_
      intro key i hmem
      -- only the first connection is in the map
      have hi : i < 1 := hlen ▸ (hnamed.entries key i ((hentries _).mp hmem)).1
      omega
    obtain ⟨tr', s', hr', hidle'', -, haccepted, -, hconns, hentries'⟩ := visit hidle' hfree
    refine ⟨tr ++ tr', s', hr.trans hr', hidle'', ?_, ?_, ?_, ?_⟩
    · exact hr'.always (fun _ _ _ h _ hst => h.step hst) hnamed'
    · rw [haccepted, List.length_append, hlen', List.length_singleton]
    · rw [hconns 0 (by omega), hconn]
    · intro e
      rw [hentries', hentries]

/-- Under a name that is taken the old connection stays, and is established
again. -/
theorem newConnectionCallback_taken {s : TcpServer} {i : ℕ} (hfind : s.connections.find s.connName = some i)
    (sockfd : ℕ) (writeComplete : Bool) :
    (s.newConnectionCallback sockfd writeComplete).connections.find s.connName = some i ∧
      .connectEstablished i ∈ (s.newConnectionCallback sockfd writeComplete).tasks s.getNextLoop.1 := by
  rw [newConnectionCallback_eq, hfind]
  constructor
  · show (s.connections.emplace s.connName s.accepted.length).find s.connName = some i
    rw [OrderedMap.find_emplace, hfind]
    rfl
  · rw [queueInLoop_tasks, if_pos rfl]
    exact List.mem_append_right _ (List.mem_singleton.mpr rfl)

/-- A server whose first connection is up. -/
def hosting : TcpServer :=
  final serverMachine (start "s" false false 0)
    [.poll 0 [(.acceptor, { epollIn := true })], .accept (some 7) false, .swap 0, .runTask 0 [], .finish 0]

theorem hosting_run : ∃ tr, Run serverMachine (start "s" false false 0) tr hosting :=
  ⟨_, run_of_accepts _ _ (by decide +kernel)⟩

theorem hosting_idle : Idle hosting where
  connectionCallback := by decide +kernel
  messageCallback := by decide +kernel
  numThreads := by decide +kernel
  destroyed := by decide +kernel
  round := by decide +kernel
  pending := by decide +kernel

end TcpServer

/-- One connection stays up, and `2 ^ 32 - 1` others come and go: the next one
has the name of the first, its fd is not stored, and `ConnectEstablished` is
queued for the first connection a second time. -/
theorem connNames_collide : ∃ tr s s', Run serverMachine (TcpServer.start "s" false false 0) tr s ∧
    s.enabled (.accept (some 8) false) = true ∧ s.step (.accept (some 8) false) = .ok s' ∧
    (s.connName, 0) ∈ s.connections.entries ∧ (s.conns 0).state = .kConnected ∧ (s.conns 0).channel.fd = 7 ∧
    s'.connections.find s.connName = some 0 ∧ .connectEstablished 0 ∈ s'.tasks 0 ∧ ¬ s.StoresNew 8 false := by
  obtain ⟨tr0, hr0⟩ := hosting_run
  have hnamed0 : EntriesNamed hosting := hr0.always (fun _ _ _ h _ hst => h.step hst) (EntriesNamed.start ..)
  obtain ⟨tr, s, hr, hidle, hnamed, hlen, hconn, hentries⟩ :=
    churn hosting_idle hnamed0 (by decide +kernel) 0xFFFFFFFF (by decide)
  -- the counter has come round to the name of the connection that stays
  have hfirst : ("s#0", 0) ∈ s.connections.entries := (hentries _).mpr (by decide +kernel)
  have hname : s.connName = "s#0" := by
    rw [(hnamed.entries _ _ hfirst).2, hnamed.connName_eq, hlen]
    exact ((nameAt_eq_iff s (by decide)).mpr (by decide)).symm
  have htaken : (s.connName, 0) ∈ s.connections.entries := by
    rw [hname]
    exact hfirst
  have hfind : s.connections.find s.connName = some 0 := (OrderedMap.find_eq_some_iff _).mpr htaken
  obtain ⟨hkept, hagain⟩ := newConnectionCallback_taken (s := s.accepting) hfind 8 false
  rw [hidle.getNextLoop] at hagain
  refine ⟨_, s.setRound 0 (.handling [.accept]), _, (hr0.trans hr).snoc hidle.poll_acceptor rfl, hidle.accept_enabled,
    accept_step s, htaken, ?_, ?_, hkept, hagain, ?_⟩
  · show (s.conns 0).state = .kConnected
    rw [hconn]
    decide +kernel
  · show (s.conns 0).channel.fd = 7
    rw [hconn]
    decide +kernel
  · intro hstores
    exact hstores.free 0 htaken

end MiniMuduo
