/-
# How long a connection lives

A `TcpConnection` is kept by `TcpConnectionPtr`s. Those of the server and its
loops are in `connections_`, in the tasks that are queued for it, and in the
tasks of the batch that a loop is running: `DoPendingFunctors` drops these,
the ones it has run too, when it returns (`TcpServer.owners`). User code may
keep more, and its own only make a connection live longer. When the last one
goes, the connection is destroyed with its channel, and its socket is closed.
But epoll and `activeChannels_` keep plain `Channel*`: nothing but the order
of the steps keeps those valid.

In every interleaving of the loops of a living server: whatever channel epoll
has a pointer to, and whatever channel a loop is still to call, is that of a
connection with an owner; a connection has no owner left exactly when its
`ConnectDestroyed` has run on its own loop, after the fd left epoll, and every
batch with a task of it has returned; and if `accept` gives out no fd that is
open, the connections that are kept have different fds (`channels_outlived`).

Key definitions: `TcpServer.owners`, `TcpServer.Gone`, `TcpServer.Unowned`,
`TcpServer.GivesNew`.
Key theorems: `TcpServer.Registry.owners_eq_zero_iff`,
`TcpServer.Attended.step`, `TcpServer.Unowned.step`, `channels_outlived`.
-/
import MiniMuduo.ServerQueues
import MiniMuduo.ThreadPool

namespace MiniMuduo

open Fallible Runs Word TcpConnection

namespace TcpServer

/-- The `TcpConnectionPtr`s to the connection `i` after the run `tr` that led
to `s`: in `connections_`, in the tasks of the batches that loops are running,
and in the queues. The `guard` of `HandleEvent` is not counted: it goes with the
last callback of its channel. -/
def owners (tr : List (TcpServer × ServerStep)) (s : TcpServer) (i : ℕ) : ℕ :=
  s.connections.entries.countP (fun entry => entry.2 = i) +
    ((List.range (s.numThreads + 1)).map fun l => (funtors tr l ++ s.pending l).countP fun t => t.index = i).sum

/-- `accept` returns no fd that is open: a connection with an owner keeps its
socket. -/
def GivesNew (tr : List (TcpServer × ServerStep)) (s : TcpServer) : ServerStep → Prop
  | .accept (some sockfd) _ => ∀ i < s.accepted.length, 0 < owners tr s i → (s.conns i).channel.fd ≠ sockfd
  | _ => True

instance (tr : List (TcpServer × ServerStep)) (s : TcpServer) : (a : ServerStep) → Decidable (GivesNew tr s a)
  | .accept (some sockfd) _ => inferInstanceAs
      (Decidable (∀ i < s.accepted.length, 0 < owners tr s i → (s.conns i).channel.fd ≠ sockfd))
  | .accept none _ | .poll .. | .handle .. | .swap _ | .runTask .. | .finish _ | .user .. | .destroy _ =>
    .isTrue trivial

/-- The connection `i` has been removed and its `ConnectDestroyed` does not
wait. -/
structure Gone (s : TcpServer) (i : ℕ) : Prop where
  removed : i ∈ s.removed
  task : ∀ l, .connectDestroyed i ∉ s.tasks l

/-- A connection that is gone, and in no batch that a loop is running. -/
structure Unowned (tr : List (TcpServer × ServerStep)) (s : TcpServer) (i : ℕ) : Prop where
  gone : s.Gone i
  funtors : ∀ l ≤ s.numThreads, ∀ t ∈ funtors tr l, t.index ≠ i

/-- The callbacks that a loop has still to call are those of connections that
are not gone. -/
def Attended (s : TcpServer) : Prop := ∀ l i hd, .handler i hd ∈ (s.round l).calls → ¬ s.Gone i

variable {f : ℕ → LifeStage} {s s' : TcpServer} {l i : ℕ}

namespace Registry

/-- The connection is gone exactly at the last stage of its life. -/
theorem gone_iff (h : Registry f s) (hi : i < s.accepted.length) : s.Gone i ↔ f i = .destroyed := by
  have hremoved := h.books.holding.removed i
  have hdue : ∀ l t, t ∈ s.tasks l ↔ s.due f t.index = some (l, t) := fun l t => h.books.ledger.mem_iff
  constructor
  · rintro ⟨hmem, htask⟩
    have hheld := (hremoved.mp hmem).2
    cases hst : f i with
    | destroyed => rfl
    | removed =>
      refine absurd ?_ (htask (s.conns i).loop)
      rw [hdue]
      show s.due f i = _
      unfold due
      rw [if_pos hi, hst]
      rfl
    | fresh => rw [hst] at hheld; cases hheld
    | up => rw [hst] at hheld; cases hheld
    | closing => rw [hst] at hheld; cases hheld
    | closed => rw [hst] at hheld; cases hheld
  · intro hst
    refine ⟨hremoved.mpr ⟨hi, by rw [hst]; rfl⟩, fun l hmem => ?_⟩
    have hd := (h.books.due_queued hmem).2
    have hd' : (f i).due (s.conns i).loop i = some (l, .connectDestroyed i) := hd
    rw [hst] at hd'
    cases hd'

/-- A connection has no owners exactly when it is at the last stage of its life
and the batches with its tasks have returned. -/
theorem owners_eq_zero_iff (h : Registry f s) {n : ℕ} (hdealt : Dealt n s) (hi : i < s.accepted.length)
    {tr : List (TcpServer × ServerStep)} (hbatch : ∀ l, (s.round l).tasks ⊆ funtors tr l) :
    owners tr s i = 0 ↔ f i = .destroyed ∧ ∀ l ≤ s.numThreads, ∀ t ∈ funtors tr l, t.index ≠ i := by
  have hentry : s.connections.entries.countP (fun entry => entry.2 = i) = 0 ↔ (f i).held = false := by
    rw [List.countP_eq_zero]
    constructor
    · intro hnone
      by_contra hheld
      have hmem := (h.books.holding.entries (s.conns i).name i).mpr ⟨hi, rfl, by simpa using hheld⟩
      exact hnone _ hmem (by simp)
    · rintro hheld ⟨key, j⟩ hmem heq
      obtain rfl : j = i := by simpa using heq
      rw [((h.books.holding.entries key j).mp hmem).2.2] at hheld
      cases hheld
  have hloop : (s.conns i).loop ≤ s.numThreads := by
    rw [hdealt.loop i hi, hdealt.numThreads, dealt]
    split
    · omega
    · have := Nat.mod_lt i (by omega : 0 < n)
      omega
  have hsum : ((List.range (s.numThreads + 1)).map fun l =>
      (funtors tr l ++ s.pending l).countP fun t => t.index = i).sum = 0 ↔
      ∀ l ≤ s.numThreads, ∀ t ∈ funtors tr l ++ s.pending l, t.index ≠ i := by
    simp only [List.sum_eq_zero_iff, List.forall_mem_map, List.mem_range, Nat.lt_succ_iff, List.countP_eq_zero,
      decide_eq_true_eq, ne_eq]
  have hdue : (∀ l ≤ s.numThreads, ∀ t ∈ funtors tr l ++ s.pending l, t.index ≠ i) ↔
      (f i).due (s.conns i).loop i = none ∧ ∀ l ≤ s.numThreads, ∀ t ∈ funtors tr l, t.index ≠ i := by
    constructor
    · intro hnone
      refine ⟨?_, fun l hl t ht => hnone l hl t (List.mem_append_left _ ht)⟩
      cases hdue : (f i).due (s.conns i).loop i with
      | none => rfl
      | some task =>
        obtain ⟨l, t⟩ := task
        have hl : l ≤ s.numThreads ∧ t.index = i := by
          rcases LifeStage.due_cases hdue with ⟨-, rfl, rfl⟩ | ⟨-, rfl, rfl⟩ | ⟨-, rfl, rfl⟩
          · exact ⟨hloop, rfl⟩
          · exact ⟨Nat.zero_le _, rfl⟩
          · exact ⟨hloop, rfl⟩
        have hmem : t ∈ s.tasks l := by
          rw [h.books.ledger.mem_iff, hl.2]
          unfold due
          rw [if_pos hi, hdue]
        have hmem' : t ∈ funtors tr l ++ s.pending l := by
          rcases List.mem_append.mp hmem with hmem | hmem
          · exact List.mem_append_left _ (hbatch l hmem)
          · exact List.mem_append_right _ hmem
        exact absurd hl.2 (hnone l hl.1 t hmem')
    · rintro ⟨hnone, hreturned⟩ l hl t hmem rfl
      rcases List.mem_append.mp hmem with hmem | hmem
      · exact hreturned l hl t hmem rfl
      · rw [(h.books.due_queued (List.mem_append_right _ hmem)).2] at hnone
        cases hnone
  unfold owners
  rw [Nat.add_eq_zero_iff, hentry, hsum, hdue]
  cases f i <;> simp [LifeStage.held, LifeStage.due]

theorem owned_iff (h : Registry f s) {n : ℕ} (hdealt : Dealt n s) (hi : i < s.accepted.length)
    {tr : List (TcpServer × ServerStep)} (hbatch : ∀ l, (s.round l).tasks ⊆ funtors tr l) :
    0 < owners tr s i ↔ ¬ Unowned tr s i := by
  rw [Nat.pos_iff_ne_zero, not_iff_not, h.owners_eq_zero_iff hdealt hi hbatch, ← h.gone_iff hi]
  constructor
  · rintro ⟨hgone, hreturned⟩
    exact ⟨hgone, hreturned⟩
  · rintro ⟨hgone, hreturned⟩
    exact ⟨hgone, hreturned⟩

end Registry

/-! ### What a step does to those that are gone -/

theorem Framed.tasks (h : Framed s s') : s'.tasks = s.tasks := by
  unfold TcpServer.tasks
  rw [h.rest]

theorem Framed.round (h : Framed s s') : s'.round = s.round := by rw [h.rest]

/-- Nothing was removed, and no `ConnectDestroyed` was queued or run. -/
structure Quiet (s s' : TcpServer) : Prop where
  removed : s'.removed = s.removed
  task : ∀ l i, .connectDestroyed i ∈ s'.tasks l ↔ .connectDestroyed i ∈ s.tasks l

namespace Quiet

theorem trans {s1 : TcpServer} (h : Quiet s s1) (h' : Quiet s1 s') : Quiet s s' :=
  ⟨h'.removed.trans h.removed, fun l i => (h'.task l i).trans (h.task l i)⟩

theorem of_tasks (hremoved : s'.removed = s.removed) (htasks : s'.tasks = s.tasks) : Quiet s s' :=
  ⟨hremoved, fun l i => by rw [htasks]⟩

theorem of_framed (h : Framed s s') : Quiet s s' := .of_tasks (by rw [h.rest]) h.tasks

/-- A round goes on without touching tasks. -/
theorem setRound {r : Round} (htasks : (s.round l).tasks = []) (hr : r.tasks = []) : Quiet s (s.setRound l r) :=
  .of_tasks rfl (setRound_tasks_of_nil htasks hr)

theorem nextCall {call : ChannelCall} {calls : List ChannelCall} (hround : s.round l = .handling (call :: calls)) :
    Quiet s (s.setRound l (.handling calls)) :=
  .setRound (by rw [hround]; rfl) rfl

theorem queue (s : TcpServer) (l : ℕ) {t : ServerTask} (ht : ∀ i, t ≠ .connectDestroyed i) :
    Quiet s (s.queueInLoop l t) := by
  refine ⟨rfl, fun l' i => ?_⟩
  rw [queueInLoop_tasks]
  split
  · rw [List.mem_append, List.mem_singleton]
    exact or_iff_left fun heq => ht i heq.symm
  · exact Iff.rfl

theorem gone_iff (h : Quiet s s') (i : ℕ) : s'.Gone i ↔ s.Gone i := by
  constructor
  · rintro ⟨hremoved, htask⟩
    exact ⟨h.removed ▸ hremoved, fun l hmem => htask l ((h.task l i).mpr hmem)⟩
  · rintro ⟨hremoved, htask⟩
    exact ⟨h.removed ▸ hremoved, fun l hmem => htask l ((h.task l i).mp hmem)⟩

end Quiet

/-- The server goes on: what is gone stays gone, and what a loop is to call is
not gone. -/
structure Onward (s s' : TcpServer) : Prop where
  gone : ∀ i, s.Gone i → s'.Gone i
  attended : s'.Attended

/-- A step that removes nothing, after which a loop has to call what it had to
call before, or connections that are not gone. -/
theorem Quiet.onward (h : Quiet s s') (ha : s.Attended)
    (hcalls : ∀ l i hd, .handler i hd ∈ (s'.round l).calls → .handler i hd ∈ (s.round l).calls ∨ ¬ s.Gone i) :
    Onward s s' := by
  refine ⟨fun i hgone => (h.gone_iff i).mpr hgone, fun l i hd hmem => ?_⟩
  rw [h.gone_iff]
  rcases hcalls l i hd hmem with hmem | hnot
  · exact ha l i hd hmem
  · exact hnot

/-- Calls that a round does not have to make any more. -/
theorem setRound_calls {r : Round} (hr : r.calls ⊆ (s.round l).calls) (l' i : ℕ) (hd : Handler)
    (hmem : .handler i hd ∈ ((s.setRound l r).round l').calls) : .handler i hd ∈ (s.round l').calls := by
  rw [setRound_round] at hmem
  split at hmem
  case isTrue hl =>
    rw [hl]
    exact hr hmem
  case isFalse => exact hmem

theorem nextCall_calls {call : ChannelCall} {calls : List ChannelCall}
    (hround : s.round l = .handling (call :: calls)) : (Round.handling calls).calls ⊆ (s.round l).calls := by
  rw [hround]
  exact List.subset_cons_self _ _

/-- Epoll reports connections that are up. -/
theorem Registry.up_of_canReport (h : Registry f s) {ev : Events}
    (hcan : s.canReport l (.connection i, ev) = true) : s.onLoop l i = true ∧ f i = .up := by
  unfold canReport at hcan
  obtain ⟨hon, hany⟩ := Bool.and_eq_true_iff.mp hcan
  refine ⟨hon, ?_⟩
  have hlived := h.population i (onLoop_iff.mp hon).1
  cases hreg : (s.conns i).channel.registered with
  | none =>
    rw [hreg] at hany
    cases hany
  | some interest => exact hlived.up_iff.mp (hlived.wired.up_of_registered hreg)

namespace Attended

/-- `Poll` reports connections that are not gone. -/
theorem poll (ha : s.Attended) (h : Registry f s) {ready : List (ChannelRef × Events)}
    (hround : s.round l = .polling) (hreport : ∀ r ∈ ready, s.canReport l r = true) :
    Onward s ((s.setRevents ready).setRound l (.handling (ready.flatMap fun r => r.1.calls r.2))) := by
  have hup : ∀ r ∈ ready, ∀ i, r.1 = .connection i → s.onLoop l i = true ∧ f i = .up := by
    rintro ⟨ref, ev⟩ hr i rfl
    exact h.up_of_canReport (hreport _ hr)
  obtain ⟨-, hframe⟩ := setRevents_framed h.population fun r hr i hi => (onLoop_iff.mp (hup r hr i hi).1).1
  have hround' : (s.setRevents ready).round = s.round := hframe.round
  have htasks : ((s.setRevents ready).round l).tasks = [] := by
    rw [hround', hround]
    rfl
  refine ((Quiet.of_framed hframe).trans (.setRound htasks rfl)).onward ha fun l' i hd hmem => ?_
  rw [setRound_round] at hmem
  split at hmem
  case isFalse => exact .inl (hround' ▸ hmem)
  case isTrue =>
    right
    obtain ⟨⟨ref, ev⟩, hr, hcall⟩ := List.mem_flatMap.mp hmem
    cases ref with
    | acceptor =>
      simp only [ChannelRef.calls] at hcall
      split at hcall <;> simp at hcall
    | connection j =>
      obtain ⟨hd', -, heq⟩ := List.mem_map.mp hcall
      cases heq
      obtain ⟨hon, hst⟩ := hup _ hr i rfl
      rw [h.gone_iff (onLoop_iff.mp hon).1, hst]
      decide

theorem handle (ha : s.Attended) (h : Registry f s) {hd : Handler} {calls : List ChannelCall}
    (hround : s.round l = .handling (.handler i hd :: calls)) {re : Decisions ℕ}
    (hw : s.scriptOn l re.writeComplete = true) (hm : s.scriptOn l re.message = true)
    (hk : s.scriptOn l re.connection = true)
    (hrun : TcpConnection.handle l (connAt i) (re.reaction l connAt (removeConnection i)) hd
      (s.setRound l (.handling calls)) = .ok s') : Onward s s' := by
  obtain ⟨hon, hfresh, hup⟩ := h.books.handling.head hround
  have hpop : Population f (s.setRound l (.handling calls)) := h.population
  have hnext : Quiet s (s.setRound l (.handling calls)) := .nextCall hround
  have hless := nextCall_calls hround
  rcases handle_framed hpop hon hfresh hup hw hm hk hrun with ⟨-, hframe⟩ | ⟨-, hc⟩
  · refine (hnext.trans (.of_framed hframe)).onward ha fun l' i' hd' hmem => .inl ?_
    rw [hframe.round] at hmem
    exact setRound_calls hless l' i' hd' hmem
  · have hqueue := Quiet.queue (s.setRound l (.handling calls)) 0 (t := .removeConnectionInLoop i) (by simp)
    refine ((hnext.trans hqueue).trans (.of_framed hc.framed)).onward ha fun l' i' hd' hmem => .inl ?_
    rw [hc.framed.round] at hmem
    exact setRound_calls hless l' i' hd' hmem

/-- The loop `l` has just destroyed the connection `i`, which is on it. -/
theorem destroyed (ha : s.Attended) (h : Registry f s) (hi : s.onLoop l i = true) (hrunning : (s.round l).calls = [])
    (hremoved : ∀ j ∈ s.removed, j ∈ s'.removed) (hnew : ∀ j ∈ s'.removed, j ≠ i → j ∈ s.removed)
    (htask : ∀ l j, .connectDestroyed j ∈ s'.tasks l ↔ .connectDestroyed j ∈ s.tasks l ∧ j ≠ i)
    (hcalls : ∀ l', (s'.round l').calls ⊆ (s.round l').calls) : Onward s s' := by
  refine ⟨fun j hgone => ?_, fun l' j hd hmem hgone => ?_⟩
  · exact ⟨hremoved j hgone.removed, fun l hmem => hgone.task l ((htask l j).mp hmem).1⟩
  · have hmem' := hcalls l' hmem
    have hon := (h.books.handling.calls l' j hd hmem').1
    by_cases hj : j = i
    · -- its own loop has nothing to call
      have hl : l' = l := (onLoop_iff.mp hon).2.symm.trans (hj ▸ (onLoop_iff.mp hi).2)
      rw [hl, hrunning] at hmem'
      cases hmem'
    · refine ha l' j hd hmem' ⟨hnew j hgone.removed hj, fun l'' hq => ?_⟩
      exact hgone.task l'' ((htask l'' j).mpr ⟨hq, hj⟩)

end Attended

theorem mem_tasks_rest {t : ServerTask} {rest : List ServerTask} (hround : s.round l = .running (t :: rest))
    {t' : ServerTask} (hne : t' ≠ t) (l' : ℕ) : t' ∈ (s.setRound l (.running rest)).tasks l' ↔ t' ∈ s.tasks l' := by
  rw [setRound_tasks]
  by_cases hl : l' = l
  · rw [hl, Function.update_self, tasks_running hround, List.mem_cons]
    exact (or_iff_right hne).symm
  · rw [Function.update_of_ne hl]

theorem running_calls {rest : List ServerTask} (hround : s'.round = (s.setRound l (.running rest)).round) (l' : ℕ) :
    (s'.round l').calls ⊆ (s.round l').calls := by
  rw [hround, setRound_round]
  split
  · exact List.nil_subset _
  · exact fun _ h => h

namespace Attended

theorem runEstablished (ha : s.Attended) {rest : List ServerTask}
    (hround : s.round l = .running (.connectEstablished i :: rest))
    (hframe : Framed (s.setRound l (.running rest)) s') : Onward s s' := by
  have hquiet : Quiet s (s.setRound l (.running rest)) :=
    ⟨rfl, fun l' j => mem_tasks_rest hround (by simp) l'⟩
  exact (hquiet.trans (.of_framed hframe)).onward ha fun l' j hd hmem => .inl (running_calls hframe.round l' hmem)

theorem runDestroyed (ha : s.Attended) (h : Registry f s) {rest : List ServerTask}
    (hround : s.round l = .running (.connectDestroyed i :: rest)) (hon : s.onLoop l i = true)
    (hbooks : Books (Function.update f i .destroyed) (s.setRound l (.running rest)))
    (hframe : Framed (s.setRound l (.running rest)) s') : Onward s s' := by
  have hremoved : s'.removed = s.removed := by rw [hframe.rest]; rfl
  refine ha.destroyed h hon (by rw [hround]; rfl) (fun j hj => hremoved ▸ hj) (fun j hj _ => hremoved ▸ hj)
    (fun l' j => ?_) (running_calls hframe.round)
  rw [hframe.tasks]
  by_cases hj : j = i
  · -- each connection has one task at most
    constructor
    · intro hmem
      have hdue := (hbooks.due_queued hmem).2
      have hdue' : (Function.update f i .destroyed j).due _ _ = some (l', .connectDestroyed j) := hdue
      rw [hj, Function.update_self] at hdue'
      cases hdue'
    · rintro ⟨-, hne⟩
      exact absurd hj hne
  · have hne : ServerTask.connectDestroyed j ≠ .connectDestroyed i := by simpa using hj
    rw [mem_tasks_rest hround hne]
    simp [hj]

theorem runRemove (ha : s.Attended) (h : Registry f s) {rest : List ServerTask}
    (hround : s.round l = .running (.removeConnectionInLoop i :: rest)) (hst : f i = .closed)
    {connection : List (Act ℕ)}
    (hrun : (s.setRound l (.running rest)).removeConnectionInLoop l i connection = .ok s') : Onward s s' := by
  have hi : i < s.accepted.length := (h.books.due_running hround).1
  have hlived := h.population i hi
  rw [hst] at hlived
  have hpop : Population (Function.update f i .removed) ((s.setRound l (.running rest)).erased i) := by
    have hset := h.population.set (i := i) hlived.remove
    rwa [show (connAt i).set s (s.conns i) = s from (connAt i).set_get s] at hset
  have hkept : i ∉ s.removed := by
    intro hmem
    have hheld := ((h.books.holding.removed i).mp hmem).2
    rw [hst] at hheld
    cases hheld
  have hidle : ∀ l', .connectDestroyed i ∉ s.tasks l' := by
    intro l' hmem
    have hdue : (f i).due _ _ = some (l', .connectDestroyed i) := (h.books.due_queued hmem).2
    rw [hst] at hdue
    cases hdue
  have hrest : ∀ l' j, .connectDestroyed j ∈ (s.setRound l (.running rest)).tasks l' ↔
      .connectDestroyed j ∈ s.tasks l' := fun l' j => mem_tasks_rest hround (by simp) l'
  have herased : ((s.setRound l (.running rest)).erased i).removed = s.removed ++ [i] := rfl
  rcases removeConnectionInLoop_cases hrun with ⟨hl, hrun⟩ | ⟨-, rfl⟩
  · -- the connection is on the base loop, and is destroyed at once
    obtain ⟨-, hframe⟩ := connectDestroyed_framed hpop (onLoop_iff.mpr ⟨hi, hl.symm⟩) (Function.update_self ..) hrun
    have hremoved : s'.removed = s.removed ++ [i] := by rw [hframe.rest]; exact herased
    have htasks : s'.tasks = (s.setRound l (.running rest)).tasks := hframe.tasks
    refine ha.destroyed h (onLoop_iff.mpr ⟨hi, hl.symm⟩) (by rw [hround]; rfl) (fun j hj => ?_) (fun j hj hne => ?_)
      (fun l' j => ?_) (running_calls hframe.round)
    · rw [hremoved]
      exact List.mem_append_left _ hj
    · rw [hremoved, List.mem_append, List.mem_singleton] at hj
      exact hj.resolve_right hne
    · rw [htasks, hrest, iff_self_and]
      rintro hmem rfl
      exact hidle l' hmem
  · -- its loop is asked to destroy it
    refine ⟨fun j hgone => ?_, fun l' j hd hmem hgone => ?_⟩
    · have hne : j ≠ i := fun heq => hkept (heq ▸ hgone.removed)
      refine ⟨List.mem_append_left _ hgone.removed, fun l' hmem => hgone.task l' ((hrest l' j).mp ?_)⟩
      rw [queueInLoop_tasks] at hmem
      split at hmem
      · rcases List.mem_append.mp hmem with hmem | hmem
        · exact hmem
        · exact absurd (by simpa using hmem) hne
      · exact hmem
    · have hne : j ≠ i := by
        rintro rfl
        have hloop : ((s.setRound l (.running rest)).conns j).loop = (s.conns j).loop := rfl
        refine hgone.task (s.conns j).loop ?_
        rw [queueInLoop_tasks, if_pos hloop.symm]
        exact List.mem_append_right _ (List.mem_singleton.mpr rfl)
      refine ha l' j hd (running_calls rfl l' hmem) ⟨?_, fun l'' hq => hgone.task l'' ?_⟩
      · have hmem' : j ∈ s.removed ++ [i] := hgone.removed
        rw [List.mem_append, List.mem_singleton] at hmem'
        exact hmem'.resolve_right hne
      · rw [queueInLoop_tasks]
        split
        · exact List.mem_append_left _ ((hrest l'' j).mpr hq)
        · exact (hrest l'' j).mpr hq

theorem runTask (ha : s.Attended) (h : Registry f s) {t : ServerTask} {rest : List ServerTask}
    (hround : s.round l = .running (t :: rest)) {connection : List (Act ℕ)}
    (hscript : s.scriptOn l connection = true)
    (hrun : (s.setRound l (.running rest)).runTask l connection t = .ok s') : Onward s s' := by
  obtain ⟨hi, hdue⟩ := h.books.due_running hround
  obtain ⟨i, hidx⟩ : ∃ i, t.index = i := ⟨_, rfl⟩
  rw [hidx] at hi hdue
  have hpop : Population f (s.setRound l (.running rest)) := h.population
  rcases LifeStage.due_cases hdue with ⟨hst, hl, rfl⟩ | ⟨hst, -, rfl⟩ | ⟨hst, hl, rfl⟩
  · exact ha.runEstablished hround
      (connectEstablished_framed hpop (onLoop_iff.mpr ⟨hi, hl.symm⟩) hst hscript hrun).2
  · exact ha.runRemove h hround hst hrun
  · have hbooks : Books (Function.update f i .destroyed) (s.setRound l (.running rest)) := by
      refine h.books.take hround rfl (by decide) (.inr ?_) ?_
      · show f i ≠ .up
        rw [hst]
        decide
      · show LifeStage.held .destroyed = (f i).held
        rw [hst]
        rfl
    have hon : s.onLoop l i = true := onLoop_iff.mpr ⟨hi, hl.symm⟩
    exact ha.runDestroyed h hround hon hbooks (connectDestroyed_framed hpop hon hst hrun).2

theorem accept (ha : s.Attended) (h : Registry f s) (hlen : s.accepted.length < 0x100000000) (sockfd : ℕ)
    (writeComplete : Bool) : Onward s (s.newConnectionCallback sockfd writeComplete) := by
  rw [newConnectionCallback_added (h.books.find_connName hlen)]
  have hadded : Quiet s (s.added sockfd writeComplete) := .of_tasks rfl rfl
  refine (hadded.trans (.queue _ _ (by simp))).onward ha fun l' i hd hmem => .inl hmem

theorem step (ha : s.Attended) (h : Registry f s) {a : ServerStep} (hen : s.enabled a = true) (hliving : a.Living)
    (hlen : s.accepted.length < 0x100000000) (hst : s.step a = .ok s') : Onward s s' := by
  have hstay : Onward s s := ⟨fun _ hgone => hgone, ha⟩
  cases a with
  | poll l ready =>
    simp only [enabled, Bool.and_eq_true, List.all_eq_true, decide_eq_true_eq] at hen
    obtain ⟨⟨⟨-, hround⟩, -⟩, hreport⟩ := hen
    cases hst
    exact ha.poll h hround hreport
  | accept sockfd writeComplete =>
    simp only [TcpServer.step] at hst
    split at hst
    case h_1 call calls hround =>
      have h1 : Onward s (s.setRound 0 (.handling calls)) :=
        (Quiet.nextCall hround).onward ha fun l' i hd hmem =>
          .inl (setRound_calls (nextCall_calls hround) l' i hd hmem)
      rcases sockfd with _ | sockfd
      · cases hst
        exact h1
      · cases hst
        have hreg : Registry f (s.setRound 0 (.handling calls)) := ⟨h.population, h.books.next hround⟩
        have h2 := h1.attended.accept hreg hlen sockfd writeComplete
        exact ⟨fun i hgone => h2.gone i (h1.gone i hgone), h2.attended⟩
    case h_2 =>
      cases hst
      exact hstay
  | handle l re =>
    simp only [enabled, Bool.and_eq_true] at hen
    obtain ⟨⟨⟨⟨-, hw⟩, hm⟩, hk⟩, -⟩ := hen
    simp only [TcpServer.step] at hst
    split at hst
    case h_1 i hd calls hround => exact ha.handle h hround hw hm hk hst
    case h_2 =>
      cases hst
      exact hstay
  | swap l =>
    simp only [enabled, Bool.and_eq_true, decide_eq_true_eq] at hen
    cases hst
    have hquiet : Quiet s { s.setRound l (.running (s.pending l)) with pending := Function.update s.pending l [] } :=
      .of_tasks rfl (swap_tasks hen.2)
    exact hquiet.onward ha fun l' i hd hmem => .inl (running_calls rfl l' hmem)
  | runTask l connection =>
    simp only [enabled, Bool.and_eq_true] at hen
    obtain ⟨⟨-, hscript⟩, -⟩ := hen
    simp only [TcpServer.step] at hst
    split at hst
    case h_1 t rest hround => exact ha.runTask h hround hscript hst
    case h_2 =>
      cases hst
      exact hstay
  | finish l =>
    simp only [enabled, Bool.and_eq_true, decide_eq_true_eq] at hen
    cases hst
    have hquiet : Quiet s (s.setRound l .polling) := by
      refine .setRound ?_ rfl
      rw [hen.2]
      rfl
    exact hquiet.onward ha fun l' i hd hmem => .inl (setRound_calls (List.nil_subset _) l' i hd hmem)
  | user l script =>
    simp only [enabled, Bool.and_eq_true] at hen
    obtain ⟨-, hframe⟩ := script_framed h.population hen.2 hst
    exact (Quiet.of_framed hframe).onward ha fun l' i hd hmem => .inl (hframe.round ▸ hmem)
  | destroy connection => cases hliving

end Attended

/-! ### File descriptors -/

/-- The first `n` connections have the fds `fd`. -/
structure HasFds (n : ℕ) (fd : ℕ → ℕ) (s : TcpServer) : Prop where
  length : n ≤ s.accepted.length
  fd : ∀ i < n, (s.conns i).channel.fd = fd i

theorem hasFds_rooted (n : ℕ) (fd : ℕ → ℕ) : Rooted (HasFds n fd) where
  set := by
    intro s i c h hface
    refine ⟨h.length, fun j hj => ?_⟩
    show (Function.update s.conns i c j).channel.fd = _
    by_cases hji : j = i
    · rw [hji, Function.update_self, hface.fd, ← hji]
      exact h.fd j hj
    · rw [Function.update_of_ne hji]
      exact h.fd j hj
  books := by
    intro s s' h heq
    rw [heq]
    exact ⟨h.length, h.fd⟩

theorem step_fd {a : ServerStep} (hst : s.step a = .ok s') (hi : i < s.accepted.length) :
    (s'.conns i).channel.fd = (s.conns i).channel.fd := by
  have h : HasFds s.accepted.length (fun i => (s.conns i).channel.fd) s := ⟨Nat.le_refl _, fun _ _ => rfl⟩
  refine ((hasFds_rooted _ _).step (fun t sockfd writeComplete _ ht => ?_) h hst).fd i hi
  refine ⟨?_, fun j hj => ?_⟩
  · rw [newConnectionCallback_accepted, List.length_append]
    exact Nat.le_add_right_of_le ht.length
  · have hne : j ≠ t.accepted.length := Nat.ne_of_lt (Nat.lt_of_lt_of_le hj ht.length)
    rw [(t.newConnectionCallback_conns sockfd writeComplete j).2, if_neg hne]
    exact ht.fd j hj

theorem accepted_fd {a : ServerStep} (hacc : a.accepts = true) (hen : s.enabled a = true)
    (hst : s.step a = .ok s') : ∃ sockfd writeComplete, a = .accept (some sockfd) writeComplete ∧
      (s'.conns s.accepted.length).channel.fd = sockfd := by
  obtain ⟨sockfd, writeComplete, rfl⟩ := accept_of_accepts hacc
  refine ⟨sockfd, writeComplete, rfl, ?_⟩
  simp only [enabled, Bool.and_eq_true] at hen
  simp only [TcpServer.step] at hst
  split at hst
  case h_1 call calls hround =>
    cases hst
    have hconns := ((s.setRound 0 (.handling calls)).newConnectionCallback_conns sockfd writeComplete
      s.accepted.length).2
    rw [hconns, if_pos (show s.accepted.length = (s.setRound 0 (.handling calls)).accepted.length from rfl)]
    rfl
  case h_2 hround =>
    obtain ⟨-, hen⟩ := hen
    split at hen
    case h_1 calls hround' => exact absurd hround' (hround _ calls)
    case h_2 => cases hen

/-- What is unowned stays so. -/
theorem Unowned.step {tr : List (TcpServer × ServerStep)} (hrel : Unowned tr s i) (h : Registry f s)
    (hi : i < s.accepted.length) (honward : Onward s s') (hnum : s'.numThreads = s.numThreads) (a : ServerStep) :
    Unowned (tr ++ [(s, a)]) s' i := by
  refine ⟨honward.gone i hrel.gone, fun l hl t ht heq => ?_⟩
  rw [hnum] at hl
  rw [funtors_snoc] at ht
  rcases mem_funtorsAfter ht with ht | ht
  · exact hrel.funtors l hl t ht heq
  · -- no task waits for a connection that is gone
    have hdue := (h.books.due_queued (List.mem_append_right (s.round l).tasks ht)).2
    rw [heq, (h.gone_iff hi).mp hrel.gone] at hdue
    cases hdue

/-- Two connections that are not unowned have different fds. -/
def Apart (tr : List (TcpServer × ServerStep)) (s : TcpServer) : Prop := ∀ i < s.accepted.length,
  ∀ j < s.accepted.length, ¬ Unowned tr s i → ¬ Unowned tr s j → (s.conns i).channel.fd = (s.conns j).channel.fd →
    i = j

theorem Apart.step {tr : List (TcpServer × ServerStep)} (hapart : Apart tr s) (h : Registry f s) {n : ℕ}
    (hdealt : Dealt n s) (hbatch : ∀ l, (s.round l).tasks ⊆ funtors tr l) (honward : Onward s s') {a : ServerStep}
    (hen : s.enabled a = true) (hnew : GivesNew tr s a) (hst : s.step a = .ok s')
    (hlength : s'.accepted.length = s.accepted.length + if a.accepts then 1 else 0) :
    Apart (tr ++ [(s, a)]) s' := by
  have hnum : s'.numThreads = s.numThreads := (hdealt.step hst).numThreads.trans hdealt.numThreads.symm
  have hold : ∀ {i}, i < s.accepted.length → ¬ Unowned (tr ++ [(s, a)]) s' i → ¬ Unowned tr s i :=
    fun hi hnot hrel => hnot (hrel.step h hi honward hnum a)
  -- the new connection's fd was not open
  have hfresh : ∀ i j, s.accepted.length ≤ i → i < s'.accepted.length → j < s.accepted.length →
      ¬ Unowned (tr ++ [(s, a)]) s' j → (s'.conns i).channel.fd ≠ (s'.conns j).channel.fd := by
    intro i j hge hi hj hnot
    rw [hlength] at hi
    split at hi
    case isFalse => omega
    case isTrue hacc =>
      obtain ⟨sockfd, writeComplete, rfl, hfd⟩ := accepted_fd hacc hen hst
      obtain rfl : i = s.accepted.length := by omega
      have howned : 0 < owners tr s j := (h.owned_iff hdealt hj hbatch).mpr (hold hj hnot)
      rw [hfd, step_fd hst hj]
      exact (hnew j hj howned).symm
  intro i hi j hj hnoti hnotj hfd
  rcases Nat.lt_or_ge i s.accepted.length with hilt | hige
  · rcases Nat.lt_or_ge j s.accepted.length with hjlt | hjge
    · rw [step_fd hst hilt, step_fd hst hjlt] at hfd
      exact hapart i hilt j hjlt (hold hilt hnoti) (hold hjlt hnotj) hfd
    · exact absurd hfd.symm (hfresh j i hjge hj hilt hnoti)
  · rcases Nat.lt_or_ge j s.accepted.length with hjlt | hjge
    · exact absurd hfd (hfresh i j hige hi hjlt hnotj)
    · have hone : (if a.accepts then 1 else 0) ≤ 1 := by
        split
        · exact Nat.le_refl 1
        · exact Nat.zero_le 1
      omega

/-! ### Runs -/

section GivesNew

variable {tr : List (TcpServer × ServerStep)} {a : ServerStep}
  (h : ∀ k (hk : k < (tr ++ [(s, a)]).length),
    GivesNew ((tr ++ [(s, a)]).take k) (tr ++ [(s, a)])[k].1 (tr ++ [(s, a)])[k].2)

include h

theorem givesNew_init (k : ℕ) (hk : k < tr.length) : GivesNew (tr.take k) tr[k].1 tr[k].2 := by
  have hk' := h k (by rw [List.length_append]; omega)
  rwa [List.take_append_of_le_length (Nat.le_of_lt hk), List.getElem_append_left hk] at hk'

theorem givesNew_last : GivesNew tr s a := by
  have hlast := h tr.length (by simp)
  rwa [List.take_left, List.getElem_concat_length rfl] at hlast

end GivesNew

/-- A server whose connections live as long as they are needed. -/
structure Lives (n : ℕ) (tr : List (TcpServer × ServerStep)) (s : TcpServer) : Prop where
  registry : ∃ f, Registry f s
  dealt : Dealt n s
  attended : s.Attended
  apart : Apart tr s
  batch : ∀ l, (s.round l).tasks ⊆ funtors tr l

theorem run_lives {n : ℕ} {s0 : TcpServer} (h0 : Lives n [] s0) (hempty : s0.accepted = [])
    {tr : List (TcpServer × ServerStep)} (hr : Run serverMachine s0 tr s) (hliving : ∀ p ∈ tr, p.2.Living)
    (hnew : ∀ k (hk : k < tr.length), GivesNew (tr.take k) tr[k].1 tr[k].2)
    (hlen : (tr.countP fun p => p.2.accepts) < 0x100000000) :
    Lives n tr s ∧ s.accepted.length = tr.countP fun p => p.2.accepts := by
  induction hr with
  | nil => exact ⟨h0, congrArg List.length hempty⟩
  | @snoc tr t u a hr hen hst ih =>
    rw [List.countP_append] at hlen ⊢
    obtain ⟨⟨⟨f, hreg⟩, hdealt, hattended, hapart, hbatch⟩, hlength⟩ :=
      ih (fun p hp => hliving p (List.mem_append_left _ hp)) (givesNew_init hnew) (by omega)
    have hliv : a.Living := hliving (t, a) (by simp)
    have hlt : t.accepted.length < 0x100000000 := by omega
    obtain ⟨hreg', hlength'⟩ := hreg.step hen hliv hlt hst
    have honward := hattended.step hreg hen hliv hlt hst
    refine ⟨⟨hreg', hdealt.step hst, honward.attended, ?_, fun l => ?_⟩, ?_⟩
    · exact hapart.step hreg hdealt hbatch honward hen (givesNew_last hnew) hst hlength'
    · rw [funtors_snoc]
      exact (step_appends hen hst).tasks_subset (hbatch l)
    · rw [hlength', hlength, List.countP_singleton]

theorem start_lives (name : String) (connectionCallback messageCallback : Bool) (n : ℕ) :
    Lives n [] (start name connectionCallback messageCallback n) := by
  refine ⟨⟨_, start_registry name connectionCallback messageCallback n⟩, start_dealt .., ?_, ?_, fun l => ?_⟩
  · intro l i hd hmem
    cases hmem
  · intro i hi
    exact absurd hi (Nat.not_lt_zero i)
  · exact List.nil_subset _

end TcpServer

/-- A connection is at the last stage exactly when `ConnectDestroyed` has run
on its loop. -/
theorem Lived.destroyed_iff {reports : Bool} {stage : LifeStage} {c : TcpConnection} (h : Lived reports stage c) :
    .connectDestroyed c.loop ∈ c.trace ↔ stage = .destroyed := by
  obtain ⟨shut, -, hlife⟩ := h.story
  have hmem : .connectDestroyed c.loop ∈ c.trace ↔ .destroyed c.loop ∈ c.life := by
    refine ⟨mem_life rfl, fun hmem => ?_⟩
    obtain ⟨e, he, hlast⟩ := List.mem_filterMap.mp hmem
    unfold Event.life? at hlast
    split at hlast <;> cases hlast
    exact he
  rw [hmem, hlife]
  cases stage <;> cases reports <;> simp [history, closingHistory, upHistory]

open TcpServer

/-- **A channel is not outlived by the pointers to it.** In every run of a
living server, whatever its loops and its users do and in every order, as long
as `accept` returns fds that are not open:

- a callback that a loop has still to make is that of a connection that has an
  owner among `connections_`, the queues and the running batches of the loops;
- so has every connection whose fd is in epoll;
- a connection has no such owner left exactly when `ConnectDestroyed` has run on
  its own loop and every batch with a task of it has returned;
- no two connections that have owners share an fd. -/
theorem channels_outlived (name : String) (connectionCallback messageCallback : Bool) (numThreads : ℕ)
    {tr : List (TcpServer × ServerStep)} {s : TcpServer}
    (hr : Run serverMachine (TcpServer.start name connectionCallback messageCallback numThreads) tr s)
    (hliving : ∀ p ∈ tr, p.2.Living)
    (hnew : ∀ k (hk : k < tr.length), GivesNew (tr.take k) tr[k].1 tr[k].2)
    (hlen : (tr.countP fun p => p.2.accepts) < 0x100000000) :
    (∀ l i hd, .handler i hd ∈ (s.round l).calls → 0 < owners tr s i) ∧
    (∀ i < s.accepted.length, (s.conns i).channel.registered ≠ none → 0 < owners tr s i) ∧
    (∀ i < s.accepted.length, owners tr s i = 0 ↔ .connectDestroyed (s.conns i).loop ∈ (s.conns i).trace ∧
      ∀ l ≤ numThreads, ∀ t ∈ funtors tr l, t.index ≠ i) ∧
    ∀ i < s.accepted.length, ∀ j < s.accepted.length, 0 < owners tr s i → 0 < owners tr s j →
      (s.conns i).channel.fd = (s.conns j).channel.fd → i = j := by
  obtain ⟨⟨⟨f, hreg⟩, hdealt, hattended, hapart, hbatch⟩, -⟩ := run_lives
    (start_lives name connectionCallback messageCallback numThreads) rfl hr hliving hnew hlen
  have howned : ∀ {i}, i < s.accepted.length → (0 < owners tr s i ↔ ¬ Unowned tr s i) :=
    fun hi => hreg.owned_iff hdealt hi hbatch
  refine ⟨fun l i hd hmem => ?_, fun i hi hreg' => ?_, fun i hi => ?_, fun i hi j hj hoi hoj => ?_⟩
  · have hon := (hreg.books.handling.calls l i hd hmem).1
    exact (howned (onLoop_iff.mp hon).1).mpr fun hrel => hattended l i hd hmem hrel.gone
  · obtain ⟨interest, hinterest⟩ := Option.ne_none_iff_exists'.mp hreg'
    have hlived := hreg.population i hi
    have hup : f i = .up := hlived.up_iff.mp (hlived.wired.up_of_registered hinterest)
    refine (howned hi).mpr fun hrel => ?_
    have hdestroyed := (hreg.gone_iff hi).mp hrel.gone
    rw [hup] at hdestroyed
    cases hdestroyed
  · rw [hreg.owners_eq_zero_iff hdealt hi hbatch, (hreg.population i hi).destroyed_iff, hdealt.numThreads]
  · exact hapart i hi j hj ((howned hi).mp hoi) ((howned hj).mp hoj)

/-- The first connection is closed; its IO loop destroys it in a batch that
keeps it until it returns. Then the second one gets its fd. -/
theorem channels_outlived_reused :
    let closing : List ServerStep := [.poll 0 [(.acceptor, { epollIn := true })], .accept (some 7) false, .swap 0,
      .finish 0, .poll 1 [], .swap 1, .runTask 1 [], .finish 1, .poll 1 [(.connection 0, { epollHup := true })],
      .handle 1 {}, .poll 0 [], .swap 0, .runTask 0 [], .finish 0, .swap 1, .runTask 1 []]
    let steps := closing ++ [.finish 1, .poll 0 [(.acceptor, { epollIn := true })], .accept (some 7) false]
    let start := TcpServer.start "s" true true 1
    let half := final serverMachine start closing
    let s := final serverMachine start steps
    .connectDestroyed 1 ∈ (half.conns 0).trace ∧ owners (trace serverMachine start closing) half 0 = 1 ∧
      s.accepted = [7, 7] ∧ owners (trace serverMachine start steps) s 0 = 0 ∧
      owners (trace serverMachine start steps) s 1 = 2 := by
  intro closing steps start half s
  have hrun : Run serverMachine start (trace serverMachine start steps) s := run_of_accepts _ _ (by decide +kernel)
  have h := channels_outlived "s" true true 1 hrun (by decide +kernel) (by decide +kernel) (by decide +kernel)
  refine ⟨by decide +kernel, by decide +kernel, by decide +kernel, ?_, by decide +kernel⟩
  exact (h.2.2.1 0 (by decide +kernel)).mpr ⟨by decide +kernel, by decide +kernel⟩

end MiniMuduo
