/-
# The registry of connections

The server's books: the tasks in the loops' queues, the callbacks that the
loops have still to call, and `connections_`. They agree with the stages of
the connections (`Books`): a new connection has its `ConnectEstablished`
queued, a closed one its `RemoveConnectionInLoop`, a removed one its
`ConnectDestroyed`, each once and on the right loop, and nothing else is
queued (`Ledger`); a callback that can close a connection is only left to
call while the connection is up, and once at most (`Handling`);
`connections_` holds the connections that are not removed (`Holding`).

Names are made from `next_conn_id_`, an `int`: they are all different up to
`2 ^ 32` connections.

Key definitions: `LifeStage.due`, `Books`, `Registry`, `ServerStep.Living`.
Key theorems: `Books.take`, `Books.put`, `Books.close`, `Books.remove`,
`Books.accept`, `Registry.step`, `connections_registered`.
-/
import Mathlib
import MiniMuduo.Lib.Ledger
import MiniMuduo.Population

namespace MiniMuduo

open Fallible Runs Word TcpConnection

/-- The task that waits for a connection at a stage, with its loop. -/
def LifeStage.due (loop i : ℕ) : LifeStage → Option (ℕ × ServerTask)
  | .fresh => some (loop, .connectEstablished i)
  | .closed => some (0, .removeConnectionInLoop i)
  | .removed => some (loop, .connectDestroyed i)
  | .up | .closing | .destroyed => none

theorem LifeStage.due_cases {stage : LifeStage} {loop i l : ℕ} {t : ServerTask}
    (h : stage.due loop i = some (l, t)) :
    (stage = .fresh ∧ l = loop ∧ t = .connectEstablished i) ∨
      (stage = .closed ∧ l = 0 ∧ t = .removeConnectionInLoop i) ∨
      (stage = .removed ∧ l = loop ∧ t = .connectDestroyed i) := by
  cases stage with
  | fresh =>
    cases h
    exact .inl ⟨rfl, rfl, rfl⟩
  | closed =>
    cases h
    exact .inr (.inl ⟨rfl, rfl, rfl⟩)
  | removed =>
    cases h
    exact .inr (.inr ⟨rfl, rfl, rfl⟩)
  | up => cases h
  | closing => cases h
  | destroyed => cases h

/-- The connection is in `connections_`. -/
def LifeStage.held : LifeStage → Bool
  | .fresh | .up | .closing | .closed => true
  | .removed | .destroyed => false

/-- The callback can close the connection `i`. -/
def ChannelCall.closes (i : ℕ) : ChannelCall → Bool
  | .accept => false
  | .handler j h => j = i && h.closes

/-- Not EPOLLHUP without EPOLLIN together with EPOLLPRI or EPOLLRDHUP. -/
def Events.plainHup (mask : Events) : Bool :=
  !(mask.epollHup && !mask.epollIn && (mask.epollPri || mask.epollRdhup))

/-- Such a mask calls one handler at most that can close. -/
theorem handlers_closes {mask : Events} (h : mask.plainHup = true) : (handlers mask).countP Handler.closes ≤ 1 := by
  obtain ⟨i, p, o, e, u, r⟩ := mask
  revert i p o e u r
  decide

namespace ServerStep

/-- The steps of a living server, with these masks. -/
def Living : ServerStep → Prop
  | .poll _ ready => ∀ r ∈ ready, r.2.plainHup = true
  | .destroy _ => False
  | .accept _ _ | .handle _ _ | .swap _ | .runTask _ _ | .finish _ | .user _ _ => True

instance : (a : ServerStep) → Decidable a.Living
  | .poll _ ready => inferInstanceAs (Decidable (∀ r ∈ ready, _))
  | .destroy _ => inferInstanceAs (Decidable False)
  | .accept _ _ | .handle _ _ | .swap _ | .runTask _ _ | .finish _ | .user _ _ => inferInstanceAs (Decidable True)

/-- The step accepts a connection. -/
def accepts : ServerStep → Bool
  | .accept (some _) _ => true
  | _ => false

end ServerStep

namespace TcpServer

/-- The name of the connection `i`. -/
def nameAt (s : TcpServer) (i : ℕ) : String := s.name ++ "#" ++ toString (int32 i)

/-- The task that waits for the connection `i`. -/
def due (f : ℕ → LifeStage) (s : TcpServer) (i : ℕ) : Option (ℕ × ServerTask) :=
  if i < s.accepted.length then (f i).due (s.conns i).loop i else none

/-- Connections and the numbers they were made with. -/
structure Named (s : TcpServer) : Prop where
  fd : ∀ i < s.accepted.length, s.accepted[i]? = some (s.conns i).channel.fd
  name : ∀ i < s.accepted.length, (s.conns i).name = s.nameAt i
  nextConnId : s.nextConnId = int32 s.accepted.length

/-- The callbacks left to call are those of connections that have come up;
one of them at most can close a connection, which is then still up. -/
structure Handling (f : ℕ → LifeStage) (s : TcpServer) : Prop where
  calls : ∀ l i h, .handler i h ∈ (s.round l).calls →
    s.onLoop l i = true ∧ f i ≠ .fresh ∧ (h.closes = true → f i = .up)
  once : ∀ l i, (s.round l).calls.countP (ChannelCall.closes i) ≤ 1

/-- `connections_` holds the connections that are not removed. -/
structure Holding (f : ℕ → LifeStage) (s : TcpServer) : Prop where
  entries : ∀ key i, (key, i) ∈ s.connections.entries ↔
    i < s.accepted.length ∧ key = (s.conns i).name ∧ (f i).held = true
  removed : ∀ i, i ∈ s.removed ↔ i < s.accepted.length ∧ (f i).held = false

/-- The server's books agree with the stages of its connections. -/
structure Books (f : ℕ → LifeStage) (s : TcpServer) : Prop where
  named : Named s
  ledger : Ledger ServerTask.index s.tasks (s.due f)
  handling : Handling f s
  holding : Holding f s

/-- A server whose connections are at their stages. -/
structure Registry (f : ℕ → LifeStage) (s : TcpServer) : Prop where
  population : Population f s
  books : Books f s

variable {f : ℕ → LifeStage} {s s' : TcpServer} {l i : ℕ}

/-! ### Names -/

theorem nameAt_inj (s : TcpServer) {i j : ℕ} (hi : i < 0x100000000) (hj : j < 0x100000000)
    (h : s.nameAt i = s.nameAt j) : i = j :=
  int32_inj hi hj (Int.repr_injective ((String.append_right_inj _).mp h))

theorem Named.inj (h : Named s) (hlen : s.accepted.length ≤ 0x100000000) {i j : ℕ} (hi : i < s.accepted.length)
    (hj : j < s.accepted.length) (heq : (s.conns i).name = (s.conns j).name) : i = j := by
  rw [h.name i hi, h.name j hj] at heq
  apply nameAt_inj s _ _ heq
  · exact Nat.lt_of_lt_of_le hi hlen
  · exact Nat.lt_of_lt_of_le hj hlen

/-! ### Queues -/

theorem tasks_running {t : ServerTask} {rest : List ServerTask} (hround : s.round l = .running (t :: rest)) :
    s.tasks l = t :: (rest ++ s.pending l) := by
  unfold tasks
  rw [hround]
  rfl

theorem setRound_tasks (s : TcpServer) (l : ℕ) (r : Round) :
    (s.setRound l r).tasks = Function.update s.tasks l (r.tasks ++ s.pending l) := by
  funext l'
  show ((s.setRound l r).round l').tasks ++ s.pending l' = _
  rw [setRound_round]
  by_cases h : l' = l
  · rw [h, if_pos rfl, Function.update_self]
  · rw [if_neg h, Function.update_of_ne h]
    rfl

theorem setRound_tasks_of_nil (hround : (s.round l).tasks = []) {r : Round} (hr : r.tasks = []) :
    (s.setRound l r).tasks = s.tasks := by
  rw [setRound_tasks, hr, ← hround]
  exact Function.update_eq_self l s.tasks

theorem swap_tasks (hround : s.round l = .handling []) : TcpServer.tasks { s.setRound l (.running (s.pending l)) with
    pending := Function.update s.pending l [] } = s.tasks := by
  funext l'
  show ((s.setRound l (.running (s.pending l))).round l').tasks ++ Function.update s.pending l [] l' = _
  rw [setRound_round]
  by_cases hl : l' = l
  · rw [hl, if_pos rfl, Function.update_self, List.append_nil]
    unfold tasks
    rw [hround]
    rfl
  · rw [if_neg hl, Function.update_of_ne hl]
    rfl

theorem queueInLoop_tasks_eq (s : TcpServer) (l : ℕ) (t : ServerTask) :
    (s.queueInLoop l t).tasks = Function.update s.tasks l (s.tasks l ++ [t]) := by
  funext l'
  rw [queueInLoop_tasks]
  by_cases h : l' = l
  · rw [h, if_pos rfl, Function.update_self]
  · rw [if_neg h, Function.update_of_ne h]

theorem due_update (hi : i < s.accepted.length) (stage : LifeStage) :
    s.due (Function.update f i stage) = Function.update (s.due f) i (stage.due (s.conns i).loop i) := by
  funext j
  unfold due
  by_cases hj : j = i
  · rw [hj, if_pos hi, Function.update_self, Function.update_self]
  · rw [Function.update_of_ne hj, Function.update_of_ne hj]

/-! ### What the books depend on -/

theorem Framed.due (h : Framed s s') : s'.due f = s.due f := by
  funext i
  unfold TcpServer.due
  rw [h.accepted, (h.face i).loop]

theorem Books.framed (h : Books f s) (hframe : Framed s s') : Books f s' := by
  have hname : s'.name = s.name := by rw [hframe.rest]
  have hround : s'.round = s.round := by rw [hframe.rest]
  have hpending : s'.pending = s.pending := by rw [hframe.rest]
  have hconnections : s'.connections = s.connections := by rw [hframe.rest]
  have hremoved : s'.removed = s.removed := by rw [hframe.rest]
  have hnext : s'.nextConnId = s.nextConnId := by rw [hframe.rest]
  have htasks : s'.tasks = s.tasks := by
    unfold TcpServer.tasks
    rw [hround, hpending]
  refine ⟨⟨fun i hi => ?_, fun i hi => ?_, ?_⟩, ?_, ⟨fun l i hd hmem => ?_, fun l i => ?_⟩,
    ⟨fun key i => ?_, fun i => ?_⟩⟩
  · rw [hframe.accepted] at hi ⊢
    rw [(hframe.face i).fd]
    exact h.named.fd i hi
  · rw [hframe.accepted] at hi
    unfold nameAt
    rw [(hframe.face i).name, hname]
    exact h.named.name i hi
  · rw [hnext, hframe.accepted]
    exact h.named.nextConnId
  · rw [htasks, hframe.due]
    exact h.ledger
  · rw [hround] at hmem
    rw [hframe.onLoop]
    exact h.handling.calls l i hd hmem
  · rw [hround]
    exact h.handling.once l i
  · rw [hconnections, hframe.accepted, (hframe.face i).name]
    exact h.holding.entries key i
  · rw [hremoved, hframe.accepted]
    exact h.holding.removed i

namespace Handling

/-- Fewer callbacks are left. -/
theorem setRound (h : Handling f s) {r : Round} (hr : r.calls.Sublist (s.round l).calls) :
    Handling f (s.setRound l r) := by
  have hsub : ∀ l', ((s.setRound l r).round l').calls.Sublist (s.round l').calls := by
    intro l'
    rw [setRound_round]
    split
    case isTrue heq =>
      rw [heq]
      exact hr
    case isFalse => exact List.Sublist.refl _
  exact ⟨fun l' i hd hmem => h.calls l' i hd ((hsub l').subset hmem),
    fun l' i => ((hsub l').countP_le).trans (h.once l' i)⟩

theorem move (h : Handling f s) {stage : LifeStage} (hst : stage ≠ .fresh)
    (hno : stage = .up ∨ ∀ l hd, .handler i hd ∈ (s.round l).calls → hd.closes = false) :
    Handling (Function.update f i stage) s := by
  refine ⟨fun l j hd hmem => ?_, h.once⟩
  obtain ⟨hon, hfresh, hup⟩ := h.calls l j hd hmem
  by_cases hj : j = i
  · rw [hj, Function.update_self]
    rw [hj] at hmem hon
    refine ⟨hon, hst, fun hcloses => ?_⟩
    rcases hno with hno | hno
    · exact hno
    · rw [hno l hd hmem] at hcloses
      cases hcloses
  · rw [Function.update_of_ne hj]
    exact ⟨hon, hfresh, hup⟩

theorem not_closes (h : Handling f s) (hup : f i ≠ .up) (l : ℕ) (hd : Handler)
    (hmem : .handler i hd ∈ (s.round l).calls) : hd.closes = false := by
  by_contra hcloses
  exact hup ((h.calls l i hd hmem).2.2 (Bool.not_eq_false _ ▸ hcloses))

/-- The next callback. -/
theorem head (h : Handling f s) {hd : Handler} {calls : List ChannelCall}
    (hround : s.round l = .handling (.handler i hd :: calls)) :
    s.onLoop l i = true ∧ f i ≠ .fresh ∧ (hd.closes = true → f i = .up) := by
  apply h.calls
  rw [hround]
  exact List.mem_cons_self

/-- After the callback that closes a connection there is none that could. -/
theorem after_closing (h : Handling f s) {hd : Handler} {calls : List ChannelCall}
    (hround : s.round l = .handling (.handler i hd :: calls)) (hcloses : hd.closes = true) (l' : ℕ) (hd' : Handler)
    (hmem : .handler i hd' ∈ ((s.setRound l (.handling calls)).round l').calls) : hd'.closes = false := by
  have hon := (onLoop_iff.mp (h.head hround).1).2
  rw [setRound_round] at hmem
  by_cases hl : l' = l
  · rw [if_pos hl] at hmem
    have honce := h.once l i
    rw [hround] at honce
    have hpos : ChannelCall.closes i (.handler i hd) = true := by simp [ChannelCall.closes, hcloses]
    have hzero : calls.countP (ChannelCall.closes i) = 0 := by
      have hcons : (ChannelCall.handler i hd :: calls).countP (ChannelCall.closes i) ≤ 1 := honce
      rw [List.countP_cons_of_pos hpos] at hcons
      omega
    have hnot := List.countP_eq_zero.mp hzero _ hmem
    simpa [ChannelCall.closes] using hnot
  · rw [if_neg hl] at hmem
    have hon' := (onLoop_iff.mp (h.calls l' i hd' hmem).1).2
    exact absurd (hon'.symm.trans hon) hl

end Handling

/-- A connection moves and is held as before. -/
theorem Holding.move (h : Holding f s) {stage : LifeStage} (hheld : stage.held = (f i).held) :
    Holding (Function.update f i stage) s := by
  have hsame : ∀ j, (Function.update f i stage j).held = (f j).held := by
    intro j
    by_cases hj : j = i
    · rw [hj, Function.update_self, hheld]
    · rw [Function.update_of_ne hj]
  refine ⟨fun key j => ?_, fun j => ?_⟩
  · rw [hsame]
    exact h.entries key j
  · rw [hsame]
    exact h.removed j

/-! ### Tasks -/

/-- The server without the connection `i`. -/
def erased (s : TcpServer) (i : ℕ) : TcpServer :=
  { s with connections := (s.connections.erase (s.conns i).name).2, removed := s.removed ++ [i] }

/-- What `RemoveConnectionInLoop` can do. -/
theorem removeConnectionInLoop_cases {connection : List (Act ℕ)}
    (h : s.removeConnectionInLoop l i connection = .ok s') :
    (l = (s.conns i).loop ∧ connectDestroyed l (connAt i) (runActs l connAt connection) (s.erased i) = .ok s') ∨
      (l ≠ (s.conns i).loop ∧ s' = (s.erased i).queueInLoop (s.conns i).loop (.connectDestroyed i)) := by
  unfold removeConnectionInLoop at h
  simp only at h
  split at h
  · cases h
  · split at h
    · cases h
    · by_cases hl : l = (s.conns i).loop
      · rw [if_pos hl] at h
        exact .inl ⟨hl, h⟩
      · rw [if_neg hl] at h
        cases h
        exact .inr ⟨hl, rfl⟩

namespace Books

/-- A task that is queued is due for its connection. -/
theorem due_queued (h : Books f s) {t : ServerTask} (hmem : t ∈ s.tasks l) :
    t.index < s.accepted.length ∧ (f t.index).due (s.conns t.index).loop t.index = some (l, t) := by
  have hdue := h.ledger.mem_iff.mp hmem
  unfold TcpServer.due at hdue
  split at hdue
  case isTrue hi => exact ⟨hi, hdue⟩
  case isFalse => cases hdue

theorem due_running (h : Books f s) {t : ServerTask} {rest : List ServerTask}
    (hround : s.round l = .running (t :: rest)) :
    t.index < s.accepted.length ∧ (f t.index).due (s.conns t.index).loop t.index = some (l, t) := by
  apply h.due_queued
  rw [tasks_running hround]
  exact List.mem_cons_self

/-- The queues after the first task of a batch is taken. -/
theorem ledger_take (h : Books f s) {t : ServerTask} {rest : List ServerTask}
    (hround : s.round l = .running (t :: rest)) {stage : LifeStage}
    (hnone : stage.due (s.conns t.index).loop t.index = none) :
    Ledger ServerTask.index (s.setRound l (.running rest)).tasks (s.due (Function.update f t.index stage)) := by
  rw [setRound_tasks, due_update (h.due_running hround).1, hnone]
  exact h.ledger.take (tasks_running hround)

/-- The first task of a batch is taken, and its connection moves to a stage
where nothing is due. -/
theorem take (h : Books f s) {t : ServerTask} {rest : List ServerTask}
    (hround : s.round l = .running (t :: rest)) {stage : LifeStage}
    (hnone : stage.due (s.conns t.index).loop t.index = none) (hst : stage ≠ .fresh)
    (hup : stage = .up ∨ f t.index ≠ .up) (hheld : stage.held = (f t.index).held) :
    Books (Function.update f t.index stage) (s.setRound l (.running rest)) := by
  have hnamed : Named (s.setRound l (.running rest)) := ⟨h.named.fd, h.named.name, h.named.nextConnId⟩
  have hhandling : Handling f (s.setRound l (.running rest)) := h.handling.setRound (List.nil_sublist _)
  have hholding : Holding f (s.setRound l (.running rest)) := ⟨h.holding.entries, h.holding.removed⟩
  exact ⟨hnamed, h.ledger_take hround hnone, hhandling.move hst (hup.imp_right hhandling.not_closes),
    hholding.move hheld⟩

/-- A connection for which nothing is due moves to a stage where the task `t`
is, and `t` is queued. -/
theorem put (h : Books f s) {t : ServerTask} (hi : t.index < s.accepted.length)
    (hnone : (f t.index).due (s.conns t.index).loop t.index = none) {stage : LifeStage}
    (hdue : stage.due (s.conns t.index).loop t.index = some (l, t)) (hst : stage ≠ .fresh)
    (hno : ∀ l hd, .handler t.index hd ∈ (s.round l).calls → hd.closes = false)
    (hheld : stage.held = (f t.index).held) : Books (Function.update f t.index stage) (s.queueInLoop l t) := by
  have hnamed : Named (s.queueInLoop l t) := ⟨h.named.fd, h.named.name, h.named.nextConnId⟩
  have hhandling : Handling f (s.queueInLoop l t) := ⟨h.handling.calls, h.handling.once⟩
  have hholding : Holding f (s.queueInLoop l t) := ⟨h.holding.entries, h.holding.removed⟩
  have hnone' : s.due f t.index = none := by
    unfold TcpServer.due
    rw [if_pos hi, hnone]
  have hledger : Ledger ServerTask.index (s.queueInLoop l t).tasks (s.due (Function.update f t.index stage)) := by
    rw [queueInLoop_tasks_eq, due_update hi, hdue]
    exact h.ledger.put hnone'
  exact ⟨hnamed, hledger, hhandling.move hst (.inr hno), hholding.move hheld⟩

/-- A round goes on without touching tasks. -/
theorem setRound (h : Books f s) {r : Round} (htasks : (s.round l).tasks = []) (hr : r.tasks = [])
    (hcalls : r.calls.Sublist (s.round l).calls) : Books f (s.setRound l r) := by
  have hledger : Ledger ServerTask.index (s.setRound l r).tasks (s.due f) := by
    rw [setRound_tasks_of_nil htasks hr]
    exact h.ledger
  exact ⟨⟨h.named.fd, h.named.name, h.named.nextConnId⟩, hledger, h.handling.setRound hcalls,
    ⟨h.holding.entries, h.holding.removed⟩⟩

theorem next (h : Books f s) {call : ChannelCall} {calls : List ChannelCall}
    (hround : s.round l = .handling (call :: calls)) : Books f (s.setRound l (.handling calls)) := by
  refine h.setRound ?_ rfl ?_
  · rw [hround]
    rfl
  · rw [hround]
    exact List.sublist_cons_self _ _

/-- The close of a connection queues its removal. -/
theorem close (h : Books f s) {hd : Handler} {calls : List ChannelCall}
    (hround : s.round l = .handling (.handler i hd :: calls)) (hcloses : hd.closes = true) (hst : f i = .up) :
    Books (Function.update f i .closed)
      ((s.setRound l (.handling calls)).queueInLoop 0 (.removeConnectionInLoop i)) := by
  have hi : i < s.accepted.length := (onLoop_iff.mp (h.handling.head hround).1).1
  refine (h.next hround).put (t := .removeConnectionInLoop i) hi ?_ rfl (by decide)
    (h.handling.after_closing hround hcloses) ?_
  · show (f i).due _ _ = none
    rw [hst]
    rfl
  · show LifeStage.held .closed = (f i).held
    rw [hst]
    rfl

/-- `RemoveConnectionInLoop` has one entry to erase. -/
theorem erase_one (h : Books f s) (hi : i < s.accepted.length) (hst : f i = .closed) :
    (s.connections.erase (s.conns i).name).1 = 1 := by
  have hmem : ((s.conns i).name, i) ∈ s.connections.entries := by
    refine (h.holding.entries _ _).mpr ⟨hi, rfl, ?_⟩
    rw [hst]
    rfl
  exact s.connections.erase_count hmem

theorem remove (h : Books f s) {rest : List ServerTask} (hlen : s.accepted.length ≤ 0x100000000)
    (hround : s.round l = .running (.removeConnectionInLoop i :: rest)) (hst : f i = .closed) :
    Books (Function.update f i .destroyed) ((s.setRound l (.running rest)).erased i) := by
  have hi : i < s.accepted.length := (h.due_running hround).1
  have hhandling : Handling f (s.setRound l (.running rest)) := h.handling.setRound (List.nil_sublist _)
  have hdown : f i ≠ .up := by
    rw [hst]
    decide
  have hmoved : Handling (Function.update f i .destroyed) (s.setRound l (.running rest)) :=
    hhandling.move (by decide) (.inr (hhandling.not_closes hdown))
  refine ⟨⟨h.named.fd, h.named.name, h.named.nextConnId⟩, h.ledger_take hround rfl,
    ⟨hmoved.calls, hmoved.once⟩, ⟨fun key j => ?_, fun j => ?_⟩⟩
  · show (key, j) ∈ (s.connections.erase (s.conns i).name).2.entries ↔
      j < s.accepted.length ∧ key = (s.conns j).name ∧ (Function.update f i .destroyed j).held = true
    rw [OrderedMap.mem_erase, h.holding.entries]
    by_cases hj : j = i
    · rw [hj, Function.update_self]
      refine ⟨fun h' => absurd h'.1.2.1 h'.2, fun h' => ?_⟩
      cases h'.2.2
    · rw [Function.update_of_ne hj]
      refine ⟨fun h' => h'.1, fun h' => ⟨h', fun hkey => hj ?_⟩⟩
      exact h.named.inj hlen h'.1 hi (h'.2.1.symm.trans hkey)
  · show j ∈ s.removed ++ [i] ↔ j < s.accepted.length ∧ (Function.update f i .destroyed j).held = false
    rw [List.mem_append, List.mem_singleton, h.holding.removed]
    by_cases hj : j = i
    · rw [hj, Function.update_self]
      exact ⟨fun _ => ⟨hi, rfl⟩, fun _ => .inr rfl⟩
    · rw [Function.update_of_ne hj, or_iff_left hj]

end Books

/-! ### New connections -/

/-- A connection that the server has just made. -/
theorem newConnection_lived (tid : ℕ) (name : String) (sockfd : ℕ) (cbs : Callbacks) (hclose : cbs.close = true) :
    Lived cbs.connection .fresh (newConnection tid name sockfd cbs) :=
  ⟨newConnection_tidy tid name sockfd cbs, newConnection_wired tid name sockfd cbs, rfl, hclose,
    ⟨false, rfl, rfl⟩, fun _ => rfl, fun h => absurd rfl h⟩

/-- The server with one connection more. -/
def added (s : TcpServer) (sockfd : ℕ) (writeComplete : Bool) : TcpServer :=
  { s with
    next := s.getNextLoop.2.next
    nextConnId := int32 (s.nextConnId + 1)
    accepted := s.accepted ++ [sockfd]
    conns := Function.update s.conns s.accepted.length (newConnection s.getNextLoop.1 s.connName sockfd
      ⟨s.connectionCallback, s.messageCallback, writeComplete, true⟩)
    connections := s.connections.emplace s.connName s.accepted.length }

section added

variable {sockfd : ℕ} {writeComplete : Bool}

theorem added_length : (s.added sockfd writeComplete).accepted.length = s.accepted.length + 1 :=
  List.length_append

theorem added_conns_new : (s.added sockfd writeComplete).conns s.accepted.length =
    newConnection s.getNextLoop.1 s.connName sockfd
      ⟨s.connectionCallback, s.messageCallback, writeComplete, true⟩ :=
  Function.update_self ..

theorem added_conns_old (hi : i < s.accepted.length) : (s.added sockfd writeComplete).conns i = s.conns i :=
  Function.update_of_ne (Nat.ne_of_lt hi) ..

/-- Under a name that is not taken `NewConnectionCallback` adds a connection
and queues its `ConnectEstablished`. -/
theorem newConnectionCallback_added (hnone : s.connections.find s.connName = none) :
    s.newConnectionCallback sockfd writeComplete =
      (s.added sockfd writeComplete).queueInLoop s.getNextLoop.1 (.connectEstablished s.accepted.length) := by
  rw [newConnectionCallback_eq, hnone]
  simp only [Option.getD_none, Lens.modify, connAt, Function.update_self, Function.update_idem]
  rfl

theorem added_onLoop (hi : s.onLoop l i = true) : (s.added sockfd writeComplete).onLoop l i = true := by
  obtain ⟨hlt, hloop⟩ := onLoop_iff.mp hi
  rw [onLoop_iff, added_length, added_conns_old hlt]
  exact ⟨Nat.lt_succ_of_lt hlt, hloop⟩

theorem added_due : (s.added sockfd writeComplete).due (Function.update f s.accepted.length .fresh) =
    Function.update (s.due f) s.accepted.length
      (some (s.getNextLoop.1, .connectEstablished s.accepted.length)) := by
  funext i
  unfold due
  rw [added_length]
  rcases Nat.lt_trichotomy i s.accepted.length with hi | hi | hi
  · rw [Function.update_of_ne (Nat.ne_of_lt hi), Function.update_of_ne (Nat.ne_of_lt hi), added_conns_old hi,
      if_pos hi, if_pos (Nat.lt_succ_of_lt hi)]
  · rw [hi, Function.update_self, Function.update_self, added_conns_new, if_pos (Nat.lt_succ_self _)]
    rfl
  · have hle : ¬ i < s.accepted.length := Nat.lt_asymm hi
    have hle' : ¬ i < s.accepted.length + 1 := Nat.not_lt.mpr hi
    rw [if_neg hle', Function.update_of_ne (Nat.ne_of_gt hi), if_neg hle]

theorem Population.added (h : Population f s) :
    Population (Function.update f s.accepted.length .fresh) (s.added sockfd writeComplete) := by
  intro i hi
  rw [added_length] at hi
  rcases Nat.lt_succ_iff_lt_or_eq.mp hi with hi | hi
  · rw [Function.update_of_ne (Nat.ne_of_lt hi), added_conns_old hi]
    exact h i hi
  · rw [hi, Function.update_self, added_conns_new]
    exact newConnection_lived s.getNextLoop.1 s.connName sockfd ⟨s.connectionCallback, _, _, true⟩ rfl

namespace Books

theorem connName_eq (h : Books f s) : s.connName = s.nameAt s.accepted.length := by
  unfold connName nameAt
  rw [h.named.nextConnId]

theorem find_connName (h : Books f s) (hlen : s.accepted.length < 0x100000000) :
    s.connections.find s.connName = none := by
  apply Option.eq_none_iff_forall_ne_some.mpr
  intro j hj
  obtain ⟨hlt, hkey, -⟩ := (h.holding.entries _ _).mp ((OrderedMap.find_eq_some_iff _).mp hj)
  rw [h.named.name j hlt, h.connName_eq] at hkey
  have heq := nameAt_inj s hlen (Nat.lt_trans hlt hlen) hkey
  exact Nat.ne_of_gt hlt heq

theorem added_named (h : Books f s) : Named (s.added sockfd writeComplete) := by
  refine ⟨fun i hi => ?_, fun i hi => ?_, ?_⟩
  · rw [added_length] at hi
    show (s.accepted ++ [sockfd])[i]? = _
    rcases Nat.lt_succ_iff_lt_or_eq.mp hi with hi | hi
    · rw [added_conns_old hi, List.getElem?_append_left hi]
      exact h.named.fd i hi
    · rw [hi, added_conns_new, List.getElem?_concat_length]
      rfl
  · rw [added_length] at hi
    rcases Nat.lt_succ_iff_lt_or_eq.mp hi with hi | hi
    · rw [added_conns_old hi]
      exact h.named.name i hi
    · rw [hi, added_conns_new]
      exact h.connName_eq
  · rw [added_length, ← int32_succ, ← h.named.nextConnId]
    rfl

theorem added_holding (h : Books f s) (hlen : s.accepted.length < 0x100000000) :
    Holding (Function.update f s.accepted.length .fresh) (s.added sockfd writeComplete) := by
  have hfree : ∀ e ∈ s.connections.entries, e.1 ≠ s.connName := by
    intro e he hkey
    have hfind := (OrderedMap.find_eq_some_iff _).mpr (hkey ▸ he : (s.connName, e.2) ∈ s.connections.entries)
    rw [h.find_connName hlen] at hfind
    cases hfind
  refine ⟨fun key i => ?_, fun i => ?_⟩
  · show (key, i) ∈ (s.connections.emplace s.connName s.accepted.length).entries ↔ _
    rw [OrderedMap.mem_emplace, h.holding.entries, added_length]
    rcases Nat.lt_trichotomy i s.accepted.length with hi | hi | hi
    · rw [added_conns_old hi, Function.update_of_ne (Nat.ne_of_lt hi)]
      refine ⟨?_, fun h' => .inl ⟨hi, h'.2⟩⟩
      rintro (h' | ⟨heq, -⟩)
      · exact ⟨Nat.lt_succ_of_lt hi, h'.2⟩
      · exact absurd (Prod.mk.inj heq).2 (Nat.ne_of_lt hi)
    · rw [hi, added_conns_new, Function.update_self]
      refine ⟨?_, fun h' => .inr ⟨Prod.ext h'.2.1 rfl, hfree⟩⟩
      rintro (h' | ⟨heq, -⟩)
      · exact absurd h'.1 (Nat.lt_irrefl _)
      · exact ⟨Nat.lt_succ_self _, (Prod.mk.inj heq).1, rfl⟩
    · refine ⟨?_, fun h' => absurd h'.1 (by omega)⟩
      rintro (h' | ⟨heq, -⟩)
      · exact absurd h'.1 (by omega)
      · exact absurd (Prod.mk.inj heq).2 (Nat.ne_of_gt hi)
  · show i ∈ s.removed ↔ _
    rw [h.holding.removed, added_length]
    by_cases hi : i = s.accepted.length
    · rw [hi, Function.update_self]
      exact ⟨fun h' => absurd h'.1 (Nat.lt_irrefl _), fun h' => by cases h'.2⟩
    · rw [Function.update_of_ne hi]
      exact ⟨fun h' => ⟨Nat.lt_succ_of_lt h'.1, h'.2⟩, fun h' => ⟨by omega, h'.2⟩⟩

/-- A new connection. -/
theorem accept (h : Books f s) (hlen : s.accepted.length < 0x100000000) :
    Books (Function.update f s.accepted.length .fresh)
      ((s.added sockfd writeComplete).queueInLoop s.getNextLoop.1 (.connectEstablished s.accepted.length)) := by
  have hnamed : Named (s.added sockfd writeComplete) := h.added_named
  have hholding : Holding (Function.update f s.accepted.length .fresh) (s.added sockfd writeComplete) :=
    h.added_holding hlen
  refine ⟨⟨hnamed.fd, hnamed.name, hnamed.nextConnId⟩, ?_, ⟨fun l i hd hmem => ?_, h.handling.once⟩,
    ⟨hholding.entries, hholding.removed⟩⟩
  · have hnone : s.due f s.accepted.length = none := by
      unfold TcpServer.due
      rw [if_neg (Nat.lt_irrefl _)]
    rw [queueInLoop_tasks_eq]
    show Ledger _ _ ((s.added sockfd writeComplete).due _)
    rw [added_due]
    exact Ledger.put (t := ServerTask.connectEstablished s.accepted.length) h.ledger hnone
  · obtain ⟨hon, hrest⟩ := h.handling.calls l i hd hmem
    have hlt : i < s.accepted.length := (onLoop_iff.mp hon).1
    rw [Function.update_of_ne (Nat.ne_of_lt hlt)]
    exact ⟨added_onLoop hon, hrest⟩

end Books

end added

/-! ### Polling -/

/-- `FillActiveChannels` leaves the connections at their stages. -/
theorem setRevents_framed (h : Population f s) {ready : List (ChannelRef × Events)}
    (hr : ∀ r ∈ ready, ∀ i, r.1 = .connection i → i < s.accepted.length) :
    Population f (s.setRevents ready) ∧ Framed s (s.setRevents ready) := by
  unfold setRevents
  induction ready generalizing s with
  | nil => exact ⟨h, .refl s⟩
  | cons r ready ih =>
    rw [List.foldl_cons]
    obtain ⟨ref, ev⟩ := r
    cases ref with
    | acceptor => exact ih h fun r hmem => hr r (List.mem_cons_of_mem _ hmem)
    | connection i =>
      have hc := h i (hr _ List.mem_cons_self i rfl)
      set c : TcpConnection := { s.conns i with channel := { (s.conns i).channel with revents := ev } } with hcdef
      have hface : SameFace (s.conns i) c := ⟨rfl, rfl, rfl, rfl, rfl, rfl⟩
      have ht := hc.tidy
      have htidy : Tidy (s.conns i).loop (s.conns i).writeCompleteCallback c :=
        ⟨ht.loop, ht.notifies, ht.wf, ht.synced, ht.writing, ht.stopped, ht.fresh⟩
      have hwired : Wired c := ⟨hc.wired.listening, hc.wired.gone⟩
      have hlived : Lived s.connectionCallback (f i) c :=
        hc.keep hface htidy hwired rfl rfl (Adds.of_eq rfl) fun _ => rfl
      have hframe : Framed s ((connAt i).set s c) := .set hface
      have hr' : ∀ r ∈ ready, ∀ i, r.1 = .connection i → i < ((connAt 0).set s c).accepted.length :=
        fun r hmem => hr r (List.mem_cons_of_mem _ hmem)
      obtain ⟨h2, hframe2⟩ := ih (h.keep hlived) hr'
      exact ⟨h2, hframe.trans hframe2⟩

/-- Among the callbacks of different channels one at most can close a
connection. -/
theorem calls_once {ready : List (ChannelRef × Events)} (hnodup : (ready.map Prod.fst).Nodup)
    (hplain : ∀ r ∈ ready, r.2.plainHup = true) (i : ℕ) :
    (ready.flatMap fun r => r.1.calls r.2).countP (ChannelCall.closes i) ≤ 1 := by
  have hnone : ∀ (ref : ChannelRef) (ev : Events), ref ≠ .connection i →
      (ref.calls ev).countP (ChannelCall.closes i) = 0 := by
    intro ref ev hne
    rw [List.countP_eq_zero]
    intro call hcall
    cases ref with
    | acceptor =>
      simp only [ChannelRef.calls] at hcall
      split at hcall
      · rw [List.mem_singleton.mp hcall]
        simp [ChannelCall.closes]
      · cases hcall
    | connection j =>
      obtain ⟨hd, -, rfl⟩ := List.mem_map.mp hcall
      have hj : j ≠ i := fun h' => hne (h' ▸ rfl)
      simp [ChannelCall.closes, hj]
  induction ready with
  | nil => exact Nat.zero_le 1
  | cons r ready ih =>
    obtain ⟨ref, ev⟩ := r
    obtain ⟨hnot, hnodup'⟩ := List.nodup_cons.mp hnodup
    rw [List.flatMap_cons, List.countP_append]
    by_cases href : ref = .connection i
    · have hrest : (ready.flatMap fun r => r.1.calls r.2).countP (ChannelCall.closes i) = 0 := by
        rw [List.countP_eq_zero]
        intro call hcall
        obtain ⟨r, hr, hmem⟩ := List.mem_flatMap.mp hcall
        have hne : r.1 ≠ .connection i := by
          intro heq
          exact hnot (List.mem_map.mpr ⟨r, hr, heq.trans href.symm⟩)
        exact List.countP_eq_zero.mp (hnone r.1 r.2 hne) call hmem
      have hfirst : (ref.calls ev).countP (ChannelCall.closes i) ≤ 1 := by
        rw [href]
        show ((handlers ev).map (ChannelCall.handler i)).countP (ChannelCall.closes i) ≤ 1
        rw [List.countP_map]
        have heq : ChannelCall.closes i ∘ ChannelCall.handler i = Handler.closes := by
          funext hd
          simp [ChannelCall.closes]
        rw [heq]
        exact handlers_closes (hplain _ List.mem_cons_self)
      show (ref.calls ev).countP _ + _ ≤ 1
      rw [hrest]
      exact hfirst
    · rw [hnone ref ev href, Nat.zero_add]
      exact ih hnodup' fun r hr => hplain r (List.mem_cons_of_mem _ hr)

/-- `Poll` reports connections that are up. -/
theorem Registry.poll (h : Registry f s) {ready : List (ChannelRef × Events)} (hround : s.round l = .polling)
    (hnodup : (ready.map Prod.fst).Nodup) (hreport : ∀ r ∈ ready, s.canReport l r = true)
    (hplain : ∀ r ∈ ready, r.2.plainHup = true) :
    Registry f ((s.setRevents ready).setRound l (.handling (ready.flatMap fun r => r.1.calls r.2))) ∧
      (s.setRevents ready).accepted = s.accepted := by
  have hup : ∀ r ∈ ready, ∀ i, r.1 = .connection i → s.onLoop l i = true ∧ f i = .up := by
    intro r hr i hi
    have hcan := hreport r hr
    unfold canReport at hcan
    rw [hi] at hcan
    obtain ⟨hon, hany⟩ := Bool.and_eq_true_iff.mp hcan
    refine ⟨hon, ?_⟩
    have hlived := h.population i (onLoop_iff.mp hon).1
    cases hreg : (s.conns i).channel.registered with
    | none =>
      rw [hreg] at hany
      cases hany
    | some interest => exact hlived.up_iff.mp (hlived.wired.up_of_registered hreg)
  obtain ⟨hpop, hframe⟩ := setRevents_framed h.population fun r hr i hi => (onLoop_iff.mp (hup r hr i hi).1).1
  have hb := h.books.framed hframe
  have hround' : (s.setRevents ready).round = s.round := by rw [hframe.rest]
  refine ⟨⟨hpop, ⟨hb.named.fd, hb.named.name, hb.named.nextConnId⟩, ?_,
    ⟨fun l' i hd hmem => ?_, fun l' i => ?_⟩, ⟨hb.holding.entries, hb.holding.removed⟩⟩, hframe.accepted⟩
  · rw [setRound_tasks_of_nil _ rfl]
    · exact hb.ledger
    · rw [hround', hround]
      rfl
  · rw [setRound_round] at hmem
    by_cases hl : l' = l
    · rw [if_pos hl] at hmem
      obtain ⟨⟨ref, ev⟩, hr, hcall⟩ := List.mem_flatMap.mp hmem
      cases ref with
      | acceptor =>
        simp only [ChannelRef.calls] at hcall
        split at hcall <;> simp at hcall
      | connection j =>
        obtain ⟨hd', -, heq⟩ := List.mem_map.mp hcall
        cases heq
        obtain ⟨hon, hst⟩ := hup _ hr i rfl
        rw [hst, hl]
        exact ⟨(hframe.onLoop l i).trans hon, by decide, fun _ => rfl⟩
    · rw [if_neg hl] at hmem
      exact hb.handling.calls l' i hd hmem
  · rw [setRound_round]
    split
    · exact calls_once hnodup hplain i
    · exact hb.handling.once l' i

/-! ### Steps -/

namespace Registry

theorem handle (h : Registry f s) {hd : Handler} {calls : List ChannelCall}
    (hround : s.round l = .handling (.handler i hd :: calls)) {re : Decisions ℕ}
    (hw : s.scriptOn l re.writeComplete = true) (hm : s.scriptOn l re.message = true)
    (hk : s.scriptOn l re.connection = true)
    (hrun : TcpConnection.handle l (connAt i) (re.reaction l connAt (removeConnection i)) hd
      (s.setRound l (.handling calls)) = .ok s') :
    (∃ f', Registry f' s') ∧ s'.accepted.length = s.accepted.length := by
  obtain ⟨hon, hfresh, hup⟩ := h.books.handling.head hround
  have hpop : Population f (s.setRound l (.handling calls)) := h.population
  rcases handle_framed hpop hon hfresh hup hw hm hk hrun with ⟨hpop', hframe⟩ | ⟨hcloses, hc⟩
  · exact ⟨⟨f, hpop', (h.books.next hround).framed hframe⟩, congrArg List.length hframe.accepted⟩
  · have hb := h.books.close hround hcloses hc.up
    exact ⟨⟨_, hc.population, hb.framed hc.framed⟩, congrArg List.length hc.framed.accepted⟩

theorem removeConnectionInLoop (h : Registry f s) (hlen : s.accepted.length ≤ 0x100000000)
    {rest : List ServerTask} (hround : s.round l = .running (.removeConnectionInLoop i :: rest)) (hst : f i = .closed)
    {connection : List (Act ℕ)}
    (hrun : (s.setRound l (.running rest)).removeConnectionInLoop l i connection = .ok s') :
    (∃ f', Registry f' s') ∧ s'.accepted.length = s.accepted.length := by
  have hi : i < s.accepted.length := (h.books.due_running hround).1
  set s1 := (s.setRound l (.running rest)).erased i with hs1
  have hpop : Population (Function.update f i .removed) s1 := by
    have hlived := h.population i hi
    rw [hst] at hlived
    have hset := h.population.set (i := i) hlived.remove
    have hsame : (connAt i).set s (s.conns i) = s := (connAt i).set_get s
    rwa [hsame] at hset
  have hbooks : Books (Function.update f i .destroyed) s1 := h.books.remove hlen hround hst
  rcases removeConnectionInLoop_cases hrun with ⟨hl, hrun⟩ | ⟨-, rfl⟩
  · obtain ⟨hpop', hframe⟩ := connectDestroyed_framed hpop (onLoop_iff.mpr ⟨hi, hl.symm⟩)
      (Function.update_self ..) hrun
    rw [Function.update_idem] at hpop'
    exact ⟨⟨_, hpop', hbooks.framed hframe⟩, congrArg List.length hframe.accepted⟩
  · have hdown : Function.update f i .destroyed i ≠ .up := by
      rw [Function.update_self]
      decide
    have hput : Books (Function.update (Function.update f i .destroyed) i .removed)
        (s1.queueInLoop (s.conns i).loop (.connectDestroyed i)) := by
      refine hbooks.put (t := .connectDestroyed i) hi ?_ rfl (by decide) (hbooks.handling.not_closes hdown) ?_
      · show (Function.update f i .destroyed i).due _ _ = none
        rw [Function.update_self]
        rfl
      · show LifeStage.held .removed = (Function.update f i .destroyed i).held
        rw [Function.update_self]
        rfl
    rw [Function.update_idem] at hput
    exact ⟨⟨_, hpop, hput⟩, rfl⟩

theorem runTask (h : Registry f s) (hlen : s.accepted.length ≤ 0x100000000) {t : ServerTask}
    {rest : List ServerTask} (hround : s.round l = .running (t :: rest)) {connection : List (Act ℕ)}
    (hscript : s.scriptOn l connection = true)
    (hrun : (s.setRound l (.running rest)).runTask l connection t = .ok s') :
    (∃ f', Registry f' s') ∧ s'.accepted.length = s.accepted.length := by
  obtain ⟨hi, hdue⟩ := h.books.due_running hround
  obtain ⟨i, hidx⟩ : ∃ i, t.index = i := ⟨_, rfl⟩
  rw [hidx] at hi hdue
  have hpop : Population f (s.setRound l (.running rest)) := h.population
  rcases LifeStage.due_cases hdue with ⟨hst, hl, rfl⟩ | ⟨hst, -, rfl⟩ | ⟨hst, hl, rfl⟩
  · have hbooks : Books (Function.update f i .up) (s.setRound l (.running rest)) := by
      refine h.books.take hround rfl (by decide) (.inl rfl) ?_
      show LifeStage.held .up = (f i).held
      rw [hst]
      rfl
    obtain ⟨hpop', hframe⟩ := connectEstablished_framed hpop (onLoop_iff.mpr ⟨hi, hl.symm⟩) hst hscript hrun
    exact ⟨⟨_, hpop', hbooks.framed hframe⟩, congrArg List.length hframe.accepted⟩
  · exact h.removeConnectionInLoop hlen hround hst hrun
  · have hbooks : Books (Function.update f i .destroyed) (s.setRound l (.running rest)) := by
      refine h.books.take hround rfl (by decide) (.inr ?_) ?_
      · show f i ≠ .up
        rw [hst]
        decide
      · show LifeStage.held .destroyed = (f i).held
        rw [hst]
        rfl
    obtain ⟨hpop', hframe⟩ := connectDestroyed_framed hpop (onLoop_iff.mpr ⟨hi, hl.symm⟩) hst hrun
    exact ⟨⟨_, hpop', hbooks.framed hframe⟩, congrArg List.length hframe.accepted⟩

theorem newConnectionCallback (h : Registry f s) (hlen : s.accepted.length < 0x100000000) (sockfd : ℕ)
    (writeComplete : Bool) :
    (∃ f', Registry f' (s.newConnectionCallback sockfd writeComplete)) ∧
      (s.newConnectionCallback sockfd writeComplete).accepted.length = s.accepted.length + 1 := by
  rw [newConnectionCallback_added (h.books.find_connName hlen)]
  have hlength : (s.added sockfd writeComplete).accepted.length = s.accepted.length + 1 := added_length
  exact ⟨⟨_, h.population.added, h.books.accept hlen⟩, hlength⟩

theorem swap (h : Registry f s) (hround : s.round l = .handling []) :
    Registry f { s.setRound l (.running (s.pending l)) with pending := Function.update s.pending l [] } := by
  have hb := h.books
  have hhandling : Handling f (s.setRound l (.running (s.pending l))) := hb.handling.setRound (List.nil_sublist _)
  refine ⟨h.population, ⟨hb.named.fd, hb.named.name, hb.named.nextConnId⟩, ?_, ⟨hhandling.calls, hhandling.once⟩,
    ⟨hb.holding.entries, hb.holding.removed⟩⟩
  rw [swap_tasks hround]
  exact hb.ledger

theorem step (h : Registry f s) {a : ServerStep} (hen : s.enabled a = true) (hliving : a.Living)
    (hlen : s.accepted.length < 0x100000000) (hst : s.step a = .ok s') :
    (∃ f', Registry f' s') ∧ s'.accepted.length = s.accepted.length + if a.accepts then 1 else 0 := by
  cases a with
  | poll l ready =>
    simp only [enabled, Bool.and_eq_true, List.all_eq_true, decide_eq_true_eq] at hen
    obtain ⟨⟨⟨-, hround⟩, hnodup⟩, hreport⟩ := hen
    cases hst
    obtain ⟨h', haccepted⟩ := h.poll hround hnodup hreport hliving
    exact ⟨⟨f, h'⟩, congrArg List.length haccepted⟩
  | accept sockfd writeComplete =>
    simp only [enabled, Bool.and_eq_true] at hen
    simp only [TcpServer.step] at hst
    split at hst
    case h_1 call calls hround =>
      have h1 : Registry f (s.setRound 0 (.handling calls)) := ⟨h.population, h.books.next hround⟩
      rcases sockfd with _ | sockfd
      · cases hst
        exact ⟨⟨f, h1⟩, rfl⟩
      · cases hst
        exact h1.newConnectionCallback hlen sockfd writeComplete
    case h_2 hround =>
      cases hst
      obtain ⟨-, hen⟩ := hen
      split at hen
      case h_1 calls hround' => exact absurd hround' (hround _ calls)
      case h_2 => cases hen
  | handle l re =>
    simp only [enabled, Bool.and_eq_true] at hen
    obtain ⟨⟨⟨⟨-, hw⟩, hm⟩, hk⟩, -⟩ := hen
    simp only [TcpServer.step] at hst
    split at hst
    case h_1 i hd calls hround => exact h.handle hround hw hm hk hst
    case h_2 =>
      cases hst
      exact ⟨⟨f, h⟩, rfl⟩
  | swap l =>
    simp only [enabled, Bool.and_eq_true, decide_eq_true_eq] at hen
    cases hst
    exact ⟨⟨f, h.swap hen.2⟩, rfl⟩
  | runTask l connection =>
    simp only [enabled, Bool.and_eq_true] at hen
    obtain ⟨⟨-, hscript⟩, -⟩ := hen
    simp only [TcpServer.step] at hst
    split at hst
    case h_1 t rest hround => exact h.runTask (Nat.le_of_lt hlen) hround hscript hst
    case h_2 =>
      cases hst
      exact ⟨⟨f, h⟩, rfl⟩
  | finish l =>
    simp only [enabled, Bool.and_eq_true, decide_eq_true_eq] at hen
    cases hst
    refine ⟨⟨f, h.population, h.books.setRound ?_ rfl (List.nil_sublist _)⟩, rfl⟩
    rw [hen.2]
    rfl
  | user l script =>
    simp only [enabled, Bool.and_eq_true] at hen
    obtain ⟨hpop, hframe⟩ := script_framed h.population hen.2 hst
    exact ⟨⟨f, hpop, h.books.framed hframe⟩, congrArg List.length hframe.accepted⟩
  | destroy connection => cases hliving

end Registry

theorem start_registry (name : String) (connectionCallback messageCallback : Bool) (numThreads : ℕ) :
    Registry (fun _ => .fresh) (start name connectionCallback messageCallback numThreads) := by
  have hnone : ∀ {i : ℕ}, ¬ i < (start name connectionCallback messageCallback numThreads).accepted.length :=
    fun {i} => Nat.not_lt_zero i
  have hid : (0 : ℤ) = int32 ((0 : ℕ) : ℤ) := by simp [int32]
  refine ⟨fun i hi => absurd hi hnone, ⟨fun i hi => absurd hi hnone, fun i hi => absurd hi hnone, hid⟩,
    fun l t => rfl, ⟨fun l i hd hmem => ?_, fun l i => Nat.zero_le 1⟩, ⟨fun key i => ?_, fun i => ?_⟩⟩
  · cases hmem
  · exact ⟨fun h => absurd h List.not_mem_nil, fun h => absurd h.1 hnone⟩
  · exact ⟨fun h => absurd h List.not_mem_nil, fun h => absurd h.1 hnone⟩

/-- Every state that a living server reaches has a registry, up to `2 ^ 32`
connections. -/
theorem run_registry {s0 : TcpServer} (h0 : Registry f s0) (hempty : s0.accepted = [])
    {tr : List (TcpServer × ServerStep)} (hr : Run serverMachine s0 tr s)
    (hliving : ∀ p ∈ tr, p.2.Living) (hlen : (tr.countP fun p => p.2.accepts) < 0x100000000) :
    (∃ f', Registry f' s) ∧ s.accepted.length = tr.countP fun p => p.2.accepts := by
  induction hr with
  | nil => exact ⟨⟨f, h0⟩, congrArg List.length hempty⟩
  | @snoc tr t u a hr hen hst ih =>
    rw [List.countP_append] at hlen ⊢
    obtain ⟨⟨f', h⟩, hlength⟩ := ih (fun p hp => hliving p (List.mem_append_left _ hp)) (by omega)
    obtain ⟨hreg, hlength'⟩ := h.step hen (hliving (t, a) (by simp)) (by omega) hst
    refine ⟨hreg, ?_⟩
    rw [hlength', hlength, List.countP_singleton]

end TcpServer

open TcpServer

/-- **Every accepted connection is registered once and lives its life in
order.** In every interleaving of the loops of a living server, with any
number of IO threads, that has accepted fewer than `2 ^ 32` connections and
whose masks have EPOLLHUP without EPOLLIN only without EPOLLPRI and
EPOLLRDHUP: every accepted fd has its own connection under its own name,
which lives as it should; a `RemoveConnectionInLoop` that is queued is on the
base loop and will erase one entry; and `connections_` holds the accepted
connections that are not yet removed. -/
theorem connections_registered (name : String) (connectionCallback messageCallback : Bool) (numThreads : ℕ)
    {tr : List (TcpServer × ServerStep)} {s : TcpServer}
    (hr : Run serverMachine (TcpServer.start name connectionCallback messageCallback numThreads) tr s)
    (hliving : ∀ p ∈ tr, p.2.Living) (hlen : (tr.countP fun p => p.2.accepts) < 0x100000000) :
    s.accepted.length = (tr.countP fun p => p.2.accepts) ∧
    (∀ i < s.accepted.length, s.accepted[i]? = some (s.conns i).channel.fd ∧ Lifecycle (s.conns i)) ∧
    (∀ i < s.accepted.length, ∀ j < s.accepted.length, (s.conns i).name = (s.conns j).name → i = j) ∧
    (∀ l i, .removeConnectionInLoop i ∈ s.tasks l → l = 0 ∧ (s.connections.erase (s.conns i).name).1 = 1) ∧
    (∀ key i, (key, i) ∈ s.connections.entries ↔
      i < s.accepted.length ∧ key = (s.conns i).name ∧ i ∉ s.removed) := by
  obtain ⟨⟨f, hpop, hbooks⟩, hlength⟩ := run_registry
    (start_registry name connectionCallback messageCallback numThreads) rfl hr hliving hlen
  have hle : s.accepted.length ≤ 0x100000000 := by omega
  refine ⟨hlength, fun i hi => ⟨hbooks.named.fd i hi, (hpop i hi).lifecycle⟩,
    fun i hi j hj => hbooks.named.inj hle hi hj, fun l i hmem => ?_, fun key i => ?_⟩
  · obtain ⟨hi, hdue⟩ := hbooks.due_queued hmem
    rcases LifeStage.due_cases hdue with ⟨-, -, ht⟩ | ⟨hst, hl, -⟩ | ⟨-, -, ht⟩
    · cases ht
    · exact ⟨hl, hbooks.erase_one hi hst⟩
    · cases ht
  · rw [hbooks.holding.entries, hbooks.holding.removed]
    refine and_congr_right fun hi => and_congr_right fun _ => ?_
    simp [hi]

/-- A connection on an IO loop sends, is closed by its peer and is removed,
while a second one comes up. -/
theorem connections_registered_two :
    let steps : List ServerStep := [.poll 0 [(.acceptor, { epollIn := true })], .accept (some 7) false, .swap 0,
      .finish 0, .poll 1 [], .swap 1, .runTask 1 [.send 0 [1, 2] (.wrote 2) []], .finish 1,
      .poll 0 [(.acceptor, { epollIn := true })], .poll 1 [(.connection 0, { epollIn := true, epollHup := true })],
      .handle 1 { read := .read [] }, .accept (some 8) true, .swap 0, .runTask 0 [], .swap 1, .runTask 1 [],
      .runTask 1 []]
    let s := final serverMachine (TcpServer.start "s" true true 1) steps
    s.connections.entries = [("s#1", 1)] ∧ s.removed = [0] ∧ .connectDestroyed 1 ∈ (s.conns 0).trace ∧
      ∀ i < 2, s.accepted[i]? = some (s.conns i).channel.fd ∧ Lifecycle (s.conns i) :=
  ⟨by decide +kernel, by decide +kernel, by decide +kernel, fun i hi =>
    (connections_registered "s" true true 1 (run_of_accepts _ _ (by decide +kernel)) (by decide +kernel)
      (by decide +kernel)).2.1 i (Nat.lt_of_lt_of_le hi (by decide +kernel))⟩

end MiniMuduo
