/-
# The task queues of a server's loops

Each loop of a server has a queue of tasks that it takes out a batch at a time
(`TcpServer.queue`, a `BatchQueue`). A step is its own loop's move, which takes
the next callback, the whole queue or the next task (`TcpServer.advance`), and
then what it runs there, which can only queue more tasks, in any loop
(`step_appends`). So in every run each loop's queue goes through a run of the
batch queue that gives no batch up, and takes the tasks that the loop runs
(`server_queue`).

`DoPendingFunctors` keeps the batch in a local vector until it returns, the
tasks it has run included: `funtors` is that vector after a run.

Key definitions: `TcpServer.queue`, `TcpServer.advance`, `TcpServer.Appends`,
`TcpServer.funtors`.
Key theorems: `TcpServer.step_appends`, `TcpServer.server_queue`,
`TcpServer.Appends.tasks_subset`.
-/
import MiniMuduo.Lib.BatchQueue
import MiniMuduo.ConnNames

namespace MiniMuduo

open Fallible Runs BatchQueues TcpConnection

namespace TcpServer

/-- The queue of the loop `l`, and what is left of its batch. -/
def queue (s : TcpServer) (l : ℕ) : BatchQueue ServerTask := ⟨s.pending l, (s.round l).tasks⟩

/-- What a step does by itself to its loop, before what it runs there. -/
def advance (s : TcpServer) : ServerStep → TcpServer
  | .poll l ready => s.setRound l (.handling (ready.flatMap fun r => r.1.calls r.2))
  | .accept _ _ => s.setRound 0 (.handling (s.round 0).calls.tail)
  | .handle l _ => s.setRound l (.handling (s.round l).calls.tail)
  | .swap l => { s.setRound l (.running (s.pending l)) with pending := Function.update s.pending l [] }
  | .runTask l _ => s.setRound l (.running (s.round l).tasks.tail)
  | .finish l => s.setRound l .polling
  | .user _ _ | .destroy _ => s

/-- Tasks were queued at the ends of the queues, and the loops are where they
were. -/
structure Appends (s s' : TcpServer) : Prop where
  round : s'.round = s.round
  pending : ∀ l, s.pending l <+: s'.pending l

variable {s s' : TcpServer} {l : ℕ}

namespace Appends

theorem refl (s : TcpServer) : Appends s s := ⟨rfl, fun _ => List.prefix_rfl⟩

/-- What a connection does to itself queues nothing. -/
theorem set (h : Appends s s') (i : ℕ) (c : TcpConnection) : Appends s ((connAt i).set s' c) := ⟨h.round, h.pending⟩

theorem queueInLoop (h : Appends s s') (l : ℕ) (t : ServerTask) : Appends s (s'.queueInLoop l t) := by
  refine ⟨h.round, fun l' => (h.pending l').trans ?_⟩
  show s'.pending l' <+: Function.update s'.pending l (s'.pending l ++ [t]) l'
  by_cases hl : l' = l
  · rw [hl, Function.update_self]
    exact List.prefix_append _ _
  · rw [Function.update_of_ne hl]

theorem kept (s : TcpServer) (i : ℕ) : Kept (connAt i) (Appends s) := fun _ c h _ => h.set i c

theorem runActs {script : List (Act ℕ)} (h : Appends s s') {s1 : TcpServer}
    (hrun : MiniMuduo.runActs l connAt script s' = .ok s1) : Appends s s1 :=
  runActs_keeps connAt_apart script (scriptAllowed_all script) (fun _ i c _ hs _ => hs.set i c) s' s1 h hrun

theorem setRevents (h : Appends s s') (ready : List (ChannelRef × Events)) : Appends s (s'.setRevents ready) := by
  induction ready generalizing s' with
  | nil => exact h
  | cons r ready ih =>
    unfold TcpServer.setRevents
    rw [List.foldl_cons]
    apply ih
    split
    · exact h
    · exact h.set _ _

theorem newConnectionCallback (h : Appends s s') (sockfd : ℕ) (writeComplete : Bool) :
    Appends s (s'.newConnectionCallback sockfd writeComplete) := by
  rw [newConnectionCallback_eq]
  refine queueInLoop ?_ _ _
  exact ⟨h.round, h.pending⟩

theorem runTask (h : Appends s s') {connection : List (Act ℕ)} {t : ServerTask} {s1 : TcpServer}
    (hrun : s'.runTask l connection t = .ok s1) : Appends s s1 := by
  have hk : ∀ t t', Appends s t → MiniMuduo.runActs l connAt connection t = .ok t' → Appends s t' :=
    fun _ _ ht hacts => ht.runActs hacts
  cases t with
  | connectEstablished i => exact (kept s i).connectEstablished hk h hrun
  | removeConnectionInLoop i =>
    have herased : Appends s (s'.erased i) := ⟨h.round, h.pending⟩
    rcases removeConnectionInLoop_cases hrun with ⟨-, hdes⟩ | ⟨-, rfl⟩
    · exact (kept s i).connectDestroyed hk herased hdes
    · exact herased.queueInLoop _ _
  | connectDestroyed i => exact (kept s i).connectDestroyed hk h hrun

/-- The loop in `~TcpServer`. -/
theorem destroyAll {connection : ℕ → List (Act ℕ)} : ∀ (entries : List (String × ℕ)) {s' s1 : TcpServer},
    Appends s s' → entries.foldlM (fun t entry => TcpConnection.connectDestroyed 0 (connAt entry.2)
      (MiniMuduo.runActs 0 connAt (connection entry.2)) t) s' = .ok s1 → Appends s s1
  | [], _, _, h, hrun => by
    cases hrun
    exact h
  | entry :: entries, s', s1, h, hrun => by
    rw [List.foldlM_cons] at hrun
    obtain ⟨s2, hdes, hrun⟩ := bind_eq_ok hrun
    exact destroyAll entries ((kept s entry.2).connectDestroyed (fun _ _ ht hacts => ht.runActs hacts) h hdes) hrun

/-- To the queues this is some pushes. -/
theorem takes (h : Appends s s') (l : ℕ) :
    ∃ new : List ServerTask, Takes (queueMachine ServerTask) (s.queue l) (new.map .push) (s'.queue l) := by
  obtain ⟨new, hnew⟩ := h.pending l
  refine ⟨new, ?_⟩
  have htakes := takes_push (s.queue l) new
  have hqueue : s'.queue l = { s.queue l with pending := s.pending l ++ new } := by
    unfold TcpServer.queue
    rw [h.round, hnew]
  rwa [hqueue]

end Appends

/-- A step that the state allows is its loop's move, and may then queue tasks. -/
theorem step_appends {a : ServerStep} (hen : s.enabled a = true) (hst : s.step a = .ok s') :
    Appends (s.advance a) s' := by
  cases a with
  | poll l ready =>
    cases hst
    have h := (Appends.refl s).setRevents ready
    refine ⟨?_, h.pending⟩
    show Function.update (s.setRevents ready).round l _ = Function.update s.round l _
    rw [h.round]
  | accept sockfd writeComplete =>
    simp only [enabled, Bool.and_eq_true] at hen
    obtain ⟨-, hen⟩ := hen
    split at hen
    case h_2 => cases hen
    case h_1 calls hround =>
      simp only [TcpServer.step, hround] at hst
      simp only [advance, hround, Round.calls, List.tail_cons]
      rcases sockfd with _ | sockfd
      · cases hst
        exact .refl _
      · cases hst
        exact (Appends.refl _).newConnectionCallback sockfd writeComplete
  | handle l re =>
    simp only [enabled, Bool.and_eq_true] at hen
    obtain ⟨-, hen⟩ := hen
    split at hen
    case h_2 => cases hen
    case h_1 i hd calls hround =>
      simp only [TcpServer.step, hround] at hst
      simp only [advance, hround, Round.calls, List.tail_cons]
      have hacts : ∀ script t t', Appends (s.setRound l (.handling calls)) t →
          runActs l connAt script t = .ok t' → Appends (s.setRound l (.handling calls)) t' :=
        fun _ _ _ ht hrun => ht.runActs hrun
      have hclose : ∀ t t', Appends (s.setRound l (.handling calls)) t → removeConnection i t = .ok t' →
          Appends (s.setRound l (.handling calls)) t' := by
        intro t t' ht hclose
        cases hclose
        exact ht.queueInLoop _ _
      refine (Appends.kept _ i).handle (hacts _) (hacts _) hclose hd (.refl _) (fun _ t ht hread => ?_) hst
      exact (Appends.kept _ i).handleRead (hacts _) (hacts _) hclose (fun _ _ _ _ => ht.set i _) hread
  | swap l =>
    cases hst
    exact .refl _
  | runTask l connection =>
    simp only [enabled, Bool.and_eq_true] at hen
    obtain ⟨-, hen⟩ := hen
    split at hen
    case h_2 => cases hen
    case h_1 t tasks hround =>
      simp only [TcpServer.step, hround] at hst
      simp only [advance, hround, Round.tasks, List.tail_cons]
      exact (Appends.refl _).runTask hst
  | finish l =>
    cases hst
    exact .refl _
  | user l script => exact (Appends.refl s).runActs hst
  | destroy connection =>
    obtain ⟨s1, hfold, hst⟩ := bind_eq_ok hst
    cases hst
    have h := (Appends.refl s).destroyAll _ hfold
    exact ⟨h.round, h.pending⟩

end TcpServer

/-- The task that the loop `l` runs in a step. -/
def ServerStep.runs (s : TcpServer) (l : ℕ) : ServerStep → List ServerTask
  | .runTask l' _ => if l' = l then (s.round l).tasks.take 1 else []
  | _ => []

/-- What the loop `l` does to its queue in a step. -/
def ServerStep.queueOps (s : TcpServer) (l : ℕ) (a : ServerStep) : List (QueueOp ServerTask) :=
  (match a with
    | .swap l' => if l' = l then [.swap] else []
    | _ => []) ++ (a.runs s l).map .take

namespace TcpServer

variable {s s' : TcpServer} {l : ℕ}

theorem queueOps_keeps {a : ServerStep} : ∀ op ∈ a.queueOps s l, op.keeps = true := by
  intro op hop
  rcases List.mem_append.mp hop with hop | hop
  · split at hop
    · split at hop
      · rw [List.mem_singleton.mp hop]
        rfl
      · cases hop
    · cases hop
  · obtain ⟨task, -, rfl⟩ := List.mem_map.mp hop
    rfl

theorem taken_queueOps (a : ServerStep) : taken (a.queueOps s l) = a.runs s l := by
  unfold ServerStep.queueOps
  rw [taken_append, taken_map_take]
  split
  · split <;> rfl
  · rfl

theorem setRound_queue (s : TcpServer) (l l' : ℕ) (r : Round) :
    (s.setRound l r).queue l' = if l' = l then ⟨s.pending l', r.tasks⟩ else s.queue l' := by
  unfold queue
  rw [setRound_round]
  split <;> rfl

/-- A round that goes on without tasks leaves the queues alone. -/
theorem setRound_takes {r : Round} (htasks : (s.round l).tasks = []) (hr : r.tasks = []) (l' : ℕ) :
    Takes (queueMachine ServerTask) (s.queue l') [] ((s.setRound l r).queue l') := by
  rw [setRound_queue]
  split
  case isTrue hl =>
    rw [hl, hr, ← htasks]
    exact Takes.none
  case isFalse => exact Takes.none

/-- The loop's own move is one of the batch queue. -/
theorem advance_takes {a : ServerStep} (hen : s.enabled a = true) (l : ℕ) :
    Takes (queueMachine ServerTask) (s.queue l) (a.queueOps s l) ((s.advance a).queue l) := by
  cases a with
  | poll l' ready =>
    simp only [enabled, Bool.and_eq_true, decide_eq_true_eq] at hen
    exact setRound_takes (by rw [hen.1.1.2]; rfl) rfl l
  | accept sockfd writeComplete =>
    simp only [enabled, Bool.and_eq_true] at hen
    obtain ⟨-, hen⟩ := hen
    split at hen
    case h_2 => cases hen
    case h_1 calls hround =>
      exact setRound_takes (by rw [hround]; rfl) rfl l
  | handle l' re =>
    simp only [enabled, Bool.and_eq_true] at hen
    obtain ⟨-, hen⟩ := hen
    split at hen
    case h_2 => cases hen
    case h_1 i hd calls hround =>
      exact setRound_takes (by rw [hround]; rfl) rfl l
  | swap l' =>
    simp only [enabled, Bool.and_eq_true, decide_eq_true_eq] at hen
    simp only [ServerStep.queueOps, ServerStep.runs, List.map_nil, List.append_nil]
    by_cases hl : l' = l
    · subst hl
      rw [if_pos rfl]
      have hempty : (s.queue l').batch = [] := by
        unfold queue
        rw [hen.2]
        rfl
      have hqueue : (s.advance (.swap l')).queue l' = ⟨[], s.pending l'⟩ := by
        unfold queue advance
        simp only [setRound_round, if_pos, Round.tasks, Function.update_self]
      rw [hqueue]
      exact Takes.one hempty rfl
    · rw [if_neg hl]
      have hqueue : (s.advance (.swap l')).queue l = s.queue l := by
        unfold queue advance
        simp only [setRound_round, if_neg (Ne.symm hl), Function.update_of_ne (Ne.symm hl)]
      rw [hqueue]
      exact Takes.none
  | runTask l' connection =>
    simp only [enabled, Bool.and_eq_true] at hen
    obtain ⟨-, hen⟩ := hen
    split at hen
    case h_2 => cases hen
    case h_1 t tasks hround =>
      have hadvance : (s.advance (.runTask l' connection)).queue l =
          if l = l' then ⟨s.pending l, tasks⟩ else s.queue l := by
        simp only [advance, hround, Round.tasks, List.tail_cons]
        exact setRound_queue ..
      simp only [ServerStep.queueOps, ServerStep.runs, List.nil_append]
      by_cases hl : l' = l
      · subst hl
        rw [hadvance, if_pos rfl, if_pos rfl, hround]
        have hbatch : (s.queue l').batch = t :: tasks := by
          unfold queue
          rw [hround]
          rfl
        refine Takes.one (congrArg List.head? hbatch) ?_
        exact congrArg (fun batch => Except.ok (BatchQueue.mk (s.pending l') (List.tail batch))) hbatch
      · rw [hadvance, if_neg (Ne.symm hl), if_neg hl]
        exact Takes.none
  | finish l' =>
    simp only [enabled, Bool.and_eq_true, decide_eq_true_eq] at hen
    exact setRound_takes (by rw [hen.2]; rfl) rfl l
  | user l' script => exact Takes.none
  | destroy connection => exact Takes.none

/-- **Each loop's queue is a batch queue.** In every run of a server, from any
state, the queue of each loop goes through a run of the batch queue in which no
batch is given up and the tasks that are taken are those that the loop runs. -/
theorem server_queue {tr : List (TcpServer × ServerStep)} (hr : Run serverMachine s tr s') (l : ℕ) :
    ∃ ops, Takes (queueMachine ServerTask) (s.queue l) ops (s'.queue l) ∧ (∀ op ∈ ops, op.keeps = true) ∧
      taken ops = gathered (fun t a => a.runs t l) tr := by
  induction hr with
  | nil => exact ⟨[], Takes.none, by simp, rfl⟩
  | @snoc tr t u a _ hen hst ih =>
    obtain ⟨ops, htakes, hkeeps, htaken⟩ := ih
    obtain ⟨new, hpushes⟩ := (step_appends hen hst).takes l
    refine ⟨ops ++ (a.queueOps t l ++ new.map .push), htakes.trans ((advance_takes hen l).trans hpushes), ?_, ?_⟩
    · intro op hop
      rcases List.mem_append.mp hop with hop | hop
      · exact hkeeps op hop
      · rcases List.mem_append.mp hop with hop | hop
        · exact queueOps_keeps op hop
        · obtain ⟨task, -, rfl⟩ := List.mem_map.mp hop
          rfl
    · rw [taken_append, htaken, taken_append, taken_queueOps, taken_map_push, List.append_nil, gathered_snoc]

/-! ### The vector of the batch -/

/-- The `funtors` of `DoPendingFunctors` on the loop `l` after a step, if they
were `batch` before; there are none when it is not running. -/
def funtorsAfter (l : ℕ) (batch : List ServerTask) (s : TcpServer) : ServerStep → List ServerTask
  | .swap l' => if l' = l then s.pending l else batch
  | .finish l' => if l' = l then [] else batch
  | _ => batch

/-- The `funtors` of the loop `l` after a run: its batch, with the tasks that
were run. -/
def funtors (tr : List (TcpServer × ServerStep)) (l : ℕ) : List ServerTask :=
  tr.foldl (fun batch p => funtorsAfter l batch p.1 p.2) []

theorem funtors_snoc (tr : List (TcpServer × ServerStep)) (s : TcpServer) (a : ServerStep) (l : ℕ) :
    funtors (tr ++ [(s, a)]) l = funtorsAfter l (funtors tr l) s a :=
  List.foldl_append

/-- What a step puts into `funtors` comes from the queue. -/
theorem mem_funtorsAfter {batch : List ServerTask} {a : ServerStep} {t : ServerTask}
    (h : t ∈ funtorsAfter l batch s a) : t ∈ batch ∨ t ∈ s.pending l := by
  unfold funtorsAfter at h
  split at h
  · split at h
    · exact .inr h
    · exact .inl h
  · split at h
    · cases h
    · exact .inl h
  · exact .inl h

/-- What is left of a batch stays among its `funtors`. -/
theorem Appends.tasks_subset {a : ServerStep} (h : Appends (s.advance a) s') {batch : List ServerTask}
    (hbatch : (s.round l).tasks ⊆ batch) : (s'.round l).tasks ⊆ funtorsAfter l batch s a := by
  rw [h.round]
  have hset : ∀ l' r, r.tasks ⊆ (s.round l').tasks → ((s.setRound l' r).round l).tasks ⊆ batch := by
    intro l' r hr
    rw [setRound_round]
    split
    case isTrue hl => exact fun t ht => hbatch (hl ▸ hr ht)
    case isFalse => exact hbatch
  cases a with
  | poll l' ready => exact hset l' _ (List.nil_subset _)
  | accept sockfd writeComplete => exact hset 0 _ (List.nil_subset _)
  | handle l' re => exact hset l' _ (List.nil_subset _)
  | swap l' =>
    show ((s.setRound l' (.running (s.pending l'))).round l).tasks ⊆ if l' = l then s.pending l else batch
    rw [setRound_round]
    by_cases hl : l' = l
    · subst hl
      rw [if_pos rfl, if_pos rfl]
      exact List.Subset.refl _
    · rw [if_neg (Ne.symm hl), if_neg hl]
      exact hbatch
  | runTask l' connection => exact hset l' _ (List.tail_subset _)
  | finish l' =>
    show ((s.setRound l' .polling).round l).tasks ⊆ if l' = l then [] else batch
    rw [setRound_round]
    by_cases hl : l' = l
    · subst hl
      rw [if_pos rfl, if_pos rfl]
      exact List.Subset.refl _
    · rw [if_neg (Ne.symm hl), if_neg hl]
      exact hbatch
  | user l' script => exact hbatch
  | destroy connection => exact hbatch

end TcpServer

end MiniMuduo
