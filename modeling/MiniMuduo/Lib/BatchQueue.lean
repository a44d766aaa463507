/-
# A queue that is taken out a batch at a time

Work is queued at the end of one list, by anyone at any time. Whoever does the
work swaps the whole list out, takes one task after the other from the front
of this batch, and swaps again when the batch is empty. A batch can also be
given up halfway, with what is left of it.

Nothing is lost, doubled or overtaken as long as no batch is given up with
tasks in it (`taken_eq`); otherwise what is taken is still in the order of
queueing, each task once (`taken_sublist`).

Key definitions: `BatchQueue`, `QueueOp`, `queueMachine`, `pushed`, `taken`.
Key theorems: `taken_eq`, `taken_sublist`.
-/
import MiniMuduo.Lib.Run

namespace BatchQueues

open Runs

variable {τ : Type}

/-- The queue, and what is left of the batch that was swapped out of it. -/
structure BatchQueue (τ : Type) where
  pending : List τ
  batch : List τ
  deriving DecidableEq, Repr

/-- What is done to it. -/
inductive QueueOp (τ : Type)
  | push (task : τ)
  | swap
  | take (task : τ)
  | giveUp
  deriving DecidableEq, Repr

/-- The batch is worked off before the next swap. -/
def allowed (q : BatchQueue τ) : QueueOp τ → Prop
  | .push _ | .giveUp => True
  | .swap => q.batch = []
  | .take task => q.batch.head? = some task

def apply (q : BatchQueue τ) : QueueOp τ → Except Empty (BatchQueue τ)
  | .push task => .ok { q with pending := q.pending ++ [task] }
  | .swap => .ok ⟨[], q.pending⟩
  | .take _ => .ok { q with batch := q.batch.tail }
  | .giveUp => .ok { q with batch := [] }

/-- The runs of a queue. -/
def queueMachine (τ : Type) : Machine (BatchQueue τ) (QueueOp τ) Empty := ⟨allowed, apply⟩

/-- The task that an operation queues. -/
def QueueOp.pushed? : QueueOp τ → Option τ
  | push task => some task
  | _ => none

/-- The task that an operation takes. -/
def QueueOp.taken? : QueueOp τ → Option τ
  | take task => some task
  | _ => none

/-- The tasks that were queued. -/
def pushed (ops : List (QueueOp τ)) : List τ := ops.filterMap QueueOp.pushed?

/-- The tasks that were taken. -/
def taken (ops : List (QueueOp τ)) : List τ := ops.filterMap QueueOp.taken?

@[simp] theorem pushed_nil : pushed ([] : List (QueueOp τ)) = [] := rfl

@[simp] theorem taken_nil : taken ([] : List (QueueOp τ)) = [] := rfl

@[simp] theorem pushed_cons (op : QueueOp τ) (ops : List (QueueOp τ)) :
    pushed (op :: ops) = op.pushed?.toList ++ pushed ops := by
  cases op <;> rfl

@[simp] theorem taken_cons (op : QueueOp τ) (ops : List (QueueOp τ)) :
    taken (op :: ops) = op.taken?.toList ++ taken ops := by
  cases op <;> rfl

@[simp] theorem pushed_append (ops ops' : List (QueueOp τ)) : pushed (ops ++ ops') = pushed ops ++ pushed ops' :=
  List.filterMap_append ..

@[simp] theorem taken_append (ops ops' : List (QueueOp τ)) : taken (ops ++ ops') = taken ops ++ taken ops' :=
  List.filterMap_append ..

@[simp] theorem pushed_map_push : ∀ tasks : List τ, pushed (tasks.map .push) = tasks
  | [] => rfl
  | _ :: tasks => congrArg (_ :: ·) (pushed_map_push tasks)

@[simp] theorem taken_map_push : ∀ tasks : List τ, taken (tasks.map .push) = []
  | [] => rfl
  | _ :: tasks => taken_map_push tasks

@[simp] theorem taken_map_take : ∀ tasks : List τ, taken (tasks.map .take) = tasks
  | [] => rfl
  | _ :: tasks => congrArg (_ :: ·) (taken_map_take tasks)

@[simp] theorem pushed_map_take : ∀ tasks : List τ, pushed (tasks.map .take) = []
  | [] => rfl
  | _ :: tasks => pushed_map_take tasks

/-- Several tasks are queued. -/
theorem takes_push (q : BatchQueue τ) (tasks : List τ) :
    Takes (queueMachine τ) q (tasks.map .push) { q with pending := q.pending ++ tasks } := by
  induction tasks generalizing q with
  | nil => simpa using Takes.none
  | cons task tasks ih =>
    have hone : Takes (queueMachine τ) q [.push task] { q with pending := q.pending ++ [task] } :=
      Takes.one trivial rfl
    simpa using hone.trans (ih { q with pending := q.pending ++ [task] })

/-- Every task is taken once, in the order of queueing, when no batch is given
up with tasks in it. -/
theorem taken_eq {q q' : BatchQueue τ} {tr : List (BatchQueue τ × QueueOp τ)} (h : Run (queueMachine τ) q tr q')
    (hdone : ∀ p ∈ tr, p.2 = .giveUp → p.1.batch = []) :
    taken (tr.map Prod.snd) ++ q'.batch ++ q'.pending = q.batch ++ q.pending ++ pushed (tr.map Prod.snd) := by
  induction h with
  | nil => simp
  | @snoc tr t u op _ hen hst ih =>
    have ih := ih fun p hp => hdone p (List.mem_append_left _ hp)
    simp only [List.map_append, List.map_cons, List.map_nil, taken_append, pushed_append, taken_cons, pushed_cons,
      taken_nil, pushed_nil, List.append_nil]
    rw [← List.append_assoc, ← ih]
    cases op with
    | push task =>
      obtain rfl := Except.ok.inj hst
      simp [QueueOp.taken?, QueueOp.pushed?]
    | swap =>
      obtain rfl := Except.ok.inj hst
      have hempty : t.batch = [] := hen
      simp [QueueOp.taken?, QueueOp.pushed?, hempty]
    | take task =>
      obtain rfl := Except.ok.inj hst
      obtain ⟨rest, hbatch⟩ := List.head?_eq_some_iff.mp hen
      simp [QueueOp.taken?, QueueOp.pushed?, hbatch]
    | giveUp =>
      obtain rfl := Except.ok.inj hst
      have hempty : t.batch = [] := hdone (t, .giveUp) (by simp) rfl
      simp [QueueOp.taken?, QueueOp.pushed?, hempty]

/-- However it goes, no task is taken twice or out of order. -/
theorem taken_sublist {q q' : BatchQueue τ} {tr : List (BatchQueue τ × QueueOp τ)}
    (h : Run (queueMachine τ) q tr q') :
    (taken (tr.map Prod.snd) ++ q'.batch ++ q'.pending).Sublist (q.batch ++ q.pending ++ pushed (tr.map Prod.snd)) := by
  induction h with
  | nil => simp
  | @snoc tr t u op _ hen hst ih =>
    simp only [List.map_append, List.map_cons, List.map_nil, taken_append, pushed_append, taken_cons, pushed_cons,
      taken_nil, pushed_nil, List.append_nil]
    rw [← List.append_assoc (q.batch ++ q.pending)]
    refine List.Sublist.trans ?_ (ih.append_right op.pushed?.toList)
    cases op with
    | push task =>
      obtain rfl := Except.ok.inj hst
      simp [QueueOp.taken?, QueueOp.pushed?]
    | swap =>
      obtain rfl := Except.ok.inj hst
      have hempty : t.batch = [] := hen
      simp [QueueOp.taken?, QueueOp.pushed?, hempty]
    | take task =>
      obtain rfl := Except.ok.inj hst
      obtain ⟨rest, hbatch⟩ := List.head?_eq_some_iff.mp hen
      simp [QueueOp.taken?, QueueOp.pushed?, hbatch]
    | giveUp =>
      obtain rfl := Except.ok.inj hst
      simp [QueueOp.taken?, QueueOp.pushed?]

/-- An operation other than giving up. -/
def QueueOp.keeps : QueueOp τ → Bool
  | giveUp => false
  | _ => true

/-- A queue whose batches are all worked off. -/
theorem takes_fifo {q q' : BatchQueue τ} {ops : List (QueueOp τ)} (h : Takes (queueMachine τ) q ops q')
    (hkeep : ∀ op ∈ ops, op.keeps = true) :
    taken ops ++ q'.batch ++ q'.pending = q.batch ++ q.pending ++ pushed ops := by
  obtain ⟨tr, hrun, rfl⟩ := h
  refine taken_eq hrun fun p hp hgive => ?_
  have hkeeps := hkeep p.2 (List.mem_map_of_mem hp)
  rw [hgive] at hkeeps
  cases hkeeps

/-! ### A machine with such a queue -/

section gathered

variable {σ ι : Type} {note : σ → ι → List (QueueOp τ)}

theorem pushed_gathered (tr : List (σ × ι)) : pushed (gathered note tr) = gathered (fun s i => pushed (note s i)) tr :=
  List.filterMap_flatMap ..

theorem taken_gathered (tr : List (σ × ι)) : taken (gathered note tr) = gathered (fun s i => taken (note s i)) tr :=
  List.filterMap_flatMap ..

theorem gathered_keeps (h : ∀ s i, ∀ op ∈ note s i, op.keeps = true) {tr : List (σ × ι)} :
    ∀ op ∈ gathered note tr, op.keeps = true := by
  intro op hop
  obtain ⟨p, -, hop⟩ := List.mem_flatMap.mp hop
  exact h p.1 p.2 op hop

end gathered

end BatchQueues
