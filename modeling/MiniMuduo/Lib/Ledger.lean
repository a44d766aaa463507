/-
# One task per owner

Tasks wait in queues, and each has an owner. `Ledger owner queues due`: an
owner has one task at most in all the queues together, the one that `due`
gives for it, in the queue that `due` gives.

A task that is taken from the front of its queue leaves its owner with
nothing due (`Ledger.take`); an owner with nothing due may queue a task
(`Ledger.put`).

Key definitions: `Ledger`. Key theorems: `Ledger.mem_iff`, `Ledger.take`,
`Ledger.put`.
-/
import Mathlib.Data.List.Basic
import Mathlib.Data.List.Count
import Mathlib.Logic.Function.Basic

section

variable {κ τ ι : Type} [DecidableEq κ] [DecidableEq τ]

/-- The queues hold what is due, each task once. -/
def Ledger (owner : τ → ι) (queues : κ → List τ) (due : ι → Option (κ × τ)) : Prop :=
  ∀ l t, (queues l).count t = if due (owner t) = some (l, t) then 1 else 0

namespace Ledger

variable {owner : τ → ι} {queues : κ → List τ} {due : ι → Option (κ × τ)} {l : κ} {t : τ}

theorem mem_iff (h : Ledger owner queues due) : t ∈ queues l ↔ due (owner t) = some (l, t) := by
  rw [← List.count_pos_iff, h l t]
  split
  case isTrue hdue => simp [hdue]
  case isFalse hdue => simp [hdue]

/-- One queue has one task more. -/
theorem count_update (queues : κ → List τ) (l l' : κ) (t t' : τ) {tasks : List τ}
    (htasks : (queues l).count t' = tasks.count t' + if t = t' then 1 else 0) :
    (queues l').count t' = (Function.update queues l tasks l').count t' + if (l, t) = (l', t') then 1 else 0 := by
  by_cases hll : l' = l
  · rw [hll, Function.update_self, htasks]
    simp
  · have hne : (l, t) ≠ (l', t') := fun heq => hll (Prod.mk.inj heq).1.symm
    rw [Function.update_of_ne hll, if_neg hne, Nat.add_zero]

variable [DecidableEq ι]

/-- The first task of a queue is taken. -/
theorem take (h : Ledger owner queues due) {rest : List τ} (hl : queues l = t :: rest) :
    Ledger owner (Function.update queues l rest) (Function.update due (owner t) none) := by
  have hdue : due (owner t) = some (l, t) := h.mem_iff.mp (hl ▸ List.mem_cons_self)
  intro l' t'
  have hcount : (queues l').count t' = (Function.update queues l rest l').count t' +
      if (l, t) = (l', t') then 1 else 0 := by
    apply count_update
    rw [hl, List.count_cons]
    simp
  rw [h l' t'] at hcount
  by_cases how : owner t' = owner t
  · -- nothing else of this owner was queued
    rw [how, hdue] at hcount
    rw [how, Function.update_self, if_neg (by simp)]
    simp only [Option.some.injEq] at hcount
    omega
  · have hne : (l, t) ≠ (l', t') := fun heq => how ((Prod.mk.inj heq).2 ▸ rfl)
    rw [if_neg hne, Nat.add_zero] at hcount
    rw [Function.update_of_ne how]
    exact hcount.symm

/-- An owner with nothing due queues a task. -/
theorem put (h : Ledger owner queues due) (hnone : due (owner t) = none) :
    Ledger owner (Function.update queues l (queues l ++ [t])) (Function.update due (owner t) (some (l, t))) := by
  intro l' t'
  have hcount : (Function.update queues l (queues l ++ [t]) l').count t' =
      (queues l').count t' + if (l, t) = (l', t') then 1 else 0 := by
    have hmore : (Function.update queues l (queues l ++ [t]) l).count t' =
        (queues l).count t' + if t = t' then 1 else 0 := by
      simp [List.count_singleton]
    have hback := count_update _ l l' t t' hmore
    rwa [Function.update_idem, Function.update_eq_self] at hback
  rw [hcount, h l' t']
  by_cases how : owner t' = owner t
  · rw [how, hnone, Function.update_self, if_neg (by simp), Nat.zero_add]
    simp only [Option.some.injEq]
  · have hne : (l, t) ≠ (l', t') := fun heq => how ((Prod.mk.inj heq).2 ▸ rfl)
    rw [Function.update_of_ne how, if_neg hne, Nat.add_zero]

end Ledger

end
