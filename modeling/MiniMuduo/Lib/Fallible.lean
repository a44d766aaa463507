/-
# Computations that may fail

What a chain of fallible computations gives: a result exactly when every
link does, and the first fault otherwise. `Gives P F x`: a result of `x`
satisfies `P`, and a fault of `x` is one of `F`; it is carried along chains
and loops (`Gives.bind`, `Gives.foldlM`).

Key definitions: `Gives`. Key theorems: `bind_eq_ok`, `Gives.bind`,
`Gives.foldlM`.
-/
import Mathlib.Tactic.Common

namespace Fallible

variable {ε α β : Type}

@[simp] theorem ok_bind (a : α) (f : α → Except ε β) : (Except.ok a >>= f) = f a := rfl

@[simp] theorem error_bind (e : ε) (f : α → Except ε β) : (Except.error e >>= f) = .error e := rfl

@[simp] theorem pure_eq_ok (a : α) : (pure a : Except ε α) = .ok a := rfl

@[simp] theorem bind_ok (x : Except ε α) : (x >>= fun a => .ok a) = x := by
  cases x <;> rfl

theorem bind_eq_ok {x : Except ε α} {f : α → Except ε β} {r : β} (h : (x >>= f) = .ok r) :
    ∃ a, x = .ok a ∧ f a = .ok r := by
  cases x with
  | error e => cases h
  | ok a => exact ⟨a, rfl, h⟩

/-- The fault, if there is one. -/
def fault? : Except ε α → Option ε
  | .ok _ => none
  | .error e => some e

theorem eq_error_of_fault? {x : Except ε α} {e : ε} (h : fault? x = some e) : x = .error e := by
  cases x with
  | ok a => cases h
  | error e' =>
    cases h
    rfl

/-- A result satisfies `P`, a fault satisfies `F`. -/
def Gives (P : α → Prop) (F : ε → Prop) : Except ε α → Prop
  | .ok a => P a
  | .error e => F e

namespace Gives

variable {P Q : α → Prop} {R : β → Prop} {F : ε → Prop} {x : Except ε α}

theorem of_ok {a : α} (h : x = .ok a) (ha : P a) : Gives P F x := by
  rw [h]
  exact ha

theorem mono (h : Gives P F x) (hPQ : ∀ a, P a → Q a) : Gives Q F x := by
  cases x with
  | ok a => exact hPQ a h
  | error e => exact h

theorem bind {f : α → Except ε β} (h : Gives P F x) (hf : ∀ a, P a → Gives R F (f a)) :
    Gives R F (x >>= f) := by
  cases x with
  | ok a => exact hf a h
  | error e => exact h

/-- What every pass of a loop keeps, the loop keeps. -/
theorem foldlM {f : α → β → Except ε α} : ∀ {bs : List β} {a : α}, P a →
    (∀ a, P a → ∀ b ∈ bs, Gives P F (f a b)) → Gives P F (bs.foldlM f a)
  | [], _, ha, _ => ha
  | b :: bs, a, ha, hf => by
    rw [List.foldlM_cons]
    refine (hf a ha b List.mem_cons_self).bind fun a' ha' => ?_
    exact foldlM ha' fun a ha b hb => hf a ha b (List.mem_cons_of_mem _ hb)

theorem ok_of (h : Gives P F x) {a : α} (hx : x = .ok a) : P a := by
  rw [hx] at h
  exact h

theorem error_of (h : Gives P F x) {e : ε} (hx : x = .error e) : F e := by
  rw [hx] at h
  exact h

end Gives

end Fallible
