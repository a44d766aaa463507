/-
# Tickets

Things of `α` wait and are served, perhaps many times. Each time one of them
begins to wait it draws a ticket, the next number; the ticket ends when what
the thing waited for has happened, or was called off. A thing holds the last
ticket it drew.

`Accounted k W`: every ticket drawn so far has ended, or is held by one of
those that wait (`W`), so nobody was forgotten. `Fair k W` says more: those
that wait hold different tickets that have not ended. It is kept when one that
does not wait draws (`Fair.draw`) and when one that waits is served
(`Fair.finish`); who stops to wait without being served is missed
(`Fair.lost`).

Key definitions: `Tickets`, `Tickets.Accounted`, `Tickets.Fair`.
Key theorems: `Tickets.Fair.draw`, `Tickets.Fair.finish`, `Tickets.Fair.lost`.
-/
import Mathlib.Logic.Function.Basic
import Mathlib.Tactic.Common

/-- The tickets of `α`, and how those that have ended did. -/
structure Tickets (α ε : Type) where
  ticket : α → ℕ
  drawn : ℕ
  ended : ℕ → Option ε

namespace Tickets

variable {α ε : Type}

/-- Nobody has drawn. -/
def empty : Tickets α ε := ⟨fun _ => 0, 0, fun _ => none⟩

/-- Every ticket has ended or is held by one that waits. -/
def Accounted (k : Tickets α ε) (W : α → Prop) : Prop :=
  ∀ n < k.drawn, (k.ended n).isSome = true ∨ ∃ a, W a ∧ k.ticket a = n

/-- The same, and who waits has a ticket of its own that has not ended. -/
structure Fair (k : Tickets α ε) (W : α → Prop) : Prop where
  accounted : k.Accounted W
  unended : ∀ a, W a → k.ticket a < k.drawn ∧ k.ended (k.ticket a) = none
  distinct : ∀ a b, W a → W b → k.ticket a = k.ticket b → a = b
  future : ∀ n, k.drawn ≤ n → k.ended n = none

theorem empty_fair {W : α → Prop} (hW : ∀ a, ¬ W a) : (empty : Tickets α ε).Fair W :=
  ⟨fun n hn => absurd hn (Nat.not_lt_zero n), fun a ha => absurd ha (hW a), fun a _ ha => absurd ha (hW a),
    fun _ _ => rfl⟩

theorem Fair.congr {k : Tickets α ε} {W W' : α → Prop} (h : k.Fair W) (hW : ∀ a, W' a ↔ W a) : k.Fair W' := by
  have heq : W' = W := funext fun a => propext (hW a)
  rwa [heq]

/-- The ticket of `a` ends. -/
def finish (a : α) (e : ε) (k : Tickets α ε) : Tickets α ε :=
  { k with ended := Function.update k.ended (k.ticket a) (some e) }

variable {k : Tickets α ε} {W W' : α → Prop} {a : α}

theorem Fair.finish (h : k.Fair W) (ha : W a) (e : ε) (hW : ∀ b, W' b ↔ W b ∧ b ≠ a) : (k.finish a e).Fair W' := by
  have hother : ∀ n, n ≠ k.ticket a → (k.finish a e).ended n = k.ended n := fun n hn => Function.update_of_ne hn ..
  have hne : ∀ b, W b → b ≠ a → k.ticket b ≠ k.ticket a := fun b hb hba heq => hba (h.distinct b a hb ha heq)
  refine ⟨fun n hn => ?_, fun b hb => ?_, fun b c hb hc => ?_, fun n hn => ?_⟩
  · by_cases hna : n = k.ticket a
    · refine .inl ?_
      rw [hna]
      show (Function.update k.ended _ _ _).isSome = true
      rw [Function.update_self]
      rfl
    · rw [hother n hna]
      rcases h.accounted n hn with hend | ⟨b, hb, rfl⟩
      · exact .inl hend
      · exact .inr ⟨b, (hW b).mpr ⟨hb, fun hba => hna (by rw [hba])⟩, rfl⟩
  · obtain ⟨hb, hba⟩ := (hW b).mp hb
    obtain ⟨hlt, hend⟩ := h.unended b hb
    exact ⟨hlt, (hother _ (hne b hb hba)).trans hend⟩
  · exact h.distinct b c ((hW b).mp hb).1 ((hW c).mp hc).1
  · rw [hother n (Nat.ne_of_gt (Nat.lt_of_lt_of_le (h.unended a ha).1 hn))]
    exact h.future n hn

/-- One that waited does not any more, and its ticket has not ended. -/
theorem Fair.lost (h : k.Fair W) (ha : W a) (hW : ∀ b, W' b → W b ∧ b ≠ a) : ¬ k.Accounted W' := by
  intro hacc
  obtain ⟨hlt, hend⟩ := h.unended a ha
  rcases hacc _ hlt with hsome | ⟨b, hb, heq⟩
  · rw [hend] at hsome
    cases hsome
  · obtain ⟨hb, hba⟩ := hW b hb
    exact hba (h.distinct b a hb ha heq)

variable [DecidableEq α]

/-- `a` begins to wait. -/
def draw (a : α) (k : Tickets α ε) : Tickets α ε :=
  { k with ticket := Function.update k.ticket a k.drawn, drawn := k.drawn + 1 }

theorem Fair.draw (h : k.Fair W) (ha : ¬ W a) (hW : ∀ b, W' b ↔ b = a ∨ W b) : (k.draw a).Fair W' := by
  have hself : (k.draw a).ticket a = k.drawn := Function.update_self ..
  have hother : ∀ b, W b → (k.draw a).ticket b = k.ticket b := by
    intro b hb
    apply Function.update_of_ne
    rintro rfl
    exact ha hb
  refine ⟨fun n hn => ?_, fun b hb => ?_, fun b c hb hc hbc => ?_, fun n hn => h.future n (Nat.le_of_succ_le hn)⟩
  · rcases Nat.lt_succ_iff_lt_or_eq.mp hn with hn | rfl
    · rcases h.accounted n hn with hend | ⟨b, hb, rfl⟩
      · exact .inl hend
      · exact .inr ⟨b, (hW b).mpr (.inr hb), hother b hb⟩
    · exact .inr ⟨a, (hW a).mpr (.inl rfl), hself⟩
  · rcases (hW b).mp hb with rfl | hb
    · rw [hself]
      exact ⟨Nat.lt_succ_self _, h.future _ (Nat.le_refl _)⟩
    · rw [hother b hb]
      obtain ⟨hlt, hend⟩ := h.unended b hb
      exact ⟨Nat.lt_succ_of_lt hlt, hend⟩
  · rcases (hW b).mp hb with rfl | hb
    · rcases (hW c).mp hc with rfl | hc
      · rfl
      · rw [hself, hother c hc] at hbc
        exact absurd hbc.symm (Nat.ne_of_lt (h.unended c hc).1)
    · rcases (hW c).mp hc with rfl | hc
      · rw [hself, hother b hb] at hbc
        exact absurd hbc (Nat.ne_of_lt (h.unended b hb).1)
      · rw [hother b hb, hother c hc] at hbc
        exact h.distinct b c hb hc hbc

end Tickets
