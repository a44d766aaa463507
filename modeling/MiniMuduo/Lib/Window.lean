/-
# A window of the last `N` ticks, seen through a ring

Times are natural numbers. `Recent N t f`: at the time `t` the time `f` lies
among the last `N`. The recent times have different residues modulo `N`, so a
ring of `N` places can hold them all, and one tick drops exactly the time
whose place comes up (`recent_succ_iff`). `Lapses N F k`: `k` is the `N`-th
tick after a time of `F` with no other time of `F` in between; it is the tick
at which the last recent time of `F` is dropped (`lapses_succ_iff`).

Key definitions: `Recent`, `Lapses`.
Key theorems: `recent_succ_iff`, `lapses_succ_iff`, `lapses_insert_iff`.
-/
import Mathlib.Data.Set.Insert
import Mathlib.Tactic.Common

namespace Window

variable {N t f k : ℕ} {F : Set ℕ}

/-- At the time `t`, the time `f` is one of the last `N`. -/
def Recent (N t f : ℕ) : Prop := f ≤ t ∧ t < f + N

instance : Decidable (Recent N t f) := inferInstanceAs (Decidable (_ ∧ _))

/-- A recent time that shares its place with the next tick is `N` before it. -/
theorem Recent.add_eq (h : Recent N t f) (hmod : f % N = (t + 1) % N) : f + N = t + 1 := by
  obtain ⟨hle, hlt⟩ := h
  have hdvd : N ∣ t + 1 - f := Nat.dvd_of_mod_eq_zero (Nat.sub_mod_eq_zero_of_mod_eq hmod.symm)
  have hN : N ≤ t + 1 - f := Nat.le_of_dvd (by omega) hdvd
  omega

/-- One tick drops the recent time whose place comes up, and no other. -/
theorem recent_succ_iff (hf : f ≤ t) : Recent N (t + 1) f ↔ Recent N t f ∧ f % N ≠ (t + 1) % N := by
  constructor
  · rintro ⟨-, hlt⟩
    have hrecent : Recent N t f := ⟨hf, by omega⟩
    refine ⟨hrecent, fun hmod => ?_⟩
    have := hrecent.add_eq hmod
    omega
  · rintro ⟨⟨-, hlt⟩, hne⟩
    refine ⟨by omega, ?_⟩
    by_contra hge
    apply hne
    have hsum : t + 1 = f + N := by omega
    rw [hsum, Nat.add_mod_right]

/-- `k` is the `N`-th tick after a time of `F` that no other time of `F`
follows before `k`. -/
def Lapses (N : ℕ) (F : Set ℕ) (k : ℕ) : Prop := ∃ f ∈ F, k = f + N ∧ ∀ g ∈ F, g ≤ f ∨ k ≤ g

/-- `F` lapses at the tick that drops its last recent time. -/
theorem lapses_succ_iff (hF : ∀ f ∈ F, f ≤ t) :
    Lapses N F (t + 1) ↔ (∃ f ∈ F, Recent N t f) ∧ ∀ f ∈ F, ¬ Recent N (t + 1) f := by
  constructor
  · rintro ⟨f, hf, hk, hlast⟩
    have hft := hF f hf
    refine ⟨⟨f, hf, hft, by omega⟩, fun g hg hrecent => ?_⟩
    obtain ⟨-, hlt⟩ := hrecent
    have hgt := hF g hg
    rcases hlast g hg with h | h
    · omega
    · omega
  · rintro ⟨⟨f, hf, hft, hlt⟩, hnone⟩
    have hdrop : ∀ g ∈ F, g + N ≤ t + 1 := by
      intro g hg
      have hgt := hF g hg
      by_contra hlt'
      exact hnone g hg ⟨by omega, by omega⟩
    have hsum := hdrop f hf
    refine ⟨f, hf, by omega, fun g hg => .inl ?_⟩
    have := hdrop g hg
    omega

/-- A time of now does not change what lapsed up to now. -/
theorem lapses_insert_iff (hN : 1 ≤ N) (hk : k ≤ t) : Lapses N (insert t F) k ↔ Lapses N F k := by
  constructor
  · rintro ⟨f, hf, hsum, hlast⟩
    rcases hf with rfl | hf
    · omega
    · exact ⟨f, hf, hsum, fun g hg => hlast g (.inr hg)⟩
  · rintro ⟨f, hf, hsum, hlast⟩
    refine ⟨f, .inr hf, hsum, fun g hg => ?_⟩
    rcases hg with rfl | hg
    · exact .inr hk
    · exact hlast g hg

end Window
