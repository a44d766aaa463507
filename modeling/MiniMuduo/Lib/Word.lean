/-
# Machine integers as numbers

`size_t` values are naturals below `2 ^ 64` (`0x10000000000000000`) and wrap; `int64_t` and `int`
values are integers and, as compiled, wrap at their width. The lemmas say
when nothing wraps.
-/
import Mathlib.Data.Int.Notation
import Mathlib.Tactic.Common

namespace Word

/-- `a - b` in `size_t`. -/
def sizeSub (a b : ℕ) : ℕ := (a + 0x10000000000000000 - b) % 0x10000000000000000

/-- `a + b` in `size_t`. -/
def sizeAdd (a b : ℕ) : ℕ := (a + b) % 0x10000000000000000

/-- `static_cast<size_t>` of a signed value. -/
def sizeOfInt (n : ℤ) : ℕ := (n % 0x10000000000000000).toNat

theorem sizeSub_of_le {a b : ℕ} (h : b ≤ a) (ha : a < 0x10000000000000000) : sizeSub a b = a - b := by
  unfold sizeSub
  omega

theorem sizeAdd_of_lt {a b : ℕ} (h : a + b < 0x10000000000000000) : sizeAdd a b = a + b :=
  Nat.mod_eq_of_lt h

theorem sizeOfInt_natCast {n : ℕ} (h : n < 0x10000000000000000) : sizeOfInt n = n := by
  unfold sizeOfInt
  omega

theorem sizeOfInt_neg_one : sizeOfInt (-1) = 0xFFFFFFFFFFFFFFFF := rfl

/-- The `int64_t` that a result wraps to. -/
def int64 (n : ℤ) : ℤ := Int.bmod n 0x10000000000000000

/-- The values of `int64_t`. -/
def IsInt64 (n : ℤ) : Prop := -0x8000000000000000 ≤ n ∧ n < 0x8000000000000000

instance (n : ℤ) : Decidable (IsInt64 n) := inferInstanceAs (Decidable (_ ∧ _))

theorem int64_of_isInt64 {n : ℤ} (h : IsInt64 n) : int64 n = n := by
  obtain ⟨hlo, hhi⟩ := h
  unfold int64
  rw [Int.bmod_eq_iff (by omega)]
  omega

/-- A counter that wraps counts on. -/
theorem int64_add (a n : ℤ) : int64 (int64 a + n) = int64 (a + n) := by
  unfold int64
  rw [Int.bmod_add_bmod]

/-- Any `2 ^ 64` values of a counter in a row are all different. -/
theorem int64_inj {a b : ℕ} (hab : a ≤ b) (hb : b < a + 0x10000000000000000) (h : int64 a = int64 b) : a = b := by
  unfold int64 at h
  rw [Int.bmod_def, Int.bmod_def] at h
  omega

/-- The `int` that a result wraps to. -/
def int32 (n : ℤ) : ℤ := Int.bmod n 0x100000000

/-- A counter that wraps counts on. -/
theorem int32_succ (a : ℕ) : int32 (int32 a + 1) = int32 (a + 1 : ℕ) := by
  unfold int32
  rw [Int.bmod_add_bmod]
  rfl

/-- The first `2 ^ 32` values of a counter are all different. -/
theorem int32_inj {a b : ℕ} (ha : a < 0x100000000) (hb : b < 0x100000000) (h : int32 a = int32 b) : a = b := by
  unfold int32 at h
  rw [Int.bmod_def, Int.bmod_def] at h
  omega

end Word
