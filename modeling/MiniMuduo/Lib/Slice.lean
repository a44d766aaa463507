/-
# Ranges of a list

`slice l i j` is the range `[i, j)` of `l`, `overwrite l i d` is `l` with
`d` written over the range that starts at `i`. The lemmas say what a range
holds after a write.
-/
import Mathlib.Data.List.Basic

namespace Slice

variable {α : Type}

/-- The elements of `l` at the positions `i ≤ k < j`. -/
def slice (l : List α) (i j : ℕ) : List α := (l.take j).drop i

/-- `l` with the elements from position `i` on replaced by `d`. -/
def overwrite (l : List α) (i : ℕ) (d : List α) : List α :=
  l.take i ++ d ++ l.drop (i + d.length)

theorem length_slice (l : List α) (i : ℕ) {j : ℕ} (h : j ≤ l.length) : (slice l i j).length = j - i := by
  simp [slice, Nat.min_eq_left h]

theorem slice_self (l : List α) (i : ℕ) : slice l i i = [] := by
  simp [slice]

theorem length_overwrite {l d : List α} {i : ℕ} (h : i + d.length ≤ l.length) :
    (overwrite l i d).length = l.length := by
  simp only [overwrite, List.length_append, List.length_take, List.length_drop]
  omega

/-- A range is cut at any position inside it. -/
theorem slice_append {l : List α} {i j k : ℕ} (hij : i ≤ j) (hjk : j ≤ k) (hk : k ≤ l.length) :
    slice l i j ++ slice l j k = slice l i k := by
  unfold slice
  rw [show l.take k = l.take j ++ (l.drop j).take (k - j) by
    rw [← List.take_add]; congr 1; omega]
  have hlen : (l.take j).length = j := by simp; omega
  rw [List.drop_left' hlen, List.drop_append_of_le_length (by omega)]

/-- A range below the write is not touched. -/
theorem slice_overwrite_below {l d : List α} {i j k : ℕ} (hjk : j ≤ k) (hk : k ≤ l.length) :
    slice (overwrite l k d) i j = slice l i j := by
  unfold slice overwrite
  rw [List.append_assoc, List.take_append_of_le_length (by simp; omega), List.take_take,
    Nat.min_eq_left hjk]

/-- The range a write covers holds what was written. -/
theorem slice_overwrite_at {l d : List α} {k : ℕ} (hk : k ≤ l.length) :
    slice (overwrite l k d) k (k + d.length) = d := by
  have hlen : (l.take k).length = k := by simp; omega
  have hlen' : (l.take k ++ d).length = k + d.length := by simp; omega
  unfold slice overwrite
  rw [List.take_left' hlen', List.drop_left' hlen]

/-- A range up to the end of the write: what was below it, then what was
written. -/
theorem slice_overwrite {l d : List α} {i k : ℕ} (hik : i ≤ k) (hk : k + d.length ≤ l.length) :
    slice (overwrite l k d) i (k + d.length) = slice l i k ++ d := by
  rw [← slice_append hik (Nat.le_add_right k d.length) (by rw [length_overwrite hk]; exact hk),
    slice_overwrite_below (Nat.le_refl k) (by omega), slice_overwrite_at (by omega)]

/-- A range inside the part of the list that stays when the list is cut or
extended. -/
theorem slice_take_append {l d : List α} {i j n : ℕ} (hj : j ≤ n) (hl : j ≤ l.length) :
    slice (l.take n ++ d) i j = slice l i j := by
  unfold slice
  rw [List.take_append_of_le_length (by simp; omega), List.take_take, Nat.min_eq_left hj]

theorem drop_slice (l : List α) (i j n : ℕ) : (slice l i j).drop n = slice l (i + n) j := by
  simp [slice, List.drop_drop]

theorem take_slice (l : List α) {i j n : ℕ} (h : i + n ≤ j) : (slice l i j).take n = slice l i (i + n) := by
  unfold slice
  rw [List.take_drop, List.take_take, Nat.min_eq_left h]

end Slice
