/-
# A vector with its capacity

`std::vector`: its elements and the room it has for them. `resize` keeps the
capacity when there is room, and else takes a new one, at least as large as
the new size; which one is the library's choice (`grown`).

Key definitions: `Vec`, `Vec.resize`, `Vec.store`. Key theorems:
`Vec.size_resize`, `Vec.getElem?_store`.
-/
import Mathlib.Data.List.Basic
import Mathlib.Tactic.Common

/-- A vector never has more elements than it has room for. -/
structure Vec (α : Type) where
  elems : List α
  capacity : ℕ
  le : elems.length ≤ capacity
  deriving DecidableEq, Repr

namespace Vec

variable {α : Type}

def size (v : Vec α) : ℕ := v.elems.length

theorem size_le (v : Vec α) : v.size ≤ v.capacity := v.le

/-- `n` elements `a`, with room for at least as many. -/
def replicate (n : ℕ) (a : α) (grown : ℕ) : Vec α where
  elems := List.replicate n a
  capacity := max n grown
  le := by
    rw [List.length_replicate]
    exact Nat.le_max_left n grown

/-- `resize(n)`, new elements being `a`. -/
def resize (v : Vec α) (n : ℕ) (a : α) (grown : ℕ) : Vec α where
  elems := v.elems.take n ++ List.replicate (n - v.size) a
  capacity := if n ≤ v.capacity then v.capacity else max n grown
  le := by
    have hle := v.le
    simp only [List.length_append, List.length_take, List.length_replicate, size]
    split <;> omega

/-- The first elements are overwritten with `d`, as far as the vector goes. -/
def store (v : Vec α) (d : List α) : Vec α where
  elems := d.take v.size ++ v.elems.drop d.length
  capacity := v.capacity
  le := by
    have hle := v.le
    simp only [List.length_append, List.length_take, List.length_drop, size]
    omega

@[simp] theorem size_replicate (n : ℕ) (a : α) (grown : ℕ) : (replicate n a grown).size = n := by
  simp [size, replicate]

@[simp] theorem size_resize (v : Vec α) (n : ℕ) (a : α) (grown : ℕ) : (v.resize n a grown).size = n := by
  simp only [size, resize, List.length_append, List.length_take, List.length_replicate]
  omega

@[simp] theorem size_store (v : Vec α) (d : List α) : (v.store d).size = v.size := by
  simp only [size, store, List.length_append, List.length_take, List.length_drop]
  omega

@[simp] theorem capacity_store (v : Vec α) (d : List α) : (v.store d).capacity = v.capacity := rfl

/-- What was stored can be read back. -/
theorem getElem?_store {v : Vec α} {d : List α} (hd : d.length ≤ v.size) {i : ℕ} (hi : i < d.length) :
    (v.store d).elems[i]? = d[i]? := by
  simp only [store]
  rw [List.take_of_length_le hd, List.getElem?_append_left hi]

end Vec
