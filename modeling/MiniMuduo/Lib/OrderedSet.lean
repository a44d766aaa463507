/-
# Ordered sets

What an ordered set (`std::set`) gives besides membership: its first element,
its elements in order, and those in front of a bound. The set itself is a
`Finset` over a linear order; the elements are walked from the first one on,
by recursion on their number, so that everything here computes.

Key definitions: `first`, `elements`, `below`, `notBelow`.
Key theorems: `first_eq_some_iff`, `first_insert`, `first_erase`,
`mem_elements`, `mem_below`, `mem_notBelow`.
-/
import Mathlib.Data.Finset.Max

namespace OrderedSet

variable {α : Type} [LinearOrder α]

/-- `*begin()`, when the set is not empty. -/
def first (s : Finset α) : Option α := if h : s.Nonempty then some (s.min' h) else none

/-- The first `n` elements, in order. -/
def walk : ℕ → Finset α → List α
  | 0, _ => []
  | n + 1, s =>
    match first s with
    | none => []
    | some x => x :: walk n (s.erase x)

/-- The elements, from `begin()` to `end()`. -/
def elements (s : Finset α) : List α := walk s.card s

/-- The elements from `begin()` to `lower_bound(x)`. -/
def below (s : Finset α) (x : α) : List α := elements (s.filter (· < x))

/-- The set after `erase(begin(), lower_bound(x))`. -/
def notBelow (s : Finset α) (x : α) : Finset α := s.filter (¬ · < x)

theorem first_eq_none_iff {s : Finset α} : first s = none ↔ s = ∅ := by
  unfold first
  split
  case isTrue h => simp [h.ne_empty]
  case isFalse h => simpa using Finset.not_nonempty_iff_eq_empty.mp h

/-- The first element is the least. -/
theorem first_eq_some_iff {s : Finset α} {x : α} : first s = some x ↔ x ∈ s ∧ ∀ y ∈ s, x ≤ y := by
  unfold first
  split
  case isTrue h =>
    constructor
    · intro hx
      obtain rfl := Option.some.inj hx
      exact ⟨s.min'_mem h, fun y hy => s.min'_le y hy⟩
    · rintro ⟨hmem, hle⟩
      exact congrArg some (le_antisymm (s.min'_le x hmem) (hle _ (s.min'_mem h)))
  case isFalse h =>
    constructor
    · intro hx
      cases hx
    · rintro ⟨hmem, -⟩
      exact absurd ⟨x, hmem⟩ h

/-- The first element after an insertion. -/
theorem first_insert {s : Finset α} {x : α} :
    first (insert x s) = some ((first s).elim x (min x)) := by
  cases hfirst : first s with
  | none =>
    obtain rfl := first_eq_none_iff.mp hfirst
    exact first_eq_some_iff.mpr ⟨Finset.mem_insert_self .., by simp⟩
  | some y =>
    obtain ⟨hy, hle⟩ := first_eq_some_iff.mp hfirst
    refine first_eq_some_iff.mpr ⟨?_, fun z hz => ?_⟩
    · show min x y ∈ insert x s
      rcases min_choice x y with h | h
      · exact Finset.mem_insert.mpr (.inl h)
      · rw [h]
        exact Finset.mem_insert_of_mem hy
    · rcases Finset.mem_insert.mp hz with rfl | hz
      · exact min_le_left ..
      · exact (min_le_right ..).trans (hle z hz)

/-- Erasing another element leaves the first one. -/
theorem first_erase {s : Finset α} {x y : α} (h : first s = some y) (hne : y ≠ x) :
    first (s.erase x) = some y := by
  obtain ⟨hy, hle⟩ := first_eq_some_iff.mp h
  refine first_eq_some_iff.mpr ⟨Finset.mem_erase.mpr ⟨hne, hy⟩, fun z hz => ?_⟩
  exact hle z (Finset.mem_of_mem_erase hz)

/-- The walk over a set of `n` elements meets each of them, and goes up. -/
theorem walk_spec : ∀ (n : ℕ) (s : Finset α), s.card = n →
    (∀ x, x ∈ walk n s ↔ x ∈ s) ∧ (walk n s).Pairwise (· < ·)
  | 0, s, hn => by
    obtain rfl : s = ∅ := Finset.card_eq_zero.mp hn
    exact ⟨by simp [walk], List.Pairwise.nil⟩
  | n + 1, s, hn => by
    have hne : s ≠ ∅ := by
      rintro rfl
      cases hn
    cases hfirst : first s with
    | none => exact absurd (first_eq_none_iff.mp hfirst) hne
    | some y =>
      obtain ⟨hy, hle⟩ := first_eq_some_iff.mp hfirst
      have hcard : (s.erase y).card = n := by
        rw [Finset.card_erase_of_mem hy, hn]
        rfl
      obtain ⟨hmem, hpw⟩ := walk_spec n (s.erase y) hcard
      have hwalk : walk (n + 1) s = y :: walk n (s.erase y) := by
        rw [walk, hfirst]
      rw [hwalk]
      refine ⟨fun x => ?_, List.pairwise_cons.mpr ⟨fun x hx => ?_, hpw⟩⟩
      · rw [List.mem_cons, hmem x, Finset.mem_erase]
        constructor
        · rintro (rfl | ⟨-, hx⟩)
          · exact hy
          · exact hx
        · intro hx
          by_cases hxy : x = y
          · exact .inl hxy
          · exact .inr ⟨hxy, hx⟩
      · obtain ⟨hxy, hx⟩ := Finset.mem_erase.mp ((hmem x).mp hx)
        exact lt_of_le_of_ne (hle x hx) (Ne.symm hxy)

theorem mem_elements {s : Finset α} {x : α} : x ∈ elements s ↔ x ∈ s := (walk_spec _ s rfl).1 x

theorem elements_pairwise (s : Finset α) : (elements s).Pairwise (· < ·) := (walk_spec _ s rfl).2

theorem elements_nodup (s : Finset α) : (elements s).Nodup :=
  (elements_pairwise s).imp fun h => ne_of_lt h

theorem mem_below {s : Finset α} {x y : α} : y ∈ below s x ↔ y ∈ s ∧ y < x := by
  unfold below
  rw [mem_elements, Finset.mem_filter]

theorem below_nodup (s : Finset α) (x : α) : (below s x).Nodup := elements_nodup _

theorem mem_notBelow {s : Finset α} {x y : α} : y ∈ notBelow s x ↔ y ∈ s ∧ ¬ y < x := by
  unfold notBelow
  rw [Finset.mem_filter]

end OrderedSet
