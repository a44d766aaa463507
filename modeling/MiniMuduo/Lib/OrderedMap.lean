/-
# Ordered maps

`std::map` as the list of its entries, in the order of the keys. The order
is a field of the map, so a key has one entry at most (`find_eq_some_iff`).

Key definitions: `OrderedMap`, `find`, `emplace`, `erase`.
Key theorems: `find_eq_some_iff`, `mem_emplace`, `find_emplace`, `mem_erase`,
`erase_count`.
-/
import Mathlib.Order.Lattice
import Mathlib.Tactic.Common

/-- A map: its entries, the keys going up. -/
structure OrderedMap (κ ν : Type) [LinearOrder κ] where
  entries : List (κ × ν)
  sorted : entries.Pairwise fun a b => a.1 < b.1

namespace OrderedMap

variable {κ ν : Type} [LinearOrder κ]

def empty : OrderedMap κ ν := ⟨[], .nil⟩

/-- The entries with one more, unless its key is there. -/
def place (k : κ) (v : ν) : List (κ × ν) → List (κ × ν)
  | [] => [(k, v)]
  | e :: rest =>
    if k < e.1 then (k, v) :: e :: rest
    else if k = e.1 then e :: rest
    else e :: place k v rest

/-- The value under a key, if there is one. -/
def find (m : OrderedMap κ ν) (k : κ) : Option ν :=
  (m.entries.find? fun e => e.1 = k).map Prod.snd

theorem mem_place {k : κ} {v : ν} {a : κ × ν} : ∀ {entries : List (κ × ν)},
    entries.Pairwise (fun a b => a.1 < b.1) →
    (a ∈ place k v entries ↔ a ∈ entries ∨ (a = (k, v) ∧ ∀ e ∈ entries, e.1 ≠ k))
  | [], _ => by simp [place]
  | e :: rest, h => by
    obtain ⟨hle, hrest⟩ := List.pairwise_cons.mp h
    unfold place
    split
    case isTrue hlt =>
      have hnot : ∀ e' ∈ e :: rest, e'.1 ≠ k := by
        intro e' he'
        rcases List.mem_cons.mp he' with rfl | he'
        · exact ne_of_gt hlt
        · exact ne_of_gt (lt_trans hlt (hle e' he'))
      rw [List.mem_cons]
      exact ⟨fun h' => h'.elim (fun h' => .inr ⟨h', hnot⟩) .inl, fun h' => h'.elim .inr fun h' => .inl h'.1⟩
    case isFalse hnlt =>
      split
      case isTrue heq =>
        constructor
        · exact .inl
        · rintro (h' | ⟨-, hnot⟩)
          · exact h'
          · exact absurd heq.symm (hnot e List.mem_cons_self)
      case isFalse hne =>
        rw [List.mem_cons, mem_place hrest, List.mem_cons, List.forall_mem_cons, or_assoc]
        have hne' : e.1 ≠ k := fun h' => hne h'.symm
        simp [hne']

theorem place_sorted {k : κ} {v : ν} : ∀ {entries : List (κ × ν)},
    entries.Pairwise (fun a b => a.1 < b.1) → (place k v entries).Pairwise fun a b => a.1 < b.1
  | [], _ => by simp [place]
  | e :: rest, h => by
    obtain ⟨hle, hrest⟩ := List.pairwise_cons.mp h
    unfold place
    split
    case isTrue hlt =>
      refine List.pairwise_cons.mpr ⟨fun e' he' => ?_, h⟩
      rcases List.mem_cons.mp he' with rfl | he'
      · exact hlt
      · exact lt_trans hlt (hle e' he')
    case isFalse hnlt =>
      split
      case isTrue => exact h
      case isFalse hne =>
        refine List.pairwise_cons.mpr ⟨fun e' he' => ?_, place_sorted hrest⟩
        rcases (mem_place hrest).mp he' with he' | ⟨rfl, -⟩
        · exact hle e' he'
        · exact lt_of_le_of_ne (not_lt.mp hnlt) fun h' => hne h'.symm

/-- `emplace(k, v)`: nothing happens if the key is there. -/
def emplace (m : OrderedMap κ ν) (k : κ) (v : ν) : OrderedMap κ ν :=
  ⟨place k v m.entries, place_sorted m.sorted⟩

/-- `erase(k)`, with the number of entries it removed. -/
def erase (m : OrderedMap κ ν) (k : κ) : ℕ × OrderedMap κ ν :=
  (m.entries.countP fun e => e.1 = k, ⟨m.entries.filter fun e => e.1 ≠ k, m.sorted.filter _⟩)

/-- A key has one entry at most. -/
theorem entry_unique {a b : κ × ν} : ∀ {entries : List (κ × ν)}, entries.Pairwise (fun a b => a.1 < b.1) →
    a ∈ entries → b ∈ entries → a.1 = b.1 → a = b
  | [], _, ha, _, _ => by cases ha
  | e :: rest, h, ha, hb, hab => by
    obtain ⟨hle, hrest⟩ := List.pairwise_cons.mp h
    rcases List.mem_cons.mp ha with hae | ha'
    · rcases List.mem_cons.mp hb with hbe | hb'
      · rw [hae, hbe]
      · exact absurd (hae ▸ hab) (ne_of_lt (hle b hb'))
    · rcases List.mem_cons.mp hb with hbe | hb'
      · exact absurd (hbe ▸ hab).symm (ne_of_lt (hle a ha'))
      · exact entry_unique hrest ha' hb' hab

theorem find_eq_some_iff (m : OrderedMap κ ν) {k : κ} {v : ν} : m.find k = some v ↔ (k, v) ∈ m.entries := by
  unfold find
  constructor
  · intro h
    obtain ⟨e, he, rfl⟩ := Option.map_eq_some_iff.mp h
    have hkey : e.1 = k := by simpa using List.find?_some he
    rw [← hkey]
    exact List.mem_of_find?_eq_some he
  · intro hmem
    obtain ⟨e, he⟩ := Option.isSome_iff_exists.mp
      (List.find?_isSome.mpr ⟨(k, v), hmem, by simp⟩ : (m.entries.find? fun e => e.1 = k).isSome = true)
    have hkey : e.1 = k := by simpa using List.find?_some he
    have heq : e = (k, v) := entry_unique m.sorted (List.mem_of_find?_eq_some he) hmem hkey
    rw [he, heq]
    rfl

theorem mem_emplace (m : OrderedMap κ ν) {k : κ} {v : ν} {a : κ × ν} :
    a ∈ (m.emplace k v).entries ↔ a ∈ m.entries ∨ (a = (k, v) ∧ ∀ e ∈ m.entries, e.1 ≠ k) :=
  mem_place m.sorted

/-- The entry under the key after `emplace` is the one that was there, if
there was one. -/
theorem find_emplace (m : OrderedMap κ ν) (k : κ) (v : ν) : (m.emplace k v).find k = some ((m.find k).getD v) := by
  rw [find_eq_some_iff, mem_emplace]
  cases h : m.find k with
  | some w => exact .inl ((find_eq_some_iff m).mp h)
  | none =>
    refine .inr ⟨rfl, fun e he hkey => ?_⟩
    have hfind : m.find k = some e.2 := (find_eq_some_iff m).mpr (hkey ▸ he)
    rw [h] at hfind
    cases hfind

theorem mem_erase (m : OrderedMap κ ν) {k : κ} {a : κ × ν} :
    a ∈ (m.erase k).2.entries ↔ a ∈ m.entries ∧ a.1 ≠ k := by
  simp [erase]

/-- A present key has one entry to erase. -/
theorem erase_count (m : OrderedMap κ ν) {k : κ} {v : ν} (h : (k, v) ∈ m.entries) : (m.erase k).1 = 1 := by
  have hcount : ∀ {entries : List (κ × ν)}, entries.Pairwise (fun a b => a.1 < b.1) →
      (k, v) ∈ entries → entries.countP (fun e => e.1 = k) = 1 := by
    intro entries
    induction entries with
    | nil =>
      intro _ hmem
      cases hmem
    | cons e rest ih =>
      intro hsorted hmem
      obtain ⟨hle, hrest⟩ := List.pairwise_cons.mp hsorted
      rcases List.mem_cons.mp hmem with rfl | hmem
      · have hnone : rest.countP (fun e => e.1 = k) = 0 := by
          rw [List.countP_eq_zero]
          intro e he
          simpa using ne_of_gt (hle e he)
        rw [List.countP_cons_of_pos (by simp), hnone]
      · have hne : e.1 ≠ k := ne_of_lt (hle (k, v) hmem)
        rw [List.countP_cons_of_neg (by simpa using hne)]
        exact ih hrest hmem
  exact hcount m.sorted h

end OrderedMap
