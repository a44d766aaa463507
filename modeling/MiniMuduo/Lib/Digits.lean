/-
# Writing a number by taking remainders

The usual loop that writes a number in a base: divide, keep the remainder as
the next digit, until nothing is left; the digits come out least significant
first. Reversed, they are the number's text (`toDigits_eq_reverse`), which
starts with a zero for zero only (`head_text_ne`), reads back as the number
(`value_text`).

A text is written in the symbols `symbol 0`, .., `symbol (b - 1)` and read by
`digit`, which undoes `symbol`.

Key definitions: `Digits.remainders`, `Digits.text`, `Digits.value`.
Key theorems: `Digits.toDigits_eq_reverse`, `Digits.value_text`,
`Digits.head_text_ne`.
-/
import Mathlib.Algebra.Order.Ring.Int
import Mathlib.Algebra.Order.Ring.Nat
import Mathlib.Tactic.Common

namespace Digits

/-- The remainders of `n`, least significant first, at most `fuel` of them. -/
def remainders (b : ℕ) : ℕ → ℕ → List ℕ
  | 0, _ => []
  | fuel + 1, n => n % b :: if n / b = 0 then [] else remainders b fuel (n / b)

/-- Enough fuel gives all digits of the number. -/
theorem toDigits_eq_reverse {b : ℕ} (hb : 1 < b) : ∀ {fuel n : ℕ}, n < fuel →
    Nat.toDigits b n = ((remainders b fuel n).map Nat.digitChar).reverse
  | 0, _, h => absurd h (Nat.not_lt_zero _)
  | fuel + 1, n, h => by
    rw [Nat.toDigits_eq_if hb]
    by_cases hn : n < b
    · rw [if_pos hn]
      simp [remainders, Nat.div_eq_of_lt hn, Nat.mod_eq_of_lt hn]
    · have hpos : 0 < n := by omega
      have hdiv : 0 < n / b := Nat.div_pos (Nat.not_lt.mp hn) (by omega)
      have hne : n / b ≠ 0 := Nat.ne_of_gt hdiv
      have hlt : n / b < fuel := Nat.lt_of_lt_of_le (Nat.div_lt_self hpos hb) (by omega)
      rw [if_neg hn, toDigits_eq_reverse hb hlt]
      simp [remainders, hne]

/-- Any two amounts of fuel that are enough give the same digits. -/
theorem remainders_congr {b : ℕ} (hb : 1 < b) : ∀ {f g n : ℕ}, 0 < f → 0 < g → n < b ^ f → n < b ^ g →
    remainders b f n = remainders b g n
  | 0, _, _, hf, _, _, _ => absurd hf (Nat.lt_irrefl 0)
  | _, 0, _, _, hg, _, _ => absurd hg (Nat.lt_irrefl 0)
  | f + 1, g + 1, n, _, _, hf, hg => by
    unfold remainders
    by_cases hdiv : n / b = 0
    · rw [if_pos hdiv, if_pos hdiv]
    · have hless : ∀ k, n < b ^ (k + 1) → 0 < k ∧ n / b < b ^ k := by
        intro k hk
        have hlt : n / b < b ^ k := Nat.div_lt_of_lt_mul (by rwa [Nat.pow_succ, Nat.mul_comm] at hk)
        refine ⟨Nat.pos_of_ne_zero ?_, hlt⟩
        rintro rfl
        exact hdiv (Nat.lt_one_iff.mp hlt)
      obtain ⟨hf0, hf⟩ := hless f hf
      obtain ⟨hg0, hg⟩ := hless g hg
      rw [if_neg hdiv, if_neg hdiv, remainders_congr hb hf0 hg0 hf hg]

/-! ### Texts -/

/-- The text of `n`, most significant digit first. -/
def text (b : ℕ) (symbol : ℕ → Char) (n : ℕ) : List Char := ((remainders b (n + 1) n).map symbol).reverse

/-- The number that a text reads as, if all its characters are digits. -/
def value (b : ℕ) (digit : Char → Option ℕ) (l : List Char) : Option ℕ :=
  l.foldlM (fun n c => (digit c).map fun d => b * n + d) 0

section

variable {b : ℕ} (hb : 1 < b)

include hb

theorem lt_of_mem_remainders : ∀ {fuel n d : ℕ}, d ∈ remainders b fuel n → d < b
  | 0, _, _, h => by simp [remainders] at h
  | fuel + 1, n, d, h => by
    unfold remainders at h
    rcases List.mem_cons.mp h with rfl | h
    · exact Nat.mod_lt n (by omega)
    · split at h
      · cases h
      · exact lt_of_mem_remainders h

theorem div_lt_fuel {fuel n : ℕ} (h : n < fuel + 1) (hdiv : n / b ≠ 0) : n / b < fuel := by
  have hpos : 0 < n := by
    refine Nat.pos_of_ne_zero ?_
    rintro rfl
    exact hdiv (Nat.zero_div b)
  exact Nat.lt_of_lt_of_le (Nat.div_lt_self hpos hb) (by omega)

/-- The most significant digit of a number is not zero, but for zero. -/
theorem getLast_remainders_ne : ∀ {fuel n : ℕ}, n < fuel → n ≠ 0 → (remainders b fuel n).getLast? ≠ some 0
  | 0, _, h, _ => absurd h (Nat.not_lt_zero _)
  | fuel + 1, n, h, hn => by
    unfold remainders
    by_cases hdiv : n / b = 0
    · have hlt : n < b := (Nat.div_eq_zero_iff_lt (by omega)).mp hdiv
      rw [if_pos hdiv, Nat.mod_eq_of_lt hlt]
      simpa using hn
    · have hlt := div_lt_fuel hb h hdiv
      have hih := getLast_remainders_ne hlt hdiv
      rw [if_neg hdiv]
      cases hrest : remainders b fuel (n / b) with
      | nil =>
        cases fuel with
        | zero => omega
        | succ fuel => simp [remainders] at hrest
      | cons d ds => rwa [List.getLast?_cons_cons, ← hrest]

theorem mem_text {symbol : ℕ → Char} {n : ℕ} {c : Char} (h : c ∈ text b symbol n) : ∃ d < b, c = symbol d := by
  unfold text at h
  obtain ⟨d, hd, rfl⟩ := List.mem_map.mp (List.mem_reverse.mp h)
  exact ⟨d, lt_of_mem_remainders hb hd, rfl⟩

variable {symbol : ℕ → Char} {digit : Char → Option ℕ} (hdigit : ∀ d < b, digit (symbol d) = some d)

include hdigit

theorem value_remainders : ∀ {fuel n : ℕ}, n < fuel →
    value b digit ((remainders b fuel n).map symbol).reverse = some n
  | 0, _, h => absurd h (Nat.not_lt_zero _)
  | fuel + 1, n, h => by
    have hmod : digit (symbol (n % b)) = some (n % b) := hdigit _ (Nat.mod_lt n (by omega))
    unfold remainders value
    rw [List.map_cons, List.reverse_cons, List.foldlM_append]
    by_cases hdiv : n / b = 0
    · have hlt : n < b := (Nat.div_eq_zero_iff_lt (by omega)).mp hdiv
      rw [Nat.mod_eq_of_lt hlt] at hmod ⊢
      rw [if_pos hdiv]
      simp [hmod]
    · have hih := value_remainders (div_lt_fuel hb h hdiv)
      unfold value at hih
      rw [if_neg hdiv, hih]
      simp [hmod, Nat.div_add_mod]

theorem value_text (n : ℕ) : value b digit (text b symbol n) = some n :=
  value_remainders hb hdigit (Nat.lt_succ_self n)

theorem head_text_ne {n : ℕ} (hn : n ≠ 0) : (text b symbol n).head? ≠ some (symbol 0) := by
  unfold text
  rw [List.head?_reverse, List.getLast?_map]
  cases hlast : (remainders b (n + 1) n).getLast? with
  | none => simp
  | some d =>
    have hne : d ≠ 0 := by
      rintro rfl
      exact getLast_remainders_ne hb (Nat.lt_succ_self n) hn hlast
    have hlt : d < b := lt_of_mem_remainders hb (List.mem_of_getLast? hlast)
    have hsymbol : symbol d ≠ symbol 0 := by
      intro h
      have heq := congrArg digit h
      rw [hdigit d hlt, hdigit 0 (by omega)] at heq
      exact hne (Option.some.inj heq)
    simpa using hsymbol

end

/-- The text is what any loop with enough fuel writes. -/
theorem text_eq {b : ℕ} (hb : 1 < b) (symbol : ℕ → Char) {fuel n : ℕ} (hpos : 0 < fuel) (h : n < b ^ fuel) :
    ((remainders b fuel n).map symbol).reverse = text b symbol n := by
  have hself : n < b ^ (n + 1) := Nat.lt_trans (Nat.lt_succ_self n) (Nat.lt_pow_self hb)
  rw [text, remainders_congr hb hpos (Nat.succ_pos n) h hself]

/-- Core's text has the symbols `0` to `9` and `a` to `f`. -/
theorem toDigits_eq_text {b : ℕ} (hb : 1 < b) (n : ℕ) : Nat.toDigits b n = text b Nat.digitChar n :=
  toDigits_eq_reverse hb (Nat.lt_succ_self n)

/-- Texts in other symbols. -/
theorem map_toDigits {b : ℕ} (hb : 1 < b) (f : Char → Char) (n : ℕ) :
    (Nat.toDigits b n).map f = text b (fun d => f (Nat.digitChar d)) n := by
  rw [toDigits_eq_text hb, text, text, List.map_reverse, List.map_map]
  rfl

end Digits
