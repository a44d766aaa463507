/-
# Floating-point numbers and their decimal text

A binary floating-point number: a sign bit, and a magnitude `m * 2 ^ e` or
none. The bits of the IEEE 754 formats are taken apart by core's model of
floats (`decode`). Every `binary32` number is a `binary64` number, so a
conversion that widens changes neither sign nor magnitude.

`printf`'s conversion `%.df` writes a number with `d` decimals, rounded to the
nearest, ties to even (`text`). For a mantissa below the bound the text's
integer part is below the bound exactly when the number is (`scaled_div_lt_iff`),
so the length of the text says how large the number is.

Key definitions: `Floating`, `Floating.decode`, `Floating.scaled`,
`Floating.text`, `Floating.abs`.
Key theorems: `Floating.scaled_div_lt_iff`, `Floating.length_text_le_iff`.
-/
import Mathlib

/-- What a floating-point number is apart from its sign. -/
inductive Magnitude
  | nan
  | inf
  /-- `m * 2 ^ e`. -/
  | finite (m : ℕ) (e : ℤ)
  deriving DecidableEq, Repr

/-- A floating-point number. -/
structure Floating where
  negative : Bool
  magnitude : Magnitude
  deriving DecidableEq, Repr

namespace Floating

open Float.Model

/-- The number that these bits stand for. -/
def decode (format : Format) (bits : BitVec format.numBits) : Floating where
  negative := UnpackedFloat.unpackSign bits ≠ 0#1
  magnitude :=
    match UnpackedFloat.unpack format bits with
    | .notANumber => .nan
    | .infinity _ => .inf
    | .zero _ => .finite 0 0
    | .finite _ m e _ => .finite m e

/-- The integer nearest to `a / b`, the even one of two. -/
def roundHalfEven (a b : ℕ) : ℕ :=
  if 2 * (a % b) < b then a / b
  else if b < 2 * (a % b) then a / b + 1
  else a / b + a / b % 2

/-- `m * 2 ^ e` in units of `10 ^ -d`, rounded. -/
def scaled (d m : ℕ) (e : ℤ) : ℕ :=
  if 0 ≤ e then m * 2 ^ e.toNat * 10 ^ d else roundHalfEven (m * 10 ^ d) (2 ^ (-e).toNat)

/-- The text of `n * 10 ^ -d`, with `d` decimals. -/
def fixedPoint (d n : ℕ) : List Char :=
  let decimals := Nat.toDigits 10 (n % 10 ^ d)
  Nat.toDigits 10 (n / 10 ^ d) ++ '.' :: (List.replicate (d - decimals.length) '0' ++ decimals)

/-- The text of a number under `%.df`. -/
def text (d : ℕ) (v : Floating) : List Char :=
  (if v.negative then ['-'] else []) ++
    match v.magnitude with
    | .nan => ['n', 'a', 'n']
    | .inf => ['i', 'n', 'f']
    | .finite m e => fixedPoint d (scaled d m e)

/-- The absolute value of a number that has one. -/
def abs (v : Floating) : Option ℚ :=
  match v.magnitude with
  | .finite m e => some (m * 2 ^ e)
  | .nan | .inf => none

/-! ### How long the text is -/

/-- Rounding changes a quotient by less than one. -/
theorem roundHalfEven_le (a b : ℕ) : roundHalfEven a b ≤ a / b + 1 := by
  unfold roundHalfEven
  have hmod : a / b % 2 < 2 := Nat.mod_lt _ (by decide)
  split
  · omega
  · split <;> omega

theorem length_fixedPoint {d : ℕ} (hd : 0 < d) (n : ℕ) :
    (fixedPoint d n).length = (Nat.toDigits 10 (n / 10 ^ d)).length + 1 + d := by
  have hlt : n % 10 ^ d < 10 ^ d := Nat.mod_lt n (Nat.pow_pos (by decide))
  have hdecimals := (Nat.length_toDigits_le_iff (by decide) hd).mpr hlt
  simp only [fixedPoint, List.length_append, List.length_cons, List.length_replicate]
  omega

/-- Whether the integer part of the text is below a bound is whether the
number is. -/
theorem scaled_div_lt_iff {d m bound : ℕ} {e : ℤ} (hd : 0 < d) (hm : m < bound) :
    scaled d m e / 10 ^ d < bound ↔ (m : ℚ) * 2 ^ e < bound := by
  have hten : 1 < 10 ^ d := Nat.one_lt_pow hd.ne' (by decide)
  unfold scaled
  by_cases he : 0 ≤ e
  · -- the number is an integer, and nothing is rounded
    obtain ⟨k, rfl⟩ := Int.eq_ofNat_of_zero_le he
    rw [if_pos he, Nat.mul_div_cancel _ (Nat.pow_pos (by decide))]
    have hcast : (m : ℚ) * 2 ^ ((k : ℕ) : ℤ) = ((m * 2 ^ k : ℕ) : ℚ) := by
      push_cast
      rw [zpow_natCast]
    rw [hcast, Nat.cast_lt]
    rfl
  · -- the number is at most `m`
    rw [if_neg he]
    refine iff_of_true ?_ ?_
    · have hround := roundHalfEven_le (m * 10 ^ d) (2 ^ (-e).toNat)
      have hdiv : m * 10 ^ d / 2 ^ (-e).toNat ≤ m * 10 ^ d := Nat.div_le_self _ _
      have hle : roundHalfEven (m * 10 ^ d) (2 ^ (-e).toNat) < (m + 1) * 10 ^ d := by
        rw [Nat.add_mul, Nat.one_mul]
        omega
      have hpart := (Nat.div_lt_iff_lt_mul (Nat.pow_pos (by decide))).mpr hle
      omega
    · have hpow : (2 : ℚ) ^ e ≤ 1 := zpow_le_one_of_nonpos₀ (by norm_num) (by omega)
      calc (m : ℚ) * 2 ^ e ≤ m * 1 := by gcongr
        _ = m := mul_one _
        _ < bound := by exact_mod_cast hm

/-- A finite number's text has at most `k + 1 + d` characters, besides the
sign, exactly when the number is below `10 ^ k`. -/
theorem length_text_le_iff {d k m : ℕ} {e : ℤ} (negative : Bool) (hd : 0 < d) (hk : 0 < k) (hm : m < 10 ^ k) :
    (text d ⟨negative, .finite m e⟩).length ≤ (if negative then 1 else 0) + (k + 1 + d) ↔
      (m : ℚ) * 2 ^ e < 10 ^ k := by
  have hlen : (text d ⟨negative, .finite m e⟩).length =
      (if negative then 1 else 0) + ((Nat.toDigits 10 (scaled d m e / 10 ^ d)).length + 1 + d) := by
    rw [← length_fixedPoint hd, text, List.length_append]
    cases negative <;> rfl
  have hdigits := Nat.length_toDigits_le_iff (n := scaled d m e / 10 ^ d) (b := 10) (by decide) hk
  have hvalue := scaled_div_lt_iff (e := e) hd hm
  push_cast at hvalue
  rw [← hvalue, ← hdigits, hlen]
  omega

theorem mantissa_lt {format : Format} {bits : BitVec format.numBits} {m : ℕ} {e : ℤ}
    (h : (decode format bits).magnitude = .finite m e) : m < 2 ^ (1 + format.mantissaBitsWithoutImplicit) := by
  have hpow : 2 ^ format.mantissaBitsWithoutImplicit ≤ 2 ^ (1 + format.mantissaBitsWithoutImplicit) :=
    Nat.pow_le_pow_right (by decide) (by omega)
  simp only [decode, UnpackedFloat.unpack] at h
  split at h
  · cases h
  · cases h
  · cases h
    exact Nat.pow_pos (by decide)
  · rename_i hunpack
    cases h
    split at hunpack
    · split at hunpack <;> cases hunpack
    · split at hunpack
      · split at hunpack
        · cases hunpack
        · cases hunpack
          exact Nat.lt_of_lt_of_le (BitVec.isLt _) hpow
      · cases hunpack
        exact BitVec.isLt _

end Floating
