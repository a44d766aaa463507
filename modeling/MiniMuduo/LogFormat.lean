/-
# Integers and pointers as text

`convert` and `convertHex` of `src/base/LogStream.cc`, in the types they are
instantiated with. `convert` divides in its own type `T`, with `/` and `%`
that round towards zero, so that the remainders of a negative number are
negative, and reads the digit `zero[lsd]` on the left of `zero`. The most
negative value of a type has no negation in the type, and the loop needs none.
An index outside the tables `digits` and `digitsHex` is `none` here.

`Truncates` is what the loop needs of a type: its values are integers, and
`/ 10` and `% 10` are theirs. The four types of the source have it, and with
it the loop in the type writes what the loop over the integers does
(`convertAs_eq`), which is the decimal text.

Key definitions: `LogStream.convertAs`, `LogStream.convertHexAs`,
`Insertion.converted`, `CanonicalDecimal`, `parseDecimal`.
Key theorems: `LogStream.convertAs_eq`, `decimal_canonical`,
`parseDecimal_decimal`, `integers_formatted_exactly`.
-/
import MiniMuduo.LogStream

namespace MiniMuduo

namespace LogStream

/-! ### The loops in their types -/

/-- `zero[lsd]`. -/
def zero? (lsd : ℤ) : Option Char := if 0 ≤ 9 + lsd then digits[(9 + lsd).toNat]? else none

section convert

variable {T : Type} [Div T] [Mod T] [OfNat T 0] [OfNat T 10] [DecidableEq T] [LT T] [DecidableLT T]
variable (toInt : T → ℤ)

/-- The loop of `convert`, at most `fuel` times; `toInt` is the `static_cast`
of the remainder. -/
def convertDigits : ℕ → T → Option (List Char)
  | 0, _ => none
  | fuel + 1, i => do
    let c ← zero? (toInt (i % 10))
    let i := i / 10
    if i = 0 then return [c] else return c :: (← convertDigits fuel i)

/-- `convert(buf, value)`. -/
def convertAs (fuel : ℕ) (value : T) : Option (List Char) := do
  let p ← convertDigits toInt fuel value
  return (if value < 0 then p ++ ['-'] else p).reverse

/-- The type's division by ten is the integers'. -/
structure Truncates : Prop where
  zero : ∀ i, toInt i = 0 ↔ i = 0
  neg : ∀ i, i < 0 ↔ toInt i < 0
  div : ∀ i, toInt (i / 10) = (toInt i).tdiv 10
  mod : ∀ i, toInt (i % 10) = (toInt i).tmod 10

end convert

/-- The loop of `convertHex`, at most `fuel` times. -/
def convertHexDigits : ℕ → UInt64 → Option (List Char)
  | 0, _ => none
  | fuel + 1, i => do
    let c ← digitsHex[(i % 16).toNat]?
    let i := i / 16
    if i = 0 then return [c] else return c :: (← convertHexDigits fuel i)

/-- `convertHex(buf, value)`, without the NUL. -/
def convertHexAs (fuel : ℕ) (value : UInt64) : Option (List Char) := do
  return (← convertHexDigits fuel value).reverse

end LogStream

namespace Insertion

/-- The value of an integer. -/
def integer? : Insertion → Option ℤ
  | .short value => some value.toInt
  | .unsignedShort value => some value.toNat
  | .int value => some value.toInt
  | .unsignedInt value => some value.toNat
  | .long value => some value.toInt
  | .longLong value => some value.toInt
  | .unsignedLong value => some value.toNat
  | .unsignedLongLong value => some value.toNat
  | .char _ | .cString _ | .string _ | .buffer _ | .pointer _ => none

/-- What `convert` leaves for an integer, in the type its insertion uses. -/
def converted (fuel : ℕ) : Insertion → Option (List Char)
  | .short value => LogStream.convertAs Int32.toInt fuel value.toInt32
  | .unsignedShort value => LogStream.convertAs (fun v : UInt32 => (v.toNat : ℤ)) fuel value.toUInt32
  | .int value => LogStream.convertAs Int32.toInt fuel value
  | .unsignedInt value => LogStream.convertAs (fun v : UInt32 => (v.toNat : ℤ)) fuel value
  | .long value => LogStream.convertAs Int64.toInt fuel value
  | .longLong value => LogStream.convertAs Int64.toInt fuel value
  | .unsignedLong value => LogStream.convertAs (fun v : UInt64 => (v.toNat : ℤ)) fuel value
  | .unsignedLongLong value => LogStream.convertAs (fun v : UInt64 => (v.toNat : ℤ)) fuel value
  | .char _ | .cString _ | .string _ | .buffer _ | .pointer _ => none

end Insertion

/-! ### The texts -/

/-- The text without its sign. -/
def unsigned (text : List Char) : List Char := if text.head? = some '-' then text.tail else text

/-- The decimal text of a number: digits with no zero in front, after a `-`
for a negative one. -/
structure CanonicalDecimal (value : ℤ) (text : List Char) : Prop where
  sign : text.head? = some '-' ↔ value < 0
  digits : ∀ c ∈ unsigned text, c.isDigit = true
  nonempty : unsigned text ≠ []
  leading : value ≠ 0 → (unsigned text).head? ≠ some '0'
  zero : value = 0 → text = ['0']

/-- A digit of a decimal text. -/
def decimalDigit (c : Char) : Option ℕ := if c.isDigit then some (c.toNat - '0'.toNat) else none

/-- The number that a decimal text reads as. -/
def parseDecimal (text : List Char) : Option ℤ :=
  match text with
  | '-' :: rest => (Digits.value 10 decimalDigit rest).map fun n : ℕ => -(n : ℤ)
  | rest => (Digits.value 10 decimalDigit rest).map fun n : ℕ => (n : ℤ)

/-- The hexadecimal text of a number: upper-case digits with no zero in
front. -/
structure CanonicalHex (value : ℕ) (text : List Char) : Prop where
  digits : ∀ c ∈ text, c ∈ LogStream.digitsHex
  nonempty : text ≠ []
  leading : value ≠ 0 → text.head? ≠ some '0'
  zero : value = 0 → text = ['0']

/-- A digit of a hexadecimal text. -/
def hexDigit (c : Char) : Option ℕ := LogStream.digitsHex.idxOf? c

/-- The number that a hexadecimal text reads as. -/
def parseHex (text : List Char) : Option ℕ := Digits.value 16 hexDigit text

/-! ### What the loops write -/

namespace LogStream

/-- The index is in range for every remainder of a division by ten. -/
theorem zero?_tmod (i : ℤ) : zero? (i.tmod 10) = some (Nat.digitChar (i.natAbs % 10)) := by
  have htable : ∀ k : Fin 10, zero? (k : ℕ) = some (Nat.digitChar k) ∧ zero? (-(k : ℕ)) = some (Nat.digitChar k) := by
    decide
  have hlt : i.natAbs % 10 < 10 := Nat.mod_lt _ (by decide)
  have habs : (i.tmod 10).natAbs = i.natAbs % 10 := Int.natAbs_tmod i 10
  obtain ⟨hpos, hneg⟩ := htable ⟨i.natAbs % 10, hlt⟩
  rcases Int.natAbs_eq (i.tmod 10) with h | h
  · rw [h, habs]
    exact hpos
  · rw [h, habs]
    exact hneg

section convert

variable {T : Type} [Div T] [Mod T] [OfNat T 0] [OfNat T 10] [DecidableEq T] [LT T]
variable {toInt : T → ℤ} (h : Truncates toInt)

include h

/-- The loop leaves the remainders, and does not run out of fuel. -/
theorem convertDigits_eq (fuel : ℕ) (i : T) (hfuel : (toInt i).natAbs < 10 ^ (fuel + 1)) :
    convertDigits toInt (fuel + 1) i =
      some ((Digits.remainders 10 (fuel + 1) (toInt i).natAbs).map Nat.digitChar) := by
  induction fuel generalizing i with
  | zero =>
    have hsmall : (toInt i).natAbs / 10 = 0 := by omega
    have hend : i / 10 = 0 := by
      rw [← h.zero, h.div, ← Int.natAbs_eq_zero, Int.natAbs_tdiv]
      exact hsmall
    simp [convertDigits, Digits.remainders, h.mod, zero?_tmod, hend, hsmall]
  | succ fuel ih =>
    have hdiv : (toInt (i / 10)).natAbs = (toInt i).natAbs / 10 := by
      rw [h.div, Int.natAbs_tdiv]
      rfl
    have hend : i / 10 = 0 ↔ (toInt i).natAbs / 10 = 0 := by
      rw [← h.zero, ← Int.natAbs_eq_zero, hdiv]
    have hless : (toInt (i / 10)).natAbs < 10 ^ (fuel + 1) := by
      rw [hdiv]
      exact Nat.div_lt_of_lt_mul (by rwa [Nat.mul_comm, ← Nat.pow_succ])
    have hrest := ih (i / 10) hless
    rw [hdiv] at hrest
    rw [convertDigits, Digits.remainders, h.mod, zero?_tmod]
    by_cases h0 : (toInt i).natAbs / 10 = 0
    · simp [hend.mpr h0, h0]
    · have hne : i / 10 ≠ 0 := fun h' => h0 (hend.mp h')
      simp [hne, h0, hrest]

/-- `convert` writes the decimal text, in any type that divides as the
integers do. -/
theorem convertAs_eq [DecidableLT T] {fuel : ℕ} (hpos : 0 < fuel) (value : T)
    (hfuel : (toInt value).natAbs < 10 ^ fuel) :
    convertAs toInt fuel value = some (decimal (toInt value)) := by
  obtain ⟨fuel, rfl⟩ := Nat.exists_eq_add_of_lt hpos
  rw [Nat.zero_add] at hfuel ⊢
  have htext : ((Digits.remainders 10 (fuel + 1) (toInt value).natAbs).map Nat.digitChar).reverse =
      Nat.toDigits 10 (toInt value).natAbs := by
    rw [Digits.toDigits_eq_text (by decide)]
    exact Digits.text_eq (by decide) _ (Nat.succ_pos fuel) hfuel
  unfold convertAs decimal
  rw [convertDigits_eq h fuel value hfuel]
  by_cases hneg : toInt value < 0
  · simp [if_pos ((h.neg value).mpr hneg), hneg, htext]
  · simp [if_neg fun h' => hneg ((h.neg value).mp h'), hneg, htext]

end convert

theorem truncates_int32 : Truncates Int32.toInt where
  zero i := by
    rw [← Int32.toInt_inj]
    rfl
  neg i := Int32.lt_iff_toInt_lt
  div i := Int32.toInt_div_of_ne_right i 10 (by decide)
  mod i := Int32.toInt_mod i 10

theorem truncates_int64 : Truncates Int64.toInt where
  zero i := by
    rw [← Int64.toInt_inj]
    rfl
  neg i := Int64.lt_iff_toInt_lt
  div i := Int64.toInt_div_of_ne_right i 10 (by decide)
  mod i := Int64.toInt_mod i 10

theorem truncates_uint32 : Truncates fun v : UInt32 => (v.toNat : ℤ) where
  zero i := by
    rw [← UInt32.toNat_inj, Int.natCast_eq_zero]
    rfl
  neg i := iff_of_false (UInt32.not_lt_zero) (by omega)
  div i := by
    rw [UInt32.toNat_div]
    rfl
  mod i := by
    rw [UInt32.toNat_mod]
    rfl

theorem truncates_uint64 : Truncates fun v : UInt64 => (v.toNat : ℤ) where
  zero i := by
    rw [← UInt64.toNat_inj, Int.natCast_eq_zero]
    rfl
  neg i := iff_of_false (UInt64.not_lt_zero) (by omega)
  div i := by
    rw [UInt64.toNat_div]
    rfl
  mod i := by
    rw [UInt64.toNat_mod]
    rfl

/-- The loop of `convertHex` leaves the remainders, and does not run out of
fuel. -/
theorem convertHexDigits_eq (fuel : ℕ) (i : UInt64) (hfuel : i.toNat < 16 ^ (fuel + 1)) :
    convertHexDigits (fuel + 1) i =
      some ((Digits.remainders 16 (fuel + 1) i.toNat).map fun d => (Nat.digitChar d).toUpper) := by
  have htable : ∀ k : Fin 16, digitsHex[(k : ℕ)]? = some (Nat.digitChar k).toUpper := by decide
  induction fuel generalizing i with
  | zero =>
    have hdigit := htable ⟨i.toNat % 16, Nat.mod_lt _ (by decide)⟩
    have hsmall : i.toNat / 16 = 0 := by omega
    have hend : i / 16 = 0 := by
      rw [← UInt64.toNat_inj, UInt64.toNat_div]
      exact hsmall
    simp [convertHexDigits, Digits.remainders, hdigit, hend, hsmall]
  | succ fuel ih =>
    have hdigit := htable ⟨i.toNat % 16, Nat.mod_lt _ (by decide)⟩
    have hend : i / 16 = 0 ↔ i.toNat / 16 = 0 := by
      rw [← UInt64.toNat_inj, UInt64.toNat_div]
      rfl
    have hdiv : (i / 16).toNat = i.toNat / 16 := UInt64.toNat_div i 16
    have hless : (i / 16).toNat < 16 ^ (fuel + 1) := by
      rw [hdiv]
      exact Nat.div_lt_of_lt_mul (by rwa [Nat.mul_comm, ← Nat.pow_succ])
    have hrest := ih (i / 16) hless
    rw [hdiv] at hrest
    rw [convertHexDigits, Digits.remainders]
    by_cases h0 : i.toNat / 16 = 0
    · simp [hend.mpr h0, h0, hdigit]
    · have hne : i / 16 ≠ 0 := fun h' => h0 (hend.mp h')
      simp [hne, h0, hrest, hdigit]

/-- `convertHex` writes the hexadecimal text. -/
theorem convertHexAs_eq {fuel : ℕ} (hfuel : 16 ≤ fuel) (value : UInt64) :
    convertHexAs fuel value = some ((Nat.toDigits 16 value.toNat).map Char.toUpper) := by
  have hlt : value.toNat < 16 ^ fuel :=
    calc value.toNat < 16 ^ 16 := value.toNat_lt
      _ ≤ 16 ^ fuel := Nat.pow_le_pow_right (by decide) hfuel
  obtain ⟨fuel, rfl⟩ := Nat.exists_eq_add_of_lt (Nat.lt_of_lt_of_le (by decide : 0 < 16) hfuel)
  rw [Nat.zero_add] at hlt ⊢
  rw [convertHexAs, convertHexDigits_eq fuel value hlt, Digits.map_toDigits (by decide),
    ← Digits.text_eq (by decide) _ (Nat.succ_pos fuel) hlt]
  rfl

end LogStream

/-! ### The texts are canonical -/

theorem decimalDigit_digitChar : ∀ d < 10, decimalDigit (Nat.digitChar d) = some d := by decide

theorem hexDigit_digitChar : ∀ d < 16, hexDigit (Nat.digitChar d).toUpper = some d := by decide

/-- A digit is no sign. -/
theorem head_toDigits_ne_sign (n : ℕ) : (Nat.toDigits 10 n).head? ≠ some '-' := by
  have hdigits : ∀ d < 10, Nat.digitChar d ≠ '-' := by decide
  intro h
  have hmem : '-' ∈ Nat.toDigits 10 n := List.mem_of_head? h
  rw [Digits.toDigits_eq_text (by decide)] at hmem
  obtain ⟨d, hd, hc⟩ := Digits.mem_text (by decide) hmem
  exact hdigits d hd hc.symm

theorem unsigned_decimal (value : ℤ) : unsigned (decimal value) = Nat.toDigits 10 value.natAbs := by
  unfold unsigned decimal
  by_cases h : value < 0
  · simp [h]
  · rw [if_neg h, if_neg (head_toDigits_ne_sign _)]

/-- The decimal text is canonical. -/
theorem decimal_canonical (value : ℤ) : CanonicalDecimal value (decimal value) where
  sign := by
    unfold decimal
    by_cases h : value < 0
    · simp [h]
    · simp [h, head_toDigits_ne_sign]
  digits := by
    have hisDigit : ∀ d < 10, (Nat.digitChar d).isDigit = true := by decide
    intro c hc
    rw [unsigned_decimal, Digits.toDigits_eq_text (by decide)] at hc
    obtain ⟨d, hd, rfl⟩ := Digits.mem_text (by decide) hc
    exact hisDigit d hd
  nonempty := by
    rw [unsigned_decimal]
    exact Nat.toDigits_ne_nil
  leading := by
    intro h
    rw [unsigned_decimal, Digits.toDigits_eq_text (by decide)]
    exact Digits.head_text_ne (by decide) decimalDigit_digitChar (Int.natAbs_ne_zero.mpr h)
  zero := by
    rintro rfl
    rfl

/-- The decimal text reads back as the number. -/
theorem parseDecimal_decimal (value : ℤ) : parseDecimal (decimal value) = some value := by
  have hread : Digits.value 10 decimalDigit (Nat.toDigits 10 value.natAbs) = some value.natAbs := by
    rw [Digits.toDigits_eq_text (by decide)]
    exact Digits.value_text (by decide) decimalDigit_digitChar _
  unfold decimal
  by_cases h : value < 0
  · simp only [if_pos h, parseDecimal, hread, Option.map_some, Option.some.injEq]
    omega
  · have hsign := head_toDigits_ne_sign value.natAbs
    rw [if_neg h]
    unfold parseDecimal
    split
    · rename_i rest heq
      rw [heq] at hsign
      simp at hsign
    · rw [hread, Option.map_some, Option.some.injEq]
      omega

/-- The hexadecimal digits are canonical. -/
theorem hex_canonical (value : ℕ) : CanonicalHex value ((Nat.toDigits 16 value).map Char.toUpper) := by
  have hmem : ∀ d < 16, (Nat.digitChar d).toUpper ∈ LogStream.digitsHex := by decide
  constructor
  · intro c hc
    rw [Digits.map_toDigits (by decide)] at hc
    obtain ⟨d, hd, rfl⟩ := Digits.mem_text (by decide) hc
    exact hmem d hd
  · simp
  · intro h
    rw [Digits.map_toDigits (by decide)]
    exact Digits.head_text_ne (by decide) hexDigit_digitChar h
  · rintro rfl
    rfl

theorem parseHex_hex (value : ℕ) : parseHex ((Nat.toDigits 16 value).map Char.toUpper) = some value := by
  rw [parseHex, Digits.map_toDigits (by decide)]
  exact Digits.value_text (by decide) hexDigit_digitChar value

/-! ### Every insertion -/

/-- The text of an integer of 64 bits has at most twenty characters. -/
theorem length_decimal_le {value : ℤ} (hlo : -10 ^ 19 < value) (hhi : value < 10 ^ 20) :
    (decimal value).length ≤ 20 := by
  unfold decimal
  by_cases h : value < 0
  · have hdigits : (Nat.toDigits 10 value.natAbs).length ≤ 19 := by
      rw [Nat.length_toDigits_le_iff (by decide) (by decide)]
      omega
    rw [if_pos h, List.length_cons]
    omega
  · rw [if_neg h, Nat.length_toDigits_le_iff (by decide) (by decide)]
    omega

namespace Insertion

/-- The integers that can be inserted have 64 bits. -/
theorem integer_range {i : Insertion} {value : ℤ} (h : i.integer? = some value) :
    -10 ^ 19 < value ∧ value < 10 ^ 20 := by
  cases i with
  | short v =>
    obtain rfl := Option.some.inj h
    have hlo := v.le_toInt
    have hhi := v.toInt_lt
    omega
  | unsignedShort v =>
    obtain rfl := Option.some.inj h
    have hlt := v.toNat_lt
    omega
  | int v =>
    obtain rfl := Option.some.inj h
    have hlo := v.le_toInt
    have hhi := v.toInt_lt
    omega
  | unsignedInt v =>
    obtain rfl := Option.some.inj h
    have hlt := v.toNat_lt
    omega
  | long v | longLong v =>
    obtain rfl := Option.some.inj h
    have hlo := v.le_toInt
    have hhi := v.toInt_lt
    omega
  | unsignedLong v | unsignedLongLong v =>
    obtain rfl := Option.some.inj h
    have hlt := v.toNat_lt
    omega
  | char | cString | string | buffer | pointer => cases h

/-- Twenty passes of the loop are enough for the decimal text. -/
theorem converted_eq {i : Insertion} {value : ℤ} (h : i.integer? = some value) {fuel : ℕ} (hfuel : 20 ≤ fuel) :
    i.converted fuel = some (decimal value) := by
  obtain ⟨hlo, hhi⟩ := integer_range h
  have hpos : 0 < fuel := by omega
  have hlt : value.natAbs < 10 ^ fuel :=
    calc value.natAbs < 10 ^ 20 := by omega
      _ ≤ 10 ^ fuel := Nat.pow_le_pow_right (by decide) hfuel
  cases i with
  | short v =>
    obtain rfl := Option.some.inj h
    have hsame : v.toInt32.toInt = v.toInt := Int16.toInt_toInt32 v
    rw [← hsame] at hlt ⊢
    exact LogStream.convertAs_eq LogStream.truncates_int32 hpos v.toInt32 hlt
  | unsignedShort v =>
    obtain rfl := Option.some.inj h
    exact LogStream.convertAs_eq LogStream.truncates_uint32 hpos v.toUInt32 hlt
  | int v =>
    obtain rfl := Option.some.inj h
    exact LogStream.convertAs_eq LogStream.truncates_int32 hpos v hlt
  | unsignedInt v =>
    obtain rfl := Option.some.inj h
    exact LogStream.convertAs_eq LogStream.truncates_uint32 hpos v hlt
  | long v | longLong v =>
    obtain rfl := Option.some.inj h
    exact LogStream.convertAs_eq LogStream.truncates_int64 hpos v hlt
  | unsignedLong v | unsignedLongLong v =>
    obtain rfl := Option.some.inj h
    exact LogStream.convertAs_eq LogStream.truncates_uint64 hpos v hlt
  | char | cString | string | buffer | pointer => cases h

end Insertion

/-- **Integers and pointers are formatted exactly.** For every value of every
integer type, `convert` in that type ends within twenty passes, with every
index in its table; it leaves the canonical decimal text, which reads back as
the value and has at most `kMaxNumericSize` characters. For every pointer,
`convertHex` ends within sixteen passes, with every index in its table; it
leaves the canonical upper-case hexadecimal text, which reads back as the
pointer and with the `0x` in front and the NUL behind has at most
`kMaxNumericSize` bytes. -/
theorem integers_formatted_exactly :
    (∀ (i : Insertion) (value : ℤ), i.integer? = some value → ∃ text,
      (∀ fuel ≥ 20, i.converted fuel = some text) ∧ CanonicalDecimal value text ∧
        parseDecimal text = some value ∧ (text.length : ℤ) ≤ LogStream.kMaxNumericSize) ∧
    ∀ ptr : UInt64, ∃ text, (∀ fuel ≥ 16, LogStream.convertHexAs fuel ptr = some text) ∧
      CanonicalHex ptr.toNat text ∧ parseHex text = some ptr.toNat ∧
        (('0' :: 'x' :: text).length + 1 : ℤ) ≤ LogStream.kMaxNumericSize := by
  have hmax : LogStream.kMaxNumericSize = 48 := rfl
  constructor
  · intro i value h
    obtain ⟨hlo, hhi⟩ := Insertion.integer_range h
    have hlen := length_decimal_le hlo hhi
    refine ⟨decimal value, fun fuel hfuel => Insertion.converted_eq h hfuel, decimal_canonical value,
      parseDecimal_decimal value, ?_⟩
    omega
  · intro ptr
    have hlen : ((Nat.toDigits 16 ptr.toNat).map Char.toUpper).length ≤ 16 := by
      rw [List.length_map, Nat.length_toDigits_le_iff (by decide) (by decide)]
      exact ptr.toNat_lt
    refine ⟨_, fun fuel hfuel => LogStream.convertHexAs_eq hfuel ptr, hex_canonical _, parseHex_hex _, ?_⟩
    simp only [List.length_cons]
    omega

/-- The most negative `long`, and the greatest pointer. -/
example :
    (Insertion.long (-0x8000000000000000)).converted 20 = some "-9223372036854775808".toList ∧
      LogStream.convertHexAs 16 0xFFFFFFFFFFFFFFFF = some "FFFFFFFFFFFFFFFF".toList := by
  decide +kernel

end MiniMuduo
