/-
# LogStream: floating-point numbers

`operator<<(double)` and `operator<<(float)` of `src/base/LogStream.cc`, with
asserts compiled out. `snprintf` stores what fits in `kMaxNumericSize` bytes,
NUL included, and returns the length of the whole text; the code moves `cur_`
by what it returns. The text of a number from `10 ^ 34` on, or from `-10 ^ 33`
down, is longer than what is stored, and `cur_` passes bytes that were not
written. Near the end of the buffer it passes the end: `avail()` is negative,
and `append`, which casts it to `size_t`, finds room for any text. And like an
integer, a number that does not find the room it needs is written over the end
of the buffer.

So the stream stays sound through a sequence of insertions exactly when the
floating-point numbers are between these bounds and the numbers find room for
their texts (`floats_logged_soundly_iff`).

Key definitions: `LogStream.insertDouble`, `LogItem`, `Moderate`,
`LogStream.AllSound`, `LogStream.AllFit`. Key theorems:
`length_text_le_iff_moderate`, `LogStream.insertDouble_returns_iff`,
`LogStream.proceeds_iff`, `floats_logged_soundly_iff`.
-/
import MiniMuduo.Lib.Floating
import MiniMuduo.LogStream

namespace MiniMuduo

open Fallible Float.Model

namespace LogStream

/-- `snprintf(buf, size, ..)` of this text: the bytes stored, and the result. -/
def snprintf (size : ℕ) (text : List Char) : List UInt8 × ℕ := (bytes (text.take (size - 1)) ++ [0], text.length)

/-- `operator<<(double)`: when `avail()` is below `kMaxNumericSize` nothing is
done about it, the assert being compiled out. -/
def insertDouble (value : Floating) (s : LogStream) : Except Fault LogStream := do
  let r := snprintf kMaxNumericSize.toNat (value.text 12)
  let s ← s.write r.1
  return s.add r.2

/-- `operator<<(float)`: the conversion to `double` is exact. -/
def insertFloat (value : Floating) (s : LogStream) : Except Fault LogStream := s.insertDouble value

end LogStream

/-- What can be inserted; floating-point numbers as their bits. -/
inductive LogItem
  | plain (i : Insertion)
  | float (bits : UInt32)
  | double (bits : UInt64)
  deriving DecidableEq, Repr

/-- The number of a floating-point insertion. -/
def LogItem.floating? : LogItem → Option Floating
  | .plain _ => none
  | .float bits => some (.decode .binary32 bits.toBitVec)
  | .double bits => some (.decode .binary64 bits.toBitVec)

namespace LogStream

/-- `stream << item`. -/
def insertItem (s : LogStream) : LogItem → Except Fault LogStream
  | .plain i => s.insert i
  | .float bits => s.insertFloat (.decode .binary32 bits.toBitVec)
  | .double bits => s.insertDouble (.decode .binary64 bits.toBitVec)

end LogStream

/-! ### The numbers whose text is stored whole -/

/-- Not a number, infinite, or between `-10 ^ 33` and `10 ^ 34`. -/
def Moderate (v : Floating) : Prop := ∀ a ∈ v.abs, a < if v.negative then 10 ^ 33 else 10 ^ 34

instance (v : Floating) : Decidable (Moderate v) :=
  match h : v.abs with
  | none => isTrue (by simp [Moderate, h])
  | some a => decidable_of_iff (a < if v.negative then 10 ^ 33 else 10 ^ 34) (by simp [Moderate, h])

theorem LogItem.mantissa_lt {item : LogItem} {v : Floating} (h : v ∈ item.floating?) {m : ℕ} {e : ℤ}
    (hm : v.magnitude = .finite m e) : m < 2 ^ 53 := by
  cases item with
  | plain i => cases h
  | float bits =>
    obtain rfl := Option.some.inj h
    exact Nat.lt_of_lt_of_le (Floating.mantissa_lt hm) (by decide)
  | double bits =>
    obtain rfl := Option.some.inj h
    exact Floating.mantissa_lt hm

/-- The whole text is stored for the moderate numbers. -/
theorem length_text_le_iff_moderate {v : Floating} (hv : ∀ m e, v.magnitude = .finite m e → m < 2 ^ 53) :
    (v.text 12).length ≤ 47 ↔ Moderate v := by
  obtain ⟨negative, magnitude⟩ := v
  cases magnitude with
  | nan | inf =>
    refine iff_of_true ?_ ?_
    · cases negative <;> decide
    · simp [Moderate, Floating.abs]
  | finite m e =>
    have hm : m < 2 ^ 53 := hv m e rfl
    cases negative with
    | false =>
      have hlen := Floating.length_text_le_iff (d := 12) (k := 34) (e := e) false (by decide) (by decide)
        (Nat.lt_trans hm (by decide))
      simpa [Moderate, Floating.abs] using hlen
    | true =>
      have hlen := Floating.length_text_le_iff (d := 12) (k := 33) (e := e) true (by decide) (by decide)
        (Nat.lt_trans hm (by decide))
      simpa [Moderate, Floating.abs] using hlen

namespace LogStream

/-! ### One insertion -/

theorem insertDouble_ok {s s' : LogStream} {v : Floating} (h : s.insertDouble v = .ok s') :
    s'.cur = s.cur + (v.text 12).length ∧ s.cur + (min 47 (v.text 12).length + 1) ≤ kSmallBuffer := by
  obtain ⟨s1, hwrite, h⟩ := bind_eq_ok h
  obtain rfl := Except.ok.inj h
  unfold FixedBuffer.write at hwrite
  split at hwrite
  · rename_i hfit
    obtain rfl := Except.ok.inj hwrite
    rw [s.length_data] at hfit
    simp only [snprintf, bytes, kMaxNumericSize, List.length_append, List.length_map, List.length_take,
      List.length_singleton] at hfit
    exact ⟨rfl, hfit⟩
  · cases hwrite

theorem insertDouble_returns_iff {s : LogStream} {v : Floating} :
    (∃ s', s.insertDouble v = .ok s') ↔ s.cur + (min 47 (v.text 12).length + 1) ≤ kSmallBuffer := by
  constructor
  · rintro ⟨s', h⟩
    exact (insertDouble_ok h).2
  · intro hfit
    have hfit' : s.cur + (snprintf kMaxNumericSize.toNat (v.text 12)).1.length ≤ s.data.length := by
      rw [s.length_data]
      simpa [snprintf, bytes, kMaxNumericSize] using hfit
    obtain ⟨s1, hwrite⟩ : ∃ s1, s.write (snprintf kMaxNumericSize.toNat (v.text 12)).1 = .ok s1 := ⟨_, dif_pos hfit'⟩
    refine ⟨s1.add (v.text 12).length, ?_⟩
    simp only [insertDouble, hwrite, ok_bind, pure_eq_ok]
    rfl

/-- Otherwise the end of it is written behind the buffer. -/
theorem insertDouble_outOfRange {s : LogStream} {v : Floating}
    (h : kSmallBuffer < s.cur + (min 47 (v.text 12).length + 1)) : s.insertDouble v = .error .outOfRange := by
  have hout : s.write (snprintf kMaxNumericSize.toNat (v.text 12)).1 = .error .outOfRange :=
    FixedBuffer.write_outOfRange (by simpa [snprintf, bytes, kMaxNumericSize] using h)
  simp only [insertDouble, hout, error_bind]

/-- With the room that it tests for, the insertion of a number returns. -/
theorem insertDouble_returns {s : LogStream} (hroom : kMaxNumericSize ≤ s.avail) (v : Floating) :
    ∃ s', s.insertDouble v = .ok s' := by
  have hmax : kMaxNumericSize = 48 := rfl
  rw [insertDouble_returns_iff]
  simp only [FixedBuffer.avail, hmax] at hroom
  omega

theorem insertItem_floating {item : LogItem} {v : Floating} (h : v ∈ item.floating?) (s : LogStream) :
    s.insertItem item = s.insertDouble v := by
  cases item with
  | plain i => cases h
  | float bits | double bits =>
    obtain rfl := Option.some.inj h
    rfl

/-- A floating-point insertion moves `cur_` over the characters it stored, and
no further. -/
def Advances (s : LogStream) (item : LogItem) : Prop :=
  ∀ v ∈ item.floating?, ∀ s', s.insertItem item = .ok s' → s'.length = s.length + ((v.text 12).take 47).length

/-- `avail()` is not negative, and `append` admits no copy past the end. -/
structure Sound (s : LogStream) : Prop where
  avail : 0 ≤ s.avail
  append : ∀ buf, ∃ s', s.append buf = .ok s'

/-- `cur_` is inside the buffer, or at its end. -/
def Within (s : LogStream) : Prop := s.cur ≤ kSmallBuffer

theorem Within.sound {s : LogStream} (hs : s.Within) : s.Sound := by
  constructor
  · rw [FixedBuffer.avail_eq hs]
    omega
  · intro buf
    obtain ⟨hroom, hnone⟩ := FixedBuffer.append_spec hs (by decide) buf
    by_cases hle : (buf.length : ℤ) ≤ s.avail
    · obtain ⟨s', hs', -⟩ := hroom hle
      exact ⟨s', hs'⟩
    · exact ⟨s, hnone (by omega)⟩

theorem advances_iff {s s' : LogStream} {item : LogItem} (h : s.insertItem item = .ok s') :
    s.Advances item ↔ ∀ v ∈ item.floating?, Moderate v := by
  unfold Advances
  apply forall_congr'
  intro v
  apply imp_congr_right
  intro hv
  have hins := h
  rw [insertItem_floating hv] at hins
  obtain ⟨hcur, -⟩ := insertDouble_ok hins
  rw [← length_text_le_iff_moderate fun m e => LogItem.mantissa_lt hv, h]
  simp only [Except.ok.injEq, forall_eq', FixedBuffer.length, hcur, List.length_take]
  omega

theorem Within.insertItem {s s' : LogStream} {item : LogItem} (hs : s.Within)
    (hitem : ∀ v ∈ item.floating?, Moderate v) (h : s.insertItem item = .ok s') : s'.Within := by
  cases hv : item.floating? with
  | none =>
    cases item with
    | plain i => exact length_le_of_insert hs h
    | float bits | double bits => cases hv
  | some v =>
    have hmoderate := hitem v hv
    rw [insertItem_floating hv] at h
    obtain ⟨hcur, hfit⟩ := insertDouble_ok h
    rw [← length_text_le_iff_moderate fun m e => LogItem.mantissa_lt hv] at hmoderate
    unfold Within
    omega

/-! ### Sequences of insertions -/

/-- Through these insertions, one after the other: `avail()` is not negative
and `append` admits no copy past the end before and after each of them, and
each writes inside the buffer and moves `cur_` over what it stored. -/
def AllSound : LogStream → List LogItem → Prop
  | s, [] => s.Sound
  | s, item :: items => s.Sound ∧ s.Advances item ∧ ∃ s', s.insertItem item = .ok s' ∧ AllSound s' items

/-- A floating-point number is moderate and finds room for its text and a NUL;
an integer finds room for its text. -/
def Fits (s : LogStream) (item : LogItem) : Prop :=
  (∀ v ∈ item.floating?, Moderate v ∧ ((v.text 12).length : ℤ) + 1 ≤ s.avail) ∧
    ∀ i, item = .plain i → i.isInteger = true → (i.text.length : ℤ) ≤ s.avail

/-- All of these insertions fit when it is their turn. -/
def AllFit : LogStream → List LogItem → Prop
  | _, [] => True
  | s, item :: items => s.Fits item ∧ ∀ s', s.insertItem item = .ok s' → AllFit s' items

theorem proceeds_iff {s : LogStream} (hs : s.Within) (item : LogItem) :
    (s.Advances item ∧ ∃ s', s.insertItem item = .ok s') ↔ s.Fits item := by
  cases hv : item.floating? with
  | none =>
    cases item with
    | float bits | double bits => cases hv
    | plain i =>
      have hreturns : (∃ s', s.insertItem (.plain i) = .ok s') ↔ _ := insert_returns_iff hs i
      simp [Advances, Fits, hv, hreturns]
  | some v =>
    have hplain : ∀ i, item ≠ .plain i := by
      rintro i rfl
      cases hv
    have hmoderate := length_text_le_iff_moderate fun m e hm =>
      LogItem.mantissa_lt (show v ∈ item.floating? from hv) hm
    have hav := FixedBuffer.avail_eq hs
    have hcur : s.cur ≤ kSmallBuffer := hs
    constructor
    · rintro ⟨hadv, s', hins⟩
      have hmod : Moderate v := (advances_iff hins).mp hadv v hv
      refine ⟨fun u hu => ?_, fun i hi => absurd hi (hplain i)⟩
      obtain rfl : v = u := Option.some.inj (hv.symm.trans hu)
      rw [insertItem_floating hv] at hins
      have hfit := (insertDouble_ok hins).2
      have hshort := hmoderate.mpr hmod
      exact ⟨hmod, by omega⟩
    · rintro ⟨hfits, -⟩
      obtain ⟨hmod, hroom⟩ := hfits v hv
      have hshort := hmoderate.mpr hmod
      obtain ⟨s', hins⟩ : ∃ s', s.insertItem item = .ok s' := by
        rw [insertItem_floating hv]
        exact insertDouble_returns_iff.mpr (by omega)
      refine ⟨(advances_iff hins).mpr fun u hu => ?_, s', hins⟩
      rwa [← Option.some.inj (hv.symm.trans hu)]

theorem allSound_iff : ∀ (items : List LogItem) {s : LogStream}, s.Within → (s.AllSound items ↔ s.AllFit items)
  | [], _, hs => iff_of_true hs.sound trivial
  | item :: items, s, hs => by
    have hnext : ∀ s', s.insertItem item = .ok s' → s.Fits item → (s'.AllSound items ↔ s'.AllFit items) :=
      fun s' hins hfits => allSound_iff items (hs.insertItem (fun v hv => (hfits.1 v hv).1) hins)
    constructor
    · rintro ⟨-, hadv, s', hins, hall⟩
      have hfits := (proceeds_iff hs item).mp ⟨hadv, s', hins⟩
      refine ⟨hfits, fun s'' hins' => ?_⟩
      obtain rfl := Except.ok.inj (hins.symm.trans hins')
      exact (hnext s' hins hfits).mp hall
    · rintro ⟨hfits, hall⟩
      obtain ⟨hadv, s', hins⟩ := (proceeds_iff hs item).mpr hfits
      exact ⟨hs.sound, hadv, s', hins, (hnext s' hins hfits).mpr (hall s' hins)⟩

end LogStream

open LogStream

/-- **Floating-point numbers are logged soundly, if they are moderate and find
room.** With the room that it asserts, an insertion of any `float` or `double`
returns. Through it and whatever is inserted after it, everything is written
inside the buffer, every floating-point insertion moves the length by the
characters it stored, `avail()` is never negative and `append` never admits a
copy past the end, exactly when every floating-point number inserted is not a
number, infinite, or between `-10 ^ 33` and `10 ^ 34`, and finds room for its
text and a NUL, and every integer finds room for its text. -/
theorem floats_logged_soundly_iff {s : LogStream} (hroom : kMaxNumericSize ≤ s.avail) {item : LogItem}
    (hitem : item.floating?.isSome = true) :
    (∃ s₁, s.insertItem item = .ok s₁) ∧
      ∀ items : List LogItem, s.AllSound (item :: items) ↔ s.AllFit (item :: items) := by
  have hwithin : s.Within := by
    simp only [FixedBuffer.avail, kMaxNumericSize] at hroom
    unfold Within
    omega
  obtain ⟨v, hv⟩ := Option.isSome_iff_exists.mp hitem
  refine ⟨?_, fun items => allSound_iff (item :: items) hwithin⟩
  rw [insertItem_floating hv]
  exact insertDouble_returns hroom v

/-- One and a half into a new stream, then 42. -/
theorem floats_logged_soundly_three_halves :
    let s := LogStream.create (List.replicate 4000 0) (List.length_replicate ..)
    (∃ s₁, s.insertItem (.double 0x3FF8000000000000) = .ok s₁ ∧ s₁.length = 14) ∧
      s.AllSound [.double 0x3FF8000000000000, .plain (.int 42)] := by
  intro s
  have hroom : kMaxNumericSize ≤ s.avail := by decide
  have htext : ((Floating.decode .binary64 (0x3FF8000000000000 : UInt64).toBitVec).text 12).length = 14 := by
    decide +kernel
  have hmoderate : Moderate (.decode .binary64 (0x3FF8000000000000 : UInt64).toBitVec) := by decide +kernel
  obtain ⟨⟨s₁, hs₁⟩, hiff⟩ := @floats_logged_soundly_iff s hroom (.double 0x3FF8000000000000) rfl
  have hcur : s₁.cur = 14 := by
    rw [(insertDouble_ok hs₁).1, htext]
    rfl
  refine ⟨⟨s₁, hs₁, hcur⟩,
    (hiff [.plain (.int 42)]).mpr ⟨⟨fun v hv => ?_, fun i hi => (by cases hi)⟩, fun s' hs' => ?_⟩⟩
  · obtain rfl := Option.some.inj hv
    refine ⟨hmoderate, ?_⟩
    rw [htext]
    decide
  · obtain rfl := Except.ok.inj (hs₁.symm.trans hs')
    refine ⟨⟨fun v hv => (by cases hv), fun i hi _ => ?_⟩, fun _ _ => trivial⟩
    obtain rfl := LogItem.plain.inj hi
    rw [FixedBuffer.avail, hcur]
    decide +kernel

/-- A stream with sixty bytes left. `2 ^ 200`, whose text has 74 characters:
`cur_` is then 14 bytes behind the buffer, and `append` writes there.
`9 * 10 ^ 33` twice, whose text has 47: the second one is written over the end. -/
theorem large_double_overruns :
    ∃ s s₁ s₂ : LogStream,
      (LogStream.create (List.replicate 4000 0) (List.length_replicate ..)).insert
        (.string (List.replicate 3940 97)) = .ok s ∧
      kMaxNumericSize ≤ s.avail ∧ s.insertItem (.double 0x4C70000000000000) = .ok s₁ ∧
      ¬ s.Advances (.double 0x4C70000000000000) ∧ s₁.avail = -14 ∧ s₁.append [120] = .error .outOfRange ∧
      s.insertItem (.double 0x46FBBBBF868FA2D0) = .ok s₂ ∧ s.Advances (.double 0x46FBBBBF868FA2D0) ∧
      s₂.avail = 13 ∧ s₂.insertItem (.double 0x46FBBBBF868FA2D0) = .error .outOfRange := by
  set large := Floating.decode .binary64 (0x4C70000000000000 : UInt64).toBitVec with hlarge
  set long := Floating.decode .binary64 (0x46FBBBBF868FA2D0 : UInt64).toBitVec with hlong
  have htext : (large.text 12).length = 74 := by
    rw [hlarge]
    decide +kernel
  have htext' : (long.text 12).length = 47 := by
    rw [hlong]
    decide +kernel
  have hstr : (List.replicate 3940 (97 : UInt8)).length = 3940 := List.length_replicate ..
  have hdata : (List.replicate 4000 (0 : UInt8)).length = kSmallBuffer := List.length_replicate ..
  obtain ⟨s, hs, hav⟩ := insert_string_create hdata (List.replicate 3940 97) (by rw [hstr]; decide)
  rw [hstr] at hav
  have hroom : kMaxNumericSize ≤ s.avail := by
    rw [hav]
    decide
  obtain ⟨s₁, hs₁⟩ := insertDouble_returns hroom large
  obtain ⟨s₂, hs₂⟩ := insertDouble_returns hroom long
  obtain ⟨hcur, -⟩ := insertDouble_ok hs₁
  obtain ⟨hcur', -⟩ := insertDouble_ok hs₂
  have hstart : s.cur = 3940 := by
    simp only [FixedBuffer.avail, kSmallBuffer] at hav
    omega
  have hcur₁ : s₁.cur = 4014 := by omega
  have hcur₂ : s₂.cur = 3987 := by omega
  have hav₁ : s₁.avail = -14 := by
    rw [FixedBuffer.avail, hcur₁]
    rfl
  refine ⟨s, s₁, s₂, hs, hroom, hs₁, fun hadv => ?_, hav₁, ?_, hs₂, ?_, ?_, ?_⟩
  · have hlen := hadv large rfl s₁ hs₁
    simp only [FixedBuffer.length, List.length_take, hcur, htext] at hlen
    omega
  · have hout : s₁.write [120] = .error .outOfRange := FixedBuffer.write_outOfRange (by rw [hcur₁]; decide)
    unfold FixedBuffer.append
    rw [hav₁, hout]
    rfl
  · have hins : s.insertItem (.double 0x46FBBBBF868FA2D0) = .ok s₂ := hs₂
    refine (advances_iff hins).mpr fun v hv => ?_
    obtain rfl := Option.some.inj hv
    decide +kernel
  · rw [FixedBuffer.avail, hcur₂]
    rfl
  · exact insertDouble_outOfRange (v := long) (by rw [hcur₂, htext']; decide)

end MiniMuduo
