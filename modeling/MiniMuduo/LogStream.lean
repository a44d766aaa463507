/-
# LogStream: what an insertion writes

`detail::FixedBuffer`, `convert`, `convertHex` and the insertions of
`src/base/LogStream.cc`, with asserts compiled out, as Release builds have
them. A write outside `data_` is the fault `outOfRange`. Chars are bytes; `long`
has 64 bits.

Every kind of insertion has its own test of the room that is left. `append`
and the insertion of a pointer do nothing when it fails. `FormatInteger` prints
a line, asserts, and then goes on to write: an integer whose text is longer
than the room left is written over the end of the buffer. So a sequence of
insertions stays inside the buffer, with each insertion adding its text or
nothing, exactly when every integer finds room for its text
(`logStream_inside_iff`). `MiniMuduo.LogFloating` has the insertions of
floating-point numbers.

Key definitions: `FixedBuffer`, `LogStream.convert`, `LogStream.convertHex`,
`Insertion`, `LogStream.insert`, `Insertion.text`.
Key theorems: `LogStream.convert_eq`, `LogStream.convertHex_eq`,
`LogStream.insert_spec`, `logStream_inside_iff`.
-/
import MiniMuduo.Fault
import MiniMuduo.Lib.Digits
import MiniMuduo.Lib.Fallible
import MiniMuduo.Lib.Slice
import MiniMuduo.Lib.Word

namespace MiniMuduo

open Fallible Slice Word

/-- `detail::FixedBuffer<SIZE>`; `cur` is `cur_ - data_`. -/
structure FixedBuffer (size : ℕ) where
  data : List UInt8
  cur : ℕ
  length_data : data.length = size
  deriving DecidableEq, Repr

namespace FixedBuffer

variable {size : ℕ}

/-- `length()`. -/
def length (b : FixedBuffer size) : ℕ := b.cur

/-- The bytes `[data(), data() + length())`. -/
def contents (b : FixedBuffer size) : List UInt8 := b.data.take b.cur

/-- `avail()`. -/
def avail (b : FixedBuffer size) : ℤ := size - b.cur

/-- `add(len)`. -/
def add (len : ℕ) (b : FixedBuffer size) : FixedBuffer size := { b with cur := b.cur + len }

/-- The bytes from `current()` on are overwritten. -/
def write (bytes : List UInt8) (b : FixedBuffer size) : Except Fault (FixedBuffer size) :=
  if h : b.cur + bytes.length ≤ b.data.length then
    .ok { b with data := overwrite b.data b.cur bytes, length_data := (length_overwrite h).trans b.length_data }
  else .error .outOfRange

/-- `append(buf, len)`. -/
def append (buf : List UInt8) (b : FixedBuffer size) : Except Fault (FixedBuffer size) :=
  if buf.length ≤ sizeOfInt b.avail then do
    let b ← b.write buf
    return b.add buf.length
  else .ok b

end FixedBuffer

/-- `detail::kSmallBuffer`. -/
def kSmallBuffer : ℕ := 4000

/-- `LogStream`: its `buffer_`. -/
abbrev LogStream := FixedBuffer kSmallBuffer

namespace LogStream

def kMaxNumericSize : ℤ := 48

/-! ### convert and convertHex -/

/-- `digits`. -/
def digits : List Char :=
  ['9', '8', '7', '6', '5', '4', '3', '2', '1', '0', '1', '2', '3', '4', '5', '6', '7', '8', '9']

/-- `digitsHex`. -/
def digitsHex : List Char := ['0', '1', '2', '3', '4', '5', '6', '7', '8', '9', 'A', 'B', 'C', 'D', 'E', 'F']

/-- `zero[lsd]`, `zero` being `digits + 9`. -/
def zero (lsd : ℤ) : Char := digits.getD (9 + lsd).toNat '0'

/-- The loop of `convert`; `/` and `%` round towards zero. -/
def convertLoop : ℕ → ℤ → List Char
  | 0, _ => []
  | fuel + 1, i => zero (i.tmod 10) :: if i.tdiv 10 = 0 then [] else convertLoop fuel (i.tdiv 10)

/-- `convert(buf, value)`: what it leaves in `buf`. -/
def convert (value : ℤ) : List Char :=
  let p := convertLoop (value.natAbs + 1) value
  let p := if value < 0 then p ++ ['-'] else p
  p.reverse

/-- The loop of `convertHex`. -/
def convertHexLoop : ℕ → ℕ → List Char
  | 0, _ => []
  | fuel + 1, i => digitsHex.getD (i % 16) '0' :: if i / 16 = 0 then [] else convertHexLoop fuel (i / 16)

/-- `convertHex(buf, value)`: what it leaves in `buf`, without the NUL. -/
def convertHex (value : ℕ) : List Char := (convertHexLoop (value + 1) value).reverse

/-- The bytes of a text. -/
def bytes (text : List Char) : List UInt8 := text.map Char.toUInt8

/-! ### The insertions -/

/-- `FormatInteger`: when `avail()` is below `kMaxNumericSize` it only prints a
line, the assert being compiled out. -/
def formatInteger (value : ℤ) (s : LogStream) : Except Fault LogStream := do
  let text := bytes (convert value)
  let s ← s.write text
  return s.add text.length

/-- `operator<<(char)`. -/
def insertChar (c : UInt8) (s : LogStream) : Except Fault LogStream := s.append [c]

/-- `operator<<(const char *)`; the text of a C string ends before its NUL. -/
def insertCString (str : Option (List UInt8)) (s : LogStream) : Except Fault LogStream :=
  match str with
  | some str => s.append (str.takeWhile (· ≠ 0))
  | none => .ok s

def insertInt (value : Int32) (s : LogStream) : Except Fault LogStream := s.formatInteger value.toInt

def insertUnsignedInt (value : UInt32) (s : LogStream) : Except Fault LogStream := s.formatInteger value.toNat

def insertShort (value : Int16) (s : LogStream) : Except Fault LogStream := s.insertInt value.toInt32

def insertUnsignedShort (value : UInt16) (s : LogStream) : Except Fault LogStream :=
  s.insertUnsignedInt value.toUInt32

def insertLong (value : Int64) (s : LogStream) : Except Fault LogStream := s.formatInteger value.toInt

def insertLongLong (value : Int64) (s : LogStream) : Except Fault LogStream := s.formatInteger value.toInt

def insertUnsignedLong (value : UInt64) (s : LogStream) : Except Fault LogStream := s.formatInteger value.toNat

def insertUnsignedLongLong (value : UInt64) (s : LogStream) : Except Fault LogStream :=
  s.formatInteger value.toNat

/-- `operator<<(const std::string &)`. -/
def insertString (str : List UInt8) (s : LogStream) : Except Fault LogStream :=
  if str ≠ [] then s.append str else .ok s

/-- `operator<<(const Buffer &)`. -/
def insertBuffer (buf : FixedBuffer kSmallBuffer) (s : LogStream) : Except Fault LogStream :=
  if buf.length ≠ 0 then s.append buf.contents else .ok s

/-- `operator<<(const void *)`: `convertHex` writes a NUL behind the digits,
which is not counted. -/
def insertPointer (ptr : UInt64) (s : LogStream) : Except Fault LogStream :=
  if kMaxNumericSize ≤ s.avail then do
    let hex := convertHex ptr.toNat
    let s ← s.write (bytes ('0' :: 'x' :: hex) ++ [0])
    return s.add (hex.length + 2)
  else .ok s

end LogStream

/-- What can be inserted. -/
inductive Insertion
  | char (c : UInt8)
  | cString (str : Option (List UInt8))
  | short (value : Int16)
  | unsignedShort (value : UInt16)
  | int (value : Int32)
  | unsignedInt (value : UInt32)
  | long (value : Int64)
  | longLong (value : Int64)
  | unsignedLong (value : UInt64)
  | unsignedLongLong (value : UInt64)
  | string (str : List UInt8)
  | buffer (buf : FixedBuffer kSmallBuffer)
  | pointer (ptr : UInt64)
  deriving DecidableEq, Repr

/-- `stream << i`. -/
def LogStream.insert (s : LogStream) : Insertion → Except Fault LogStream
  | .char c => s.insertChar c
  | .cString str => s.insertCString str
  | .short value => s.insertShort value
  | .unsignedShort value => s.insertUnsignedShort value
  | .int value => s.insertInt value
  | .unsignedInt value => s.insertUnsignedInt value
  | .long value => s.insertLong value
  | .longLong value => s.insertLongLong value
  | .unsignedLong value => s.insertUnsignedLong value
  | .unsignedLongLong value => s.insertUnsignedLongLong value
  | .string str => s.insertString str
  | .buffer buf => s.insertBuffer buf
  | .pointer ptr => s.insertPointer ptr

/-! ### The texts -/

/-- The decimal text of an integer. -/
def decimal (value : ℤ) : List Char :=
  if value < 0 then '-' :: Nat.toDigits 10 value.natAbs else Nat.toDigits 10 value.natAbs

/-- The hexadecimal text of a pointer. -/
def hexadecimal (value : ℕ) : List Char := '0' :: 'x' :: (Nat.toDigits 16 value).map Char.toUpper

namespace LogStream

theorem zero_eq (i : ℤ) : zero (i.tmod 10) = Nat.digitChar (i.natAbs % 10) := by
  have htable : ∀ k : Fin 10, zero (k : ℕ) = Nat.digitChar k ∧ zero (-(k : ℕ)) = Nat.digitChar k := by decide
  have hlt : i.natAbs % 10 < 10 := Nat.mod_lt _ (by decide)
  have habs : (i.tmod 10).natAbs = i.natAbs % 10 := Int.natAbs_tmod i 10
  obtain ⟨hpos, hneg⟩ := htable ⟨i.natAbs % 10, hlt⟩
  rcases Int.natAbs_eq (i.tmod 10) with h | h
  · rw [h, habs]
    exact hpos
  · rw [h, habs]
    exact hneg

theorem convertLoop_eq : ∀ (fuel : ℕ) (i : ℤ),
    convertLoop fuel i = (Digits.remainders 10 fuel i.natAbs).map Nat.digitChar
  | 0, _ => rfl
  | fuel + 1, i => by
    have habs : (i.tdiv 10).natAbs = i.natAbs / 10 := Int.natAbs_tdiv i 10
    have hzero : i.tdiv 10 = 0 ↔ i.natAbs / 10 = 0 := by rw [← habs, Int.natAbs_eq_zero]
    unfold convertLoop Digits.remainders
    rw [zero_eq, convertLoop_eq fuel, habs]
    by_cases h : i.natAbs / 10 = 0
    · rw [if_pos (hzero.mpr h), if_pos h]
      rfl
    · rw [if_neg fun h' => h (hzero.mp h'), if_neg h]
      rfl

theorem convert_eq (value : ℤ) : convert value = decimal value := by
  have hdigits := Digits.toDigits_eq_reverse (b := 10) (by decide) (Nat.lt_succ_self value.natAbs)
  unfold convert decimal
  simp only [convertLoop_eq]
  by_cases h : value < 0
  · rw [if_pos h, if_pos h, List.reverse_append, hdigits]
    rfl
  · rw [if_neg h, if_neg h, hdigits]

theorem convertHexLoop_eq : ∀ (fuel i : ℕ),
    convertHexLoop fuel i = (Digits.remainders 16 fuel i).map fun d => (Nat.digitChar d).toUpper
  | 0, _ => rfl
  | fuel + 1, i => by
    have htable : ∀ k : Fin 16, digitsHex.getD k '0' = (Nat.digitChar k).toUpper := by decide
    have hdigit : digitsHex.getD (i % 16) '0' = (Nat.digitChar (i % 16)).toUpper :=
      htable ⟨i % 16, Nat.mod_lt _ (by decide)⟩
    unfold convertHexLoop Digits.remainders
    rw [hdigit, convertHexLoop_eq fuel]
    by_cases h : i / 16 = 0
    · rw [if_pos h, if_pos h]
      rfl
    · rw [if_neg h, if_neg h]
      rfl

theorem convertHex_eq (value : ℕ) : convertHex value = (Nat.toDigits 16 value).map Char.toUpper := by
  have hdigits := Digits.toDigits_eq_reverse (b := 16) (by decide) (Nat.lt_succ_self value)
  rw [hdigits, convertHex, convertHexLoop_eq, List.map_reverse, List.map_map]
  rfl

theorem length_convertHex_le (ptr : UInt64) : (convertHex ptr.toNat).length ≤ 16 := by
  rw [convertHex_eq, List.length_map, Nat.length_toDigits_le_iff (by decide) (by decide)]
  exact ptr.toNat_lt

end LogStream

namespace Insertion

/-- The text of what is inserted. -/
def text : Insertion → List UInt8
  | .char c => [c]
  | .cString str => (str.getD []).takeWhile (· ≠ 0)
  | .short value => LogStream.bytes (decimal value.toInt)
  | .unsignedShort value => LogStream.bytes (decimal value.toNat)
  | .int value => LogStream.bytes (decimal value.toInt)
  | .unsignedInt value => LogStream.bytes (decimal value.toNat)
  | .long value => LogStream.bytes (decimal value.toInt)
  | .longLong value => LogStream.bytes (decimal value.toInt)
  | .unsignedLong value => LogStream.bytes (decimal value.toNat)
  | .unsignedLongLong value => LogStream.bytes (decimal value.toNat)
  | .string str => str
  | .buffer buf => buf.contents
  | .pointer ptr => LogStream.bytes (hexadecimal ptr.toNat)

def isInteger : Insertion → Bool
  | .short _ | .unsignedShort _ | .int _ | .unsignedInt _ | .long _ | .longLong _ | .unsignedLong _
  | .unsignedLongLong _ => true
  | .char _ | .cString _ | .string _ | .buffer _ | .pointer _ => false

/-- The room an insertion needs: a pointer asks for `kMaxNumericSize` bytes,
the others for their text. -/
def room (i : Insertion) : ℤ :=
  match i with
  | .pointer _ => LogStream.kMaxNumericSize
  | _ => i.text.length

end Insertion

/-! ### One insertion -/

namespace FixedBuffer

variable {size : ℕ} {b : FixedBuffer size}

/-- `text` is added: it is behind what was there, and the length has grown by
its length. -/
def Appended (text : List UInt8) (b b' : FixedBuffer size) : Prop :=
  b'.contents = b.contents ++ text ∧ b'.length = b.length + text.length ∧ b'.length ≤ size

/-- Text is written at `current()`, perhaps with more behind it, and counted. -/
theorem write_add (text extra : List UInt8) (hfit : b.cur + (text ++ extra).length ≤ size) :
    ∃ b', (do return (← b.write (text ++ extra)).add text.length : Except Fault (FixedBuffer size)) = .ok b' ∧
      Appended text b b' := by
  have hfit' : b.cur + (text ++ extra).length ≤ b.data.length := by rw [b.length_data]; exact hfit
  have hlen : (b.data.take b.cur).length = b.cur := by
    rw [List.length_take]
    omega
  simp only [write, dif_pos hfit', ok_bind, pure_eq_ok]
  refine ⟨_, rfl, ?_, rfl, ?_⟩
  · simp only [contents, add, overwrite, List.append_assoc]
    rw [List.take_append, List.take_append, hlen, List.take_of_length_le (by omega)]
    simp
  · simp only [length, add, List.length_append] at hfit ⊢
    omega

theorem write_outOfRange {bytes : List UInt8} (h : size < b.cur + bytes.length) :
    b.write bytes = .error .outOfRange := by
  unfold write
  rw [dif_neg (by rw [b.length_data]; omega)]

variable (hb : b.cur ≤ size) (hsize : size < 0x10000000000000000)

include hb

theorem avail_eq : b.avail = ((size - b.cur : ℕ) : ℤ) := by
  unfold avail
  omega

include hsize

/-- `append` adds all of the text or nothing. -/
theorem append_spec (buf : List UInt8) :
    ((buf.length : ℤ) ≤ b.avail → ∃ b', b.append buf = .ok b' ∧ Appended buf b b') ∧
      (b.avail < buf.length → b.append buf = .ok b) := by
  have hav := avail_eq hb
  have hroom : sizeOfInt b.avail = size - b.cur := by
    rw [hav]
    exact sizeOfInt_natCast (by omega)
  unfold append
  rw [hroom, hav]
  constructor
  · intro hle
    have hfit : buf.length ≤ size - b.cur := by omega
    rw [if_pos hfit]
    have hwrite := write_add (b := b) buf [] (by rw [List.append_nil]; omega)
    rwa [List.append_nil] at hwrite
  · intro hlt
    rw [if_neg (by omega)]

end FixedBuffer

namespace LogStream

variable {s : LogStream} (hs : s.cur ≤ kSmallBuffer)

include hs

/-- `FormatInteger` adds the text, or runs over the end. -/
theorem formatInteger_spec (value : ℤ) :
    (((bytes (decimal value)).length : ℤ) ≤ s.avail →
        ∃ s', s.formatInteger value = .ok s' ∧ FixedBuffer.Appended (bytes (decimal value)) s s') ∧
      (s.avail < (bytes (decimal value)).length → s.formatInteger value = .error .outOfRange) := by
  unfold formatInteger
  rw [convert_eq, FixedBuffer.avail_eq hs]
  constructor
  · intro hle
    have hwrite := FixedBuffer.write_add (b := s) (bytes (decimal value)) []
      (by rw [List.append_nil]; omega)
    rwa [List.append_nil] at hwrite
  · intro hlt
    have hout : s.write (bytes (decimal value)) = .error .outOfRange := FixedBuffer.write_outOfRange (by omega)
    simp only [hout, error_bind]

/-- The insertion of a pointer adds its text or nothing; the NUL behind it is
inside the room that was asked for. -/
theorem insertPointer_spec (ptr : UInt64) :
    (kMaxNumericSize ≤ s.avail →
        ∃ s', s.insertPointer ptr = .ok s' ∧ FixedBuffer.Appended (bytes (hexadecimal ptr.toNat)) s s') ∧
      (s.avail < kMaxNumericSize → s.insertPointer ptr = .ok s) := by
  have hhex := length_convertHex_le ptr
  have htext : '0' :: 'x' :: convertHex ptr.toNat = hexadecimal ptr.toNat := by
    rw [convertHex_eq]
    rfl
  have hlen : (bytes (hexadecimal ptr.toNat)).length = (convertHex ptr.toNat).length + 2 := by
    rw [← htext]
    simp [bytes]
  unfold insertPointer
  constructor
  · intro hle
    have hroom : kMaxNumericSize = 48 := rfl
    have hav := FixedBuffer.avail_eq hs
    have hfit : s.cur + (bytes (hexadecimal ptr.toNat) ++ [0]).length ≤ kSmallBuffer := by
      rw [List.length_append, hlen, List.length_singleton]
      omega
    have hwrite := FixedBuffer.write_add _ _ hfit
    rw [hlen] at hwrite
    rw [if_pos hle]
    simp only [htext]
    exact hwrite
  · intro hlt
    rw [if_neg (by omega)]

/-- What an insertion does: with the room it needs it adds its text; without
it does nothing, but for an integer, which runs over the end. -/
theorem insert_spec (i : Insertion) :
    (i.room ≤ s.avail → ∃ s', s.insert i = .ok s' ∧ FixedBuffer.Appended i.text s s') ∧
      (s.avail < i.room → s.insert i = if i.isInteger then .error .outOfRange else .ok s) := by
  have hsize : kSmallBuffer < 0x10000000000000000 := by decide
  have hnothing : FixedBuffer.Appended [] s s := ⟨(List.append_nil _).symm, rfl, hs⟩
  have hav := FixedBuffer.avail_eq hs
  cases i with
  | char c => exact FixedBuffer.append_spec hs hsize [c]
  | cString str =>
    cases str with
    | none =>
      refine ⟨fun _ => ⟨s, rfl, hnothing⟩, fun hlt => ?_⟩
      have hroom : (Insertion.cString none).room = 0 := rfl
      omega
    | some str => exact FixedBuffer.append_spec hs hsize (str.takeWhile (· ≠ 0))
  | short value =>
    have hspec := formatInteger_spec hs value.toInt32.toInt
    rw [Int16.toInt_toInt32] at hspec
    simpa [insert, insertShort, insertInt, Insertion.room, Insertion.text, Insertion.isInteger] using hspec
  | unsignedShort value => exact formatInteger_spec hs value.toNat
  | int value => exact formatInteger_spec hs value.toInt
  | unsignedInt value => exact formatInteger_spec hs value.toNat
  | long value => exact formatInteger_spec hs value.toInt
  | longLong value => exact formatInteger_spec hs value.toInt
  | unsignedLong value => exact formatInteger_spec hs value.toNat
  | unsignedLongLong value => exact formatInteger_spec hs value.toNat
  | string str =>
    by_cases hstr : str = []
    · subst hstr
      refine ⟨fun _ => ⟨s, rfl, hnothing⟩, fun hlt => ?_⟩
      have hroom : (Insertion.string []).room = 0 := rfl
      omega
    · have hrun : s.insert (.string str) = s.append str := if_pos hstr
      rw [hrun]
      exact FixedBuffer.append_spec hs hsize str
  | buffer buf =>
    by_cases hlen : buf.length = 0
    · have hempty : buf.contents = [] := by
        unfold FixedBuffer.contents
        rw [show buf.cur = 0 from hlen, List.take_zero]
      have hrun : s.insert (.buffer buf) = .ok s := if_neg (not_not.mpr hlen)
      refine ⟨fun _ => ⟨s, hrun, ?_⟩, fun hlt => ?_⟩
      · change FixedBuffer.Appended buf.contents s s
        rw [hempty]
        exact hnothing
      · have hroom : (Insertion.buffer buf).room = (buf.contents.length : ℤ) := rfl
        rw [hempty] at hroom
        simp only [List.length_nil] at hroom
        omega
    · have hrun : s.insert (.buffer buf) = s.append buf.contents := if_pos hlen
      rw [hrun]
      exact FixedBuffer.append_spec hs hsize buf.contents
  | pointer ptr => exact insertPointer_spec hs ptr

theorem length_le_of_insert {i : Insertion} {s' : LogStream} (h : s.insert i = .ok s') : s'.cur ≤ kSmallBuffer := by
  obtain ⟨hroom, hnone⟩ := insert_spec hs i
  by_cases hle : i.room ≤ s.avail
  · obtain ⟨s1, hs1, -, -, hlen⟩ := hroom hle
    obtain rfl : s1 = s' := Except.ok.inj (hs1.symm.trans h)
    exact hlen
  · rw [hnone (by omega)] at h
    split at h
    · cases h
    · obtain rfl := Except.ok.inj h
      exact hs

end LogStream

/-! ### Sequences of insertions -/

namespace LogStream

/-- A new stream; `data_` is not initialized. -/
def create (data : List UInt8) (h : data.length = kSmallBuffer) : LogStream := ⟨data, 0, h⟩

/-- An insertion as it should be: it writes inside the buffer and adds its
text, or, when the room it needs is not there, changes nothing. -/
def Proper (s : LogStream) (i : Insertion) : Prop :=
  ∃ s', s.insert i = .ok s' ∧ s'.length ≤ kSmallBuffer ∧
    (s'.contents = s.contents ++ i.text ∧ s'.length = s.length + i.text.length ∨
      s.avail < i.room ∧ s'.contents = s.contents ∧ s'.length = s.length)

/-- All of these insertions, one after the other, are as they should be. -/
def AllProper : LogStream → List Insertion → Prop
  | _, [] => True
  | s, i :: is => s.Proper i ∧ ∀ s', s.insert i = .ok s' → AllProper s' is

/-- Every integer among them finds room for its text. -/
def IntegersFit : LogStream → List Insertion → Prop
  | _, [] => True
  | s, i :: is => (i.isInteger = true → (i.text.length : ℤ) ≤ s.avail) ∧ ∀ s', s.insert i = .ok s' → IntegersFit s' is

theorem room_of_isInteger {i : Insertion} (h : i.isInteger = true) : i.room = i.text.length := by
  cases i with
  | pointer ptr => cases h
  | char | cString | short | unsignedShort | int | unsignedInt | long | longLong | unsignedLong
  | unsignedLongLong | string | buffer => rfl

/-- Only an integer that lacks room does not return. -/
theorem insert_returns_iff {s : LogStream} (hs : s.cur ≤ kSmallBuffer) (i : Insertion) :
    (∃ s', s.insert i = .ok s') ↔ (i.isInteger = true → (i.text.length : ℤ) ≤ s.avail) := by
  obtain ⟨hroom, hnone⟩ := insert_spec hs i
  by_cases hle : i.room ≤ s.avail
  · obtain ⟨s', hins, -⟩ := hroom hle
    refine iff_of_true ⟨s', hins⟩ fun hint => ?_
    rwa [← room_of_isInteger hint]
  · rw [hnone (by omega)]
    cases hint : i.isInteger with
    | true =>
      rw [room_of_isInteger hint] at hle
      simp [hle]
    | false => simp

/-- An insertion is as it should be exactly when it returns. -/
theorem proper_iff {s : LogStream} (hs : s.cur ≤ kSmallBuffer) (i : Insertion) :
    s.Proper i ↔ (i.isInteger = true → (i.text.length : ℤ) ≤ s.avail) := by
  rw [← insert_returns_iff hs i]
  constructor
  · rintro ⟨s', hins, -⟩
    exact ⟨s', hins⟩
  · rintro ⟨s', hins⟩
    obtain ⟨hroom, hnone⟩ := insert_spec hs i
    by_cases hle : i.room ≤ s.avail
    · obtain ⟨s1, hins1, hcont, hlen, hmax⟩ := hroom hle
      exact ⟨s1, hins1, hmax, .inl ⟨hcont, hlen⟩⟩
    · have hlt : s.avail < i.room := by omega
      rw [hnone hlt] at hins
      split at hins
      case isTrue => cases hins
      case isFalse hint => exact ⟨s, by rw [hnone hlt, if_neg hint], hs, .inr ⟨hlt, rfl, rfl⟩⟩

theorem allProper_iff : ∀ (is : List Insertion) {s : LogStream}, s.cur ≤ kSmallBuffer →
    (s.AllProper is ↔ s.IntegersFit is)
  | [], _, _ => Iff.rfl
  | i :: is, s, hs => by
    unfold AllProper IntegersFit
    rw [proper_iff hs i]
    apply and_congr_right
    intro _
    apply forall_congr'
    intro s'
    apply imp_congr_right
    intro hins
    exact allProper_iff is (length_le_of_insert hs hins)

end LogStream

/-- **A stream stays inside its buffer, if its integers fit.** For every
sequence of insertions into a new stream: all bytes are written inside the
buffer, the length stays between 0 and 4000, and each insertion adds its text
or, without the room it needs, changes nothing, exactly when every integer
finds as much room left as its decimal text is long. -/
theorem logStream_inside_iff (data : List UInt8) (hdata : data.length = kSmallBuffer) (is : List Insertion) :
    (LogStream.create data hdata).AllProper is ↔ (LogStream.create data hdata).IntegersFit is :=
  LogStream.allProper_iff is (Nat.zero_le _)

theorem insert_string_create {data : List UInt8} (hdata : data.length = kSmallBuffer) (str : List UInt8)
    (hstr : str.length ≤ kSmallBuffer) :
    ∃ s', (LogStream.create data hdata).insert (.string str) = .ok s' ∧
      s'.avail = ((kSmallBuffer - str.length : ℕ) : ℤ) := by
  have hs : (LogStream.create data hdata).cur ≤ kSmallBuffer := Nat.zero_le _
  have hroom : (Insertion.string str).room ≤ (LogStream.create data hdata).avail := by
    have hle : (Insertion.string str).room = (str.length : ℤ) := rfl
    rw [FixedBuffer.avail_eq hs, hle]
    exact Int.ofNat_le.mpr hstr
  obtain ⟨s', hs', -, hlen, hmax⟩ := (LogStream.insert_spec hs (.string str)).1 hroom
  have hcur : s'.cur = str.length := by
    have hlen' : s'.cur = 0 + str.length := hlen
    omega
  refine ⟨s', hs', ?_⟩
  rw [FixedBuffer.avail_eq hmax, hcur]

/-- A string that leaves room for two digits, and a number that has two. -/
theorem logStream_inside_exact :
    (LogStream.create (List.replicate 4000 0) (List.length_replicate ..)).AllProper
      [.string (List.replicate 3998 97), .int 42] := by
  have hdata : (List.replicate 4000 (0 : UInt8)).length = kSmallBuffer := List.length_replicate ..
  have hstr : (List.replicate 3998 (97 : UInt8)).length = 3998 := List.length_replicate ..
  obtain ⟨s', hs', hav⟩ := insert_string_create hdata (List.replicate 3998 97) (by rw [hstr]; decide)
  refine (logStream_inside_iff _ hdata _).mpr ⟨?_, ?_⟩
  · intro hint
    cases hint
  · intro s'' hs''
    obtain rfl : s' = s'' := Except.ok.inj (hs'.symm.trans hs'')
    refine ⟨fun _ => ?_, fun _ _ => trivial⟩
    rw [hav, hstr]
    decide +kernel

/-- A string that leaves room for one digit, and a number that has two: the
second digit is written behind the buffer. -/
theorem logStream_overruns :
    ¬ (LogStream.create (List.replicate 4000 0) (List.length_replicate ..)).AllProper
      [.string (List.replicate 3999 97), .int 42] := by
  have hdata : (List.replicate 4000 (0 : UInt8)).length = kSmallBuffer := List.length_replicate ..
  have hstr : (List.replicate 3999 (97 : UInt8)).length = 3999 := List.length_replicate ..
  obtain ⟨s', hs', hav⟩ := insert_string_create hdata (List.replicate 3999 97) (by rw [hstr]; decide)
  intro h
  obtain ⟨-, hrest⟩ := (LogStream.allProper_iff _ (Nat.zero_le _)).mp h
  have hfit := (hrest s' hs').1 rfl
  rw [hav, hstr] at hfit
  revert hfit
  decide +kernel

end MiniMuduo
