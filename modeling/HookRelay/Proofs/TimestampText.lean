import HookRelay.Gate
import Mathlib.Data.List.TakeWhile

/-!
# The text of a timestamp reads back

A timestamp from 1970 on is written as a row of decimal digits.  Reading goes through such a row
from the left and stays in range at each digit exactly if the number of the whole row is in range,
because that number is never smaller than the number of a part in front.

* `Timestamp.valueFrom`: the number of a row of digits behind digits already read.
* `Timestamp.ofDigits?_eq_some_iff`: what a row of digits reads as.
* `Timestamp.parse_take_text`: a written timestamp reads back, also from the first bytes of a file
  that are looked at.
* `Gate.isRecent_iff`: what recent means, also where a difference is out of range.
-/

namespace HookRelay
namespace Timestamp

/-- The number of the digits read so far with a row of digits behind them. -/
def valueFrom (number : Nat) : Bytes → Nat
  | [] =>
      number
  | digit :: later =>
      valueFrom (number * 10 + (digit - 0x30).toNat) later

theorem le_valueFrom (digits : Bytes) :
    ∀ number : Nat, number ≤ valueFrom number digits := by
  induction digits with
  | nil =>
      intro number
      exact Nat.le_refl number
  | cons digit later ih =>
      intro number
      have front : number ≤ number * 10 + (digit - 0x30).toNat := by
        omega
      exact Nat.le_trans front (ih (number * 10 + (digit - 0x30).toNat))

theorem minValue_le_natCast (number : Nat) :
    Int64.minValue.toInt ≤ (number : Int) := by
  have least := Int64.toInt_minValue
  omega

/-- A digit is put behind a number exactly if the longer number is in range. -/
theorem appendDigit_eq_some_iff
    {start next : Timestamp} {number : Nat} {digit : UInt8}
    (value : start.toInt = number) :
    appendDigit start digit = some next ↔
      next.toInt = (number * 10 + (digit - 0x30).toNat : Nat) := by
  unfold appendDigit
  rw [value, Option.bind_eq_some_iff]
  constructor
  · rintro ⟨tenfold, tenfoldRead, nextRead⟩
    rw [ofInt?_eq_some_iff] at tenfoldRead nextRead
    rw [nextRead, tenfoldRead]
    push_cast
    rfl
  · intro nextValue
    have upper : (number : Int) * 10 ≤ Int64.maxValue.toInt := by
      have inRange := next.toInt_le
      omega
    have lower : Int64.minValue.toInt ≤ (number : Int) * 10 := by
      have nonneg := minValue_le_natCast number
      omega
    refine ⟨Int64.ofIntLE _ lower upper, ?_, ?_⟩
    · rw [ofInt?_eq_some_iff, Int64.toInt_ofIntLE]
    · rw [ofInt?_eq_some_iff, Int64.toInt_ofIntLE, nextValue]
      push_cast
      rfl

/-- Digits are put behind a number exactly if the number of the whole row is in range. -/
theorem foldlM_appendDigit_eq_some_iff (digits : Bytes) :
    ∀ {start read : Timestamp} {number : Nat},
      start.toInt = number →
        (digits.foldlM appendDigit start = some read ↔
          read.toInt = valueFrom number digits) := by
  induction digits with
  | nil =>
      intro start read number value
      simp only [List.foldlM_nil, Option.pure_def, Option.some.injEq, valueFrom]
      rw [← Int64.toInt_inj, value]
      exact eq_comm
  | cons digit later ih =>
      intro start read number value
      rw [List.foldlM_cons, Option.bind_eq_bind, Option.bind_eq_some_iff, valueFrom]
      constructor
      · rintro ⟨next, nextRead, laterRead⟩
        rw [appendDigit_eq_some_iff value] at nextRead
        exact (ih nextRead).mp laterRead
      · intro readValue
        have upper :
            ((number * 10 + (digit - 0x30).toNat : Nat) : Int) ≤ Int64.maxValue.toInt := by
          have longer := le_valueFrom later (number * 10 + (digit - 0x30).toNat)
          have inRange := read.toInt_le
          omega
        have nextValue :
            (Int64.ofIntLE _ (minValue_le_natCast _) upper).toInt =
              (number * 10 + (digit - 0x30).toNat : Nat) :=
          Int64.toInt_ofIntLE
        exact ⟨_, (appendDigit_eq_some_iff value).mpr nextValue, (ih nextValue).mpr readValue⟩

/-- A row of digits reads as the timestamp of its number, if that is in range. -/
theorem ofDigits?_eq_some_iff {digits : Bytes} {read : Timestamp} :
    ofDigits? digits = some read ↔ read.toInt = valueFrom 0 digits :=
  foldlM_appendDigit_eq_some_iff digits Int64.toInt_zero

section Digits

variable {char : Char}

theorem toNat_val_of_isDigit (digit : char.isDigit = true) :
    48 ≤ char.val.toNat ∧ char.val.toNat ≤ 57 := by
  simpa [Char.isDigit, UInt32.le_iff_toNat_le] using digit

theorem toNat_toUInt8_of_isDigit (digit : char.isDigit = true) :
    char.val.toUInt8.toNat = char.val.toNat := by
  have range := toNat_val_of_isDigit digit
  rw [UInt32.toNat_toUInt8]
  omega

theorem isDigit_toUInt8 (digit : char.isDigit = true) :
    isDigit char.val.toUInt8 = true := by
  have range := toNat_val_of_isDigit digit
  simp only [isDigit, Bool.and_eq_true, decide_eq_true_eq, UInt8.le_iff_toNat_le,
    toNat_toUInt8_of_isDigit digit]
  exact range

theorem toNat_toUInt8_sub (digit : char.isDigit = true) :
    (char.val.toUInt8 - 0x30).toNat = char.toNat - '0'.toNat := by
  have range := toNat_val_of_isDigit digit
  have atLeast : (0x30 : UInt8) ≤ char.val.toUInt8 := by
    rw [UInt8.le_iff_toNat_le, toNat_toUInt8_of_isDigit digit]
    exact range.1
  rw [UInt8.toNat_sub_of_le _ _ atLeast, toNat_toUInt8_of_isDigit digit]
  rfl

theorem utf8EncodeChar_of_isDigit (digit : char.isDigit = true) :
    String.utf8EncodeChar char = [char.val.toUInt8] := by
  have range := toNat_val_of_isDigit digit
  refine String.utf8EncodeChar_eq_singleton ?_
  rw [Char.utf8Size_eq_one_iff, UInt32.le_iff_toNat_le]
  have last : (127 : UInt32).toNat = 127 := rfl
  omega

end Digits

def digits (number : Nat) : Bytes :=
  (Nat.toDigits 10 number).map fun char => char.val.toUInt8

theorem flatMap_utf8EncodeChar_of_isDigit (chars : List Char) :
    (∀ char ∈ chars, char.isDigit = true) →
      chars.flatMap String.utf8EncodeChar = chars.map fun char => char.val.toUInt8 := by
  induction chars with
  | nil =>
      intro _
      rfl
  | cons char later ih =>
      intro all
      rw [List.forall_mem_cons] at all
      rw [List.flatMap_cons, utf8EncodeChar_of_isDigit all.1, ih all.2]
      rfl

theorem valueFrom_map_toUInt8 (chars : List Char) :
    ∀ number : Nat, (∀ char ∈ chars, char.isDigit = true) →
      valueFrom number (chars.map fun char => char.val.toUInt8) =
        Nat.ofDigitChars 10 chars number := by
  induction chars with
  | nil =>
      intro number _
      simp [valueFrom]
  | cons char later ih =>
      intro number all
      rw [List.forall_mem_cons] at all
      rw [List.map_cons, valueFrom, ih _ all.2, Nat.ofDigitChars_cons, toNat_toUInt8_sub all.1,
        Nat.mul_comm number 10]

theorem isDigit_of_mem_toDigits {number : Nat} :
    ∀ char ∈ Nat.toDigits 10 number, char.isDigit = true := by
  intro char mem
  exact Nat.isDigit_of_mem_toDigits (by decide) (by decide) mem

theorem text_of_nonneg {timestamp : Timestamp} (nonneg : 0 ≤ timestamp.toInt) :
    timestamp.text = digits timestamp.toInt.toNat := by
  have value : timestamp.toInt = Int.ofNat timestamp.toInt.toNat :=
    (Int.toNat_of_nonneg nonneg).symm
  unfold text digits
  generalize timestamp.toInt.toNat = number at value
  rw [value, Decimal.ofInt, Decimal.ofNat, Bytes.ofText, String.toList_ofList]
  exact flatMap_utf8EncodeChar_of_isDigit _ isDigit_of_mem_toDigits

theorem valueFrom_digits (number : Nat) :
    valueFrom 0 (digits number) = number := by
  rw [digits, valueFrom_map_toUInt8 _ _ isDigit_of_mem_toDigits, Nat.ofDigitChars_ten_toDigits]

theorem takeWhile_digits (number : Nat) :
    (digits number).takeWhile isDigit = digits number := by
  rw [List.takeWhile_eq_self_iff, digits]
  intro byte mem
  obtain ⟨char, charMem, rfl⟩ := List.mem_map.mp mem
  exact isDigit_toUInt8 (isDigit_of_mem_toDigits char charMem)

theorem digits_ne_nil (number : Nat) :
    digits number ≠ [] := by
  rw [digits, Ne, List.map_eq_nil_iff]
  exact Nat.toDigits_ne_nil

/-- The digits of a number in range are fewer than the bytes of a file that are looked at. -/
theorem take_digits {number : Nat} (inRange : (number : Int) ≤ Int64.maxValue.toInt) :
    (digits number).take Gate.markerCapacity = digits number := by
  have size : number < 10 ^ 19 := by
    have greatest := Int64.toInt_maxValue
    omega
  have short : (digits number).length ≤ 19 := by
    rw [digits, List.length_map]
    exact (Nat.length_toDigits_le_iff (by decide) (by decide)).mpr size
  refine List.take_of_length_le (Nat.le_trans short ?_)
  decide

/-- A timestamp from 1970 on reads back from the bytes of its file that are looked at. -/
theorem parse_take_text {timestamp : Timestamp} (nonneg : 0 ≤ timestamp.toInt) :
    parse (timestamp.text.take Gate.markerCapacity) = some timestamp := by
  have value : (timestamp.toInt.toNat : Int) = timestamp.toInt := Int.toNat_of_nonneg nonneg
  have inRange : (timestamp.toInt.toNat : Int) ≤ Int64.maxValue.toInt := by
    rw [value]
    exact timestamp.toInt_le
  rw [text_of_nonneg nonneg, take_digits inRange]
  unfold parse
  rw [takeWhile_digits, if_neg (digits_ne_nil _), ofDigits?_eq_some_iff, valueFrom_digits, value]

/-- A number that is held within the range is not changed if it is in range, and otherwise is the
end of the range on its side. -/
theorem toInt_ofIntClamp (value : Int) :
    (Int64.ofIntClamp value).toInt =
      max Int64.minValue.toInt (min value Int64.maxValue.toInt) := by
  have least := Int64.toInt_minValue
  have greatest := Int64.toInt_maxValue
  unfold Int64.ofIntClamp
  split
  · split
    · rw [Int64.toInt_ofIntLE]
      omega
    · omega
  · omega

/-- A window past the greatest timestamp counts as that timestamp. -/
theorem toInt_ofWindow (window : UInt64) :
    (ofWindow window).toInt = min (window.toNat : Int) Int64.maxValue.toInt := by
  have least := Int64.toInt_minValue
  have greatest := Int64.toInt_maxValue
  rw [ofWindow, toInt_ofIntClamp]
  omega

end Timestamp

namespace Gate

variable {last now : Timestamp} {window : UInt64}

/-- Recent means that the true difference is less than the window.  A difference below the range is
negative also where it is held within it, and one above the range is no less than the greatest
window either way. -/
theorem isRecent_iff :
    isRecent (some last) window now = true ↔
      now.toInt - last.toInt < min (window.toNat : Int) Int64.maxValue.toInt := by
  have least := Int64.toInt_minValue
  have greatest := Int64.toInt_maxValue
  simp only [isRecent, decide_eq_true_eq]
  rw [Int64.lt_iff_toInt_lt, Timestamp.since, Timestamp.toInt_ofIntClamp,
    Timestamp.toInt_ofWindow]
  omega

end Gate
end HookRelay
