/-!
# Decimal numbers

Numbers are written with the fewest digits, most significant first, and a minus sign in front of
negative ones.  A count or a duration is read from one or more digits with an optional plus sign;
any number of leading zeros is fine, and a value that does not fit in 64 bits is refused.

* `Decimal.ofNat`, `Decimal.ofInt`: writing.
* `Decimal.toUInt64?`: reading.
-/

namespace HookRelay
namespace Decimal

def ofNat (value : Nat) : String :=
  String.ofList (Nat.toDigits 10 value)

/-- An integer with the fewest digits and a minus sign if it is negative. -/
def ofInt : Int → String
  | .ofNat value => ofNat value
  | .negSucc value => "-" ++ ofNat (value + 1)

/-- A natural number with zeros in front up to the given number of digits. -/
def padded (width value : Nat) : String :=
  let digits := Nat.toDigits 10 value
  String.ofList (List.replicate (width - digits.length) '0' ++ digits)

def withoutPlus : List Char → List Char
  | '+' :: digits => digits
  | digits => digits

/-- The number that an optional plus sign and one or more digits stand for, if it fits. -/
def toUInt64? (text : List Char) : Option UInt64 :=
  let digits := withoutPlus text
  let value := Nat.ofDigitChars 10 digits 0
  if digits ≠ [] ∧ digits.all Char.isDigit ∧ value < UInt64.size then
    some (UInt64.ofNat value)
  else
    none

theorem withoutPlus_of_isDigit {digits : List Char} (h : digits.all Char.isDigit = true) :
    withoutPlus digits = digits := by
  unfold withoutPlus
  split
  · simp [Char.isDigit] at h
  · rfl

end Decimal
end HookRelay
