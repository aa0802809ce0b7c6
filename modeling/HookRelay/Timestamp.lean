import HookRelay.Bytes
import HookRelay.Text.Decimal

/-!
# Timestamps

A timestamp is a signed 64-bit number of seconds since the beginning of 1970.  Differences and
windows are held within that range instead of wrapping around.

A timestamp is kept in a file as decimal text.  Reading takes the digits in front, whatever
follows them, and refuses a number out of range; a minus sign is no digit.

* `Timestamp.since`: the seconds from one timestamp to another.
* `Timestamp.ofWindow`: a window length.
* `Timestamp.text`, `Timestamp.parse`: writing and reading.  `flatten_pieces` says that the pieces
  that are written are those of the text.
-/

namespace HookRelay

/-- Seconds since the beginning of 1970. -/
abbrev Timestamp := Int64

namespace Timestamp

/-- The timestamp with the given number of seconds, if it is in range. -/
def ofInt? (seconds : Int) : Option Timestamp :=
  if range : Int64.minValue.toInt ≤ seconds ∧ seconds ≤ Int64.maxValue.toInt then
    some (Int64.ofIntLE seconds range.1 range.2)
  else
    none

/-- The seconds from an earlier timestamp to a later one, held within the range. -/
def since (later earlier : Timestamp) : Int64 :=
  Int64.ofIntClamp (later.toInt - earlier.toInt)

def ofWindow (window : UInt64) : Int64 :=
  Int64.ofIntClamp window.toNat

def text (timestamp : Timestamp) : Bytes :=
  Bytes.ofText (Decimal.ofInt timestamp.toInt)

/-- The pieces in which the text is written: the sign by itself, if there is one, and the digits. -/
def pieces (timestamp : Timestamp) : List Bytes :=
  (if timestamp.toInt < 0 then [Bytes.ofText "-"] else []) ++
    [Bytes.ofText (Decimal.ofNat timestamp.toInt.natAbs)]

def isDigit (byte : UInt8) : Bool :=
  0x30 ≤ byte && byte ≤ 0x39

/-- The timestamp with one more digit at its end, if both steps stay in range. -/
def appendDigit (timestamp : Timestamp) (digit : UInt8) : Option Timestamp :=
  (ofInt? (timestamp.toInt * 10)).bind fun tenfold =>
    ofInt? (tenfold.toInt + (digit - 0x30).toNat)

/-- The timestamp that a row of digits stands for, if it stays in range. -/
def ofDigits? (digits : Bytes) : Option Timestamp :=
  digits.foldlM appendDigit 0

/-- The timestamp that the digits in front stand for. -/
def parse (raw : Bytes) : Option Timestamp :=
  let digits := raw.takeWhile isDigit
  if digits = [] then
    none
  else
    ofDigits? digits

theorem flatten_pieces (timestamp : Timestamp) : timestamp.pieces.flatten = timestamp.text := by
  unfold pieces text
  cases timestamp.toInt with
  | ofNat seconds =>
      have nonneg : ¬ Int.ofNat seconds < 0 := Int.not_lt.mpr (Int.natCast_nonneg seconds)
      rw [if_neg nonneg, List.nil_append, List.flatten_singleton]
      rfl
  | negSucc seconds =>
      have negative : Int.negSucc seconds < 0 := Int.negSucc_lt_zero seconds
      simp [Decimal.ofInt, Bytes.ofText, negative]

/-- A number of seconds is a timestamp exactly if it is in range. -/
theorem ofInt?_eq_some_iff {seconds : Int} {timestamp : Timestamp} :
    ofInt? seconds = some timestamp ↔ timestamp.toInt = seconds := by
  unfold ofInt?
  split
  · rename_i range
    rw [Option.some.injEq, ← Int64.toInt_inj, Int64.toInt_ofIntLE]
    exact eq_comm
  · rename_i range
    constructor
    · intro h
      contradiction
    · rintro rfl
      exact absurd ⟨timestamp.minValue_le_toInt, timestamp.toInt_le⟩ range

end Timestamp

end HookRelay
