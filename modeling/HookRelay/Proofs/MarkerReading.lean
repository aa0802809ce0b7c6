import HookRelay.Proofs.ReminderSpacing
import Mathlib.Data.Nat.Digits.Defs

/-!
# The time that a marker file holds

A marker file is read from its first bytes only, and its digits are put together one by one, each
step within the range of timestamps.  Neither is seen in the time that it gives.  A number never
becomes smaller when a digit is put behind it, so that a row of digits leaves the range for good as
soon as one of its steps does; and a row that is longer than what is looked at is out of range
anyway, unless it begins with zeros.

* `Timestamp.decimal`: the number of a row of digits by the value of each place.
* `Timestamp.ofDigits?_eq_some_iff_decimal`, `Timestamp.ofDigits?_eq_none_iff`: the steps succeed
  exactly if that number is in range.
* `Timestamp.parse_take`: when the first bytes say the same as the whole file.
* `Gate.lastFired_exact`: the time in a file is the number in front of it.
* `Gate.lastFired_of_fire`: the time of a reminder is found in the file afterwards, unless it is
  negative; then none is.
-/

namespace HookRelay

/-! ## Rows of digits -/

namespace Timestamp

/-- The number that a row of digits stands for: the last digit counts once, and each digit ten times
as much as the one behind it. -/
def decimal (digits : Bytes) : Nat :=
  Nat.ofDigits 10 (digits.reverse.map fun digit => (digit - 0x30).toNat)

theorem decimal_cons (digit : UInt8) (later : Bytes) :
    decimal (digit :: later) = (digit - 0x30).toNat * 10 ^ later.length + decimal later := by
  rw [decimal, List.map_reverse, List.map_cons, Nat.ofDigits_reverse_cons, ← List.map_reverse,
    List.length_map, ← decimal, Nat.mul_comm, Nat.add_comm]

/-- Reading from the left gives each digit the value of its place. -/
theorem valueFrom_eq (digits : Bytes) :
    ∀ number : Nat, valueFrom number digits = number * 10 ^ digits.length + decimal digits := by
  induction digits with
  | nil =>
      intro number
      simp [valueFrom, decimal]
  | cons digit later ih =>
      intro number
      rw [valueFrom, ih, decimal_cons, List.length_cons, Nat.pow_succ]
      ring

/-- A row that begins with another digit than zero is at least the power of its length. -/
theorem pow_le_decimal {digit : UInt8} (notZero : digit ≠ 0x30) (later : Bytes) :
    10 ^ later.length ≤ decimal (digit :: later) := by
  have value : 1 ≤ (digit - 0x30).toNat := by
    rw [Nat.one_le_iff_ne_zero]
    intro none
    have zero : digit - 0x30 = 0 := UInt8.toNat_inj.mp none
    exact notZero ((UInt8.sub_left_inj 0x30).mp zero)
  calc
    10 ^ later.length = 1 * 10 ^ later.length := (Nat.one_mul _).symm
    _ ≤ (digit - 0x30).toNat * 10 ^ later.length := Nat.mul_le_mul_right _ value
    _ ≤ decimal (digit :: later) := by
        rw [decimal_cons]
        exact Nat.le_add_right _ _

section Digits

variable {digits : Bytes}

theorem ofDigits?_eq_some_iff_decimal {time : Timestamp} :
    ofDigits? digits = some time ↔ time.toInt = decimal digits := by
  rw [ofDigits?_eq_some_iff, valueFrom_eq, Nat.zero_mul, Nat.zero_add]

/-- No number that fits is refused, and every one that does not. -/
theorem ofDigits?_eq_none_iff : ofDigits? digits = none ↔ 2 ^ 63 - 1 < decimal digits := by
  have greatest := Int64.toInt_maxValue
  constructor
  · intro refused
    by_contra fits
    have upper : (decimal digits : Int) ≤ Int64.maxValue.toInt := by
      omega
    have read : ofDigits? digits = some (Int64.ofIntLE _ (minValue_le_natCast _) upper) := by
      rw [ofDigits?_eq_some_iff_decimal, Int64.toInt_ofIntLE]
    rw [refused] at read
    contradiction
  · intro large
    rw [Option.eq_none_iff_forall_ne_some]
    intro time read
    have value := ofDigits?_eq_some_iff_decimal.mp read
    have inRange := time.toInt_le
    omega

end Digits

/-! ## The digits in front of a file -/

section Parse

variable {raw : Bytes}

theorem parse_eq_some_iff {time : Timestamp} :
    parse raw = some time ↔
      raw.takeWhile isDigit ≠ [] ∧ time.toInt = decimal (raw.takeWhile isDigit) := by
  unfold parse
  dsimp only
  split
  · rename_i empty
    simp [empty]
  · rename_i some
    rw [ofDigits?_eq_some_iff_decimal]
    exact (and_iff_right some).symm

theorem parse_eq_none_iff :
    parse raw = none ↔
      raw.takeWhile isDigit = [] ∨ 2 ^ 63 - 1 < decimal (raw.takeWhile isDigit) := by
  unfold parse
  dsimp only
  split
  · rename_i empty
    simp [empty]
  · rename_i some
    rw [ofDigits?_eq_none_iff]
    exact (or_iff_right some).symm

/-- More than nineteen digits are out of range, unless the first is a zero. -/
theorem parse_eq_none_of_long {digit : UInt8} {later : Bytes}
    (digits : raw.takeWhile isDigit = digit :: later)
    (notZero : digit ≠ 0x30) (long : 19 ≤ later.length) :
    parse raw = none := by
  rw [parse_eq_none_iff, digits]
  refine Or.inr ?_
  calc
    2 ^ 63 - 1 < 10 ^ 19 := by norm_num
    _ ≤ 10 ^ later.length := Nat.pow_le_pow_right (by norm_num) long
    _ ≤ decimal (digit :: later) := pow_le_decimal notZero later

/-- The first bytes say the same as all of them, if they hold all digits in front or if these do not
begin with a zero. -/
theorem parse_take
    (seen : (raw.takeWhile isDigit).length ≤ Gate.markerCapacity ∨
      (raw.takeWhile isDigit).head? ≠ some 0x30) :
    parse (raw.take Gate.markerCapacity) = parse raw := by
  have cut :
      (raw.take Gate.markerCapacity).takeWhile isDigit =
        (raw.takeWhile isDigit).take Gate.markerCapacity :=
    List.take_takeWhile.symm
  by_cases whole : (raw.takeWhile isDigit).length ≤ Gate.markerCapacity
  · rw [List.take_of_length_le whole] at cut
    simp only [parse, cut]
  · have notZero := seen.resolve_left whole
    rw [Gate.markerCapacity] at whole cut
    cases digits : raw.takeWhile isDigit with
    | nil =>
        rw [digits] at whole
        exact absurd (Nat.zero_le _) whole
    | cons digit later =>
        rw [digits, List.length_cons] at whole
        rw [digits, List.head?_cons, Ne, Option.some.injEq] at notZero
        rw [digits, List.take_succ_cons] at cut
        have front : 19 ≤ (later.take 30).length := by
          rw [List.length_take]
          omega
        rw [Gate.markerCapacity, parse_eq_none_of_long digits notZero (by omega),
          parse_eq_none_of_long cut notZero front]

/-! ## A negative time -/

/-- The sign of a negative time stands in front of its digits. -/
theorem text_of_neg {time : Timestamp} (negative : time.toInt < 0) :
    ∃ digits, time.text = 0x2d :: digits := by
  unfold text
  cases value : time.toInt with
  | ofNat number =>
      rw [value] at negative
      exact absurd negative (Int.not_lt.mpr (Int.natCast_nonneg number))
  | negSucc number =>
      refine ⟨Bytes.ofText (Decimal.ofNat (number + 1)), ?_⟩
      rw [Decimal.ofInt, Bytes.ofText, String.toList_append, List.flatMap_append]
      rfl

/-- The sign is no digit. -/
theorem parse_take_text_of_neg {time : Timestamp} (negative : time.toInt < 0) :
    parse (time.text.take Gate.markerCapacity) = none := by
  obtain ⟨digits, signed⟩ := text_of_neg negative
  have sign : isDigit 0x2d = false := rfl
  rw [signed, parse_eq_none_iff, Gate.markerCapacity, List.take_succ_cons]
  exact Or.inl (List.takeWhile_cons_of_neg (by simp [sign]))

end Parse

end Timestamp

/-! ## The marker file -/

namespace Gate

section Reading

variable {marker content : Bytes} {world : World}

/-- The time in a marker file is the number in front of the whole file, if that is in range and the
file begins with no more digits than are looked at, or with another digit than zero. -/
theorem lastFired_exact
    (found : world.tree.lookup world.working marker = .ok (.file content))
    (seen : (content.takeWhile Timestamp.isDigit).length ≤ 31 ∨
      (content.takeWhile Timestamp.isDigit).head? ≠ some 0x30) :
    let digits := content.takeWhile Timestamp.isDigit
    (∀ time, lastFired marker world = some time ↔
      digits ≠ [] ∧ time.toInt = Timestamp.decimal digits) ∧
    (lastFired marker world = none ↔
      digits = [] ∨ 2 ^ 63 - 1 < Timestamp.decimal digits) ∧
    ∀ row : Bytes,
      (∀ time, Timestamp.ofDigits? row = some time ↔ time.toInt = Timestamp.decimal row) ∧
      (Timestamp.ofDigits? row = none ↔ 2 ^ 63 - 1 < Timestamp.decimal row) := by
  intro digits
  have whole : lastFired marker world = Timestamp.parse content := by
    rw [lastFired_of_file found, Timestamp.parse_take seen]
  refine ⟨?_, ?_, ?_⟩
  · intro time
    rw [whole]
    exact Timestamp.parse_eq_some_iff
  · rw [whole]
    exact Timestamp.parse_eq_none_iff
  · intro row
    exact ⟨fun _ => Timestamp.ofDigits?_eq_some_iff_decimal, Timestamp.ofDigits?_eq_none_iff⟩

/-- The greatest time, with zeros in front and other bytes behind, and a number of forty digits. -/
theorem lastFired_exact_greatest :
    let marker := Bytes.ofText "m"
    lastFired marker (keeping (Bytes.ofText "0009223372036854775807.5\n")) =
        some Int64.maxValue ∧
      lastFired marker (keeping (List.replicate 40 0x39)) = none := by
  intro marker
  constructor
  · have seen : ((Bytes.ofText "0009223372036854775807.5\n").takeWhile
        Timestamp.isDigit).length ≤ 31 := by
      decide
    exact ((lastFired_exact (rfl) (Or.inl seen)).1 _).mpr ⟨by decide, by decide⟩
  · have seen : ((List.replicate 40 0x39).takeWhile Timestamp.isDigit).head? ≠ some 0x30 := by
      decide
    exact (lastFired_exact (rfl) (Or.inr seen)).2.1.mpr (Or.inr (by decide))

end Reading

section Writing

variable {marker old : Bytes} {location : Location} {window : UInt64} {now : Timestamp}
  {world after : World}

theorem check_of_never_fired (never : lastFired marker world = none) :
    (check marker window now world).1 = .fire := by
  rw [fst_check, never]
  rfl

/-- The time of a reminder is found in the marker file afterwards, whatever the file held before.
Of a negative time nothing is read, so that the next call prints the reminder again. -/
theorem lastFired_of_fire
    (opened : world.tree.openFile world.working marker = .ok (location, old))
    (whole : (writing world.disk now).1 = .ok ())
    (fired : check marker window now world = (.fire, after)) :
    after.tree.lookup after.working marker = .ok (.file now.text) ∧
    (0 ≤ now.toInt → lastFired marker after = some now) ∧
    (now.toInt < 0 →
      lastFired marker after = none ∧
      ∀ (next : UInt64) (later : Timestamp), (check marker next later after).1 = .fire) := by
  have holds : Holds marker now after := by
    rw [check_fire fired]
    exact holds_mark_of_whole opened whole
  refine ⟨holds, ?_, ?_⟩
  · intro nonneg
    exact lastFired_of_holds nonneg holds
  · intro negative
    have never : lastFired marker after = none := by
      rw [lastFired_of_file holds]
      exact Timestamp.parse_take_text_of_neg negative
    exact ⟨never, fun _ _ => check_of_never_fired never⟩

/-- A marker file of thirty bytes is given the time seven, and the time minus seven. -/
theorem lastFired_of_fire_signed :
    let marker := Bytes.ofText "m"
    let world := keeping (Bytes.ofText "99999999999999999999999, stale")
    let after (now : Timestamp) := (check marker 120 now world).2
    lastFired marker (after 7) = some 7 ∧
      lastFired marker (after (-7)) = none ∧
      (check marker 0xffffffffffffffff 8 (after (-7))).1 = .fire := by
  intro marker world after
  have opened :
      world.tree.openFile world.working marker =
        .ok ([marker], Bytes.ofText "99999999999999999999999, stale") :=
    rfl
  have fired (now : Timestamp) : check marker 120 now world = (.fire, after now) := by
    refine Prod.ext (check_of_never_fired ?_) rfl
    decide
  have whole (now : Timestamp) : (writing world.disk now).1 = .ok () :=
    Sink.writeEach_of_script_eq_nil now.pieces rfl
  obtain ⟨-, read, -⟩ := lastFired_of_fire opened (whole 7) (fired 7)
  obtain ⟨-, -, unread⟩ := lastFired_of_fire opened (whole (-7)) (fired (-7))
  have negative : (-7 : Timestamp).toInt < 0 := by
    decide
  exact ⟨read (by decide), (unread negative).1, (unread negative).2 _ _⟩

end Writing

end Gate
end HookRelay
