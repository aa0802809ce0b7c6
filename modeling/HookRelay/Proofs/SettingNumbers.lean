import HookRelay.Proofs.Relaying
import Mathlib.Data.Nat.Digits.Defs

/-!
# The numbers among the settings

The time limit and the window are positive numbers that come from two variables of the environment.
Whatever bytes a variable holds, either they are a numeral by one grammar, and then the setting is
the number that it stands for, or the setting is its default.

White space is taken off before the sign and the digits are looked at, and zero is refused at the
very end.  Neither order is seen in what is accepted, since no sign and no digit is white space and
only zeros stand for zero.

* `Decimal.Numeral`: the grammar.  `Decimal.toUInt64?_eq_some_iff` and `WhiteSpace.trim_between` are
  the steps by which a numeral is read.
* `Config.Holds`: the number that a variable holds.  `Config.positive?_eq_some_iff` says that
  exactly this number is read.
* `Config.numbers_exact`: both settings, and the time limit that comes of the first.
-/

namespace HookRelay

/-! ## White space around a text -/

namespace WhiteSpace

/-- Nothing but white space. -/
def Blank (text : List Char) : Prop :=
  ∀ char ∈ text, isWhiteSpace char = true

instance (text : List Char) : Decidable (Blank text) :=
  decidable_of_iff (text.all isWhiteSpace = true) List.all_eq_true

theorem exists_trim (text : List Char) :
    ∃ before after, text = before ++ trim text ++ after ∧ Blank before ∧ Blank after := by
  let rest := text.dropWhile isWhiteSpace
  have front : text = text.takeWhile isWhiteSpace ++ rest :=
    List.takeWhile_append_dropWhile.symm
  have back : rest = trimEnd rest ++ (rest.reverse.takeWhile isWhiteSpace).reverse := by
    rw [trimEnd, ← List.reverse_append, List.takeWhile_append_dropWhile, List.reverse_reverse]
  refine ⟨text.takeWhile isWhiteSpace, (rest.reverse.takeWhile isWhiteSpace).reverse, ?_, ?_, ?_⟩
  · rw [List.append_assoc, trim, ← back]
    exact front
  · exact List.all_eq_true.mp List.all_takeWhile
  · intro char mem
    exact List.all_eq_true.mp List.all_takeWhile char (List.mem_reverse.mp mem)

/-- White space at both ends is taken off, up to a text that neither begins nor ends with any. -/
theorem trim_between
    {before core after : List Char}
    (front : Blank before) (back : Blank after)
    (some : core ≠ [])
    (first : ∀ char ∈ core.head?, isWhiteSpace char = false)
    (last : ∀ char ∈ core.getLast?, isWhiteSpace char = false) :
    trim (before ++ core ++ after) = core := by
  have begun : (before ++ core ++ after).dropWhile isWhiteSpace = core ++ after := by
    obtain ⟨char, others, rfl⟩ := List.exists_cons_of_ne_nil some
    have dark : isWhiteSpace char = false := first char rfl
    rw [List.append_assoc, List.dropWhile_append_of_pos front]
    simp [dark]
  have ended : trimEnd (core ++ after) = trimEnd core := by
    have mirrored : ∀ char ∈ after.reverse, isWhiteSpace char = true :=
      fun char mem => back char (List.mem_reverse.mp mem)
    rw [trimEnd, List.reverse_append, List.dropWhile_append_of_pos mirrored, trimEnd]
  have dropped : core.dropWhile isWhiteSpace = core := by
    obtain ⟨char, others, rfl⟩ := List.exists_cons_of_ne_nil some
    have dark : isWhiteSpace char = false := first char rfl
    simp [dark]
  calc
    trim (before ++ core ++ after) = trimEnd core := by rw [trim, begun, ended]
    _ = trim core := by rw [trim, dropped]
    _ = core := trim_of_ends first last

theorem isWhiteSpace_of_isDigit {char : Char} (digit : char.isDigit = true) :
    isWhiteSpace char = false := by
  have range : 48 ≤ char.toNat ∧ char.toNat ≤ 57 := by
    simpa [Char.isDigit, UInt32.le_iff_toNat_le] using digit
  have outside : ∀ point ∈ points, point < 48 ∨ 57 < point := by
    decide
  rw [isWhiteSpace, List.contains_eq_mem, decide_eq_false_iff_not]
  intro mem
  have apart := outside char.toNat mem
  omega

end WhiteSpace

/-! ## The grammar of a number -/

namespace Decimal

/-- The number that a row of digits stands for: the last digit counts once, and each digit ten times
as much as the one behind it. -/
def value (digits : List Char) : Nat :=
  Nat.ofDigits 10 (digits.reverse.map fun digit => digit.toNat - '0'.toNat)

/-- How a number is written: one or more digits, with or without a plus sign in front of them. -/
inductive Signed : List Char → Nat → Prop where
  | mk (sign digits : List Char)
      (plus : sign = [] ∨ sign = ['+'])
      (some : digits ≠ [])
      (all : ∀ digit ∈ digits, digit.isDigit = true) :
      Signed (sign ++ digits) (value digits)

/-- The same with white space around it. -/
inductive Numeral : List Char → Nat → Prop where
  | mk {core : List Char} {number : Nat} (before after : List Char)
      (front : WhiteSpace.Blank before)
      (signed : Signed core number)
      (back : WhiteSpace.Blank after) :
      Numeral (before ++ core ++ after) number

/-- Reading from the left gives each digit the value of its place. -/
theorem ofDigitChars_eq_value (digits : List Char) :
    Nat.ofDigitChars 10 digits 0 = value digits := by
  have mirrored (row : List Char) :
      Nat.ofDigitChars 10 row.reverse 0 =
        Nat.ofDigits 10 (row.map fun digit => digit.toNat - '0'.toNat) := by
    induction row with
    | nil =>
        rfl
    | cons digit row ih =>
        rw [List.reverse_cons, Nat.ofDigitChars_append, ih, List.map_cons, Nat.ofDigits_cons,
          Nat.ofDigitChars_cons, Nat.ofDigitChars_nil, Nat.add_comm]
  rw [value, ← mirrored, List.reverse_reverse]

theorem withoutPlus_of_signed {sign digits : List Char}
    (plus : sign = [] ∨ sign = ['+']) (all : ∀ digit ∈ digits, digit.isDigit = true) :
    withoutPlus (sign ++ digits) = digits := by
  rcases plus with rfl | rfl
  · exact withoutPlus_of_isDigit (List.all_eq_true.mpr all)
  · rfl

theorem exists_append_withoutPlus (text : List Char) :
    ∃ sign, (sign = [] ∨ sign = ['+']) ∧ text = sign ++ withoutPlus text := by
  unfold withoutPlus
  split
  · exact ⟨['+'], Or.inr rfl, rfl⟩
  · exact ⟨[], Or.inl rfl, rfl⟩

/-- Exactly the numbers that are written by the grammar and fit are read. -/
theorem toUInt64?_eq_some_iff {text : List Char} {number : UInt64} :
    toUInt64? text = some number ↔ Signed text number.toNat := by
  constructor
  · intro read
    unfold toUInt64? at read
    dsimp only at read
    split at read
    · rename_i accepted
      obtain ⟨some, all, fits⟩ := accepted
      obtain ⟨sign, plus, parts⟩ := exists_append_withoutPlus text
      have same : number.toNat = value (withoutPlus text) := by
        rw [← Option.some.inj read, UInt64.toNat_ofNat_of_lt' fits, ofDigitChars_eq_value]
      rw [same]
      nth_rewrite 1 [parts]
      exact .mk sign _ plus some (List.all_eq_true.mp all)
    · contradiction
  · intro signed
    generalize amount : number.toNat = total at signed
    obtain ⟨sign, digits, plus, some, all⟩ := signed
    have fits : value digits < UInt64.size := by
      rw [← amount]
      exact number.toNat_lt
    simp only [toUInt64?, withoutPlus_of_signed plus all, ofDigitChars_eq_value]
    rw [if_pos ⟨some, List.all_eq_true.mpr all, fits⟩, ← amount, UInt64.ofNat_toNat]

/-- What is written by the grammar neither begins nor ends with white space. -/
theorem Signed.trim_between {core before after : List Char} {number : Nat}
    (signed : Signed core number)
    (front : WhiteSpace.Blank before) (back : WhiteSpace.Blank after) :
    WhiteSpace.trim (before ++ core ++ after) = core := by
  obtain ⟨sign, digits, plus, some, all⟩ := signed
  refine WhiteSpace.trim_between front back (List.append_ne_nil_of_right_ne_nil _ some) ?_ ?_
  · intro char mem
    rcases plus with rfl | rfl
    · exact WhiteSpace.isWhiteSpace_of_isDigit (all char (List.mem_of_mem_head? mem))
    · obtain rfl : '+' = char := by
        simpa using mem
      decide
  · intro char mem
    rw [List.getLast?_append, List.getLast?_eq_some_getLast some, Option.some_or,
      ← List.getLast?_eq_some_getLast some] at mem
    exact WhiteSpace.isWhiteSpace_of_isDigit (all char (List.mem_of_getLast? mem))

theorem numeral_iff_trim {text : List Char} {number : Nat} :
    Numeral text number ↔ Signed (WhiteSpace.trim text) number := by
  constructor
  · rintro ⟨before, after, front, signed, back⟩
    rwa [signed.trim_between front back]
  · intro signed
    obtain ⟨before, after, parts, front, back⟩ := WhiteSpace.exists_trim text
    rw [parts]
    exact .mk before after front signed back

/-- The digits of a number, with zeros in front, stand for it. -/
theorem signed_zeros_toDigits (zeros number : Nat) :
    Signed (List.replicate zeros '0' ++ Nat.toDigits 10 number) number := by
  let digits := List.replicate zeros '0' ++ Nat.toDigits 10 number
  have total : value digits = number := by
    rw [← ofDigitChars_eq_value, Nat.ofDigitChars_append, Nat.ofDigitChars_replicate_zero,
      Nat.mul_zero, Nat.ofDigitChars_toDigits (by decide) (by decide)]
  have some : digits ≠ [] :=
    List.append_ne_nil_of_right_ne_nil _ Nat.toDigits_ne_nil
  have all : ∀ digit ∈ digits, digit.isDigit = true := by
    intro digit mem
    rcases List.mem_append.mp mem with zero | other
    · rw [List.eq_of_mem_replicate zero]
      decide
    · exact Nat.isDigit_of_mem_toDigits (by decide) (by decide) other
  have signed := Signed.mk [] digits (Or.inl rfl) some all
  rwa [total] at signed

end Decimal

/-! ## The settings -/

namespace Config

/-- A variable of the environment holds a numeral, as text, for a number from one up to the greatest
of 64 bits. -/
def Holds (setting : Option Bytes) (number : Nat) : Prop :=
  ∃ text, setting = some (Utf8.encode text) ∧ Decimal.Numeral text number ∧
    1 ≤ number ∧ number ≤ 2 ^ 64 - 1

/-- What a variable gives is the number that it holds, or a default if it holds none. -/
def Gives (setting : Option Bytes) (fallback number : Nat) : Prop :=
  Holds setting number ∨ (∀ other, ¬ Holds setting other) ∧ number = fallback

section Setting

variable {setting : Option Bytes}

theorem positive?_eq_some_iff {number : UInt64} :
    positive? setting = some number ↔ Holds setting number.toNat := by
  have range := number.toNat_lt
  have positive : decide (0 < number) = true ↔ 1 ≤ number.toNat := by
    simp [UInt64.lt_iff_toNat_lt, Nat.one_le_iff_ne_zero, Nat.pos_iff_ne_zero]
  simp only [positive?, Option.filter_eq_some_iff, Option.bind_eq_some_iff,
    Utf8.decode?_eq_some_iff, Decimal.toUInt64?_eq_some_iff, ← Decimal.numeral_iff_trim, positive]
  constructor
  · rintro ⟨⟨bytes, rfl, text, rfl, numeral⟩, atLeast⟩
    exact ⟨text, rfl, numeral, atLeast, by omega⟩
  · rintro ⟨text, rfl, numeral, atLeast, -⟩
    exact ⟨⟨_, rfl, text, rfl, numeral⟩, atLeast⟩

theorem exists_positive?_of_holds {number : Nat} (holds : Holds setting number) :
    ∃ read : UInt64, positive? setting = some read ∧ read.toNat = number := by
  obtain ⟨_, -, -, -, fits⟩ := id holds
  have back : (UInt64.ofNat number).toNat = number := by
    refine UInt64.toNat_ofNat_of_lt' ?_
    rw [UInt64.size]
    omega
  refine ⟨UInt64.ofNat number, positive?_eq_some_iff.mpr ?_, back⟩
  rwa [back]

theorem getD_positive?_eq_iff {fallback : UInt64} {number : Nat} :
    ((positive? setting).getD fallback).toNat = number ↔ Gives setting fallback.toNat number := by
  cases read : positive? setting with
  | some value =>
      have holds := positive?_eq_some_iff.mp read
      constructor
      · rintro rfl
        exact Or.inl holds
      · rintro (other | ⟨none, -⟩)
        · obtain ⟨again, same, rfl⟩ := exists_positive?_of_holds other
          rw [read] at same
          rw [Option.getD_some, Option.some.inj same]
        · exact absurd holds (none _)
  | none =>
      have silent (other : Nat) : ¬ Holds setting other := by
        intro holds
        obtain ⟨value, same, -⟩ := exists_positive?_of_holds holds
        rw [read] at same
        contradiction
      constructor
      · rintro rfl
        exact Or.inr ⟨silent, rfl⟩
      · rintro (holds | ⟨-, rfl⟩)
        · exact absurd holds (silent _)
        · rfl

/-- A number is held as its digits, with zeros in front and white space around them. -/
theorem holds_written {number : Nat} (atLeast : 1 ≤ number) (atMost : number ≤ 2 ^ 64 - 1)
    {before after : List Char} (front : WhiteSpace.Blank before) (back : WhiteSpace.Blank after)
    (zeros : Nat) :
    Holds (some (Utf8.encode
      (before ++ (List.replicate zeros '0' ++ Nat.toDigits 10 number) ++ after))) number :=
  ⟨_, rfl, .mk before after front (Decimal.signed_zeros_toDigits zeros number) back, atLeast,
    atMost⟩

theorem Gives.pos {fallback number : Nat} (gives : Gives setting fallback number)
    (positive : 0 < fallback) : 0 < number := by
  rcases gives with ⟨_, -, -, atLeast, -⟩ | ⟨-, rfl⟩
  · exact atLeast
  · exact positive

end Setting

/-- The time limit and the window are what their variables hold, by the grammar of numerals, or
their defaults; and the time limit of every connection lies between a millisecond and an hour. -/
theorem numbers_exact (environment : Environment) :
    let config := ofEnvironment environment
    (∀ number, config.timeout.toNat = number ↔ Gives environment.timeout 50 number) ∧
    (∀ number, config.window.toNat = number ↔ Gives environment.window 120 number) ∧
    0 < config.timeout.toNat ∧
    0 < config.window.toNat ∧
    (∀ (number zeros : Nat) (before after : List Char),
      1 ≤ number → number ≤ 2 ^ 64 - 1 →
      WhiteSpace.Blank before → WhiteSpace.Blank after →
      let written :=
        Utf8.encode (before ++ (List.replicate zeros '0' ++ Nat.toDigits 10 number) ++ after)
      (environment.timeout = some written → config.timeout.toNat = number) ∧
      (environment.window = some written → config.window.toNat = number)) ∧
    ∀ world connection, Relay.connect config world = .ok connection →
      connection.timeout = min config.timeout.toNat 3600000 ∧
      1 ≤ connection.timeout ∧
      connection.timeout ≤ 3600000 ∧
      connection.timeout * 1000 ≤ 2 ^ 63 - 1 := by
  intro config
  have timeout (number : Nat) :
      config.timeout.toNat = number ↔ Gives environment.timeout 50 number :=
    getD_positive?_eq_iff
  have window (number : Nat) :
      config.window.toNat = number ↔ Gives environment.window 120 number :=
    getD_positive?_eq_iff
  have positive : 0 < config.timeout.toNat :=
    ((timeout _).mp rfl).pos (by decide)
  refine ⟨timeout, window, positive, ((window _).mp rfl).pos (by decide), ?_, ?_⟩
  · intro number zeros before after atLeast atMost front back written
    have holds := holds_written atLeast atMost front back zeros
    refine ⟨fun set => (timeout number).mpr (Or.inl ?_),
      fun set => (window number).mpr (Or.inl ?_)⟩
    · rwa [set]
    · rwa [set]
  · intro world connection connected
    obtain ⟨listener, rfl⟩ := Relay.exists_listener_of_connect connected
    have limit : config.socketTimeout = min config.timeout.toNat 3600000 := rfl
    dsimp only
    refine ⟨limit, ?_, ?_, ?_⟩ <;> omega

/-- The greatest number with zeros in front and white space of several bytes around it gives a time
limit of one hour; a window that is not set is the default. -/
theorem numbers_exact_greatest :
    let number := 2 ^ 64 - 1
    let before := ['\u2003', '\t']
    let after := ['\u3000']
    let written :=
      Utf8.encode (before ++ (List.replicate 3 '0' ++ Nat.toDigits 10 number) ++ after)
    let environment : Environment := ⟨some (Bytes.ofText "/h"), some written, none, none, none⟩
    let config := ofEnvironment environment
    config.timeout.toNat = number ∧
      config.window.toNat = 120 ∧
      ∃ connection,
        Relay.connect config (Relay.served ⟨[], []⟩) = .ok connection ∧
          connection.timeout = 3600000 := by
  intro number before after written environment config
  obtain ⟨-, window, -, -, back, limits⟩ := numbers_exact environment
  have greatest : config.timeout.toNat = number :=
    (back number 3 before after (by decide) (by decide) (by decide) (by decide)).1 rfl
  have unset : Gives environment.window 120 120 := by
    refine Or.inr ⟨?_, rfl⟩
    rintro other ⟨text, absent, -⟩
    contradiction
  have connected :
      Relay.connect config (Relay.served ⟨[], []⟩) =
        .ok ⟨Source.ofScript [], Sink.ofScript [] none, config.socketTimeout⟩ :=
    rfl
  obtain ⟨limit, -⟩ := limits _ _ connected
  refine ⟨greatest, (window 120).mpr unset, _, connected, ?_⟩
  rw [limit]
  change min config.timeout.toNat 3600000 = 3600000
  rw [greatest]
  rfl

end Config
end HookRelay
