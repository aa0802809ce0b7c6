import HookRelay.Proofs.JsonObject
import HookRelay.Text.JsonString
import HookRelay.Text.Utf8
import Mathlib.Data.List.Basic

/-!
# What is read from a JSON object

The grammar says how the members of an object are written; this module says what they stand for.  A
string stands for the characters between its quotation marks, each of them itself or an escape.  An
escape of four digits is a code unit; a character that needs two of them is a pair of surrogates,
and one surrogate alone stands for nothing.

* `Json.unescape?`, `Json.text?`: the characters of the inside of a string, and the text of it.
* `Json.content?`: the text or the whole number that a value stands for.
* `Json.Reads`: the names of the members of an object and their contents.  `Reads.unique` says that
  an object is read in one way only.

`text?_quote` says that the written form of a text reads as that text, for all characters, and
`isString_quote` that it is a string by the grammar.
-/

namespace HookRelay
namespace Json

/-! ## Strings -/

def hexValue? (digit : Char) : Option Nat :=
  if '0' ≤ digit ∧ digit ≤ '9' then
    some (digit.toNat - '0'.toNat)
  else if 'a' ≤ digit ∧ digit ≤ 'f' then
    some (digit.toNat - 'a'.toNat + 10)
  else if 'A' ≤ digit ∧ digit ≤ 'F' then
    some (digit.toNat - 'A'.toNat + 10)
  else
    none

/-- The number that hexadecimal digits stand for. -/
def codeUnit? (digits : List Char) : Option Nat :=
  digits.foldlM (fun unit digit => (hexValue? digit).map fun value => unit * 16 + value) 0

/-- The character with a number, which a surrogate is not. -/
def char? (number : Nat) : Option Char :=
  if number.isValidChar then some (Char.ofNat number) else none

/-- The character that two surrogates stand for. -/
def charOfPair? (high low : Nat) : Option Char :=
  if 0xd800 ≤ high ∧ high < 0xdc00 ∧ 0xdc00 ≤ low ∧ low < 0xe000 then
    char? (0x10000 + (high - 0xd800) * 0x400 + (low - 0xdc00))
  else
    none

/-- The character for which a letter behind a backslash stands. -/
def shortMeaning? : Char → Option Char
  | '"' => some '"'
  | '\\' => some '\\'
  | '/' => some '/'
  | 'b' => some '\x08'
  | 'f' => some '\x0c'
  | 'n' => some '\n'
  | 'r' => some '\r'
  | 't' => some '\t'
  | _ => none

/-- The characters for which the inside of a string stands. -/
def unescape? : List Char → Option (List Char)
  | [] => some []
  | '\\' :: 'u' :: a :: b :: c :: d :: later =>
      match codeUnit? [a, b, c, d] with
      | none => none
      | some unit =>
          match char? unit with
          | some char => (unescape? later).map (char :: ·)
          | none =>
              match later with
              | '\\' :: 'u' :: e :: f :: g :: h :: others =>
                  match (codeUnit? [e, f, g, h]).bind (charOfPair? unit) with
                  | some char => (unescape? others).map (char :: ·)
                  | none => none
              | _ => none
  | '\\' :: letter :: later =>
      match shortMeaning? letter with
      | some char => (unescape? later).map (char :: ·)
      | none => none
  | char :: later =>
      if isPlain char then (unescape? later).map (char :: ·) else none

/-- The characters between quotation marks. -/
def unquote? : List Char → Option (List Char)
  | '"' :: inner =>
      if inner.getLast? = some '"' then unescape? inner.dropLast else none
  | _ => none

/-- The text that a string stands for. -/
def text? (raw : Bytes) : Option String :=
  (Utf8.decode? raw).bind fun chars => (unquote? chars).map String.ofList

section Quote

variable {char : Char}

theorem isPlain_of_shortForm?_eq_none
    (long : JsonString.shortForm? char = none) (printable : 0x20 ≤ char.toNat) :
    isPlain char = true := by
  have notQuote : char ≠ '"' := by
    rintro rfl
    cases long
  have notBackslash : char ≠ '\\' := by
    rintro rfl
    cases long
  simp [isPlain, notQuote, notBackslash, printable]

theorem codeUnit?_of_control (control : char.toNat < 0x20) :
    codeUnit?
        ['0', '0', JsonString.hexDigit (char.toNat / 16), JsonString.hexDigit char.toNat] =
      some char.toNat := by
  have all : ∀ number : Fin 0x20,
      codeUnit? ['0', '0', JsonString.hexDigit (number / 16), JsonString.hexDigit number] =
        some number.val := by
    decide
  exact all ⟨char.toNat, control⟩

theorem char?_toNat (char : Char) : char? char.toNat = some char := by
  have valid : char.toNat.isValidChar := char.valid
  rw [char?, if_pos valid, Char.ofNat_toNat]

/-- The written form of a character reads as that character, whatever follows it. -/
theorem unescape?_escape (char : Char) (later : List Char) :
    unescape? (JsonString.escape char ++ later) = (unescape? later).map (char :: ·) := by
  unfold JsonString.escape
  split
  · rename_i short found
    unfold JsonString.shortForm? at found
    split at found <;> cases found <;> simp [unescape?, shortMeaning?]
  · rename_i long
    split
    · rename_i control
      simp [unescape?, codeUnit?_of_control control, char?_toNat]
    · rename_i printable
      have plain := isPlain_of_shortForm?_eq_none long (Nat.le_of_not_lt printable)
      have notBackslash : char ≠ '\\' := by
        rintro rfl
        cases long
      simp [unescape?, notBackslash, plain]

theorem unescape?_flatMap_escape (chars : List Char) :
    unescape? (chars.flatMap JsonString.escape) = some chars := by
  induction chars with
  | nil =>
      rfl
  | cons char later ih =>
      rw [List.flatMap_cons, unescape?_escape, ih]
      rfl

theorem unquote?_quote (text : String) : unquote? (JsonString.quote text) = some text.toList := by
  rw [JsonString.quote, List.cons_append, unquote?, if_pos List.getLast?_concat,
    List.dropLast_concat, unescape?_flatMap_escape]

/-- The written form of a text reads as that text. -/
theorem text?_quote (text : String) :
    text? (Utf8.encode (JsonString.quote text)) = some text := by
  rw [text?, Utf8.decode?_eq_some_iff.mpr rfl, Option.bind_some, unquote?_quote, Option.map_some,
    String.ofList_toList]

/-! ### The written form by the grammar -/

theorem encode_append (front back : List Char) :
    Utf8.encode (front ++ back) = Utf8.encode front ++ Utf8.encode back :=
  List.flatMap_append

theorem exists_encode_hexDigit (value : Nat) :
    ∃ digit, Utf8.encode [JsonString.hexDigit value] = [digit] ∧ isHexDigit digit = true := by
  have all : ∀ value : Fin 16,
      ∃ digit, Utf8.encode [Nat.digitChar value] = [digit] ∧ isHexDigit digit = true := by
    intro value
    refine ⟨(Utf8.encode [Nat.digitChar value]).headD 0, ?_⟩
    revert value
    decide
  exact all ⟨value % 16, Nat.mod_lt value (by decide)⟩

theorem piece_encode_escape (char : Char) : Piece (Utf8.encode (JsonString.escape char)) := by
  unfold JsonString.escape
  split
  · rename_i short found
    unfold JsonString.shortForm? at found
    split at found <;> cases found <;> exact .short _ (by decide)
  · rename_i long
    split
    · obtain ⟨high, encodedHigh, hexHigh⟩ := exists_encode_hexDigit (char.toNat / 16)
      obtain ⟨low, encodedLow, hexLow⟩ := exists_encode_hexDigit char.toNat
      have four : Piece (backslash :: 0x75 :: [0x30, 0x30, high, low]) := by
        refine .code _ rfl ?_
        simpa [hexHigh, hexLow] using (by decide : isHexDigit 0x30 = true)
      have written :
          Utf8.encode
              ['\\', 'u', '0', '0', JsonString.hexDigit (char.toNat / 16),
                JsonString.hexDigit char.toNat] =
            backslash :: 0x75 :: [0x30, 0x30, high, low] := by
        rw [show ['\\', 'u', '0', '0', JsonString.hexDigit (char.toNat / 16),
            JsonString.hexDigit char.toNat] =
              ['\\', 'u', '0', '0'] ++ ([JsonString.hexDigit (char.toNat / 16)] ++
                [JsonString.hexDigit char.toNat]) from rfl,
          encode_append, encode_append, encodedHigh, encodedLow]
        rfl
      rw [written]
      exact four
    · rename_i printable
      have plain := isPlain_of_shortForm?_eq_none long (Nat.le_of_not_lt printable)
      simpa [Utf8.encode] using Piece.plain char plain

theorem pieces_encode_flatMap_escape (chars : List Char) :
    Pieces (Utf8.encode (chars.flatMap JsonString.escape)) := by
  induction chars with
  | nil =>
      exact .nil
  | cons char later ih =>
      rw [List.flatMap_cons, encode_append]
      exact .cons (piece_encode_escape char) ih

/-- The written form of a text is a string. -/
theorem isString_quote (text : String) : IsString (Utf8.encode (JsonString.quote text)) := by
  have written :
      Utf8.encode (JsonString.quote text) =
        quote :: (Utf8.encode (text.toList.flatMap JsonString.escape) ++ [quote]) := by
    rw [JsonString.quote, List.cons_append, ← List.singleton_append, encode_append, encode_append]
    rfl
  rw [written]
  exact .quoted (pieces_encode_flatMap_escape text.toList)

end Quote

/-! ## Whole numbers -/

/-- The number that digits stand for. -/
def number? (raw : Bytes) : Option Nat :=
  (Utf8.decode? raw).bind fun chars =>
    if chars ≠ [] ∧ chars.all Char.isDigit = true then some (Nat.ofDigitChars 10 chars 0) else none

theorem number?_toDigits (number : Nat) :
    number? (Utf8.encode (Nat.toDigits 10 number)) = some number := by
  have digits : (Nat.toDigits 10 number).all Char.isDigit = true :=
    List.all_eq_true.mpr fun _ mem => Nat.isDigit_of_mem_toDigits (by decide) (by decide) mem
  rw [number?, Utf8.decode?_eq_some_iff.mpr rfl, Option.bind_some,
    if_pos ⟨Nat.toDigits_ne_nil, digits⟩, Nat.ofDigitChars_ten_toDigits]

theorem number?_quote (text : String) : number? (Utf8.encode (JsonString.quote text)) = none := by
  rw [number?, Utf8.decode?_eq_some_iff.mpr rfl, Option.bind_some, if_neg]
  rintro ⟨-, digits⟩
  exact absurd digits (by simp [JsonString.quote])

/-- A digit takes one byte, and only the zero takes that of the zero. -/
theorem exists_encode_digitChar {digit : Nat} (one : digit < 10) :
    ∃ byte,
      Utf8.encode [Nat.digitChar digit] = [byte] ∧
        isDigit byte = true ∧ (digit ≠ 0 → byte ≠ 0x30) := by
  have all : ∀ digit : Fin 10,
      ∃ byte,
        Utf8.encode [Nat.digitChar digit] = [byte] ∧
          isDigit byte = true ∧ (digit.val ≠ 0 → byte ≠ 0x30) := by
    intro digit
    refine ⟨(Utf8.encode [Nat.digitChar digit]).headD 0, ?_⟩
    revert digit
    decide
  exact all ⟨digit, one⟩

/-- The digits of a number above zero do not begin with a zero. -/
theorem exists_encode_toDigits {number : Nat} (positive : number ≠ 0) :
    ∃ first rest,
      Utf8.encode (Nat.toDigits 10 number) = first :: rest ∧
        isDigit first = true ∧ first ≠ 0x30 ∧ ∀ byte ∈ rest, isDigit byte = true := by
  induction number using Nat.strongRecOn with
  | ind number ih =>
      rw [Nat.toDigits_eq_if (by decide)]
      split
      · rename_i one
        obtain ⟨byte, encoded, digit, notZero⟩ := exists_encode_digitChar one
        exact ⟨byte, [], encoded, digit, notZero positive, List.forall_mem_nil _⟩
      · obtain ⟨first, rest, encoded, digit, notZero, digits⟩ :=
          ih (number / 10) (by omega) (by omega)
        obtain ⟨byte, last, lastDigit, -⟩ :=
          exists_encode_digitChar (Nat.mod_lt number (by decide : 0 < 10))
        refine ⟨first, rest ++ [byte], ?_, digit, notZero, ?_⟩
        · rw [encode_append, encoded, last, List.cons_append]
        · rw [List.forall_mem_append]
          exact ⟨digits, List.forall_mem_singleton.mpr lastDigit⟩

theorem isNumber_toDigits (number : Nat) : IsNumber (Utf8.encode (Nat.toDigits 10 number)) := by
  have whole : Whole (Utf8.encode (Nat.toDigits 10 number)) := by
    by_cases zero : number = 0
    · rw [zero]
      exact .zero
    · obtain ⟨first, rest, encoded, digit, notZero, digits⟩ := exists_encode_toDigits zero
      rw [encoded]
      exact .digits digit notZero digits
  simpa using IsNumber.number (Or.inl rfl) whole .none .none

/-! ## Objects -/

/-- What the value of a member stands for. -/
inductive Content where
  | text (text : String)
  | number (number : Nat)
deriving DecidableEq, Repr

/-- The text or the whole number that a value stands for, if it is one of these. -/
def content? (raw : Bytes) : Option Content :=
  match number? raw with
  | some number => some (.number number)
  | none => (text? raw).map .text

/-- The text is an object, and its members have these names and contents, in this order. -/
def Reads (fields : List (String × Content)) (text : Bytes) : Prop :=
  ∃ members,
    Object members text ∧
      members.map (fun member => (text? member.name, content? member.value)) =
        fields.map (fun field => (some field.1, some field.2))

/-- An object is read in one way only. -/
theorem Reads.unique {fields found : List (String × Content)} {text : Bytes}
    (h : Reads fields text) (k : Reads found text) :
    fields = found := by
  obtain ⟨members, object, read⟩ := h
  obtain ⟨others, object', read'⟩ := k
  obtain rfl := object.unique object'
  have injective :
      Function.Injective fun field : String × Content => (some field.1, some field.2) := by
    rintro ⟨name, content⟩ ⟨name', content'⟩ same
    simpa using same
  exact List.map_injective_iff.mpr injective (read.symm.trans read')

end Json
end HookRelay
