import HookRelay.Bytes
import Mathlib.Data.List.TakeWhile

/-!
# Strings, numbers and words of JSON

The texts that make up a JSON document apart from its brackets.  They are byte strings: a character
stands for its bytes in UTF-8.

* `Json.Space`: the blanks that may stand between the parts of a document.
* `Json.IsString`: a string, with its quotation marks.
* `Json.IsNumber`, `Json.IsWord`: a number, and one of the three words.
* `Json.IsScalar`: any of these.

A string shows by itself where it ends (`IsString.eq_of_append_eq`), a number or a word only if no
byte of its kind follows (`Token.eq_of_append_eq`).  `IsScalar.eq_of_append_eq` puts the two
together.
-/

namespace HookRelay
namespace Json

def quote : UInt8 := 0x22
def backslash : UInt8 := 0x5c

/-- The space, the tab, the line feed and the carriage return. -/
def isSpace (byte : UInt8) : Bool :=
  byte == 0x20 || byte == 0x09 || byte == 0x0a || byte == 0x0d

def isDigit (byte : UInt8) : Bool :=
  0x30 ≤ byte && byte ≤ 0x39

def isHexDigit (byte : UInt8) : Bool :=
  isDigit byte || (0x41 ≤ byte && byte ≤ 0x46) || (0x61 ≤ byte && byte ≤ 0x66)

/-- The bytes of which numbers and words are made. -/
def isToken (byte : UInt8) : Bool :=
  isDigit byte || (0x61 ≤ byte && byte ≤ 0x7a) ||
    byte == 0x2b || byte == 0x2d || byte == 0x2e || byte == 0x45

/-- The characters that stand for themselves inside a string. -/
def isPlain (char : Char) : Bool :=
  0x20 ≤ char.toNat && char != '"' && char != '\\'

/-- The blanks that may stand between the parts of a document. -/
def Space (bytes : Bytes) : Prop :=
  ∀ byte ∈ bytes, isSpace byte = true

theorem space_nil : Space [] :=
  List.forall_mem_nil _

/-- What follows does not begin with a byte of a number or of a word. -/
def Apart (bytes : Bytes) : Prop :=
  ∀ byte ∈ bytes.head?, isToken byte = false

/-! ## Strings -/

/-- A character inside a string: one that stands for itself, or an escape. -/
inductive Piece : Bytes → Prop where
  | plain (char : Char) (h : isPlain char = true) : Piece (String.utf8EncodeChar char)
  | short (letter : UInt8) (known : letter ∈ Bytes.ofText "\"\\/bfnrt") :
      Piece [backslash, letter]
  | code (digits : Bytes) (four : digits.length = 4)
      (hex : ∀ digit ∈ digits, isHexDigit digit = true) :
      Piece (backslash :: 0x75 :: digits)

/-- What stands between the quotation marks of a string. -/
inductive Pieces : Bytes → Prop where
  | nil : Pieces []
  | cons {piece rest : Bytes} (first : Piece piece) (others : Pieces rest) : Pieces (piece ++ rest)

/-- A string, with its quotation marks. -/
inductive IsString : Bytes → Prop where
  | quoted {inner : Bytes} (pieces : Pieces inner) : IsString (quote :: (inner ++ [quote]))

theorem pieces_of_plain (chars : List Char) (plain : chars.all isPlain = true) :
    Pieces (chars.flatMap String.utf8EncodeChar) := by
  induction chars with
  | nil =>
      exact .nil
  | cons char later ih =>
      rw [List.all_cons, Bool.and_eq_true] at plain
      exact .cons (.plain char plain.1) (ih plain.2)

/-- A text in quotation marks is a string if no character of it has to be escaped. -/
theorem isString_of_plain (text : String) (plain : text.toList.all isPlain = true) :
    IsString (quote :: (Bytes.ofText text ++ [quote])) :=
  .quoted (pieces_of_plain text.toList plain)

/-! ## Numbers and words -/

def Digits (bytes : Bytes) : Prop :=
  bytes ≠ [] ∧ ∀ byte ∈ bytes, isDigit byte = true

/-- The digits in front of the point: a zero alone, or digits that begin with another. -/
inductive Whole : Bytes → Prop where
  | zero : Whole [0x30]
  | digits {first : UInt8} {rest : Bytes} (digit : isDigit first = true) (notZero : first ≠ 0x30)
      (others : ∀ byte ∈ rest, isDigit byte = true) : Whole (first :: rest)

/-- The point and the digits behind it, if there are any. -/
inductive Fraction : Bytes → Prop where
  | none : Fraction []
  | point {digits : Bytes} (some : Digits digits) : Fraction (0x2e :: digits)

/-- The exponent, if there is one. -/
inductive Exponent : Bytes → Prop where
  | none : Exponent []
  | power {mark : UInt8} {sign digits : Bytes} (letter : mark = 0x65 ∨ mark = 0x45)
      (signed : sign = [] ∨ sign = [0x2b] ∨ sign = [0x2d]) (some : Digits digits) :
      Exponent (mark :: (sign ++ digits))

inductive IsNumber : Bytes → Prop where
  | number {sign whole fraction exponent : Bytes} (signed : sign = [] ∨ sign = [0x2d])
      (before : Whole whole) (behind : Fraction fraction) (power : Exponent exponent) :
      IsNumber (sign ++ whole ++ fraction ++ exponent)

def IsWord (text : Bytes) : Prop :=
  text = Bytes.ofText "true" ∨ text = Bytes.ofText "false" ∨ text = Bytes.ofText "null"

/-- A value without brackets. -/
inductive IsScalar : Bytes → Prop where
  | string {text : Bytes} (h : IsString text) : IsScalar text
  | number {text : Bytes} (h : IsNumber text) : IsScalar text
  | word {text : Bytes} (h : IsWord text) : IsScalar text

/-! ## Where a run of bytes ends -/

/-- A run of bytes of one kind ends where the next byte is of another kind. -/
theorem eq_of_append_eq_of_kind
    {kind : UInt8 → Bool} {front other back rest : Bytes}
    (all : ∀ byte ∈ front, kind byte = true)
    (allToo : ∀ byte ∈ other, kind byte = true)
    (ends : ∀ byte ∈ back.head?, kind byte = false)
    (endsToo : ∀ byte ∈ rest.head?, kind byte = false)
    (same : front ++ back = other ++ rest) :
    front = other ∧ back = rest := by
  have run {first second : Bytes}
      (of_kind : ∀ byte ∈ first, kind byte = true)
      (stops : ∀ byte ∈ second.head?, kind byte = false) :
      (first ++ second).takeWhile kind = first := by
    rw [List.takeWhile_append_of_pos of_kind]
    cases second with
    | nil =>
        simp
    | cons byte later =>
        simp [stops byte rfl]
  have front_eq : front = other := by
    rw [← run all ends, same, run allToo endsToo]
  rw [front_eq] at same
  exact ⟨front_eq, List.append_cancel_left same⟩

/-! ## Where a string ends -/

theorem utf8EncodeChar_append_inj
    {char other : Char} {back rest : Bytes}
    (same : String.utf8EncodeChar char ++ back = String.utf8EncodeChar other ++ rest) :
    char = other := by
  have decoded (first : Char) (later : Bytes) :
      (String.utf8EncodeChar first ++ later).toByteArray.utf8DecodeChar? 0 = some first := by
    rw [List.toByteArray_append]
    exact ByteArray.utf8DecodeChar?_utf8EncodeChar_append
  have found := decoded char back
  rw [same, decoded other rest] at found
  exact (Option.some.inj found).symm

/-- A character that stands for itself is never taken for the beginning of something else. -/
theorem utf8EncodeChar_append_ne_cons
    {char : Char} {byte : UInt8}
    (plain : isPlain char = true)
    (other : Char) (single : String.utf8EncodeChar other = [byte])
    (notPlain : isPlain other = false)
    (back rest : Bytes) :
    String.utf8EncodeChar char ++ back ≠ byte :: rest := by
  intro same
  have equal : char = other := by
    refine @utf8EncodeChar_append_inj char other back rest ?_
    rw [same, single, List.singleton_append]
  rw [equal, notPlain] at plain
  contradiction

theorem utf8EncodeChar_append_ne_backslash
    {char : Char} (plain : isPlain char = true) (back rest : Bytes) :
    String.utf8EncodeChar char ++ back ≠ backslash :: rest :=
  utf8EncodeChar_append_ne_cons plain '\\' (by decide) (by decide) back rest

theorem Piece.append_ne_quote {piece : Bytes} (h : Piece piece) (back rest : Bytes) :
    piece ++ back ≠ quote :: rest := by
  cases h with
  | plain char plain =>
      exact utf8EncodeChar_append_ne_cons plain '"' (by decide) (by decide) back rest
  | short letter known =>
      simp [backslash, quote]
  | code digits four hex =>
      simp [backslash, quote]

theorem Piece.eq_of_append_eq
    {piece other back rest : Bytes}
    (h : Piece piece) (k : Piece other)
    (same : piece ++ back = other ++ rest) :
    piece = other := by
  have notCode : (0x75 : UInt8) ∉ Bytes.ofText "\"\\/bfnrt" := by
    decide
  cases h with
  | plain char plain =>
      cases k with
      | plain char' plain' =>
          rw [utf8EncodeChar_append_inj same]
      | short letter known =>
          exact absurd same (utf8EncodeChar_append_ne_backslash plain _ _)
      | code digits four hex =>
          exact absurd same (utf8EncodeChar_append_ne_backslash plain _ _)
  | short letter known =>
      cases k with
      | plain char plain =>
          exact absurd same.symm (utf8EncodeChar_append_ne_backslash plain _ _)
      | short letter' known' =>
          simp only [List.cons_append, List.cons.injEq] at same
          rw [same.2.1]
      | code digits four hex =>
          simp only [List.cons_append, List.cons.injEq] at same
          exact absurd (same.2.1 ▸ known) notCode
  | code digits four hex =>
      cases k with
      | plain char plain =>
          exact absurd same.symm (utf8EncodeChar_append_ne_backslash plain _ _)
      | short letter known =>
          simp only [List.cons_append, List.cons.injEq] at same
          exact absurd (same.2.1 ▸ known) notCode
      | code digits' four' hex' =>
          simp only [List.cons_append, List.cons.injEq, true_and] at same
          rw [List.append_inj_left same (by rw [four, four'])]

/-- What stands between quotation marks ends at the first one that is not part of an escape. -/
theorem Pieces.eq_of_append_eq
    {inner other back rest : Bytes}
    (h : Pieces inner) (k : Pieces other)
    (same : inner ++ quote :: back = other ++ quote :: rest) :
    inner = other := by
  induction h generalizing other with
  | nil =>
      cases k with
      | nil =>
          rfl
      | cons first others =>
          rw [List.append_assoc] at same
          exact absurd same.symm (first.append_ne_quote _ _)
  | cons first others ih =>
      cases k with
      | nil =>
          rw [List.append_assoc] at same
          exact absurd same (first.append_ne_quote _ _)
      | cons first' others' =>
          rw [List.append_assoc, List.append_assoc] at same
          have equal := first.eq_of_append_eq first' same
          rw [equal] at same ⊢
          rw [ih others' (List.append_cancel_left same)]

/-- A string shows by itself where it ends. -/
theorem IsString.eq_of_append_eq
    {text other back rest : Bytes}
    (h : IsString text) (k : IsString other)
    (same : text ++ back = other ++ rest) :
    text = other := by
  cases h with
  | quoted pieces =>
      cases k with
      | quoted pieces' =>
          simp only [List.cons_append, List.append_assoc, List.nil_append, List.cons.injEq,
            true_and] at same
          rw [pieces.eq_of_append_eq pieces' same]

/-! ## Where a number or a word ends -/

/-- A run of bytes of numbers and words. -/
structure Token (text : Bytes) : Prop where
  some : text ≠ []
  all : ∀ byte ∈ text, isToken byte = true

theorem isToken_of_isDigit {byte : UInt8} (h : isDigit byte = true) : isToken byte = true := by
  simp [isToken, h]

theorem Digits.isToken {digits : Bytes} (h : Digits digits) :
    ∀ byte ∈ digits, isToken byte = true :=
  fun byte mem => isToken_of_isDigit (h.2 byte mem)

theorem Whole.token {whole : Bytes} (h : Whole whole) : Token whole := by
  cases h with
  | zero =>
      exact ⟨by decide, List.all_eq_true.mp (by decide)⟩
  | digits digit notZero others =>
      refine ⟨List.cons_ne_nil _ _, List.forall_mem_cons.mpr ⟨isToken_of_isDigit digit, ?_⟩⟩
      exact fun byte mem => isToken_of_isDigit (others byte mem)

theorem Fraction.isToken {fraction : Bytes} (h : Fraction fraction) :
    ∀ byte ∈ fraction, isToken byte = true := by
  cases h with
  | none =>
      exact List.forall_mem_nil _
  | point some =>
      exact List.forall_mem_cons.mpr ⟨by decide, some.isToken⟩

theorem Exponent.isToken {exponent : Bytes} (h : Exponent exponent) :
    ∀ byte ∈ exponent, isToken byte = true := by
  cases h with
  | none =>
      exact List.forall_mem_nil _
  | power letter signed some =>
      refine List.forall_mem_cons.mpr ⟨?_, List.forall_mem_append.mpr ⟨?_, some.isToken⟩⟩
      · rcases letter with rfl | rfl <;> decide
      · rcases signed with rfl | rfl | rfl <;> exact List.all_eq_true.mp (by decide)

theorem IsNumber.token {text : Bytes} (h : IsNumber text) : Token text := by
  cases h with
  | number signed before behind power =>
      obtain ⟨some, whole⟩ := before.token
      refine ⟨by simp [some], ?_⟩
      simp only [List.forall_mem_append]
      refine ⟨⟨⟨?_, whole⟩, behind.isToken⟩, power.isToken⟩
      rcases signed with rfl | rfl <;> exact List.all_eq_true.mp (by decide)

theorem IsWord.token {text : Bytes} (h : IsWord text) : Token text := by
  rcases h with rfl | rfl | rfl
  · exact ⟨by decide, List.all_eq_true.mp (by decide)⟩
  · exact ⟨by decide, List.all_eq_true.mp (by decide)⟩
  · exact ⟨by decide, List.all_eq_true.mp (by decide)⟩

theorem IsScalar.isString_or_token {text : Bytes} (h : IsScalar text) :
    IsString text ∨ Token text := by
  cases h with
  | string h =>
      exact Or.inl h
  | number h =>
      exact Or.inr h.token
  | word h =>
      exact Or.inr h.token

theorem IsScalar.exists_cons {text : Bytes} (h : IsScalar text) :
    ∃ byte later, text = byte :: later ∧ (byte = quote ∨ isToken byte = true) := by
  rcases h.isString_or_token with string | token
  · cases string with
    | quoted pieces =>
        exact ⟨quote, _, rfl, Or.inl rfl⟩
  · obtain ⟨byte, later, rfl⟩ := List.exists_cons_of_ne_nil token.some
    exact ⟨byte, later, rfl, Or.inr (token.all byte List.mem_cons_self)⟩

/-- A number or a word ends where no byte of its kind follows. -/
theorem Token.eq_of_append_eq
    {text other back rest : Bytes}
    (h : Token text) (k : Token other)
    (apart : Apart back) (apartToo : Apart rest)
    (same : text ++ back = other ++ rest) :
    text = other :=
  (eq_of_append_eq_of_kind h.all k.all apart apartToo same).1

theorem Token.append_ne_string
    {text string back rest : Bytes} (h : Token text) (k : IsString string) :
    text ++ back ≠ string ++ rest := by
  obtain ⟨byte, later, rfl⟩ := List.exists_cons_of_ne_nil h.some
  cases k with
  | quoted pieces =>
      intro same
      have first : byte = quote := (List.cons.inj same).1
      have kind := h.all byte List.mem_cons_self
      rw [first] at kind
      exact absurd kind (by decide)

/-- A value without brackets ends where nothing follows that could belong to it. -/
theorem IsScalar.eq_of_append_eq
    {text other back rest : Bytes}
    (h : IsScalar text) (k : IsScalar other)
    (apart : Apart back) (apartToo : Apart rest)
    (same : text ++ back = other ++ rest) :
    text = other := by
  rcases h.isString_or_token with string | token
  · rcases k.isString_or_token with string' | token'
    · exact string.eq_of_append_eq string' same
    · exact absurd same.symm (token'.append_ne_string string)
  · rcases k.isString_or_token with string' | token'
    · exact absurd same (token.append_ne_string string')
    · exact token.eq_of_append_eq token' apart apartToo same

end Json
end HookRelay
