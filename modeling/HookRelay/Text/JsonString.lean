/-!
# Strings in JSON

A text between quotation marks.  The quotation mark, the backslash and the control characters
below the space are escaped, those with a short form by it and the others by four hexadecimal
digits; every other character stands for itself.

* `JsonString.escape`: the written form of one character.
* `JsonString.quote`: the written form of a text.  `le_of_mem_quote` says that it holds no
  control character, so that it never breaks a line.
-/

namespace HookRelay
namespace JsonString

/-- The letter of the short form of a character, if it has one. -/
def shortForm? : Char → Option Char
  | '"' => some '"'
  | '\\' => some '\\'
  | '\x08' => some 'b'
  | '\x0c' => some 'f'
  | '\n' => some 'n'
  | '\r' => some 'r'
  | '\t' => some 't'
  | _ => none

def hexDigit (value : Nat) : Char :=
  Nat.digitChar (value % 16)

/-- The written form of a character inside a string. -/
def escape (char : Char) : List Char :=
  match shortForm? char with
  | some short => ['\\', short]
  | none =>
      if char.toNat < 0x20 then
        ['\\', 'u', '0', '0', hexDigit (char.toNat / 16), hexDigit char.toNat]
      else
        [char]

/-- The written form of a text, with its quotation marks. -/
def quote (text : String) : List Char :=
  '"' :: text.toList.flatMap escape ++ ['"']

theorem le_of_shortForm {char short : Char} (h : shortForm? char = some short) :
    0x20 ≤ short.toNat := by
  unfold shortForm? at h
  split at h <;> cases h <;> decide

theorem le_hexDigit (value : Nat) : 0x20 ≤ (hexDigit value).toNat := by
  have digits : ∀ digit : Fin 16, 0x20 ≤ (Nat.digitChar digit.val).toNat := by
    decide
  exact digits ⟨value % 16, Nat.mod_lt value (by decide)⟩

/-- The written form of a character holds no control character. -/
theorem le_of_mem_escape {char written : Char} (h : written ∈ escape char) :
    0x20 ≤ written.toNat := by
  unfold escape at h
  split at h
  · rename_i short found
    simp only [List.mem_cons, List.not_mem_nil, or_false] at h
    rcases h with rfl | rfl
    · decide
    · exact le_of_shortForm found
  · split at h
    · simp only [List.mem_cons, List.not_mem_nil, or_false] at h
      rcases h with rfl | rfl | rfl | rfl | rfl | rfl
      · decide
      · decide
      · decide
      · decide
      · exact le_hexDigit _
      · exact le_hexDigit _
    · rename_i printable
      rw [List.mem_singleton.mp h]
      exact Nat.le_of_not_lt printable

theorem le_of_mem_quote {text : String} {written : Char} (h : written ∈ quote text) :
    0x20 ≤ written.toNat := by
  simp only [quote, List.cons_append, List.mem_cons, List.mem_append, List.mem_flatMap,
    List.not_mem_nil, or_false] at h
  rcases h with rfl | ⟨_, _, mem⟩ | rfl
  · decide
  · exact le_of_mem_escape mem
  · decide

end JsonString
end HookRelay
