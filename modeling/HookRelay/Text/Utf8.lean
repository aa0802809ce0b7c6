import HookRelay.Bytes

/-!
# Characters in byte strings

A byte string is text when it is the UTF-8 form of a sequence of characters.  Where any byte
string has to be shown, each maximal run of bytes that could begin a character but does not
complete one is shown as one replacement character.

* `Utf8.encode`: the bytes of a sequence of characters.
* `Utf8.decode?`: the characters of a byte string that is text.  `decode?_eq_some_iff` says that
  it inverts `encode` and accepts nothing else.
* `Utf8.display`: the characters by which any byte string is shown.
-/

namespace HookRelay
namespace Utf8

def encode (chars : List Char) : Bytes :=
  chars.flatMap String.utf8EncodeChar

/-- The characters of a byte string, if it is the UTF-8 form of any. -/
def decode? (bytes : Bytes) : Option (List Char) :=
  (String.fromUTF8? bytes.toByteArray).map String.toList

/-- Reading gives exactly the characters whose bytes these are. -/
theorem decode?_eq_some_iff {bytes : Bytes} {chars : List Char} :
    decode? bytes = some chars ↔ bytes = encode chars := by
  constructor
  · intro read
    obtain ⟨text, found, rfl⟩ := Option.map_eq_some_iff.mp read
    rw [String.fromUTF8?] at found
    split at found
    · rename_i valid
      have same : text.toByteArray = bytes.toByteArray := by
        simp [← Option.some.inj found, String.fromUTF8]
      rw [← String.utf8Encode_toList] at same
      exact (List.toByteArray_inj.mp same).symm
    · exact absurd found (by simp)
  · rintro rfl
    have valid : (encode chars).toByteArray.IsValidUTF8 := ⟨chars, rfl⟩
    have text : String.fromUTF8 (encode chars).toByteArray valid = String.ofList chars := by
      rw [← String.toByteArray_inj, String.toByteArray_ofList]
      rfl
    simp [decode?, String.fromUTF8?, valid, text]

/-! ## Showing any byte string -/

def isContinuation (byte : UInt8) : Bool :=
  0x80 ≤ byte && byte ≤ 0xbf

/-- The second bytes that may follow a first byte, when the character has more than two. -/
def isSecond (first second : UInt8) : Bool :=
  if first == 0xe0 then
    0xa0 ≤ second && second ≤ 0xbf
  else if first == 0xed then
    0x80 ≤ second && second ≤ 0x9f
  else if first == 0xf0 then
    0x90 ≤ second && second ≤ 0xbf
  else if first == 0xf4 then
    0x80 ≤ second && second ≤ 0x8f
  else
    isContinuation second

/-- The length of the longest run in front that begins a character, for bytes that complete none:
at least one byte, two if the second may follow the first in a longer character, and three if a
third may follow in a character of four. -/
def brokenLength : Bytes → Nat
  | first :: second :: third :: _ =>
      if 0xe0 ≤ first && first ≤ 0xf4 && isSecond first second then
        if 0xf0 ≤ first && isContinuation third then 3 else 2
      else
        1
  | [first, second] =>
      if 0xe0 ≤ first && first ≤ 0xf4 && isSecond first second then 2 else 1
  | _ => 1

/-- The character in front and how many bytes it takes; a broken run counts as one replacement
character. -/
def next (bytes : Bytes) : Char × Nat :=
  match (bytes.take 4).toByteArray.utf8DecodeChar? 0 with
  | some char => (char, char.utf8Size)
  | none => ('\uFFFD', brokenLength bytes)

theorem brokenLength_pos (bytes : Bytes) : 0 < brokenLength bytes := by
  unfold brokenLength
  split <;> repeat' split
  all_goals decide

theorem next_pos (bytes : Bytes) : 0 < (next bytes).2 := by
  unfold next
  split
  · exact Char.utf8Size_pos _
  · exact brokenLength_pos bytes

/-- The characters by which a byte string is shown. -/
def display (bytes : Bytes) : List Char :=
  match bytes with
  | [] => []
  | first :: later =>
      let shown := next (first :: later)
      shown.1 :: display ((first :: later).drop shown.2)
termination_by bytes.length
decreasing_by
  have := next_pos (first :: later)
  simp only [List.length_drop, List.length_cons]
  omega

end Utf8
end HookRelay
