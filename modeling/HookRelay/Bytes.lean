/-!
# Byte strings

Requests, answers, file contents and paths are finite lists of bytes.

* `Bytes.ofText`: the UTF-8 bytes of a text.
* `Bytes.trimEnd`: a byte string without its trailing run of blank bytes, where every byte up to
  the space is blank. `exists_trimEnd_append`, `trimEnd_append_blanks` and
  `isBlank_getLast_trimEnd` say that exactly that run is dropped.
-/

namespace HookRelay

abbrev Bytes := List UInt8

namespace Bytes

/-- The UTF-8 bytes of a text. -/
def ofText (text : String) : Bytes :=
  text.toList.flatMap String.utf8EncodeChar

/-- Every character has at least one byte. -/
theorem ofText_eq_nil_iff (text : String) : ofText text = [] ↔ text = "" := by
  have some (char : Char) : String.utf8EncodeChar char ≠ [] := by
    rw [Ne, ← List.length_eq_zero_iff, String.length_utf8EncodeChar]
    exact Nat.ne_of_gt char.utf8Size_pos
  rw [ofText, List.flatMap_eq_nil_iff, ← String.toList_eq_nil_iff]
  simp [some, List.eq_nil_iff_forall_not_mem]

/-- The line feed, which ends a request and a response on the wire. -/
def newline : UInt8 := 0x0a

/-- A control byte or the space: what is dropped from the end of a message. -/
def isBlank (byte : UInt8) : Bool :=
  byte ≤ 0x20

/-- The byte string without its maximal trailing run of blank bytes. -/
def trimEnd (bytes : Bytes) : Bytes :=
  (bytes.reverse.dropWhile isBlank).reverse

theorem trimEnd_nil : trimEnd [] = [] :=
  rfl

theorem trimEnd_append_of_isBlank
    (bytes : Bytes) {byte : UInt8} (h : isBlank byte = true) :
    trimEnd (bytes ++ [byte]) = trimEnd bytes := by
  simp [trimEnd, h]

/-- A byte above the space at the end stops the trimming. -/
theorem trimEnd_append_of_not_isBlank
    (bytes : Bytes) {byte : UInt8} (h : isBlank byte = false) :
    trimEnd (bytes ++ [byte]) = bytes ++ [byte] := by
  simp [trimEnd, h]

theorem trimEnd_append_blanks (bytes : Bytes) :
    ∀ blanks : Bytes, (∀ byte ∈ blanks, isBlank byte = true) →
      trimEnd (bytes ++ blanks) = trimEnd bytes
  | [], _ => by
      simp
  | byte :: blanks, h => by
      have step := trimEnd_append_blanks (bytes ++ [byte]) blanks
        (fun b hb => h b (List.mem_cons_of_mem byte hb))
      have first := trimEnd_append_of_isBlank bytes (h byte List.mem_cons_self)
      simpa [first] using step

/-- What is left is an initial segment of the byte string, and the rest of it is blank. -/
theorem exists_trimEnd_append (bytes : Bytes) :
    ∃ blanks : Bytes,
      bytes = trimEnd bytes ++ blanks ∧ ∀ byte ∈ blanks, isBlank byte = true := by
  refine ⟨(bytes.reverse.takeWhile isBlank).reverse, ?_, ?_⟩
  · rw [trimEnd, ← List.reverse_append, List.takeWhile_append_dropWhile, List.reverse_reverse]
  · intro byte h
    exact (List.all_eq_true.mp List.all_takeWhile) byte (List.mem_reverse.mp h)

theorem length_trimEnd_le (bytes : Bytes) : (trimEnd bytes).length ≤ bytes.length := by
  obtain ⟨blanks, split, _⟩ := exists_trimEnd_append bytes
  have total := congrArg List.length split
  simp only [List.length_append] at total
  omega

theorem isBlank_getLast_trimEnd (bytes : Bytes) (h : trimEnd bytes ≠ []) :
    isBlank ((trimEnd bytes).getLast h) = false := by
  have front : bytes.reverse.dropWhile isBlank ≠ [] := by
    intro empty
    exact h (by simp [trimEnd, empty])
  have kept := List.head_dropWhile_not isBlank front
  simpa [trimEnd, List.getLast_reverse] using kept

end Bytes

end HookRelay
