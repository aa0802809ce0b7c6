import HookRelay.Journal
import HookRelay.Proofs.JsonText

/-!
# What a line of the log says

A note is written as one object of six members.  This module reads the object back: the line says
what the note says, whatever characters that may be, and it says nothing else.  No control character
is written, so that the line feed behind the object is the only one in the line.

* `Json.Content.written`, `Note.fields`: how a content is written, and what the members of a note
  are.
* `Note.le_of_mem_text`: no byte of the object is below the space.
* `Note.reads_text_iff`: the object is read as the members of the note, and as nothing else.
-/

namespace HookRelay

namespace Utf8

/-- The bytes of a character are the character itself or lie behind all characters of one byte. -/
theorem byte_of_mem_utf8EncodeChar {char : Char} {byte : UInt8}
    (h : byte ∈ String.utf8EncodeChar char) :
    byte.toNat = char.toNat ∨ 0x80 ≤ byte.toNat := by
  have number : char.val.toNat = char.toNat := rfl
  unfold String.utf8EncodeChar at h
  dsimp only at h
  split at h
  · rw [List.mem_singleton.mp h, UInt8.toNat_ofNat']
    omega
  · right
    split at h
    · simp only [List.mem_cons, List.not_mem_nil, or_false] at h
      rcases h with rfl | rfl <;> rw [UInt8.toNat_ofNat'] <;> omega
    · split at h
      · simp only [List.mem_cons, List.not_mem_nil, or_false] at h
        rcases h with rfl | rfl | rfl <;> rw [UInt8.toNat_ofNat'] <;> omega
      · simp only [List.mem_cons, List.not_mem_nil, or_false] at h
        rcases h with rfl | rfl | rfl | rfl <;> rw [UInt8.toNat_ofNat'] <;> omega

theorem le_of_mem_encode
    {chars : List Char} (printable : ∀ char ∈ chars, 0x20 ≤ char.toNat)
    {byte : UInt8} (h : byte ∈ encode chars) :
    0x20 ≤ byte := by
  obtain ⟨char, mem, part⟩ := List.mem_flatMap.mp h
  have large := printable char mem
  rw [UInt8.le_iff_toNat_le]
  change 0x20 ≤ byte.toNat
  rcases byte_of_mem_utf8EncodeChar part with same | behind
  · omega
  · omega

end Utf8

namespace Json

/-- The way a content is written. -/
def Content.written : Content → List Char
  | .text value => JsonString.quote value
  | .number value => Nat.toDigits 10 value

theorem Content.isValue_written (content : Content) : IsValue (Utf8.encode content.written) := by
  cases content with
  | text text =>
      exact .scalar (.string (isString_quote text))
  | number number =>
      exact .scalar (.number (isNumber_toDigits number))

/-- What is written is read as what it was. -/
theorem content?_written (content : Content) :
    content? (Utf8.encode content.written) = some content := by
  cases content with
  | text text =>
      simp [Content.written, content?, number?_quote, text?_quote]
  | number number =>
      simp [Content.written, content?, number?_toDigits]

theorem Content.le_of_mem_written {content : Content} {char : Char} (h : char ∈ content.written) :
    0x20 ≤ char.toNat := by
  cases content with
  | text text =>
      exact JsonString.le_of_mem_quote h
  | number number =>
      have digit : char.isDigit = true := Nat.isDigit_of_mem_toDigits (by decide) (by decide) h
      exact Nat.le_trans (by decide) (Char.isDigit_iff_toNat.mp digit).1

/-! ## Members with commas between them -/

section Separated

variable {α β : Type} {entry : β → Bytes → Prop}

theorem Padded.of {kind : Bytes → Prop} {text : Bytes} (h : kind text) : Padded kind text text := by
  simpa using Padded.padded space_nil h space_nil

/-- Entries that are written one after the other with commas between them. -/
theorem separated_intersperse
    {item : α → β} {written : α → List Char}
    (each : ∀ value, entry (item value) (Utf8.encode (written value))) :
    ∀ {values : List α}, values ≠ [] →
      Separated entry (values.map item)
        (Utf8.encode ((values.map written).intersperse [',']).flatten) := by
  intro values some
  induction values with
  | nil =>
      exact absurd rfl some
  | cons value later ih =>
      cases later with
      | nil =>
          simpa using Separated.single (each value)
      | cons next others =>
          have rest := ih (List.cons_ne_nil next others)
          have joined :
              Utf8.encode (((value :: next :: others).map written).intersperse [',']).flatten =
                Utf8.encode (written value) ++ comma ::
                  Utf8.encode (((next :: others).map written).intersperse [',']).flatten := by
            rw [List.map_cons, List.map_cons, List.intersperse_cons_cons, List.flatten_cons,
              List.flatten_cons, ← List.map_cons, encode_append, encode_append]
            rfl
          rw [joined]
          exact .cons (each value) rest

theorem mem_flatten_intersperse
    {separator : List α} {parts : List (List α)} {item : α}
    (h : item ∈ (parts.intersperse separator).flatten) :
    item ∈ separator ∨ item ∈ parts.flatten := by
  induction parts with
  | nil =>
      exact Or.inr h
  | cons part later ih =>
      cases later with
      | nil =>
          exact Or.inr h
      | cons next others =>
          rw [List.intersperse_cons_cons, List.flatten_cons, List.flatten_cons, List.mem_append,
            List.mem_append] at h
          rw [List.flatten_cons, List.mem_append]
          rcases h with own | between | behind
          · exact Or.inr (Or.inl own)
          · exact Or.inl between
          · exact (ih behind).imp_right Or.inr

end Separated

end Json

namespace Note

open Json (Content)

section Object

variable (fields : List (String × Content))

/-- The member by which a name and a content are written. -/
def member (item : String × Content) : Json.Member :=
  ⟨Utf8.encode (JsonString.quote item.1), Utf8.encode item.2.written⟩

def writtenField (item : String × Content) : List Char :=
  field item.1 item.2.written

theorem isMember_writtenField (item : String × Content) :
    Json.IsMember Json.IsValue (member item) (Utf8.encode (writtenField item)) := by
  have name : Json.Padded Json.IsString (member item).name (member item).name :=
    .of (Json.isString_quote item.1)
  have value : Json.Padded Json.IsValue (member item).value (member item).value :=
    .of item.2.isValue_written
  have written :
      Utf8.encode (writtenField item) =
        (member item).name ++ Json.colon :: (member item).value := by
    rw [writtenField, field, Json.encode_append, ← List.singleton_append, Json.encode_append]
    rfl
  rw [written]
  exact .named name value

/-- An object is read as the names and contents from which it was written. -/
theorem reads_object {fields : List (String × Content)} (nonempty : fields ≠ []) :
    Json.Reads fields (Utf8.encode (object (fields.map writtenField))) := by
  have list := Json.separated_intersperse isMember_writtenField nonempty
  have written :
      Utf8.encode (object (fields.map writtenField)) =
        Json.openingBrace ::
          (Utf8.encode ((fields.map writtenField).intersperse [',']).flatten ++
            [Json.closingBrace]) := by
    rw [object, List.cons_append, ← List.singleton_append, Json.encode_append, Json.encode_append]
    rfl
  refine ⟨fields.map member, ?_, ?_⟩
  · rw [written]
    exact .filled list
  · rw [List.map_map]
    refine List.map_congr_left (fun item _ => ?_)
    have name : Json.text? (member item).name = some item.1 := Json.text?_quote item.1
    have value : Json.content? (member item).value = some item.2 := Json.content?_written item.2
    rw [Function.comp_apply, name, value]

theorem le_of_mem_object {char : Char} (h : char ∈ object (fields.map writtenField)) :
    0x20 ≤ char.toNat := by
  rw [object, List.cons_append, List.mem_cons, List.mem_append, List.mem_singleton] at h
  rcases h with rfl | inside | rfl
  · decide
  · rcases Json.mem_flatten_intersperse inside with between | part
    · rw [List.mem_singleton.mp between]
      decide
    · obtain ⟨written, mem, part⟩ := List.mem_flatten.mp part
      obtain ⟨item, -, rfl⟩ := List.mem_map.mp mem
      rw [writtenField, field, List.mem_append, List.mem_cons] at part
      rcases part with name | rfl | value
      · exact JsonString.le_of_mem_quote name
      · decide
      · exact Content.le_of_mem_written value
  · decide

end Object

section Line

variable (moment : Moment) (process : Nat) (note : Note)

/-- The names and contents of the members of a line. -/
def fields : List (String × Content) :=
  [("ts", .text moment.text),
    ("level", .text note.level),
    ("subsystem", .text note.subsystem),
    ("event", .text note.event),
    ("pid", .number process),
    ("msg", .text note.message)]

theorem text_eq_object :
    note.text moment process = object ((note.fields moment process).map writtenField) :=
  rfl

/-- No byte of the object is below the space. -/
theorem le_of_mem_text
    {byte : UInt8} (h : byte ∈ Utf8.encode (note.text moment process)) :
    0x20 ≤ byte := by
  rw [text_eq_object] at h
  exact Utf8.le_of_mem_encode (fun _ mem => le_of_mem_object _ mem) h

theorem line_eq_append :
    note.line moment process = Utf8.encode (note.text moment process) ++ [Bytes.newline] := by
  rw [line, Json.encode_append]
  rfl

/-- The object is read as the members of the note, and as nothing else. -/
theorem reads_text_iff {found : List (String × Content)} :
    Json.Reads found (Utf8.encode (note.text moment process)) ↔
      found = note.fields moment process := by
  have reads : Json.Reads (note.fields moment process) (Utf8.encode (note.text moment process)) :=
    reads_object (List.cons_ne_nil _ _)
  constructor
  · intro other
    exact other.unique reads
  · rintro rfl
    exact reads

end Line

end Note
end HookRelay
