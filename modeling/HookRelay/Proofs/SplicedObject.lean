import HookRelay.Proofs.JsonObject
import HookRelay.Proofs.Splicing

/-!
# Splicing JSON objects

What the ambient request is when the input is a JSON object between blanks.  The members of the
object are put behind the member that names the operation, as they are written.  The opening of the
request ends in a comma, though, so it is the beginning of an object only if there is a member to
stand behind the comma.

* `members_of_object`: what is taken from the input is the object without its opening brace.
* `splice_object_iff`: what members the request has as an object.
* `splice_empty_object`: the request for the empty object is no object.
-/

namespace HookRelay
namespace Request

/-- The member that names the operation of the ambient hook. -/
def ambientMember : Json.Member :=
  ⟨Bytes.ofText "\"op\"", Bytes.ofText "\"hook_ambient\""⟩

/-- How that member is written in the opening of the request. -/
def ambientMemberText : Bytes :=
  Bytes.ofText "\"op\":\"hook_ambient\""

theorem ambientOpening_eq :
    ambientOpening = Json.openingBrace :: (ambientMemberText ++ [Json.comma]) := by
  decide

theorem isMember_ambient : Json.IsMember Json.IsValue ambientMember ambientMemberText := by
  have name : Json.IsString ambientMember.name :=
    Json.isString_of_plain "op" (by decide)
  have value : Json.IsString ambientMember.value :=
    Json.isString_of_plain "hook_ambient" (by decide)
  exact .named (.padded Json.space_nil name Json.space_nil)
    (.padded Json.space_nil (.scalar (.string value)) Json.space_nil)

/-! ## What is taken from the input -/

theorem isBlank_of_isSpace {byte : UInt8} (h : Json.isSpace byte = true) :
    Bytes.isBlank byte = true := by
  simp only [Json.isSpace, Bool.or_eq_true, beq_iff_eq] at h
  rcases h with ((rfl | rfl) | rfl) | rfl <;> decide

theorem openingBrace_notMem_space {space : Bytes} (blank : Json.Space space) :
    openingBrace ∉ space := by
  intro mem
  exact absurd (blank openingBrace mem) (by decide)

/-- What is taken from an object between blanks is all of it behind the opening brace. -/
theorem members_of_object
    {before after : Bytes}
    (front : Json.Space before) (back : Json.Space after)
    (inner : Bytes) :
    members (before ++ Json.openingBrace :: (inner ++ [Json.closingBrace]) ++ after) =
      some (inner ++ [Json.closingBrace]) := by
  have kept :
      Bytes.trimEnd (inner ++ [Json.closingBrace] ++ after) = inner ++ [Json.closingBrace] := by
    rw [Bytes.trimEnd_append_blanks _ after (fun byte mem => isBlank_of_isSpace (back byte mem))]
    exact Bytes.trimEnd_append_of_not_isBlank inner (by decide)
  rw [List.append_assoc, List.cons_append]
  exact (members_append (openingBrace_notMem_space front)).trans (congrArg some kept)

/-- There is a request for an object if what is inside its braces leaves room for the opening, the
closing brace and the line feed. -/
theorem exists_splice_object
    {before after : Bytes}
    (front : Json.Space before) (back : Json.Space after)
    (inner : Bytes)
    (fits : ambientOpening.length + (inner.length + 1) < Buffer.frameCapacity) :
    ∃ request,
      splice ambientOpening (before ++ Json.openingBrace :: (inner ++ [Json.closingBrace]) ++ after)
        Buffer.frame = some request := by
  have place : ambientOpening.length + (inner ++ [Json.closingBrace]).length <
      Buffer.frame.capacity := by
    rw [Buffer.frame, Buffer.capacity_new, List.length_append]
    exact fits
  exact ⟨_, by rw [splice, members_of_object front back]; exact if_pos place⟩

/-- The request puts what is inside the braces of the object behind a member and a comma. -/
theorem content_of_splice_object
    {before inner after : Bytes} {buffer request : Buffer}
    (front : Json.Space before) (back : Json.Space after)
    (made : splice ambientOpening
      (before ++ Json.openingBrace :: (inner ++ [Json.closingBrace]) ++ after) buffer =
        some request) :
    request.content =
      Json.openingBrace ::
        (ambientMemberText ++ Json.comma :: (inner ++ [Json.closingBrace])) := by
  obtain ⟨rest, found, content⟩ := content_of_splice made
  rw [members_of_object front back, Option.some.injEq] at found
  rw [content, ambientOpening_eq, ← found]
  simp

/-! ## What the request is as an object -/

/-- The request for an object between blanks is an object if and only if the input has a member, and
then its members are the one that names the operation and those of the input as they are written. -/
theorem splice_object_iff
    {before text after : Bytes} {given : List Json.Member} {buffer request : Buffer}
    (front : Json.Space before)
    (object : Json.Object given text)
    (back : Json.Space after)
    (made : splice ambientOpening (before ++ text ++ after) buffer = some request)
    (found : List Json.Member) :
    Json.Object found request.content ↔ given ≠ [] ∧ found = ambientMember :: given := by
  cases object with
  | empty blank =>
      rw [content_of_splice_object front back made, Json.object_cons_iff isMember_ambient]
      constructor
      · rintro ⟨others, -, list⟩
        exact absurd blank (list.shown Json.IsMember.shown).not_space
      · rintro ⟨some, -⟩
        exact absurd rfl some
  | filled list =>
      rw [content_of_splice_object front back made, Json.object_cons_iff isMember_ambient]
      constructor
      · rintro ⟨others, rfl, others_list⟩
        obtain rfl := Json.Object.unique (.filled list) (.filled others_list)
        exact ⟨list.ne_nil, rfl⟩
      · rintro ⟨-, rfl⟩
        exact ⟨given, rfl, list⟩

/-- An object on one line, with blanks inside and around it and with a brace and an escape in a
string. -/
theorem splice_object_iff_escaped :
    let text := Bytes.ofText "\x7b \"a\" : \"\\\"\x7d\" \x7d"
    ∃ request,
      splice ambientOpening (Bytes.ofText " \n" ++ text ++ Bytes.ofText "\n") Buffer.frame =
          some request ∧
        request.content =
          Bytes.ofText "\x7b\"op\":\"hook_ambient\", \"a\" : \"\\\"\x7d\" \x7d" ∧
        Json.Object [ambientMember, ⟨Bytes.ofText "\"a\"", Bytes.ofText "\"\\\"\x7d\""⟩]
          request.content := by
  intro text
  have name : Json.IsString (Bytes.ofText "\"a\"") :=
    Json.isString_of_plain "a" (by decide)
  have value : Json.IsString (Bytes.ofText "\"\\\"\x7d\"") :=
    .quoted (.cons (.short 0x22 (by decide)) (Json.pieces_of_plain ['}'] (by decide)))
  have space : Json.Space (Bytes.ofText " ") :=
    List.all_eq_true.mp (by decide)
  have member :
      Json.IsMember Json.IsValue ⟨Bytes.ofText "\"a\"", Bytes.ofText "\"\\\"\x7d\""⟩
        (Bytes.ofText " \"a\" : \"\\\"\x7d\" ") :=
    .named (.padded space name space) (.padded space (.scalar (.string value)) space)
  have object :
      Json.Object [⟨Bytes.ofText "\"a\"", Bytes.ofText "\"\\\"\x7d\""⟩] text :=
    .filled (.single member)
  have before : Json.Space (Bytes.ofText " \n") :=
    List.all_eq_true.mp (by decide)
  have after : Json.Space (Bytes.ofText "\n") :=
    List.all_eq_true.mp (by decide)
  obtain ⟨request, made⟩ :=
    exists_splice_object before after (Bytes.ofText " \"a\" : \"\\\"\x7d\" ") (by decide)
  refine ⟨request, made, content_of_splice_object before after made, ?_⟩
  exact (splice_object_iff before object after made _).mpr ⟨List.cons_ne_nil _ _, rfl⟩

/-- The empty object has no member to stand behind the comma. -/
theorem splice_empty_object :
    Json.Object [] (Bytes.ofText "\x7b\x7d") ∧
      ∃ request,
        splice ambientOpening (Bytes.ofText "\x7b\x7d") Buffer.frame = some request ∧
          request.content = Bytes.ofText "\x7b\"op\":\"hook_ambient\",\x7d" ∧
          ∀ found, ¬ Json.Object found request.content := by
  obtain ⟨request, made⟩ := exists_splice_object Json.space_nil Json.space_nil [] (by decide)
  have content := content_of_splice_object Json.space_nil Json.space_nil made
  refine ⟨.empty Json.space_nil, request, made, content, ?_⟩
  intro found object
  rw [content, Json.object_cons_iff isMember_ambient] at object
  obtain ⟨others, -, list⟩ := object
  exact (list.shown Json.IsMember.shown).not_space Json.space_nil

end Request
end HookRelay
