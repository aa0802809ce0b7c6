import HookRelay.Buffer

/-!
# Requests

A request is one JSON object on a line of its own.  The request of the ambient hook is made from
the JSON object on standard input without reading it as JSON: everything up to and with its first
opening brace is exchanged for the beginning of an object that names the operation.

* `Request.ambientOpening`, `Request.subagentStart`: the fixed texts.
* `Request.afterBrace`: what follows the first opening brace.
* `Request.splice`: the ambient request, put into a buffer.  `content_of_splice` says that a
  request is never cut off.
-/

namespace HookRelay
namespace Request

def openingBrace : UInt8 := 0x7b

def ambientOpening : Bytes :=
  Bytes.ofText "\x7b\"op\":\"hook_ambient\","

/-- The request for the context of a subagent. -/
def subagentStart : Bytes :=
  Bytes.ofText "\x7b\"op\":\"hook_ambient\",\"type\":\"subagent-start\"\x7d"

def afterBrace : Bytes → Option Bytes
  | [] => none
  | byte :: later =>
      if byte = openingBrace then
        some later
      else
        afterBrace later

/-- What follows the first opening brace, without trailing blank bytes. -/
def members (input : Bytes) : Option Bytes :=
  (afterBrace input).map Bytes.trimEnd

/-- Put the opening and what follows the first opening brace of the input into a buffer, if there
is a brace and all of it fits with one byte to spare. -/
def splice (opening input : Bytes) (buffer : Buffer) : Option Buffer :=
  match members input with
  | none => none
  | some rest =>
      if opening.length + rest.length < buffer.capacity then
        some (((buffer.clear.push opening).push rest).terminate)
      else
        none

/-- A request that is made holds the opening and the members whole. -/
theorem content_of_splice
    {opening input : Bytes} {buffer request : Buffer}
    (h : splice opening input buffer = some request) :
    ∃ rest, members input = some rest ∧ request.content = opening ++ rest := by
  unfold splice at h
  split at h
  · contradiction
  · rename_i rest found
    split at h
    · rename_i fits
      refine ⟨rest, found, ?_⟩
      have first : opening.length ≤ buffer.clear.room := by
        rw [Buffer.room_clear]
        omega
      have second : rest.length ≤ (buffer.clear.push opening).room := by
        rw [Buffer.room_push, Buffer.room_clear]
        omega
      rw [← Option.some.inj h]
      simp [List.take_of_length_le first, List.take_of_length_le second]
    · contradiction

theorem capacity_of_splice
    {opening input : Bytes} {buffer request : Buffer}
    (h : splice opening input buffer = some request) :
    request.capacity = buffer.capacity := by
  unfold splice at h
  split at h
  · contradiction
  · split at h
    · rw [← Option.some.inj h]
      simp
    · contradiction

end Request
end HookRelay
