import HookRelay.Wire.Request

/-!
# Splicing an ambient request

Whether an ambient request is made, and what it is, seen from the input: where its first opening
brace stands, and what is behind it up to the blank end.

* `splice_of_notMem`: without a brace there is no request.
* `splice_of_too_long`: there is none either if it would leave no byte to spare.
* `exists_splice`: otherwise there is one, it is not cut off, and its buffer keeps its cells.
-/

namespace HookRelay
namespace Request

theorem afterBrace_of_notMem
    {input : Bytes}
    (none : openingBrace ∉ input) :
    afterBrace input = .none := by
  induction input with
  | nil =>
      rfl
  | cons byte later ih =>
      have differs : byte ≠ openingBrace := by
        rintro rfl
        exact none List.mem_cons_self
      rw [afterBrace, if_neg differs]
      exact ih (fun mem => none (List.mem_cons_of_mem byte mem))

/-- What stands in front of the first opening brace is passed over. -/
theorem afterBrace_append
    {front : Bytes}
    (first : openingBrace ∉ front)
    (after : Bytes) :
    afterBrace (front ++ openingBrace :: after) = some after := by
  induction front with
  | nil =>
      simp [afterBrace]
  | cons byte later ih =>
      have differs : byte ≠ openingBrace := by
        rintro rfl
        exact first List.mem_cons_self
      rw [List.cons_append, afterBrace, if_neg differs]
      exact ih (fun mem => first (List.mem_cons_of_mem byte mem))

section Splice

variable (opening : Bytes) (buffer : Buffer)

theorem splice_of_notMem
    {input : Bytes}
    (none : openingBrace ∉ input) :
    splice opening input buffer = .none := by
  simp [splice, members, afterBrace_of_notMem none]

variable {front after : Bytes} (first : openingBrace ∉ front)
include first

theorem members_append :
    members (front ++ openingBrace :: after) = some (Bytes.trimEnd after) := by
  simp [members, afterBrace_append first]

theorem splice_of_too_long
    (long : buffer.capacity ≤ opening.length + (Bytes.trimEnd after).length) :
    splice opening (front ++ openingBrace :: after) buffer = .none := by
  simp [splice, members_append first, long]

theorem exists_splice
    (fits : opening.length + (Bytes.trimEnd after).length < buffer.capacity) :
    ∃ request,
      splice opening (front ++ openingBrace :: after) buffer = some request ∧
        request.content = opening ++ Bytes.trimEnd after ∧
        request.capacity = buffer.capacity := by
  let request := ((buffer.clear.push opening).push (Bytes.trimEnd after)).terminate
  have made : splice opening (front ++ openingBrace :: after) buffer = some request := by
    simp [splice, members_append first, fits, request]
  obtain ⟨rest, found, content⟩ := content_of_splice made
  rw [members_append first, Option.some.injEq] at found
  refine ⟨request, made, ?_, capacity_of_splice made⟩
  rw [content, found]

end Splice

theorem ne_nil_of_splice
    {opening input : Bytes} {buffer request : Buffer}
    (made : splice opening input buffer = some request) :
    input ≠ [] := by
  rintro rfl
  rw [splice_of_notMem opening buffer List.not_mem_nil] at made
  contradiction

end Request
end HookRelay
