import HookRelay.Proofs.Lines
import HookRelay.Proofs.PlainBytes
import HookRelay.Proofs.Splicing

/-!
# The splice and its limits

Two limits meet in the splice of a request.  The splice is refused if the request and the byte that
ends it would not fit into the frame, and the buffer cuts off what does not fit in front of its last
cell.  The first limit is just strict enough for the second one never to be felt.

* `Request.Parts`: an input as it is seen by the splice: what is passed over, the first opening
  brace, what is sent, and a blank end.
* `members_noise`: what is sent does not depend on what is passed over and on the blank end.
* `splice_of_parts`: all cells of the buffer behind a splice.
* `splice_whole_or_unchanged`: the law of the splice, for every input and every buffer.
-/

namespace HookRelay
namespace Request

/-- The input is `front`, its first opening brace, `rest`, and its maximal blank end. -/
structure Parts (input front rest blanks : Bytes) : Prop where
  whole : input = front ++ openingBrace :: (rest ++ blanks)
  first : openingBrace ∉ front
  blank : Bytes.Blank blanks
  maximal : ∀ last ∈ rest.getLast?, Bytes.isBlank last = false

section Parts

variable {input front rest blanks : Bytes}

theorem Parts.trimEnd (parts : Parts input front rest blanks) :
    Bytes.trimEnd (rest ++ blanks) = rest := by
  rw [Bytes.trimEnd_append_blanks rest blanks parts.blank, Bytes.trimEnd_eq_self parts.maximal]

theorem Parts.members (parts : Parts input front rest blanks) : members input = some rest := by
  rw [parts.whole, members_append parts.first, parts.trimEnd]

/-- An input with a brace has parts. -/
theorem exists_parts (mem : openingBrace ∈ input) :
    ∃ front rest blanks, Parts input front rest blanks := by
  obtain ⟨front, after, whole, first⟩ := List.eq_append_cons_of_mem mem
  obtain ⟨blanks, split, blank⟩ := Bytes.exists_trimEnd_append after
  refine ⟨front, Bytes.trimEnd after, blanks, by rw [whole, ← split], first, blank, ?_⟩
  intro last found
  have some : Bytes.trimEnd after ≠ [] := by
    intro empty
    simp [empty] at found
  rw [List.getLast?_eq_some_getLast some, Option.mem_some_iff] at found
  exact found ▸ Bytes.isBlank_getLast_trimEnd after some

/-- Bytes without a brace in front of the input, and blank bytes behind it, have no influence on
what is sent. -/
theorem members_noise
    {noise tail : Bytes} (quiet : openingBrace ∉ noise) (blank : Bytes.Blank tail) :
    members (noise ++ input ++ tail) = members input := by
  by_cases mem : openingBrace ∈ input
  · obtain ⟨front, rest, blanks, parts⟩ := exists_parts mem
    have more : Parts (noise ++ input ++ tail) (noise ++ front) rest (blanks ++ tail) := by
      refine ⟨?_, ?_, ?_, parts.maximal⟩
      · simp [parts.whole]
      · simp [quiet, parts.first]
      · intro byte found
        exact (List.mem_append.mp found).elim (parts.blank byte) (blank byte)
    rw [more.members, parts.members]
  · have silent : openingBrace ∉ noise ++ input ++ tail := by
      intro found
      rcases List.mem_append.mp found with before | behind
      · exact (List.mem_append.mp before).elim quiet mem
      · exact absurd (blank openingBrace behind) (by decide)
    rw [Request.members, Request.members, afterBrace_of_notMem silent, afterBrace_of_notMem mem]

end Parts

section Splice

variable {opening input front rest blanks : Bytes} {buffer : Buffer}

theorem splice_of_parts
    (parts : Parts input front rest blanks)
    (fits : opening.length + rest.length < buffer.capacity) :
    splice opening input buffer =
      some ⟨opening ++ rest,
        0 :: (buffer.content ++ buffer.rest).drop (opening.length + rest.length + 1)⟩ := by
  have whole : (opening ++ rest).take (buffer.capacity - 1) = opening ++ rest := by
    refine List.take_of_length_le ?_
    rw [List.length_append]
    omega
  have filled := Buffer.terminate_push_clear (Nat.zero_lt_of_lt fits) (opening ++ rest)
  rw [← Buffer.push_push, whole] at filled
  rw [splice, parts.members]
  simp only [fits, if_true, filled, List.length_append]

theorem splice_of_parts_of_le
    (parts : Parts input front rest blanks)
    (long : buffer.capacity ≤ opening.length + rest.length) :
    splice opening input buffer = none := by
  rw [parts.whole]
  exact splice_of_too_long opening buffer parts.first (by rwa [parts.trimEnd])

end Splice

end Request

namespace Buffer

section Splice

variable {opening input front rest blanks : Bytes} {buffer : Buffer}

theorem perform_splice_of_parts
    (parts : Request.Parts input front rest blanks)
    (fits : opening.length + rest.length < buffer.capacity) :
    buffer.perform (.splice opening input) =
      (.request (some (opening.length + rest.length)),
        ⟨opening ++ rest,
          0 :: (buffer.content ++ buffer.rest).drop (opening.length + rest.length + 1)⟩) := by
  have made := Request.splice_of_parts parts fits
  simp only [perform, made, Buffer.length, List.length_append]

/-- Neither of two byte strings is cut off if together they leave a cell of a cleared buffer. -/
theorem accepted_of_fits (fits : opening.length + rest.length < buffer.capacity) :
    buffer.clear.accepted opening = opening.length ∧
      (buffer.clear.push opening).accepted rest = rest.length := by
  constructor
  · rw [accepted, room_clear]
    omega
  · rw [accepted, room_push, room_clear]
    omega

end Splice

/-- A splice makes the whole request, or it is refused and changes nothing; what stands in front of
the brace and blank bytes at the end make no difference. -/
theorem splice_whole_or_unchanged
    (opening input : Bytes)
    (buffer : Buffer)
    (frame : buffer.capacity = frameCapacity) :
    let performed := buffer.perform (.splice opening input)
    let refused :=
      Request.openingBrace ∉ input ∨
        ∃ front rest blanks, Request.Parts input front rest blanks ∧
          frameCapacity ≤ opening.length + rest.length
    (performed.1 = .request none ↔ refused) ∧
      (refused → performed.2 = buffer) ∧
      (∀ front rest blanks, Request.Parts input front rest blanks →
        opening.length + rest.length < frameCapacity →
        let length := opening.length + rest.length
        performed =
            (.request (some length),
              ⟨opening ++ rest, 0 :: (buffer.content ++ buffer.rest).drop (length + 1)⟩) ∧
          buffer.clear.accepted opening = opening.length ∧
          (buffer.clear.push opening).accepted rest = rest.length ∧
          length ≤ frameCapacity - 1 ∧
          (opening ++ rest ++ [Bytes.newline]).length ≤ frameCapacity) ∧
      ∀ noise tail, Request.openingBrace ∉ noise → Bytes.Blank tail →
        buffer.perform (.splice opening (noise ++ input ++ tail)) = performed := by
  intro performed refused
  have none_of_refused : refused → performed = (.request none, buffer) := by
    intro refusal
    have made : Request.splice opening input buffer = none := by
      rcases refusal with absent | ⟨front, rest, blanks, parts, long⟩
      · exact Request.splice_of_notMem opening buffer absent
      · exact Request.splice_of_parts_of_le parts (frame ▸ long)
    simp only [performed, perform, made]
  refine ⟨⟨?_, ?_⟩, ?_, ?_, ?_⟩
  · intro none
    by_contra accepted
    obtain ⟨mem, fits⟩ := not_or.mp accepted
    obtain ⟨front, rest, blanks, parts⟩ := Request.exists_parts (not_not.mp mem)
    have short : opening.length + rest.length < frameCapacity :=
      Nat.lt_of_not_le fun long => fits ⟨front, rest, blanks, parts, long⟩
    have made := perform_splice_of_parts parts (frame ▸ short)
    rw [show performed = _ from made] at none
    simp at none
  · exact fun refusal => congrArg Prod.fst (none_of_refused refusal)
  · exact fun refusal => congrArg Prod.snd (none_of_refused refusal)
  · intro front rest blanks parts fits length
    have made := perform_splice_of_parts parts (frame ▸ fits)
    obtain ⟨start, follow⟩ := accepted_of_fits (frame ▸ fits)
    refine ⟨made, start, follow, by omega, ?_⟩
    simp only [List.length_append, List.length_singleton]
    omega
  · intro noise tail quiet blank
    simp only [performed, perform, Request.splice, Request.members_noise quiet blank]

/-- At the size of the frame, in a buffer that held a request before: with an opening of one byte
less the request takes up all the room, with that byte it is refused. -/
theorem splice_whole_or_unchanged_boundary :
    let buffer := frame.push Request.subagentStart
    let input := Bytes.ofText "x\x7b\"a\":1\x7d\n"
    let noisy := Bytes.ofText "yz" ++ input ++ Bytes.ofText " \t"
    let shorter : Bytes := List.replicate 65529 0x61
    let longer : Bytes := List.replicate 65530 0x61
    (buffer.perform (.splice shorter input)).1 = .request (some 65535) ∧
      (buffer.perform (.splice shorter input)).2.content =
        shorter ++ Bytes.ofText "\"a\":1\x7d" ∧
      buffer.perform (.splice shorter noisy) = buffer.perform (.splice shorter input) ∧
      buffer.perform (.splice longer input) = (.request none, buffer) := by
  intro buffer input noisy shorter longer
  have cells : buffer.capacity = frameCapacity := by
    rw [capacity_push, frame, capacity_new]
  have parts :
      Request.Parts input (Bytes.ofText "x") (Bytes.ofText "\"a\":1\x7d") [Bytes.newline] :=
    ⟨by decide, by decide, by decide +kernel, by decide +kernel⟩
  have size : (Bytes.ofText "\"a\":1\x7d").length = 6 := by
    decide
  have fits : shorter.length + (Bytes.ofText "\"a\":1\x7d").length = 65535 := by
    rw [size, List.length_replicate]
  have long : frameCapacity ≤ longer.length + (Bytes.ofText "\"a\":1\x7d").length := by
    rw [size, List.length_replicate, frameCapacity]
  obtain ⟨-, -, whole, quiet⟩ := splice_whole_or_unchanged shorter input buffer cells
  obtain ⟨performed, -⟩ := whole _ _ _ parts (by rw [fits]; decide)
  obtain ⟨refused, unchanged, -⟩ := splice_whole_or_unchanged longer input buffer cells
  refine ⟨?_, ?_, quiet _ _ (by decide) (by decide +kernel), ?_⟩
  · rw [performed, fits]
  · rw [performed]
  · exact Prod.ext (refused.mpr (Or.inr ⟨_, _, _, parts, long⟩))
      (unchanged (Or.inr ⟨_, _, _, parts, long⟩))

end Buffer
end HookRelay
