import HookRelay.Proofs.Arrival
import Mathlib.Data.List.Infix

/-!
# The reads of a read loop

A read loop is seen from outside as the list of the reads that it makes: each is offered the room
that the ones before it have left, and the loop ends behind the first read with which it may end.

* `Source.reads`: a number of reads, one after the other.
* `Source.gathered`: the data that reads have returned.
* `Source.Finished`: the room is used up, or the latest read is one behind which no other is made.
* `Source.FirstFinished`: that is so behind the last read of a list, and behind none before it.

`exists_reads_readInto` says that the loop makes exactly the reads of such a list, and appends the
data that they return.  `gathered_reads_append_unread` says that any reads return the data in order
and leave the rest.
-/

namespace HookRelay

namespace Source

/-- The outcomes of that many reads, each offered the room that those before it have left, and the
source behind them. -/
def reads : Nat → Nat → Source → List (Except IoError Bytes) × Source
  | 0, _, source =>
      ([], source)
  | count + 1, room, source =>
      let first := source.read room
      let later := reads count (room - (taken first.1).length) first.2
      (first.1 :: later.1, later.2)

/-- The data that reads have returned, in order. -/
def gathered (outcomes : List (Except IoError Bytes)) : Bytes :=
  outcomes.flatMap taken

/-- No read is made behind one that returned nothing, that returned a chunk after which the reading
is to stop, or that failed and was not merely interrupted. -/
def IsLast (stop : Bytes → Bool) : Except IoError Bytes → Prop
  | .ok chunk => chunk = [] ∨ stop chunk = true
  | .error error => error.isInterrupted = false

/-- The room is used up, or no read is made behind the latest. -/
def Finished (stop : Bytes → Bool) (room : Nat) (outcomes : List (Except IoError Bytes)) : Prop :=
  room ≤ (gathered outcomes).length ∨ ∃ latest ∈ outcomes.getLast?, IsLast stop latest

/-- The reading is finished behind all of the reads, and behind none of the reads before. -/
structure FirstFinished
    (stop : Bytes → Bool)
    (room : Nat)
    (outcomes : List (Except IoError Bytes)) : Prop where
  finished : Finished stop room outcomes
  first : ∀ passed, passed <+: outcomes → passed ≠ outcomes → ¬ Finished stop room passed

/-- Reads return what comes first in the unread data, in order, and leave the rest. -/
theorem gathered_reads_append_unread (count room : Nat) (source : Source) :
    gathered (source.reads count room).1 ++ (source.reads count room).2.unread =
      source.unread := by
  induction count generalizing room source with
  | zero =>
      rfl
  | succ count ih =>
      have first := unread_read room source
      have later := ih (room - (taken (source.read room).1).length) (source.read room).2
      rw [← first, ← later, reads, gathered, List.flatMap_cons, List.append_assoc]
      rfl

section Finished

variable {stop : Bytes → Bool} {room : Nat}

theorem finished_nil_iff : Finished stop room [] ↔ room = 0 := by
  simp [Finished, gathered]

theorem finished_cons_iff
    (outcome : Except IoError Bytes) (outcomes : List (Except IoError Bytes)) :
    Finished stop room (outcome :: outcomes) ↔
      Finished stop (room - (taken outcome).length) outcomes ∨
        outcomes = [] ∧ IsLast stop outcome := by
  have amount :
      (gathered (outcome :: outcomes)).length =
        (taken outcome).length + (gathered outcomes).length := by
    simp [gathered]
  simp only [Finished, amount, Nat.sub_le_iff_le_add']
  cases outcomes with
  | nil =>
      simp
  | cons second others =>
      simp [List.getLast?_cons]

theorem firstFinished_nil (full : room = 0) : FirstFinished stop room [] := by
  refine ⟨finished_nil_iff.mpr full, ?_⟩
  intro passed front other
  exact absurd (List.prefix_nil.mp front) other

/-- A read that does not end the reading is followed by the reads into the room it leaves. -/
theorem FirstFinished.cons
    {outcome : Except IoError Bytes} {outcomes : List (Except IoError Bytes)}
    (free : room ≠ 0)
    (more : ¬ IsLast stop outcome)
    (later : FirstFinished stop (room - (taken outcome).length) outcomes) :
    FirstFinished stop room (outcome :: outcomes) := by
  refine ⟨(finished_cons_iff _ _).mpr (Or.inl later.finished), ?_⟩
  intro passed front other done
  rcases List.prefix_cons_iff.mp front with rfl | ⟨rest, rfl, initial⟩
  · exact free (finished_nil_iff.mp done)
  · rcases (finished_cons_iff _ _).mp done with before | ⟨-, last⟩
    · exact later.first rest initial (fun same => other (by rw [same])) before
    · exact more last

/-- A read behind which no other is made is the only one if there is room for it. -/
theorem firstFinished_singleton
    {outcome : Except IoError Bytes}
    (free : room ≠ 0)
    (ends : room ≤ (taken outcome).length ∨ IsLast stop outcome) :
    FirstFinished stop room [outcome] := by
  refine ⟨(finished_cons_iff _ _).mpr ?_, ?_⟩
  · rcases ends with full | last
    · exact Or.inl (finished_nil_iff.mpr (Nat.sub_eq_zero_of_le full))
    · exact Or.inr ⟨rfl, last⟩
  · intro passed front other done
    rcases List.prefix_cons_iff.mp front with rfl | ⟨rest, rfl, initial⟩
    · exact free (finished_nil_iff.mp done)
    · exact other (by rw [List.prefix_nil.mp initial])

/-- A read behind which another is made is not a last one. -/
theorem FirstFinished.not_isLast
    {outcomes : List (Except IoError Bytes)} {outcome : Except IoError Bytes}
    (reading : FirstFinished stop room outcomes)
    (before : outcome ∈ outcomes.dropLast) :
    ¬ IsLast stop outcome := by
  intro last
  obtain ⟨front, back, parts⟩ := List.append_of_mem before
  have initial : front ++ [outcome] <+: outcomes.dropLast :=
    ⟨back, by rw [parts, List.append_assoc, List.singleton_append]⟩
  have shorter := initial.length_le
  refine reading.first (front ++ [outcome]) (initial.trans (List.dropLast_prefix outcomes)) ?_ ?_
  · intro same
    rw [same, List.length_dropLast] at shorter
    have some : 0 < outcomes.length := by
      rw [← same]
      simp
    omega
  · exact Or.inr ⟨outcome, by simp, last⟩

end Finished

end Source

namespace Intake

open Source

/-- An intake comes from reads that are made from a script into a buffer: they leave that script
behind, their data is appended, and they end where the loop may end for the first time. -/
structure Made
    (stop : Bytes → Bool)
    (buffer : Buffer)
    (script : List ReadEvent)
    (outcomes : List (Except IoError Bytes))
    (intake : Intake) : Prop where
  reads : ∀ calls,
    (Source.mk script calls).reads outcomes.length buffer.room =
      (outcomes, ⟨intake.script, calls + intake.calls⟩)
  content : intake.buffer.content = buffer.content ++ gathered outcomes
  firstFinished : FirstFinished stop buffer.room outcomes

section Made

variable {stop : Bytes → Bool} {buffer next : Buffer} {script left : List ReadEvent}
  {outcome : Except IoError Bytes}

theorem reads_succ_of_meet
    {room : Nat}
    (met : meet room script = (outcome, left))
    (count calls : Nat) :
    (Source.mk script calls).reads (count + 1) room =
      let later := (Source.mk left (calls + 1)).reads count (room - (taken outcome).length)
      (outcome :: later.1, later.2) := by
  simp [Source.reads, Source.read, met]

theorem made_nil (full : buffer.isFull = true) :
    Made stop buffer script [] ⟨buffer, script, 0⟩ := by
  refine ⟨fun calls => rfl, by simp [gathered], firstFinished_nil ?_⟩
  simpa [Buffer.isFull] using full

theorem made_singleton
    (free : buffer.room ≠ 0)
    (met : meet buffer.room script = (outcome, left))
    (content : next.content = buffer.content ++ taken outcome)
    (ends : buffer.room ≤ (taken outcome).length ∨ IsLast stop outcome) :
    Made stop buffer script [outcome] ⟨next, left, 1⟩ := by
  refine ⟨?_, by simpa [gathered] using content, firstFinished_singleton free ends⟩
  intro calls
  exact reads_succ_of_meet met 0 calls

theorem Made.cons
    {intake : Intake} {outcomes : List (Except IoError Bytes)}
    (later : Made stop next left outcomes intake)
    (free : buffer.room ≠ 0)
    (met : meet buffer.room script = (outcome, left))
    (content : next.content = buffer.content ++ taken outcome)
    (room : next.room = buffer.room - (taken outcome).length)
    (more : ¬ IsLast stop outcome) :
    Made stop buffer script (outcome :: outcomes) intake.after := by
  refine ⟨?_, ?_, ?_⟩
  · intro calls
    have rest := later.reads (calls + 1)
    rw [room] at rest
    rw [List.length_cons, reads_succ_of_meet met, rest, after]
    simp only [Prod.mk.injEq, Source.mk.injEq, true_and]
    omega
  · rw [after, later.content, content, List.append_assoc, gathered, gathered, List.flatMap_cons]
  · refine FirstFinished.cons free more ?_
    rw [← room]
    exact later.firstFinished

end Made

/-- The read loop makes the reads up to the first with which it may end. -/
theorem exists_made (stop : Bytes → Bool) (buffer : Buffer) (script : List ReadEvent) :
    ∃ outcomes, Made stop buffer script outcomes (gather stop buffer script) := by
  induction script generalizing buffer with
  | nil =>
      by_cases full : buffer.isFull = true
      · rw [gather_of_isFull stop full]
        exact ⟨[], made_nil full⟩
      · have free : buffer.room ≠ 0 := by
          simpa [Buffer.isFull] using full
        refine ⟨[.ok []], ?_⟩
        simp only [gather, full, Bool.false_eq_true, if_false]
        exact made_singleton free rfl (by simp [taken]) (Or.inr (Or.inl rfl))
  | cons event later ih =>
      by_cases full : buffer.isFull = true
      · rw [gather_of_isFull stop full]
        exact ⟨[], made_nil full⟩
      · have free : buffer.room ≠ 0 := by
          simpa [Buffer.isFull] using full
        cases event with
        | failure error =>
            by_cases again : error.isInterrupted = true
            · obtain ⟨outcomes, made⟩ := ih buffer
              refine ⟨.error error :: outcomes, ?_⟩
              simp only [gather, full, again, Bool.false_eq_true, if_false, if_true]
              exact made.cons free rfl (by simp [taken]) rfl (by simp [IsLast, again])
            · have final : error.isInterrupted = false := by
                simpa using again
              refine ⟨[.error error], ?_⟩
              simp only [gather, full, again, Bool.false_eq_true, if_false]
              exact made_singleton free rfl (by simp [taken]) (Or.inr final)
        | data bytes =>
            by_cases fits : bytes.length ≤ buffer.room
            · have met : meet buffer.room (.data bytes :: later) = (.ok bytes, later) := by
                simp [meet, fits]
              have content : (buffer.push bytes).content = buffer.content ++ bytes := by
                rw [Buffer.content_push, List.take_of_length_le fits]
              by_cases ends : bytes = [] ∨ stop bytes = true
              · refine ⟨[.ok bytes], ?_⟩
                simp only [gather, full, fits, ends, Bool.false_eq_true, if_false, if_true]
                exact made_singleton free met content (Or.inr ends)
              · obtain ⟨outcomes, made⟩ := ih (buffer.push bytes)
                refine ⟨.ok bytes :: outcomes, ?_⟩
                simp only [gather, full, fits, ends, Bool.false_eq_true, if_false, if_true]
                exact made.cons free met content (Buffer.room_push buffer bytes) ends
            -- The chunk is cut at the end of the room, and what is left of it stays in front.
            · have met : meet buffer.room (.data bytes :: later) =
                  (.ok (bytes.take buffer.room), .data (bytes.drop buffer.room) :: later) := by
                simp [meet, fits]
              refine ⟨[.ok (bytes.take buffer.room)], ?_⟩
              simp only [gather, full, fits, Bool.false_eq_true, if_false]
              refine made_singleton free met (Buffer.content_push buffer bytes) (Or.inl ?_)
              simp only [taken, List.length_take]
              omega

end Intake

namespace Source

/-- What a read loop takes from a source: the reads up to the first with which it may end, whose
data is appended to the buffer. -/
theorem exists_reads_readInto (stop : Bytes → Bool) (buffer : Buffer) (source : Source) :
    ∃ outcomes,
      source.reads outcomes.length buffer.room = (outcomes, (source.readInto stop buffer).2) ∧
        (source.readInto stop buffer).1.content = buffer.content ++ gathered outcomes ∧
        FirstFinished stop buffer.room outcomes := by
  obtain ⟨outcomes, made⟩ := Intake.exists_made stop buffer source.script
  exact ⟨outcomes, made.reads source.calls, made.content, made.firstFinished⟩

end Source

end HookRelay
