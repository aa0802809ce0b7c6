import HookRelay.Buffer
import HookRelay.Stream.Source

/-!
# Reading into a buffer

Reads are made into the room that a buffer has left, one after the other, until a read returns
nothing, a read fails, the buffer is full, or a read returns a chunk after which the reading is to
stop.  An interrupted read is tried again.  A failure is not reported: what has arrived counts.

* `Intake.gather`: the reads against a script, by recursion on the script.  A chunk that is larger
  than the room fills the buffer, so nothing is read after it.
* `Source.readInto`: the reads from a source.
* `Source.capture`: all that fits of what a source delivers.

`gather_of_isFull` and `gather_of_not_isFull` are the law of the loop, one read at a time, and
`gather_preserves` says that the loop keeps what appending to the buffer keeps.
-/

namespace HookRelay

/-- The buffer, the script that is left, and the number of reads made. -/
structure Intake where
  buffer : Buffer
  script : List ReadEvent
  calls : Nat
deriving DecidableEq, Repr

namespace Intake

/-- The intake that goes on as `later` after one read. -/
def after (later : Intake) : Intake :=
  { later with calls := later.calls + 1 }

def gather (stop : Bytes → Bool) (buffer : Buffer) : List ReadEvent → Intake
  | [] =>
      ⟨buffer, [], if buffer.isFull then 0 else 1⟩
  | event :: later =>
      if buffer.isFull then
        ⟨buffer, event :: later, 0⟩
      else
        match event with
        | .failure error =>
            if error.isInterrupted then
              (gather stop buffer later).after
            else
              ⟨buffer, later, 1⟩
        | .data bytes =>
            if bytes.length ≤ buffer.room then
              if bytes = [] ∨ stop bytes then
                ⟨buffer.push bytes, later, 1⟩
              else
                (gather stop (buffer.push bytes) later).after
            else
              ⟨buffer.push bytes, .data (bytes.drop buffer.room) :: later, 1⟩

theorem gather_of_isFull
    (stop : Bytes → Bool) {buffer : Buffer} (full : buffer.isFull = true) :
    ∀ script : List ReadEvent, gather stop buffer script = ⟨buffer, script, 0⟩
  | [] => by
      simp [gather, full]
  | _ :: _ => by
      simp [gather, full]

/-- Otherwise one read is made, and what it returns decides whether the reading goes on. -/
theorem gather_of_not_isFull
    (stop : Bytes → Bool) {buffer : Buffer} (free : buffer.isFull = false)
    (script : List ReadEvent) :
    gather stop buffer script =
      match Source.meet buffer.room script with
      | (.ok bytes, left) =>
          if bytes = [] ∨ stop bytes then
            ⟨buffer.push bytes, left, 1⟩
          else
            (gather stop (buffer.push bytes) left).after
      | (.error error, left) =>
          if error.isInterrupted then
            (gather stop buffer left).after
          else
            ⟨buffer, left, 1⟩ := by
  cases script with
  | nil =>
      simp [gather, free, Source.meet, Buffer.push, Buffer.accepted, Buffer.fill, Buffer.advance]
  | cons event later =>
      cases event with
      | failure error =>
          simp [gather, free, Source.meet]
      | data bytes =>
          by_cases fits : bytes.length ≤ buffer.room
          · simp [gather, free, Source.meet, fits]
          · have same : buffer.push (bytes.take buffer.room) = buffer.push bytes := by
              have room : min buffer.room bytes.length = buffer.room := by omega
              simp only [Buffer.push, Buffer.fill, Buffer.accepted, List.length_take, room,
                List.take_take, Nat.min_self]
              simp only [Nat.min_comm bytes.length, room]
            have full : (buffer.push bytes).isFull = true := by
              simp only [Buffer.isFull, Buffer.room_push, beq_iff_eq]
              omega
            have first : gather stop buffer (.data bytes :: later) =
                ⟨buffer.push bytes, .data (bytes.drop buffer.room) :: later, 1⟩ := by
              simp [gather, free, fits]
            have met : Source.meet buffer.room (.data bytes :: later) =
                (.ok (bytes.take buffer.room), .data (bytes.drop buffer.room) :: later) := by
              simp [Source.meet, fits]
            rw [first, met]
            simp only [same, gather_of_isFull stop full, after, ite_self]

/-- All that the loop does to its buffer is to append to it. -/
theorem gather_preserves
    (kept : Buffer → Prop)
    (push : ∀ buffer bytes, kept buffer → kept (buffer.push bytes))
    (stop : Bytes → Bool) {buffer : Buffer} (start : kept buffer) (script : List ReadEvent) :
    kept (gather stop buffer script).buffer := by
  induction script generalizing buffer with
  | nil =>
      simpa [gather] using start
  | cons event later ih =>
      by_cases full : buffer.isFull = true
      · simpa [gather, full] using start
      · cases event with
        | failure error =>
            by_cases again : error.isInterrupted = true
            · simpa [gather, full, again, after] using ih start
            · simpa [gather, full, again] using start
        | data bytes =>
            have pushed := push buffer bytes start
            by_cases fits : bytes.length ≤ buffer.room
            · by_cases ends : bytes = [] ∨ stop bytes = true
              · simpa [gather, full, fits, ends] using pushed
              · simpa [gather, full, fits, ends, after] using ih pushed
            · simpa [gather, full, fits] using pushed

@[simp] theorem capacity_gather (stop : Bytes → Bool) (buffer : Buffer) (script : List ReadEvent) :
    (gather stop buffer script).buffer.capacity = buffer.capacity := by
  refine gather_preserves (fun other => other.capacity = buffer.capacity) ?_ stop rfl script
  intro other bytes same
  rw [Buffer.capacity_push, same]

theorem reserved_gather
    (stop : Bytes → Bool) {buffer : Buffer} (h : buffer.Reserved) (script : List ReadEvent) :
    (gather stop buffer script).buffer.Reserved :=
  gather_preserves Buffer.Reserved (fun _ bytes reserved => Buffer.reserved_push reserved bytes)
    stop h script

end Intake

namespace Source

def readInto (stop : Bytes → Bool) (buffer : Buffer) (source : Source) : Buffer × Source :=
  let intake := Intake.gather stop buffer source.script
  (intake.buffer, ⟨intake.script, source.calls + intake.calls⟩)

/-- Fill a buffer from its beginning with all that fits of what a source delivers. -/
def capture (buffer : Buffer) (source : Source) : Buffer × Source :=
  let (buffer, source) := source.readInto (fun _ => false) buffer.clear
  (buffer.terminate, source)

end Source

end HookRelay
