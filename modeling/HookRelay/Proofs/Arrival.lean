import HookRelay.Proofs.Lines
import HookRelay.Wire.Exchange

/-!
# What arrives through reads

How a byte string is cut into reads, and how often a read is interrupted, is up to whoever sends.
This module says what a script of reads delivers without a buffer in sight, and that a buffer
receives exactly the part of it that fits.

* `Source.deliveredUntil`: the data of the reads up to the one that ends the reading.
* `Source.delivered`: the same where only the end, an empty read or a failure ends it.
* `buffer_gather`: the buffer after the read loop.  `content_capture` and `content_receive` are
  its cases for standard input and for a response.

Stopping early leaves an initial segment of what would have arrived, and cuts nothing off unless
it holds a line feed (`exists_delivered_eq_append`).
-/

namespace HookRelay

namespace Source

/-- The data of the reads of a script, in order, up to the end, an empty read, a failure other than
an interruption, or a chunk after which the reading is to stop. -/
def deliveredUntil (stop : Bytes → Bool) : List ReadEvent → Bytes
  | [] =>
      []
  | .failure error :: later =>
      if error.isInterrupted then
        deliveredUntil stop later
      else
        []
  | .data bytes :: later =>
      if bytes = [] ∨ stop bytes then
        bytes
      else
        bytes ++ deliveredUntil stop later

/-- The data of the reads of a script up to the end, an empty read or a failure other than an
interruption. -/
def delivered (script : List ReadEvent) : Bytes :=
  deliveredUntil (fun _ => false) script

/-- Where the reading is to stop decides how much of the delivered data is taken.  Something is left
only behind a chunk that ends the reading. -/
theorem exists_delivered_eq_append (stop : Bytes → Bool) (script : List ReadEvent) :
    ∃ left,
      delivered script = deliveredUntil stop script ++ left ∧
        (left ≠ [] → ∃ chunk, stop chunk = true ∧ chunk <:+ deliveredUntil stop script) := by
  induction script with
  | nil =>
      exact ⟨[], rfl, fun some => absurd rfl some⟩
  | cons event later ih =>
      obtain ⟨left, whole, chunk⟩ := ih
      cases event with
      | failure error =>
          by_cases again : error.isInterrupted = true
          · refine ⟨left, ?_, ?_⟩
            · simpa [delivered, deliveredUntil, again] using whole
            · simpa [deliveredUntil, again] using chunk
          · exact ⟨[], by simp [delivered, deliveredUntil, again], fun some => absurd rfl some⟩
      | data bytes =>
          by_cases empty : bytes = []
          · exact ⟨[], by simp [delivered, deliveredUntil, empty], fun some => absurd rfl some⟩
          · by_cases ends : stop bytes = true
            · refine ⟨delivered later, ?_, ?_⟩
              · simp [delivered, deliveredUntil, empty, ends]
              · intro _
                exact ⟨bytes, ends, by simp [deliveredUntil, ends]⟩
            · refine ⟨left, ?_, ?_⟩
              · simpa [delivered, deliveredUntil, empty, ends] using whole
              · intro some
                obtain ⟨last, stops, suffix⟩ := chunk some
                refine ⟨last, stops, ?_⟩
                have longer := suffix.trans (List.suffix_append bytes _)
                simpa [deliveredUntil, empty, ends] using longer

end Source

namespace Intake

/-- The read loop does what pushing all that the script delivers does. -/
theorem buffer_gather (stop : Bytes → Bool) (buffer : Buffer) (script : List ReadEvent) :
    (gather stop buffer script).buffer = buffer.push (Source.deliveredUntil stop script) := by
  induction script generalizing buffer with
  | nil =>
      simp [gather, Source.deliveredUntil, Buffer.push_eq, Buffer.accepted]
  | cons event later ih =>
      by_cases full : buffer.isFull = true
      · rw [gather_of_isFull stop full, Buffer.push_of_isFull full]
      · cases event with
        | failure error =>
            by_cases again : error.isInterrupted = true
            · simp [gather, full, again, after, Source.deliveredUntil, ih]
            · simp [gather, full, again, Source.deliveredUntil, Buffer.push_eq, Buffer.accepted]
        | data bytes =>
            by_cases ends : bytes = [] ∨ stop bytes = true
            · by_cases fits : bytes.length ≤ buffer.room
              · simp [gather, full, fits, ends, Source.deliveredUntil]
              · simp [gather, full, fits, ends, Source.deliveredUntil]
            · by_cases fits : bytes.length ≤ buffer.room
              · simp [gather, full, fits, ends, after, Source.deliveredUntil, ih, Buffer.push_push]
              -- The chunk alone fills the buffer, so it does not matter what would come behind it.
              · have filled : (buffer.push bytes).isFull = true := by
                  simp only [Buffer.isFull, Buffer.room_push, beq_iff_eq]
                  omega
                have only := Buffer.push_of_isFull filled (Source.deliveredUntil stop later)
                simp [gather, full, fits, ends, Source.deliveredUntil, ← Buffer.push_push, only]

end Intake

namespace Source

theorem content_readInto (stop : Bytes → Bool) (buffer : Buffer) (source : Source) :
    (source.readInto stop buffer).1.content =
      buffer.content ++ (deliveredUntil stop source.script).take buffer.room := by
  rw [readInto, Intake.buffer_gather, Buffer.content_push]

/-- A buffer that is filled from its beginning holds what fits of the delivered data. -/
theorem content_capture (buffer : Buffer) (source : Source) :
    (source.capture buffer).1.content =
      (delivered source.script).take (buffer.capacity - 1) := by
  simp [capture, content_readInto, delivered, Buffer.room_clear]

end Source

namespace Exchange

/-- A response is what fits of the data up to and with the first chunk that holds a line feed,
without its blank end. -/
theorem content_receive (buffer : Buffer) (source : Source) :
    (receive buffer source).1.content =
      Bytes.trimEnd
        ((Source.deliveredUntil endsResponse source.script).take (buffer.capacity - 1)) := by
  simp [receive, Source.content_readInto, Buffer.room_clear]

theorem endsResponse_iff (chunk : Bytes) :
    endsResponse chunk = true ↔ Bytes.newline ∈ chunk := by
  simp [endsResponse]

/-- What is received up to a line feed is all that arrives, or it holds a line feed. -/
theorem exists_delivered_eq_received (script : List ReadEvent) :
    ∃ left,
      Source.delivered script = Source.deliveredUntil endsResponse script ++ left ∧
        (left ≠ [] → Bytes.newline ∈ Source.deliveredUntil endsResponse script) := by
  obtain ⟨left, whole, chunk⟩ := Source.exists_delivered_eq_append endsResponse script
  refine ⟨left, whole, ?_⟩
  intro some
  obtain ⟨last, ends, suffix⟩ := chunk some
  exact suffix.subset ((endsResponse_iff last).mp ends)

/-- The first line that is received is the first line of all that arrives. -/
theorem firstLine_received (script : List ReadEvent) :
    Bytes.firstLine (Source.deliveredUntil endsResponse script) =
      Bytes.firstLine (Source.delivered script) := by
  obtain ⟨left, whole, ends⟩ := exists_delivered_eq_received script
  rw [whole]
  by_cases none : left = []
  · rw [none, List.append_nil]
  · rw [Bytes.firstLine_append_of_mem (ends none)]

end Exchange

end HookRelay
