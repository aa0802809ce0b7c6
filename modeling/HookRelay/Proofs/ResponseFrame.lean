import HookRelay.Proofs.Arrival
import HookRelay.Proofs.Delivery
import HookRelay.Wire.Request
import Mathlib.Data.List.Infix

/-!
# The frame of a response

By the rule of the wire a response is what stands before the first line feed of all that the server
sends, as far as it fits, without its blank end.  The read loop does not look for the line feed
itself: it stops behind the read that brings it, and keeps what came with it in that read.

* `Exchange.framed`: the response by the rule of the wire.
* `Exchange.received`: what the reads up to the first line feed bring into a frame.
* `content_run`: the response that an exchange leaves is `received` without its blank end.

`response_eq_framed_iff` says when the two agree: for one way of splitting a stream into reads, if
nothing but blank bytes came behind the first line feed in the same read, and for all ways at once,
if nothing but blank bytes stands behind the first line feed at all.
-/

namespace HookRelay
namespace Exchange

/-- The response by the rule of the wire, from all that arrives. -/
def framed (stream : Bytes) : Bytes :=
  Bytes.trimEnd ((Bytes.firstLine stream).take (Buffer.frameCapacity - 1))

/-- What the reads up to the first line feed bring into a frame. -/
def received (script : List ReadEvent) : Bytes :=
  (Source.deliveredUntil endsResponse script).take (Buffer.frameCapacity - 1)

section Received

variable (script : List ReadEvent)

theorem received_prefix_take :
    received script <+: (Source.delivered script).take (Buffer.frameCapacity - 1) := by
  obtain ⟨left, whole, -⟩ := exists_delivered_eq_received script
  rw [whole]
  exact List.IsPrefix.take (List.prefix_append _ left) (Buffer.frameCapacity - 1)

/-- Up to the first line feed the two have the same bytes. -/
theorem framed_delivered :
    framed (Source.delivered script) = Bytes.trimEnd (Bytes.firstLine (received script)) := by
  rw [framed, received, Bytes.firstLine_take, firstLine_received]

/-- If only blank bytes stand from the first line feed on, it does not matter where the reads
end. -/
theorem trimEnd_received
    (blank : Bytes.Blank (Bytes.fromNewline (Source.delivered script))) :
    Bytes.trimEnd (received script) = framed (Source.delivered script) := by
  have front : received script <+: Source.delivered script :=
    (received_prefix_take script).trans (List.take_prefix _ _)
  rw [framed_delivered]
  exact Bytes.trimEnd_of_blank_fromNewline (Bytes.blank_fromNewline_mono front blank)

theorem received_single (stream : Bytes) :
    received [.data stream] = stream.take (Buffer.frameCapacity - 1) := by
  by_cases ends : stream = [] ∨ endsResponse stream = true
  · simp [received, Source.deliveredUntil, ends]
  · simp [received, Source.deliveredUntil, ends]

theorem delivered_single (stream : Bytes) : Source.delivered [.data stream] = stream := by
  by_cases empty : stream = [] <;> simp [Source.delivered, Source.deliveredUntil, empty]

end Received

section Run

variable (connection : Connection) (buffer : Buffer)

/-- The response that an exchange leaves in its buffer, and the length that it reports. -/
theorem content_run
    (frame : buffer.capacity = Buffer.frameCapacity)
    (sent : (connection.sink.writeEach [buffer.content, [Bytes.newline]]).1 = .ok ()) :
    (run connection buffer).buffer.content = Bytes.trimEnd (received connection.source.script) ∧
      (run connection buffer).result = .ok (run connection buffer).buffer.content.length := by
  rw [run_of_sent connection buffer sent]
  refine ⟨?_, rfl⟩
  rw [content_receive, frame, received]

end Run

/-- When the response is what the rule of the wire says it is, for one way of splitting the stream
into reads and for all of them. -/
theorem response_eq_framed_iff
    (connection : Connection)
    (buffer : Buffer)
    (stream : Bytes)
    (frame : buffer.capacity = Buffer.frameCapacity)
    (sent : (connection.sink.writeEach [buffer.content, [Bytes.newline]]).1 = .ok ()) :
    (∀ source : Source, Source.delivered source.script = stream →
      let exchange := run { connection with source := source } buffer
      let response := exchange.buffer.content
      exchange.result = .ok response.length ∧
        (response = framed stream ↔
          Bytes.Blank (Bytes.fromNewline (received source.script))) ∧
        (Bytes.newline ∉ response ↔
          Bytes.Blank (Bytes.fromNewline (received source.script)))) ∧
    ((∀ source : Source, Source.delivered source.script = stream →
        (run { connection with source := source } buffer).buffer.content = framed stream) ↔
      Bytes.Blank (Bytes.fromNewline (stream.take (Buffer.frameCapacity - 1)))) := by
  have response (source : Source) :=
    content_run { connection with source := source } buffer frame sent
  have agrees (source : Source) (whole : Source.delivered source.script = stream) :
      (run { connection with source := source } buffer).buffer.content = framed stream ↔
        Bytes.Blank (Bytes.fromNewline (received source.script)) := by
    rw [(response source).1, ← whole, framed_delivered]
    exact Bytes.trimEnd_eq_trimEnd_firstLine_iff _
  refine ⟨?_, ?_⟩
  · intro source whole
    refine ⟨(response source).2, agrees source whole, ?_⟩
    rw [(response source).1]
    exact Bytes.newline_notMem_trimEnd_iff _
  · constructor
    -- The stream in a single read is the way of splitting it that keeps most.
    · intro all
      have once := (agrees ⟨[.data stream], 0⟩ (delivered_single stream)).mp
        (all ⟨[.data stream], 0⟩ (delivered_single stream))
      rwa [received_single] at once
    · intro blank source whole
      refine (agrees source whole).mpr ?_
      have front := received_prefix_take source.script
      rw [whole] at front
      exact Bytes.blank_fromNewline_mono front blank

/-- In two reads and with an interruption, `ok` and a blank end arrive as `ok`. -/
theorem response_eq_framed_split :
    let connection : Connection :=
      ⟨Source.ofScript [], Sink.ofScript [.accept 1, .failure (.plain .interrupted)] none, 50⟩
    let buffer := Buffer.frame.push Request.subagentStart
    let source : Source := Source.ofScript
      [.data (Bytes.ofText "o"), .failure (.plain .interrupted), .data (Bytes.ofText "k\n \t")]
    buffer.capacity = Buffer.frameCapacity ∧
      (connection.sink.writeEach [buffer.content, [Bytes.newline]]).1 = .ok () ∧
      Source.delivered source.script = Bytes.ofText "ok\n \t" ∧
      (run { connection with source := source } buffer).buffer.content =
        framed (Bytes.ofText "ok\n \t") := by
  intro connection buffer source
  have frame : buffer.capacity = Buffer.frameCapacity := by
    simp [buffer, Buffer.frame]
  have sent : (connection.sink.writeEach [buffer.content, [Bytes.newline]]).1 = .ok () :=
    Sink.writeEach_of_willing _ (by decide)
  have whole : Source.delivered source.script = Bytes.ofText "ok\n \t" := by
    decide
  refine ⟨frame, sent, whole, ?_⟩
  refine ((response_eq_framed_iff connection buffer _ frame sent).1 source whole).2.1.mpr ?_
  decide +kernel

/-- What comes behind the first line feed in the same read is kept, although the rule of the wire
drops it. -/
theorem response_keeps_second_line :
    let connection : Connection :=
      ⟨Source.ofScript [.data (Bytes.ofText "a\nb")], Sink.ofScript [] none, 50⟩
    let buffer := Buffer.frame.push Request.subagentStart
    (run connection buffer).buffer.content = Bytes.ofText "a\nb" ∧
      framed (Source.delivered connection.source.script) = Bytes.ofText "a" := by
  intro connection buffer
  have frame : buffer.capacity = Buffer.frameCapacity := by
    simp [buffer, Buffer.frame]
  have sent : (connection.sink.writeEach [buffer.content, [Bytes.newline]]).1 = .ok () :=
    Sink.writeEach_of_willing _ (by decide)
  constructor
  · rw [(content_run connection buffer frame sent).1]
    decide
  · decide

end Exchange
end HookRelay
