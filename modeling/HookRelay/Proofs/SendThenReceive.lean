import HookRelay.Proofs.Delivery
import HookRelay.Proofs.ReadLoop
import HookRelay.Proofs.ResponseFrame
import HookRelay.Wire.Request

/-!
# Sending a request, then receiving its response

An exchange uses one buffer twice.  The two laws of this module say that the uses do not mix.

* `sends_whole_or_changes_nothing`: a request is taken whole and in order before anything else
  happens, or the exchange fails with the error that stopped it and has changed nothing else.
* `response_of_reads`: the reads that are made for the response, where they end, and that the
  response is what they brought.  A read is the last if it brings nothing or a line feed, if it
  fails and is not merely interrupted, or if the frame is full.

`Source.Ended` is how the data of a connection may end: it is closed, an empty read, or a failure.
`deliveredUntil_append_of_ended` says that the ways to end are all the same.
-/

namespace HookRelay

namespace Source

/-- The next read ends the reading: nothing is there, or the connection fails. -/
def Ended : List ReadEvent → Prop
  | [] => True
  | .data bytes :: _ => bytes = []
  | .failure error :: _ => error.isInterrupted = false

theorem deliveredUntil_of_ended
    (stop : Bytes → Bool) {ending : List ReadEvent} (ended : Ended ending) :
    deliveredUntil stop ending = [] := by
  cases ending with
  | nil =>
      rfl
  | cons event later =>
      cases event with
      | data bytes =>
          have empty : bytes = [] := ended
          simp [deliveredUntil, empty]
      | failure error =>
          have final : error.isInterrupted = false := ended
          simp [deliveredUntil, final]

/-- How the data ends has no influence on what is delivered. -/
theorem deliveredUntil_append_of_ended
    (stop : Bytes → Bool) (front : List ReadEvent)
    {ending : List ReadEvent} (ended : Ended ending) :
    deliveredUntil stop (front ++ ending) = deliveredUntil stop front := by
  induction front with
  | nil =>
      exact deliveredUntil_of_ended stop ended
  | cons event later ih =>
      cases event with
      | data bytes =>
          simp [deliveredUntil, ih]
      | failure error =>
          simp [deliveredUntil, ih]

end Source

namespace Exchange

section Receive

/-- The reads of a response, and the response. -/
theorem exists_reads_receive (buffer : Buffer) (source : Source) :
    ∃ outcomes,
      source.reads outcomes.length (buffer.capacity - 1) =
          (outcomes, (receive buffer source).2) ∧
        Source.FirstFinished endsResponse (buffer.capacity - 1) outcomes ∧
        (receive buffer source).1.content = Bytes.trimEnd (Source.gathered outcomes) := by
  obtain ⟨outcomes, made, content, reading⟩ :=
    Source.exists_reads_readInto endsResponse buffer.clear source
  rw [Buffer.room_clear] at made reading
  refine ⟨outcomes, made, reading, ?_⟩
  rw [receive, Buffer.content_trim, content, Buffer.content_clear, List.nil_append]

/-- The data of all reads but the last is without a line feed, so that it is enough to look for one
in the latest. -/
theorem newline_notMem_gathered_dropLast
    {room : Nat} {outcomes : List (Except IoError Bytes)}
    (reading : Source.FirstFinished endsResponse room outcomes) :
    Bytes.newline ∉ Source.gathered outcomes.dropLast := by
  intro mem
  obtain ⟨outcome, before, inside⟩ := List.mem_flatMap.mp mem
  refine reading.not_isLast before ?_
  cases outcome with
  | ok chunk =>
      exact Or.inr ((endsResponse_iff chunk).mpr inside)
  | error error =>
      exact absurd inside List.not_mem_nil

theorem head?_rest_receive {buffer : Buffer} (some : 0 < buffer.capacity) (source : Source) :
    (receive buffer source).1.rest.head? = .some 0 := by
  have cleared : buffer.clear.Reserved := by
    rw [Buffer.reserved_iff, Buffer.capacity_clear]
    exact some
  exact Buffer.head?_rest_trim (Intake.reserved_gather endsResponse cleared source.script)

end Receive

/-- A request is taken whole before its buffer is used again, or the exchange fails with the error
that stopped a write, has read nothing and leaves all cells of the buffer as they were. -/
theorem sends_whole_or_changes_nothing (connection : Connection) (buffer : Buffer) :
    let pieces := [buffer.content, [Bytes.newline]]
    let request := buffer.content ++ [Bytes.newline]
    let before := connection.sink
    let exchange := run connection buffer
    let after := exchange.connection.sink
    (∃ taken, after.written = before.written ++ taken ∧ taken <+: request) ∧
    ((∀ passed error, ¬ Sink.Stopped pieces before.script passed error) →
      after.written = before.written ++ request ∧
        exchange.result = .ok exchange.buffer.length) ∧
    (∀ passed error, Sink.Stopped pieces before.script passed error →
      exchange.result = .error (.send error) ∧
        (∃ taken,
          after.written = before.written ++ taken ∧
            taken ++ (Sink.remaining pieces passed).flatten = request) ∧
        exchange.connection.source = connection.source ∧
        exchange.buffer = buffer) ∧
    after.flushes = before.flushes := by
  intro pieces request before exchange after
  have whole : pieces.flatten = request := by
    simp [pieces, request]
  have sink : after = (before.writeEach pieces).2 := sink_run connection buffer
  obtain ⟨taken, written, initial, all⟩ := Sink.written_writeEach pieces before
  rw [whole] at initial all
  refine ⟨⟨taken, by rw [sink, written], initial⟩, ?_, ?_, ?_⟩
  · intro free
    have sent := Sink.writeEach_of_not_stopped free
    refine ⟨by rw [sink, written, all sent], ?_⟩
    simp [exchange, run_of_sent connection buffer sent]
  · intro passed error stopped
    obtain ⟨failed, begun, kept, left⟩ := Sink.writeEach_of_stopped stopped
    have refused : before.writeEach pieces = (.error error, (before.writeEach pieces).2) :=
      Prod.ext failed rfl
    have ran := run_of_not_sent refused
    refine ⟨?_, ⟨begun, by rw [sink, kept], by rw [left, whole]⟩, ?_, ?_⟩
    · simp [exchange, ran]
    · simp [exchange, ran]
    · simp [exchange, ran]
  · rw [sink, Sink.flushes_writeEach]

/-- Nothing is taken of the line feed behind a request of two bytes that was sent in two writes and
after an interruption; with one more write the same request is sent. -/
theorem sends_whole_or_changes_nothing_at_newline :
    let buffer := Buffer.frame.push (Bytes.ofText "ab")
    let begun : List WriteEvent := [.accept 1, .failure (.plain .interrupted), .accept 9]
    let source := Source.ofScript [.data (Bytes.ofText "no")]
    let stopped : Connection := ⟨source, Sink.ofScript (begun ++ [.accept 0]) none, 50⟩
    let free : Connection := ⟨source, Sink.ofScript (begun ++ [.accept 1]) none, 50⟩
    (run stopped buffer).result = .error (.send IoError.nothingWritten) ∧
      (run stopped buffer).connection.source = source ∧
      (run stopped buffer).buffer = buffer ∧
      (run free buffer).connection.sink.written = Bytes.ofText "ab\n" := by
  intro buffer begun source stopped free
  have content : buffer.content = Bytes.ofText "ab" := by
    rw [Buffer.content_push, Buffer.frame, Buffer.room_new]
    rfl
  have stops :
      Sink.Stopped [buffer.content, [Bytes.newline]] stopped.sink.script begun
        IoError.nothingWritten := by
    rw [content]
    exact ⟨by decide, by decide, .accept 0, [], rfl, rfl⟩
  obtain ⟨-, -, failed, -⟩ := sends_whole_or_changes_nothing stopped buffer
  obtain ⟨result, -, unread, unchanged⟩ := failed begun IoError.nothingWritten stops
  obtain ⟨-, sent, -⟩ := sends_whole_or_changes_nothing free buffer
  refine ⟨result, unread, unchanged, ?_⟩
  rw [(sent (Sink.not_stopped_of_willing (by decide) _)).1, content]
  decide

/-- The response is what the reads up to the first finishing one bring, without its blank end;
neither the request, nor the other direction, nor the way in which the data ends makes a
difference. -/
theorem response_of_reads
    (connection : Connection)
    (buffer : Buffer)
    (frame : buffer.capacity = Buffer.frameCapacity)
    (sent : (connection.sink.writeEach [buffer.content, [Bytes.newline]]).1 = .ok ()) :
    let exchange := run connection buffer
    (∃ outcomes,
      connection.source.reads outcomes.length (Buffer.frameCapacity - 1) =
          (outcomes, exchange.connection.source) ∧
        Source.FirstFinished endsResponse (Buffer.frameCapacity - 1) outcomes ∧
        Source.gathered outcomes ++ exchange.connection.source.unread = connection.source.unread ∧
        Bytes.newline ∉ Source.gathered outcomes.dropLast ∧
        exchange.buffer.content = Bytes.trimEnd (Source.gathered outcomes)) ∧
    exchange.buffer.rest.head? = some 0 ∧
    exchange.result = .ok exchange.buffer.content.length ∧
    ∀ (other : Connection) (request : Buffer) (front ending changed : List ReadEvent),
      request.capacity = Buffer.frameCapacity →
      (other.sink.writeEach [request.content, [Bytes.newline]]).1 = .ok () →
      connection.source.script = front ++ ending →
      other.source.script = front ++ changed →
      Source.Ended ending →
      Source.Ended changed →
      (run other request).buffer.content = exchange.buffer.content ∧
        (run other request).result = exchange.result := by
  intro exchange
  have ran := run_of_sent connection buffer sent
  obtain ⟨content, result⟩ := content_run connection buffer frame sent
  have left : exchange.buffer = (receive buffer connection.source).1 := by
    simp [exchange, ran]
  have source : exchange.connection.source = (receive buffer connection.source).2 := by
    simp [exchange, ran]
  refine ⟨?_, ?_, result, ?_⟩
  · obtain ⟨outcomes, made, reading, response⟩ := exists_reads_receive buffer connection.source
    rw [frame] at made reading
    have unread :=
      Source.gathered_reads_append_unread outcomes.length (Buffer.frameCapacity - 1)
        connection.source
    rw [made] at unread
    refine ⟨outcomes, ?_, reading, ?_, newline_notMem_gathered_dropLast reading, ?_⟩
    · rw [made, source]
    · rw [source]
      exact unread
    · rw [left, response]
  · rw [left]
    refine head?_rest_receive ?_ connection.source
    rw [frame]
    decide
  · intro other request front ending changed capacity taken script changes ended endedToo
    obtain ⟨same, reported⟩ := content_run other request capacity taken
    have equal : (run other request).buffer.content = exchange.buffer.content := by
      rw [same, content, script, changes, received, received,
        Source.deliveredUntil_append_of_ended _ front ended,
        Source.deliveredUntil_append_of_ended _ front endedToo]
    exact ⟨equal, by rw [reported, result, equal]⟩

/-- A response in two reads with an interruption between them, once closed and once timed out, into
buffers that held different requests. -/
theorem response_of_reads_ended_twice :
    let front : List ReadEvent :=
      [.data (Bytes.ofText "o"), .failure (.plain .interrupted), .data (Bytes.ofText "k\t ")]
    let closed : Connection := ⟨Source.ofScript front, Sink.ofScript [.accept 5] none, 50⟩
    let late : Connection :=
      ⟨Source.ofScript (front ++ [.failure (.plain .timedOut)]), Sink.ofScript [] none, 50⟩
    let buffer := Buffer.frame.push Request.subagentStart
    (run closed buffer).buffer.content = Bytes.ofText "ok" ∧
      (run closed buffer).result = .ok 2 ∧
      (run closed buffer).buffer.rest.head? = some 0 ∧
      (run late Buffer.frame).buffer.content = Bytes.ofText "ok" := by
  intro front closed late buffer
  have frame : buffer.capacity = Buffer.frameCapacity := by
    simp [buffer, Buffer.frame]
  have sent : (closed.sink.writeEach [buffer.content, [Bytes.newline]]).1 = .ok () :=
    Sink.writeEach_of_willing _ (by decide)
  have content : (run closed buffer).buffer.content = Bytes.ofText "ok" := by
    rw [(content_run closed buffer frame sent).1]
    decide
  obtain ⟨-, zero, result, same⟩ := response_of_reads closed buffer frame sent
  have late_eq := same late Buffer.frame front [] [.failure (.plain .timedOut)]
    (Buffer.capacity_new _) (Sink.writeEach_of_willing _ (by decide)) rfl rfl trivial rfl
  rw [content] at result late_eq
  exact ⟨content, result, zero, late_eq.1⟩

end Exchange

end HookRelay
