import HookRelay.Proofs.Relaying
import HookRelay.Proofs.Splicing

/-!
# The ambient hook from end to end

The ambient hook takes what fits of standard input, splices a request from it, relays the request
and prints the response on a line.  Each of these steps cuts, trims or gives up by a rule of its
own; here they are put together into one law about the bytes that go in and the bytes that come out
at both ends.  Without an opening brace in the input, or with a request that would not leave a byte
to spare, nobody is contacted and nothing is printed.  Otherwise the server receives the request
with its line feed, or nothing is printed; and if it answers with a line, then the line is printed
without its blank end, as far as it fits.

* `Hook.captured`: the part of standard input that counts.
* `respondAmbient_of_empty`, `respondAmbient_of_refused`, `respondAmbient_of_request`: what the hook
  does before it prints.
* `run_ambient`: the law, for every input, every connection and every way of splitting both into
  reads.
-/

namespace HookRelay
namespace Hook

/-- What fits of the data on standard input. -/
def captured (source : Source) : Bytes :=
  (Source.delivered source.script).take (Buffer.inputCapacity - 1)

section Respond

variable (config : Config) (source : Source) (world : World)

theorem content_capture_input :
    (source.capture Buffer.input).1.content = captured source := by
  rw [Source.content_capture, Buffer.input, Buffer.capacity_new, captured]

/-- Without input there is nothing to do. -/
theorem respondAmbient_of_empty (empty : captured source = []) :
    respondAmbient config source world = ⟨[], (source.capture Buffer.input).2, world⟩ := by
  simp [respondAmbient, Buffer.isEmpty, content_capture_input, empty]

/-- An input of which no request can be made is skipped, which is noted. -/
theorem respondAmbient_of_refused
    (some : captured source ≠ [])
    (none : Request.splice Request.ambientOpening (captured source) Buffer.frame = .none) :
    respondAmbient config source world =
      ⟨[], (source.capture Buffer.input).2,
        world.log (inputNote "ambient.skip" (captured source).length)⟩ := by
  simp [respondAmbient, Buffer.isEmpty, Buffer.length, content_capture_input, some, none]

theorem respondAmbient_of_no_request
    (none : Request.splice Request.ambientOpening (captured source) Buffer.frame = .none) :
    (respondAmbient config source world).pieces = [] ∧
      (respondAmbient config source world).world.received = world.received := by
  by_cases empty : captured source = []
  · rw [respondAmbient_of_empty config source world empty]
    exact ⟨rfl, rfl⟩
  · rw [respondAmbient_of_refused config source world empty none]
    exact ⟨rfl, World.received_log _ _⟩

theorem respondAmbient_of_request
    {request : Buffer}
    (made : Request.splice Request.ambientOpening (captured source) Buffer.frame = some request) :
    respondAmbient config source world =
      respondRelay config request (source.capture Buffer.input).2 world := by
  have some : captured source ≠ [] := Request.ne_nil_of_splice made
  simp [respondAmbient, Buffer.isEmpty, content_capture_input, some, made]

end Respond

section Run

variable (config : Config) (source : Source) (world : World) (sink : Sink)

/-- Without a request nobody is contacted and nothing is printed. -/
theorem run_ambient_of_no_request
    (willing : sink.Willing)
    (none : Request.splice Request.ambientOpening (captured source) Buffer.frame = .none) :
    (run .ambient config source sink world).world.received = world.received ∧
      (run .ambient config source sink world).sink.written = sink.written := by
  obtain ⟨pieces, unchanged⟩ := respondAmbient_of_no_request config source world none
  rw [world_run, written_run config source sink world .ambient willing, respond, pieces]
  exact ⟨unchanged, List.append_nil _⟩

section Made

variable {request : Buffer}
  (made : Request.splice Request.ambientOpening (captured source) Buffer.frame = some request)
include made

theorem world_run_ambient :
    (run .ambient config source sink world).world =
      (Relay.runSilently config request world).world := by
  rw [world_run, respond, respondAmbient_of_request config source world made]
  rfl

theorem written_run_ambient (willing : sink.Willing) :
    (run .ambient config source sink world).sink.written =
      sink.written ++ (pieces (Relay.runSilently config request world).result).flatten := by
  rw [written_run config source sink world .ambient willing, respond,
    respondAmbient_of_request config source world made]
  rfl

end Made

/-- The request that the ambient hook makes of its input, in a buffer. -/
theorem exists_ambient_request
    {front after : Bytes}
    (input : captured source = front ++ Request.openingBrace :: after)
    (first : Request.openingBrace ∉ front)
    (fits : (Request.ambientOpening ++ Bytes.trimEnd after).length < Buffer.frameCapacity) :
    ∃ request,
      Request.splice Request.ambientOpening (captured source) Buffer.frame = some request ∧
        request.content = Request.ambientOpening ++ Bytes.trimEnd after ∧
        request.capacity = Buffer.frameCapacity := by
  have cells : Buffer.frame.capacity = Buffer.frameCapacity :=
    Buffer.capacity_new _
  rw [List.length_append, ← cells] at fits
  have made := Request.exists_splice Request.ambientOpening Buffer.frame first fits
  rwa [← input, cells] at made

end Run

/-- What the ambient hook sends and prints, for every standard input, every way of reading it, and
every way in which a connection may be made or not, take the request and end. -/
theorem run_ambient
    (config : Config)
    (source : Source)
    (sink : Sink)
    (world : World)
    (willing : sink.Willing) :
    let finish := run .ambient config source sink world
    let silent := finish.world.received = world.received ∧ finish.sink.written = sink.written
    (Request.openingBrace ∉ captured source → silent) ∧
    ∀ front after : Bytes,
      captured source = front ++ Request.openingBrace :: after →
      Request.openingBrace ∉ front →
      let request := Request.ambientOpening ++ Bytes.trimEnd after
      (Buffer.frameCapacity ≤ request.length → silent) ∧
      (request.length < Buffer.frameCapacity →
        (∀ error, Relay.connect config world = .error error → silent) ∧
        ∀ connection, Relay.connect config world = .ok connection →
          let sent := (connection.sink.writeEach [request, [Bytes.newline]]).1
          (∀ error, sent = .error error → finish.sink.written = sink.written) ∧
          (sent = .ok () →
            finish.world.received = some (request ++ [Bytes.newline]) ∧
            ∀ body tail : Bytes,
              Source.delivered connection.source.script = body ++ tail →
              Bytes.newline ∉ body →
              Bytes.LineEnd tail →
              finish.sink.written =
                sink.written ++
                  line (Bytes.trimEnd (body.take (Buffer.frameCapacity - 1))))) := by
  intro finish silent
  refine ⟨?_, ?_⟩
  · intro none
    exact run_ambient_of_no_request config source world sink willing
      (Request.splice_of_notMem _ _ none)
  · intro front after input first request
    refine ⟨?_, ?_⟩
    · intro long
      refine run_ambient_of_no_request config source world sink willing ?_
      rw [input]
      refine Request.splice_of_too_long _ _ first ?_
      rwa [Buffer.frame, Buffer.capacity_new, ← List.length_append]
    · intro fits
      obtain ⟨buffer, made, content, frame⟩ := exists_ambient_request source input first fits
      have printed := written_run_ambient config source world sink made willing
      have contacted :
          finish.world.received = (Relay.runSilently config buffer world).world.received :=
        congrArg World.received (world_run_ambient config source world sink made)
      refine ⟨?_, ?_⟩
      · intro error failed
        obtain ⟨result, unchanged⟩ := Relay.runSilently_of_not_connected buffer failed
        rw [result] at printed
        exact ⟨contacted.trans unchanged, by simpa [pieces] using printed⟩
      · intro connection connected
        rw [show request = buffer.content from content.symm]
        refine ⟨?_, ?_⟩
        · intro error failed
          have refused :
              connection.sink.writeEach [buffer.content, [Bytes.newline]] = (.error error, _) :=
            Prod.ext failed rfl
          obtain ⟨result, -⟩ := Relay.runSilently_of_not_sent buffer connected refused
          rw [result] at printed
          simpa [pieces] using printed
        · intro fine
          obtain ⟨result, taken⟩ := Relay.runSilently_of_sent buffer frame connected fine
          refine ⟨contacted.trans taken, ?_⟩
          intro body tail whole single ends
          have blank :
              Bytes.Blank (Bytes.fromNewline (Source.delivered connection.source.script)) := by
            rw [whole]
            exact Bytes.blank_fromNewline_of_lineEnd single ends
          have response :
              Bytes.trimEnd (Exchange.received connection.source.script) =
                Bytes.trimEnd (body.take (Buffer.frameCapacity - 1)) := by
            rw [Exchange.trimEnd_received _ blank, whole, Exchange.framed,
              Bytes.firstLine_append_lineEnd single ends]
          rwa [result, response, flatten_pieces_answer] at printed

/-- A server that takes the request in two writes and answers in three reads. -/
theorem run_ambient_served :
    let listener : Listener :=
      { takes := [.accept 4, .failure (.plain .interrupted)]
        sends :=
          [.data (Bytes.ofText "do"), .failure (.system Errno.interrupted),
            .data (Bytes.ofText "ne \n "), .data (Bytes.ofText "\t"), .failure (.plain .timedOut)] }
    let source := Source.ofScript [.data (Bytes.ofText " \x7b\"a\""), .data (Bytes.ofText ":1\x7d\n")]
    let finish := run .ambient Relay.home source (Sink.ofScript [.accept 2] none)
      (Relay.served listener)
    finish.world.received =
        some (Bytes.ofText "\x7b\"op\":\"hook_ambient\",\"a\":1\x7d\n") ∧
      finish.sink.written = Bytes.ofText "done\n" := by
  intro listener source finish
  have law := (run_ambient Relay.home source (Sink.ofScript [.accept 2] none)
    (Relay.served listener) (by decide)).2 (Bytes.ofText " ") (Bytes.ofText "\"a\":1\x7d\n")
      (by decide) (by decide)
  have exchanged := (law.2 (by decide)).2 _ (Relay.connect_served listener)
  obtain ⟨received, printed⟩ := exchanged.2 (by decide)
  have whole :
      Source.delivered listener.sends = Bytes.ofText "done " ++ Bytes.ofText "\n \t" := by
    decide +kernel
  refine ⟨received, ?_⟩
  exact printed (Bytes.ofText "done ") (Bytes.ofText "\n \t") whole (by decide)
    (Or.inr ⟨Bytes.ofText " \t", by decide, by decide +kernel⟩)

end Hook
end HookRelay
