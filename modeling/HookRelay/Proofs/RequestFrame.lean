import HookRelay.Proofs.AmbientHook

/-!
# The frame of an ambient request

A request ends with a line feed, and a server that reads a line takes it for the whole request.  The
ambient hook copies what stands on standard input behind the first opening brace and drops only its
blank end, so a line feed between two members of the object is sent as it is.

`request_framed_iff` says when the frame holds: exactly if only blank bytes stand on standard input
from the first line feed behind the brace on.
-/

namespace HookRelay
namespace Request

/-- A request is one line exactly if what it is made of has no line feed but in its blank end. -/
theorem newline_notMem_append_ambientOpening (after : Bytes) :
    Bytes.newline ∉ ambientOpening ++ Bytes.trimEnd after ↔
      Bytes.Blank (Bytes.fromNewline after) := by
  have opening : Bytes.newline ∉ ambientOpening := by
    decide
  rw [← Bytes.newline_notMem_trimEnd_iff, List.mem_append]
  constructor
  · intro none mem
    exact none (Or.inr mem)
  · rintro none (mem | mem)
    · exact opening mem
    · exact none mem

end Request

namespace Hook

/-- A server that reads one line has the whole ambient request exactly if only blank bytes stand
from the first line feed on in what follows the brace. -/
theorem request_framed_iff
    (config : Config)
    (source : Source)
    (sink : Sink)
    (world : World)
    (front after : Bytes)
    (connection : Connection)
    (input : captured source = front ++ Request.openingBrace :: after)
    (first : Request.openingBrace ∉ front)
    (fits : (Request.ambientOpening ++ Bytes.trimEnd after).length < Buffer.frameCapacity)
    (connected : Relay.connect config world = .ok connection)
    (sent :
      (connection.sink.writeEach
        [Request.ambientOpening ++ Bytes.trimEnd after, [Bytes.newline]]).1 = .ok ()) :
    ∃ written : Bytes,
      (run .ambient config source sink world).world.received = some written ∧
        written = (Request.ambientOpening ++ Bytes.trimEnd after) ++ [Bytes.newline] ∧
        (written.count Bytes.newline = 1 ∧ written.getLast? = some Bytes.newline ↔
          Bytes.Blank (Bytes.fromNewline after)) ∧
        (Bytes.firstLine written = Request.ambientOpening ++ Bytes.trimEnd after ↔
          Bytes.Blank (Bytes.fromNewline after)) := by
  obtain ⟨buffer, made, content, frame⟩ := exists_ambient_request source input first fits
  rw [← content] at sent
  obtain ⟨-, taken⟩ := Relay.runSilently_of_sent buffer frame connected sent
  rw [← world_run_ambient config source world sink made, content] at taken
  refine ⟨_, taken, rfl, ?_, ?_⟩
  · rw [← Request.newline_notMem_append_ambientOpening, ← Bytes.count_append_newline_iff]
    constructor
    · exact fun framed => framed.1
    · exact fun once => ⟨once, List.getLast?_concat⟩
  · rw [← Request.newline_notMem_append_ambientOpening]
    exact Bytes.firstLine_append_newline_iff _

/-- An object on one line, with blank lines behind it. -/
theorem request_framed_single :
    let source := Source.ofScript [.data (Bytes.ofText "\x7b\"a\":1\x7d\n\n")]
    let listener : Listener := ⟨[.accept 7], []⟩
    let sink := Sink.ofScript [] none
    let request := Bytes.ofText "\x7b\"op\":\"hook_ambient\",\"a\":1\x7d"
    ∃ written : Bytes,
      (run .ambient Relay.home source sink (Relay.served listener)).world.received = some written ∧
        written.count Bytes.newline = 1 ∧ written.getLast? = some Bytes.newline ∧
        Bytes.firstLine written = request := by
  intro source listener sink request
  obtain ⟨written, received, -, framed, line⟩ :=
    request_framed_iff Relay.home source sink (Relay.served listener) []
      (Bytes.ofText "\"a\":1\x7d\n\n") _ (by decide +kernel) (by decide) (by decide)
      (Relay.connect_served listener) (by decide)
  obtain ⟨once, last⟩ := framed.mpr (by decide +kernel)
  exact ⟨written, received, once, last, line.mpr (by decide +kernel)⟩

/-- An object on two lines is sent on two lines, and a server that reads one line has half of it. -/
theorem request_of_two_lines_not_framed :
    let source := Source.ofScript [.data (Bytes.ofText "\x7b\"a\":1,\n\"b\":2\x7d")]
    let written := Bytes.ofText "\x7b\"op\":\"hook_ambient\",\"a\":1,\n\"b\":2\x7d\n"
    (run .ambient Relay.home source (Sink.ofScript [] none)
        (Relay.served ⟨[], []⟩)).world.received = some written ∧
      written.count Bytes.newline = 2 ∧
      Bytes.firstLine written = Bytes.ofText "\x7b\"op\":\"hook_ambient\",\"a\":1," := by
  intro source written
  have input : captured source =
      [] ++ Request.openingBrace :: Bytes.ofText "\"a\":1,\n\"b\":2\x7d" := by
    decide
  obtain ⟨buffer, made, content, frame⟩ :=
    exists_ambient_request source input (by decide) (by decide)
  obtain ⟨-, taken⟩ :=
    Relay.runSilently_of_sent buffer frame (Relay.connect_served ⟨[], []⟩)
      (Sink.writeEach_of_willing _ (by decide))
  rw [← world_run_ambient Relay.home source _ (Sink.ofScript [] none) made, content] at taken
  exact ⟨taken, by decide, by decide⟩

end Hook
end HookRelay
