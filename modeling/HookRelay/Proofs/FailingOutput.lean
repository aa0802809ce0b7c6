import HookRelay.Proofs.Delivery
import HookRelay.Proofs.Relaying

/-!
# Failures of standard output

Standard output may take a part of what is printed, nothing of it, or fail.  A hook has done all
else when it begins to print, so a failure there cuts off what is printed and is noticed nowhere
else.  The write that is stopped is the last one that is made, so that a response of which only a
part was taken is not followed by its line feed.

* `Hook.print_of_stopped`, `Hook.print_of_not_stopped`: what printing leaves behind if a write is
  stopped and if none is.
* `Hook.exists_pieces_of_relays`: a hook that relays prints a response and a line feed, or nothing.
* `Hook.run_isolated`: two runs that differ in nothing but standard output.
-/

namespace HookRelay
namespace Hook

/-! ## Printing -/

section Print

variable {printed : List Bytes} {sink : Sink}

theorem flushes_print (printed : List Bytes) (sink : Sink) :
    (print printed sink).flushes = sink.flushes + 1 := by
  simp [print, Sink.flush, Sink.flushes_writeEach]

theorem exists_written_print (printed : List Bytes) (sink : Sink) :
    ∃ taken,
      (print printed sink).written = sink.written ++ taken ∧ taken <+: printed.flatten := by
  obtain ⟨taken, written, initial, -⟩ := Sink.written_writeEach printed sink
  exact ⟨taken, written, initial⟩

/-- If no write is stopped, all of it is taken. -/
theorem print_of_not_stopped
    (free : ∀ passed error, ¬ Sink.Stopped printed sink.script passed error) :
    (print printed sink).written = sink.written ++ printed.flatten :=
  Sink.written_of_writeEach_ok (Sink.writeEach_of_not_stopped free)

/-- The write that is stopped is the last, and what the writes before it left is not printed. -/
theorem print_of_stopped
    {passed : List WriteEvent} {error : IoError}
    (stopped : Sink.Stopped printed sink.script passed error) :
    (print printed sink).calls = sink.calls + (passed.length + 1) ∧
      ∃ taken,
        (print printed sink).written = sink.written ++ taken ∧
          taken ++ (Sink.remaining printed passed).flatten = printed.flatten := by
  obtain ⟨taken, left, ended, kept⟩ := Sink.exists_writeEach_of_stopped stopped
  have calls : (print printed sink).calls = sink.calls + (passed.length + 1) := by
    rw [print, ended]
    rfl
  have written : (print printed sink).written = sink.written ++ taken := by
    rw [print, ended]
    rfl
  exact ⟨calls, taken, written, kept⟩

/-- A response that is not taken whole is cut off where the write was stopped, and no write is made
for the line feed behind it. -/
theorem print_of_stopped_response
    {response : Bytes} {passed : List WriteEvent} {error : IoError}
    (stopped : Sink.Stopped [response] sink.script passed error) :
    (print (pieces (some response)) sink).calls = sink.calls + (passed.length + 1) ∧
      ∃ taken,
        (print (pieces (some response)) sink).written = sink.written ++ taken ∧
          taken ++ (Sink.remaining [response] passed).flatten = response := by
  obtain ⟨calls, taken, written, kept⟩ := print_of_stopped (stopped.append [[Bytes.newline]])
  refine ⟨calls, taken, written, ?_⟩
  rw [Sink.remaining_append stopped.unfinished] at kept
  simp only [List.cons_append, List.nil_append, List.flatten_append, List.flatten_cons,
    List.flatten_nil, List.append_nil, ← List.append_assoc] at kept
  exact List.append_cancel_right kept

end Print

/-! ## What there is to print -/

/-- A hook that relays prints the response and a line feed, or nothing. -/
theorem exists_pieces_of_relays
    (config : Config) (source : Source) (world : World)
    {hook : Hook} (h : hook.relays = true) :
    ∃ response, (hook.respond config source world).pieces = pieces response := by
  cases hook with
  | approveMcp => cases h
  | postBuild => cases h
  | stop => cases h
  | subagentStart => exact ⟨_, rfl⟩
  | ambient =>
      simp only [respond, respondAmbient]
      split
      · exact ⟨none, rfl⟩
      · split
        · exact ⟨none, rfl⟩
        · exact ⟨_, rfl⟩

/-- Of two runs that differ in nothing but standard output, one of which takes all it is offered, the
other has taken an initial segment of the same, and all else is the same behind both. -/
theorem run_isolated
    (hook : Hook)
    (config : Config)
    (source : Source)
    (world : World)
    (sink free : Sink)
    (accepts : free.script = []) :
    let limited := run hook config source sink world
    let complete := run hook config source free world
    let printed := (hook.respond config source world).pieces
    (∃ output taken,
      complete.sink.written = free.written ++ output ∧
      limited.sink.written = sink.written ++ taken ∧
      taken <+: output ∧
      ((∀ passed error, ¬ Sink.Stopped printed sink.script passed error) → taken = output) ∧
      (∀ passed error, Sink.Stopped printed sink.script passed error →
        taken ++ (Sink.remaining printed passed).flatten = output ∧
        limited.sink.calls = sink.calls + (passed.length + 1)) ∧
      (hook.relays = true →
        ∃ response, printed = pieces response ∧
          ∀ bytes ∈ response, ∀ passed error,
            Sink.Stopped [bytes] sink.script passed error →
              taken ++ (Sink.remaining [bytes] passed).flatten = bytes ∧
              limited.sink.calls = sink.calls + (passed.length + 1))) ∧
    limited.source = complete.source ∧
    limited.world = complete.world ∧
    limited.sink.flushes = sink.flushes + 1 ∧
    complete.sink.flushes = free.flushes + 1 := by
  intro limited complete printed
  have whole : complete.sink.written = free.written ++ printed.flatten := by
    have willing : free.Willing := by
      rw [Sink.Willing, accepts]
      exact List.forall_mem_nil _
    exact written_run config source free world hook willing
  have output : limited.sink = print printed sink := sink_run config source sink world hook
  obtain ⟨taken, written, initial⟩ := exists_written_print printed sink
  rw [← output] at written
  -- All statements about what was taken speak of the same bytes, since they follow the same ones.
  have same {other : Bytes} (h : limited.sink.written = sink.written ++ other) : other = taken :=
    List.append_cancel_left (h.symm.trans written)
  refine ⟨⟨printed.flatten, taken, whole, written, initial, ?_, ?_, ?_⟩, ?_, ?_, ?_, ?_⟩
  · intro unhindered
    have all := print_of_not_stopped unhindered
    rw [← output] at all
    exact (same all).symm
  · intro passed error stopped
    obtain ⟨calls, begun, kept, left⟩ := print_of_stopped stopped
    rw [← output] at calls kept
    rw [← same kept]
    exact ⟨left, calls⟩
  · intro relaying
    obtain ⟨response, shape⟩ := exists_pieces_of_relays config source world relaying
    refine ⟨response, shape, ?_⟩
    rintro bytes rfl passed error stopped
    obtain ⟨calls, begun, kept, left⟩ := print_of_stopped_response stopped
    rw [← shape] at calls kept
    rw [← output] at calls kept
    rw [← same kept]
    exact ⟨left, calls⟩
  · exact (source_run config source sink world hook).trans
      (source_run config source free world hook).symm
  · exact (world_run config source sink world hook).trans
      (world_run config source free world hook).symm
  · rw [output]
    exact flushes_print printed sink
  · rw [show complete.sink = _ from sink_run config source free world hook]
    exact flushes_print printed free

/-- Of a response of four bytes two are taken, and after an interruption a write takes nothing. -/
theorem run_isolated_midway :
    let world := Relay.served ⟨[], [.data (Bytes.ofText "done\n")]⟩
    let source := Source.ofScript [.data (Bytes.ofText "unread")]
    let sink := Sink.ofScript [.accept 2, .failure (.plain .interrupted), .accept 0] none
    let free := Sink.ofScript [] (some (.plain .brokenPipe))
    let limited := run .subagentStart Relay.home source sink world
    let complete := run .subagentStart Relay.home source free world
    limited.sink.written = Bytes.ofText "do" ∧
      limited.sink.calls = 3 ∧
      complete.sink.written = Bytes.ofText "done\n" ∧
      limited.world = complete.world := by
  intro world source sink free limited complete
  have printed :
      (respond Relay.home source world .subagentStart).pieces =
        pieces (some (Bytes.ofText "done")) := by
    obtain ⟨result, -⟩ :=
      Relay.runSilently_of_sent (Buffer.frame.push Request.subagentStart)
        (by rw [Buffer.capacity_push, Buffer.frame, Buffer.capacity_new])
        (Relay.connect_served ⟨[], [.data (Bytes.ofText "done\n")]⟩)
        (Sink.writeEach_of_willing _ (by decide))
    rw [respond, respondSubagentStart, respondRelay, result]
    decide
  have stopped :
      Sink.Stopped [Bytes.ofText "done"] sink.script
        [.accept 2, .failure (.plain .interrupted)] IoError.nothingWritten :=
    ⟨by decide, by decide, .accept 0, [], rfl, rfl⟩
  obtain ⟨⟨output, taken, whole, written, -, -, cut, relayed⟩, -, same, -⟩ :=
    run_isolated .subagentStart Relay.home source world sink free rfl
  obtain ⟨response, shape, part⟩ := relayed rfl
  obtain rfl : response = some (Bytes.ofText "done") := by
    cases response with
    | none => simp [printed, pieces] at shape
    | some bytes => simpa [printed, pieces] using shape.symm
  obtain ⟨kept, calls⟩ := part _ rfl _ _ stopped
  have first : taken = Bytes.ofText "do" :=
    List.append_cancel_right (kept.trans (show _ = Bytes.ofText "do" ++ _ by decide))
  rw [printed] at cut
  obtain ⟨all, -⟩ := cut _ _ (stopped.append [[Bytes.newline]])
  refine ⟨by rw [written, first]; rfl, calls, ?_, same⟩
  rw [whole, ← all, first]
  decide

end Hook
end HookRelay
