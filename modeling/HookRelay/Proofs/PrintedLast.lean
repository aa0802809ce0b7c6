import HookRelay.Hook
import HookRelay.Proofs.Delivery

/-!
# What a hook prints is settled before it prints

A hook prints at the end of whatever it does, and it looks at nothing that its writes give back but
whether a response was taken whole.  So all that it does but print can be told without standard
output: what it leaves of standard input, the world, and the pieces that are to be printed.  These
are then written one after the other, each only if the one before it was taken whole.

* `Response`, `Hook.respond`: all that a hook does but print, handler by handler.
* `Hook.print`: the pieces printed up to the first that is not taken whole.
* `Hook.run_eq`: a run is the response and then the printing, whatever standard output does.
  `source_run`, `world_run` and `sink_run` are its three parts.
-/

namespace HookRelay

/-- What a hook prints, piece by piece, and what it leaves of standard input and of the world. -/
structure Response where
  pieces : List Bytes
  source : Source
  world : World

namespace Hook

/-- What is printed of a response: the response and a line feed. -/
def pieces : Option Bytes → List Bytes
  | none => []
  | some response => [response, [Bytes.newline]]

def respondRelay (config : Config) (request : Buffer) (source : Source) (world : World) :
    Response :=
  let relayed := Relay.runSilently config request world
  ⟨pieces relayed.result, source, relayed.world⟩

def respondAmbient (config : Config) (source : Source) (world : World) : Response :=
  let (input, source) := source.capture Buffer.input
  if input.isEmpty then
    ⟨[], source, world⟩
  else
    match Request.splice Request.ambientOpening input.content Buffer.frame with
    | none => ⟨[], source, world.log (inputNote "ambient.skip" input.length)⟩
    | some request => respondRelay config request source world

def respondPostBuild (source : Source) (world : World) : Response :=
  let (input, source) := source.capture Buffer.input
  if input.isEmpty then
    ⟨[], source, world⟩
  else if BuildCommand.isBuild input.content then
    ⟨[Answer.buildReminder], source, world.log (inputNote "post_build.hit" input.length)⟩
  else
    ⟨[], source, world⟩

def respondStop (config : Config) (source : Source) (world : World) : Response :=
  let now := world.clock.now
  match Gate.check config.marker config.window now world with
  | (.fire, world) => ⟨[Answer.stopReminder], source, world.log (stopNote "stop.fired" now)⟩
  | (.suppress, world) => ⟨[], source, world.log (stopNote "stop.suppressed" now)⟩

def respondSubagentStart (config : Config) (source : Source) (world : World) : Response :=
  respondRelay config (Buffer.frame.push Request.subagentStart) source world

def respond (config : Config) (source : Source) (world : World) : Hook → Response
  | .approveMcp => ⟨[Answer.approval], source, world⟩
  | .ambient => respondAmbient config source world
  | .postBuild => respondPostBuild source world
  | .stop => respondStop config source world
  | .subagentStart => respondSubagentStart config source world

/-- The request of the hook goes to a server. -/
def relays : Hook → Bool
  | .ambient => true
  | .subagentStart => true
  | _ => false

/-- Print pieces up to the first that is not taken whole, and ask once for delivery. -/
def print (pieces : List Bytes) (sink : Sink) : Sink :=
  (sink.writeEach pieces).2.flush.2

/-! ## Each handler responds and then writes -/

/-- Both standard streams and the world when the pieces have been written. -/
def written (sink : Sink) (response : Response) : Finish :=
  ⟨response.source, (sink.writeEach response.pieces).2, response.world⟩

variable (config : Config) (source : Source) (sink : Sink) (world : World)

theorem emit_eq (answer : Bytes) : emit answer sink = (sink.writeEach [answer]).2 := by
  rcases first : sink.writeAll answer with ⟨outcome, after⟩
  rw [emit, Sink.writeEach, first]
  cases outcome <;> rfl

/-- The line feed is the second piece, which is written exactly if the first was taken whole. -/
theorem emitLine_eq (response : Bytes) :
    emitLine response sink = (sink.writeEach (pieces (some response))).2 := by
  rcases first : sink.writeAll response with ⟨outcome, after⟩
  rw [emitLine, pieces, Sink.writeEach, first]
  cases outcome with
  | ok =>
      exact emit_eq after [Bytes.newline]
  | error error =>
      rfl

theorem relay_eq (request : Buffer) :
    relay config request source sink world =
      written sink (respondRelay config request source world) := by
  unfold relay respondRelay written
  dsimp only
  cases (Relay.runSilently config request world).result with
  | none =>
      rfl
  | some response =>
      dsimp only
      rw [emitLine_eq]

theorem runAmbient_eq :
    runAmbient config source sink world =
      written sink (respondAmbient config source world) := by
  unfold runAmbient respondAmbient
  dsimp only
  split
  · rfl
  · cases Request.splice Request.ambientOpening (source.capture Buffer.input).1.content
      Buffer.frame with
    | none =>
        rfl
    | some request =>
        exact relay_eq config _ sink world request

theorem runPostBuild_eq :
    runPostBuild source sink world = written sink (respondPostBuild source world) := by
  unfold runPostBuild respondPostBuild
  dsimp only
  split
  · rfl
  · split
    · rw [emit_eq]
      rfl
    · rfl

theorem runStop_eq :
    runStop config source sink world = written sink (respondStop config source world) := by
  rcases answer : Gate.check config.marker config.window world.clock.now world with
    ⟨decision, after⟩
  simp only [runStop, respondStop, answer]
  cases decision with
  | fire =>
      dsimp only
      rw [emit_eq]
      rfl
  | suppress =>
      rfl

/-- A run of a hook is its response, printed when all else is done. -/
theorem run_eq (hook : Hook) :
    run hook config source sink world =
      let response := hook.respond config source world
      ⟨response.source, print response.pieces sink, response.world⟩ := by
  cases hook with
  | approveMcp =>
      rw [run, emit_eq]
      rfl
  | ambient =>
      rw [run, runAmbient_eq]
      rfl
  | postBuild =>
      rw [run, runPostBuild_eq]
      rfl
  | stop =>
      rw [run, runStop_eq]
      rfl
  | subagentStart =>
      rw [run, runSubagentStart, relay_eq]
      rfl

variable (hook : Hook)

theorem source_run :
    (run hook config source sink world).source = (hook.respond config source world).source := by
  rw [run_eq]

theorem world_run :
    (run hook config source sink world).world = (hook.respond config source world).world := by
  rw [run_eq]

theorem sink_run :
    (run hook config source sink world).sink =
      print (hook.respond config source world).pieces sink := by
  rw [run_eq]

theorem written_run (willing : sink.Willing) :
    (run hook config source sink world).sink.written =
      sink.written ++ (hook.respond config source world).pieces.flatten := by
  rw [sink_run]
  exact Sink.written_of_willing _ willing

end Hook
end HookRelay
