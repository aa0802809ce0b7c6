import HookRelay.Answer
import HookRelay.BuildCommand
import HookRelay.Gate
import HookRelay.Relay
import HookRelay.Wire.Request

/-!
# Hooks

A hook runs at one event in the life of an agent.

* `approve-mcp` grants permission.
* `ambient` relays the JSON object on standard input, with the name of the operation put in.
* `post-build` prints a reminder if standard input reports a build.
* `stop` prints a reminder, but not too often.
* `subagent-start` relays a fixed request.

A hook that has nothing to say prints nothing.  Failures of standard output are ignored, but a
response that is not taken whole is not followed by its line feed.

* `Hook.ofArgument?`, `Hook.name`: the names of the hooks.
* `Hook.emit`, `Hook.emitLine`: printing an answer, and a response on a line.
* `Hook.runAmbient`, `Hook.runPostBuild`, `Hook.runStop`, `Hook.runSubagentStart`: the hooks that do
  more than print an answer.
* `Hook.run`: the whole run, which ends by asking once for delivery.
-/

namespace HookRelay

inductive Hook where
  | approveMcp
  | ambient
  | postBuild
  | stop
  | subagentStart
deriving DecidableEq, Repr

/-- Both standard streams and the world after a run. -/
structure Finish where
  source : Source
  sink : Sink
  world : World

namespace Hook

def name : Hook → String
  | .approveMcp => "approve-mcp"
  | .ambient => "ambient"
  | .postBuild => "post-build"
  | .stop => "stop"
  | .subagentStart => "subagent-start"

/-- The beginnings of an argument by which a hook is chosen. -/
def beginnings : List (Bytes × Hook) :=
  [(Bytes.ofText "ap", .approveMcp),
    (Bytes.ofText "am", .ambient),
    (Bytes.ofText "p", .postBuild),
    (Bytes.ofText "st", .stop),
    (Bytes.ofText "su", .subagentStart)]

def ofArgument? (argument : Bytes) : Option Hook :=
  (beginnings.find? fun beginning => beginning.1.isPrefixOf argument).map Prod.snd

def inputNote (event : String) (length : Nat) : Note :=
  .info "hook" event ("stdin_len=" ++ Decimal.ofNat length)

def stopNote (event : String) (now : Timestamp) : Note :=
  .info "hook" event ("now=" ++ Decimal.ofInt now.toInt)

/-- Print an answer. -/
def emit (answer : Bytes) (sink : Sink) : Sink :=
  (sink.writeAll answer).2

/-- Print a response, and a line feed if the response was taken whole. -/
def emitLine (response : Bytes) (sink : Sink) : Sink :=
  match sink.writeAll response with
  | (.ok (), sink) => (sink.writeAll [Bytes.newline]).2
  | (.error _, sink) => sink

/-- Relay a request and print the response on a line. -/
def relay (config : Config) (request : Buffer) (source : Source) (sink : Sink) (world : World) :
    Finish :=
  let relayed := Relay.runSilently config request world
  match relayed.result with
  | none => ⟨source, sink, relayed.world⟩
  | some response => ⟨source, emitLine response sink, relayed.world⟩

/-- Relay the JSON object on standard input. -/
def runAmbient (config : Config) (source : Source) (sink : Sink) (world : World) : Finish :=
  let (input, source) := source.capture Buffer.input
  if input.isEmpty then
    ⟨source, sink, world⟩
  else
    match Request.splice Request.ambientOpening input.content Buffer.frame with
    | none => ⟨source, sink, world.log (inputNote "ambient.skip" input.length)⟩
    | some request => relay config request source sink world

def runPostBuild (source : Source) (sink : Sink) (world : World) : Finish :=
  let (input, source) := source.capture Buffer.input
  if input.isEmpty then
    ⟨source, sink, world⟩
  else if BuildCommand.isBuild input.content then
    let world := world.log (inputNote "post_build.hit" input.length)
    ⟨source, emit Answer.buildReminder sink, world⟩
  else
    ⟨source, sink, world⟩

/-- Remind of findings, unless that was done a short time ago. -/
def runStop (config : Config) (source : Source) (sink : Sink) (world : World) : Finish :=
  let now := world.clock.now
  match Gate.check config.marker config.window now world with
  | (.fire, world) =>
      let world := world.log (stopNote "stop.fired" now)
      ⟨source, emit Answer.stopReminder sink, world⟩
  | (.suppress, world) => ⟨source, sink, world.log (stopNote "stop.suppressed" now)⟩

def runSubagentStart (config : Config) (source : Source) (sink : Sink) (world : World) : Finish :=
  relay config (Buffer.frame.push Request.subagentStart) source sink world

def run (hook : Hook) (config : Config) (source : Source) (sink : Sink) (world : World) :
    Finish :=
  let finish : Finish :=
    match hook with
    | .approveMcp => ⟨source, emit Answer.approval sink, world⟩
    | .ambient => runAmbient config source sink world
    | .postBuild => runPostBuild source sink world
    | .stop => runStop config source sink world
    | .subagentStart => runSubagentStart config source sink world
  { finish with sink := finish.sink.flush.2 }

end Hook

end HookRelay
