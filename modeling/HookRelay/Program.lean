import HookRelay.Hook

/-!
# The program

The program runs the hook that its first argument chooses.  Without an argument it does nothing
and reports failure; with an argument that chooses no hook it does nothing and reports success.
Nothing that happens to a hook changes the exit code, and nothing is ever printed as an error.

* `Program.action`: what the arguments ask for.
* `Program.started`: the world in which a hook runs.
* `Program.run`: one invocation.
-/

namespace HookRelay

/-- What an invocation is given besides the world. -/
structure Invocation where
  /-- The arguments after the name of the program. -/
  arguments : List Bytes
  environment : Environment
  input : Source
  output : Sink

structure Completion where
  exitCode : UInt8
  input : Source
  output : Sink
  errors : Bytes
  world : World

inductive Action where
  | missing
  | ignore
  | run (hook : Hook)
deriving DecidableEq, Repr

namespace Program

def action : List Bytes → Action
  | [] => .missing
  | argument :: _ =>
      match Hook.ofArgument? argument with
      | none => .ignore
      | some hook => .run hook

/-- The world with the log that the configuration asks for. -/
def openLog (config : Config) (world : World) : World :=
  { world with journal := if config.logging then config.logPath? else none }

def startNote (hook : Hook) : Note :=
  .info "main" "dispatch.start" ("hook=" ++ hook.name)

/-- The world that is handed to a hook: the start of the hook has been noted. -/
def started (config : Config) (hook : Hook) (world : World) : World :=
  (openLog config world).log (startNote hook)

def run (invocation : Invocation) (world : World) : Completion :=
  match action invocation.arguments with
  | .missing =>
      ⟨1, invocation.input, invocation.output, [], world⟩
  | .ignore =>
      ⟨0, invocation.input, invocation.output, [], world⟩
  | .run hook =>
      let config := Config.ofEnvironment invocation.environment
      let finish :=
        hook.run config invocation.input invocation.output (started config hook world)
      ⟨0, finish.source, finish.sink, [], finish.world⟩

end Program

end HookRelay
