import HookRelay.Config
import HookRelay.Places
import HookRelay.World

/-!
# Relaying a request

A request goes over a connection of its own to the socket under the home directory.  A response
is noted in the log; a request without one is either an error or, for a hook, nothing to print.

* `Relay.run`: relay the content of a buffer and leave the response in it.
* `Relay.runSilently`: the response, if there is one that is not empty.
-/

namespace HookRelay

/-- An answer to a request, the buffer, and the world afterwards. -/
structure Relay (α : Type) where
  result : α
  buffer : Buffer
  world : World

namespace Relay

def connect (config : Config) (world : World) : Except RelayError Connection :=
  match config.socketPath? with
  | none => .error .noSocketPath
  | some path => world.connect path config.socketTimeout

def doneNote (clock : Clock) (requestLength responseLength : Nat) : Note :=
  .info "relay" "relay.done"
    ("request_len=" ++ Decimal.ofNat requestLength ++ " response_len=" ++
      Decimal.ofNat responseLength ++ " " ++ clock.total)

def failedNote (clock : Clock) (error : RelayError) : Note :=
  .warning "relay" "relay.failed" ("err=" ++ error.message ++ " " ++ clock.total)

/-- Relay the content of a buffer and leave the response in the buffer. -/
def run (config : Config) (buffer : Buffer) (world : World) : Relay (Except RelayError Nat) :=
  match connect config world with
  | .error error =>
      ⟨.error error, buffer, world⟩
  | .ok connection =>
      let exchange := Exchange.run connection buffer
      let world := { world with received := some exchange.connection.sink.written }
      match exchange.result with
      | .error error =>
          ⟨.error error, exchange.buffer, world⟩
      | .ok length =>
          ⟨.ok length, exchange.buffer, world.log (doneNote world.clock buffer.length length)⟩

/-- Relay the content of a buffer and give the response, unless it is empty or there is none. -/
def runSilently (config : Config) (buffer : Buffer) (world : World) : Relay (Option Bytes) :=
  let relayed := run config buffer world
  match relayed.result with
  | .error error =>
      ⟨none, relayed.buffer, relayed.world.log (failedNote world.clock error)⟩
  | .ok _ =>
      if relayed.buffer.isEmpty then
        ⟨none, relayed.buffer, relayed.world⟩
      else
        ⟨some relayed.buffer.content, relayed.buffer, relayed.world⟩

end Relay

end HookRelay
