import HookRelay.Failure.RelayError
import HookRelay.Stream.Intake
import HookRelay.Stream.Sink

/-!
# One request and its response

A connection carries one request and at most one response.  The request is the content of a
buffer, followed by a line feed.  Only after it was taken whole does the same buffer receive the
response: the chunks up to and with the first that holds a line feed, or up to the end or a
failure of the connection, without trailing blank bytes.

* `Exchange.run`: send the request and receive the response.
* `Exchange.receive`: receive a response into a buffer.

`run_of_not_sent` says that a request that is not taken whole leaves the buffer and all that could
be read untouched, and `run_of_sent` that otherwise the response is received.
-/

namespace HookRelay

/-- Both directions of a connection and the time limit for each call on it, in milliseconds. -/
structure Connection where
  source : Source
  sink : Sink
  timeout : Nat
deriving DecidableEq, Repr

/-- The length of the response or why there is none, the buffer, and the connection. -/
structure Exchange where
  result : Except RelayError Nat
  buffer : Buffer
  connection : Connection

namespace Exchange

/-- A chunk with a line feed is the last of a response. -/
def endsResponse (chunk : Bytes) : Bool :=
  chunk.contains Bytes.newline

def receive (buffer : Buffer) (source : Source) : Buffer × Source :=
  let (buffer, source) := source.readInto endsResponse buffer.clear
  (buffer.trim, source)

/-- Send the content of a buffer as a request and receive the response into the buffer. -/
def run (connection : Connection) (buffer : Buffer) : Exchange :=
  match connection.sink.writeEach [buffer.content, [Bytes.newline]] with
  | (.error error, sink) =>
      ⟨.error (.send error), buffer, { connection with sink := sink }⟩
  | (.ok (), sink) =>
      let (response, source) := receive buffer connection.source
      ⟨.ok response.length, response, { connection with sink := sink, source := source }⟩

/-- A request that is not taken whole changes nothing but what was written. -/
theorem run_of_not_sent
    {connection : Connection} {buffer : Buffer} {error : IoError} {sink : Sink}
    (h : connection.sink.writeEach [buffer.content, [Bytes.newline]] = (.error error, sink)) :
    run connection buffer =
      ⟨.error (.send error), buffer, { connection with sink := sink }⟩ := by
  simp [run, h]

/-- A request that is taken whole is followed by the response. -/
theorem run_of_sent
    (connection : Connection) (buffer : Buffer)
    (sent : (connection.sink.writeEach [buffer.content, [Bytes.newline]]).1 = .ok ()) :
    run connection buffer =
      ⟨.ok (receive buffer connection.source).1.length,
        (receive buffer connection.source).1,
        { connection with
          sink := (connection.sink.writeEach [buffer.content, [Bytes.newline]]).2
          source := (receive buffer connection.source).2 }⟩ := by
  have whole :
      connection.sink.writeEach [buffer.content, [Bytes.newline]] =
        (.ok (), (connection.sink.writeEach [buffer.content, [Bytes.newline]]).2) :=
    Prod.ext sent rfl
  rw [run, whole]

/-- Nothing is written by an exchange but the request and its line feed. -/
theorem sink_run (connection : Connection) (buffer : Buffer) :
    (run connection buffer).connection.sink =
      (connection.sink.writeEach [buffer.content, [Bytes.newline]]).2 := by
  cases outcome : (connection.sink.writeEach [buffer.content, [Bytes.newline]]).1 with
  | ok =>
      rw [run_of_sent connection buffer outcome]
  | error error =>
      have refused :
          connection.sink.writeEach [buffer.content, [Bytes.newline]] = (.error error, _) :=
        Prod.ext outcome rfl
      rw [run_of_not_sent refused]

end Exchange

end HookRelay
