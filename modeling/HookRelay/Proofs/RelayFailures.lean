import HookRelay.Proofs.Relaying

/-!
# Why a relay fails, and what that leaves behind

The steps of a relay are taken in a fixed order: the path of the socket is put together, it is taken
as an address, somebody listens there, and the request is taken whole.  The first of them that fails
gives the error.  Since the buffer of the request is only used again behind the last of them, every
failure leaves all its cells as they were.  There is an answer exactly if the relay succeeds with a
response that is not empty.

* `Relay.Built`, `Relay.Addressed`: how far the path of the socket gets.
* `Relay.Cause`: what must be so for each error.  `Relay.exists_cause_or_sent` says that one of the
  causes is there or the request is sent, and `Relay.result_of_cause` that a cause gives its error.
* `Relay.run_cases`: the three ways in which a relay ends.
* `Relay.fails_in_order`: which error is given, what a failure leaves behind, and when there is an
  answer.
-/

namespace HookRelay

namespace Exchange

/-- The request is not taken whole and nothing else has happened, or the response is in the
buffer. -/
theorem run_cases (connection : Connection) (buffer : Buffer) :
    let sent := (connection.sink.writeEach [buffer.content, [Bytes.newline]]).1
    let exchange := run connection buffer
    (∃ error, sent = .error error ∧
      exchange.result = .error (.send error) ∧
      exchange.buffer = buffer ∧
      exchange.connection.source = connection.source) ∨
    (sent = .ok () ∧
      exchange.result = .ok exchange.buffer.content.length ∧
      ∃ bytes, exchange.buffer.content = Bytes.trimEnd bytes) := by
  intro sent exchange
  cases outcome : sent with
  | error error =>
      have refused :
          connection.sink.writeEach [buffer.content, [Bytes.newline]] = (.error error, _) :=
        Prod.ext outcome rfl
      refine Or.inl ⟨error, rfl, ?_⟩
      simp [exchange, run_of_not_sent refused]
  | ok =>
      have ran := run_of_sent connection buffer outcome
      refine Or.inr ⟨rfl, ?_⟩
      simp only [exchange, ran]
      exact ⟨rfl, _, Buffer.content_trim _⟩

end Exchange

namespace Relay

/-! ## The path of the socket -/

/-- The path of the socket is put together: it is the home directory and 23 bytes behind it, and has
no more than 128 bytes. -/
def Built (config : Config) (path : Bytes) : Prop :=
  ∃ home, config.home = some home ∧ home.length + 23 ≤ 128 ∧
    path = home ++ Bytes.ofText "/.amaranthine/hook.sock"

/-- The path that is put together is the address of a socket. -/
def Addressed (config : Config) (path : Bytes) : Prop :=
  Built config path ∧ 0 ∉ path ∧ path.length < 108

/-- The connection to whoever listens at the socket. -/
def connection (config : Config) (listener : Listener) : Connection :=
  ⟨Source.ofScript listener.sends, Sink.ofScript listener.takes none, config.socketTimeout⟩

/-- How sending the request to a listener ends. -/
def sending (buffer : Buffer) (listener : Listener) : Except IoError Unit :=
  ((Sink.ofScript listener.takes none).writeEach [buffer.content, [Bytes.newline]]).1

section Connect

variable {config : Config} {world : World} {path : Bytes}

theorem exists_built (config : Config) :
    (∀ home, config.home = some home → 128 < home.length + 23) ∨ ∃ path, Built config path := by
  cases found : config.home with
  | none =>
      refine Or.inl ?_
      intro home absent
      contradiction
  | some home =>
      by_cases fits : home.length + 23 ≤ 128
      · exact Or.inr ⟨_, home, found, fits, rfl⟩
      · refine Or.inl ?_
        intro other same
        rw [← Option.some.inj same]
        exact Nat.lt_of_not_le fits

theorem connect_of_not_built
    (long : ∀ home, config.home = some home → 128 < home.length + 23) :
    connect config world = .error .noSocketPath := by
  have none : config.socketPath? = none := by
    rw [Option.eq_none_iff_forall_ne_some]
    intro path made
    obtain ⟨home, found, fits, -⟩ := Config.socketPath?_eq_some_iff.mp made
    exact absurd fits (Nat.not_le.mpr (long home found))
  rw [connect, none]

theorem connect_of_built (built : Built config path) :
    connect config world = world.connect path config.socketTimeout := by
  rw [connect, Config.socketPath?_eq_some_iff.mpr built]

theorem connect_of_zero (built : Built config path) (zero : 0 ∈ path) :
    connect config world = .error (.path .invalidArgument) := by
  rw [connect_of_built built, World.connect, if_pos (List.contains_iff_mem.mpr zero)]

theorem connect_of_long (built : Built config path) (noZero : 0 ∉ path)
    (long : 108 ≤ path.length) :
    connect config world = .error (.path .nameTooLong) := by
  rw [connect_of_built built, World.connect, if_neg (by simpa using noZero),
    World.addressCapacity, if_pos long]

/-- An address is used whole. -/
theorem connect_of_addressed (addressed : Addressed config path) :
    connect config world =
      match world.tree.listener? world.working path with
      | .error error => .error (.connect error)
      | .ok listener => .ok (connection config listener) := by
  obtain ⟨built, noZero, short⟩ := addressed
  rw [connect_of_built built, World.connect, if_neg (by simpa using noZero),
    World.addressCapacity, if_neg (Nat.not_le.mpr short)]
  rfl

end Connect

/-! ## The cause of each error -/

/-- What must be so for each error, in the order in which the steps are taken.  Making the socket
itself does not fail. -/
def Cause (config : Config) (buffer : Buffer) (world : World) : RelayError → Prop
  | .noSocketPath =>
      ∀ home, config.home = some home → 128 < home.length + 23
  | .path errno =>
      ∃ path, Built config path ∧
        (0 ∈ path ∧ errno = .invalidArgument ∨
          0 ∉ path ∧ 108 ≤ path.length ∧ errno = .nameTooLong)
  | .socket _ =>
      False
  | .connect error =>
      ∃ path, Addressed config path ∧ world.tree.listener? world.working path = .error error
  | .send error =>
      ∃ path listener, Addressed config path ∧
        world.tree.listener? world.working path = .ok listener ∧
        sending buffer listener = .error error

/-- The request is taken whole by whoever listens at the address. -/
def Sent (config : Config) (buffer : Buffer) (world : World) : Prop :=
  ∃ path listener, Addressed config path ∧
    world.tree.listener? world.working path = .ok listener ∧
    sending buffer listener = .ok ()

section Cause

variable {config : Config} {buffer : Buffer} {world : World} {error : RelayError}

/-- Some step fails, or none does. -/
theorem exists_cause_or_sent (config : Config) (buffer : Buffer) (world : World) :
    (∃ error, Cause config buffer world error) ∨ Sent config buffer world := by
  rcases exists_built config with long | ⟨path, built⟩
  · exact Or.inl ⟨.noSocketPath, long⟩
  · by_cases zero : 0 ∈ path
    · exact Or.inl ⟨.path .invalidArgument, path, built, Or.inl ⟨zero, rfl⟩⟩
    · by_cases long : 108 ≤ path.length
      · exact Or.inl ⟨.path .nameTooLong, path, built, Or.inr ⟨zero, long, rfl⟩⟩
      · have addressed : Addressed config path := ⟨built, zero, Nat.lt_of_not_le long⟩
        cases found : world.tree.listener? world.working path with
        | error error =>
            exact Or.inl ⟨.connect error, path, addressed, found⟩
        | ok listener =>
            cases outcome : sending buffer listener with
            | error error =>
                exact Or.inl ⟨.send error, path, listener, addressed, found, outcome⟩
            | ok =>
                exact Or.inr ⟨path, listener, addressed, found, outcome⟩

/-- Without a connection, the error is the cause. -/
theorem connect_of_cause (cause : Cause config buffer world error)
    (unsent : ∀ failure, error ≠ .send failure) :
    connect config world = .error error := by
  cases error with
  | noSocketPath =>
      exact connect_of_not_built cause
  | path errno =>
      obtain ⟨path, built, ⟨zero, rfl⟩ | ⟨noZero, long, rfl⟩⟩ := cause
      · exact connect_of_zero built zero
      · exact connect_of_long built noZero long
  | socket errno =>
      exact cause.elim
  | connect failure =>
      obtain ⟨path, addressed, nobody⟩ := cause
      rw [connect_of_addressed addressed, nobody]
  | send failure =>
      exact absurd rfl (unsent failure)

theorem result_of_sending {path : Bytes} {listener : Listener}
    (addressed : Addressed config path)
    (found : world.tree.listener? world.working path = .ok listener) :
    (run config buffer world).result =
      (Exchange.run (connection config listener) buffer).result := by
  have connected : connect config world = .ok (connection config listener) := by
    rw [connect_of_addressed addressed, found]
  exact (run_of_connected buffer connected).1

theorem result_of_cause (cause : Cause config buffer world error) :
    (run config buffer world).result = .error error := by
  by_cases unsent : ∀ failure, error ≠ .send failure
  · rw [run_of_not_connected buffer (connect_of_cause cause unsent)]
  · obtain ⟨failure, same⟩ := not_forall_not.mp unsent
    subst same
    obtain ⟨path, listener, addressed, found, stopped⟩ := cause
    rw [result_of_sending addressed found]
    rcases Exchange.run_cases (connection config listener) buffer with
      ⟨other, refused, result, -⟩ | ⟨taken, -⟩
    · rw [result, ← Except.error.inj (stopped.symm.trans refused)]
    · exact absurd (stopped.symm.trans taken) (by simp)

theorem result_of_sent (sent : Sent config buffer world) :
    ∃ length, (run config buffer world).result = .ok length := by
  obtain ⟨path, listener, addressed, found, taken⟩ := sent
  rw [result_of_sending addressed found]
  rcases Exchange.run_cases (connection config listener) buffer with
    ⟨other, refused, -⟩ | ⟨-, result, -⟩
  · exact absurd (taken.symm.trans refused) (by simp)
  · exact ⟨_, result⟩

/-- A relay fails with an error exactly if its cause is there. -/
theorem result_eq_error_iff :
    (run config buffer world).result = .error error ↔ Cause config buffer world error := by
  refine ⟨?_, result_of_cause⟩
  intro failed
  rcases exists_cause_or_sent config buffer world with ⟨other, cause⟩ | sent
  · have same := (result_of_cause cause).symm.trans failed
    rwa [← Except.error.inj same]
  · obtain ⟨length, relayed⟩ := result_of_sent sent
    rw [relayed] at failed
    contradiction

end Cause

/-! ## What a failure leaves behind, and what an answer is -/

section Ends

variable {config : Config} {buffer : Buffer} {world : World}

/-- Making a connection sends nothing. -/
theorem ne_send_of_not_connected {error : RelayError}
    (failed : connect config world = .error error) :
    ∀ failure, error ≠ .send failure := by
  rintro failure rfl
  have result := congrArg Relay.result (run_of_not_connected Buffer.frame failed)
  obtain ⟨path, listener, addressed, found, -⟩ := result_eq_error_iff.mp result
  rw [connect_of_addressed addressed, found] at failed
  contradiction

/-- A relay ends without a connection, with a request that is not taken whole, or with a
response. -/
theorem run_cases (config : Config) (buffer : Buffer) (world : World) :
    let relayed := run config buffer world
    (∃ error, (∀ failure, error ≠ .send failure) ∧ connect config world = .error error ∧
      relayed = ⟨.error error, buffer, world⟩) ∨
    ∃ connection, connect config world = .ok connection ∧
      ((∃ failure, relayed.result = .error (.send failure) ∧ relayed.buffer = buffer ∧
        (Exchange.run connection buffer).connection.source = connection.source) ∨
      (relayed.result = .ok relayed.buffer.content.length ∧
        ∃ bytes, relayed.buffer.content = Bytes.trimEnd bytes)) := by
  intro relayed
  cases connected : connect config world with
  | error error =>
      have failed := run_of_not_connected buffer connected
      exact Or.inl ⟨error, ne_send_of_not_connected connected, rfl, failed⟩
  | ok connection =>
      obtain ⟨result, content, -⟩ := run_of_connected buffer connected
      refine Or.inr ⟨connection, rfl, ?_⟩
      simp only [relayed, result, content]
      rcases Exchange.run_cases connection buffer with
        ⟨failure, -, refused, same, unread⟩ | ⟨-, received, trimmed⟩
      · exact Or.inl ⟨failure, refused, same, unread⟩
      · exact Or.inr ⟨received, trimmed⟩

theorem buffer_runSilently (config : Config) (buffer : Buffer) (world : World) :
    (runSilently config buffer world).buffer = (run config buffer world).buffer := by
  unfold runSilently
  dsimp only
  split
  · rfl
  · split <;> rfl

theorem answer_eq_some_iff {response bytes : Bytes} :
    answer response = some bytes ↔ response = bytes ∧ bytes ≠ [] := by
  unfold answer
  split
  · rename_i empty
    subst empty
    simp [eq_comm]
  · rename_i some
    constructor
    · intro same
      rw [← Option.some.inj same]
      exact ⟨rfl, some⟩
    · rintro ⟨rfl, -⟩
      rfl

/-- A relay that succeeds gives the length of the response, which does not end with a blank. -/
theorem content_run_of_ok {length : Nat}
    (relayed : (run config buffer world).result = .ok length) :
    length = (run config buffer world).buffer.content.length ∧
      ∃ bytes, (run config buffer world).buffer.content = Bytes.trimEnd bytes := by
  rcases run_cases config buffer world with
    ⟨error, -, -, failed⟩ | ⟨_, -, ⟨failure, failed, -⟩ | ⟨received, trimmed⟩⟩
  · rw [failed] at relayed
    contradiction
  · rw [failed] at relayed
    contradiction
  · exact ⟨Except.ok.inj (relayed.symm.trans received), trimmed⟩

/-- A relay that hides its failures gives the response, if there is one and it is not empty. -/
theorem runSilently_eq_some_iff {bytes : Bytes} :
    (runSilently config buffer world).result = some bytes ↔
      (run config buffer world).result = .ok bytes.length ∧
        (run config buffer world).buffer.content = bytes ∧
        bytes ≠ [] := by
  constructor
  · intro answered
    cases relayed : (run config buffer world).result with
    | error error =>
        rw [(runSilently_of_error buffer relayed).1] at answered
        contradiction
    | ok length =>
        rw [(runSilently_of_ok buffer relayed).1] at answered
        obtain ⟨rfl, some⟩ := answer_eq_some_iff.mp answered
        obtain ⟨rfl, -⟩ := content_run_of_ok relayed
        exact ⟨rfl, rfl, some⟩
  · rintro ⟨relayed, rfl, some⟩
    rw [(runSilently_of_ok buffer relayed).1]
    exact answer_eq_some_iff.mpr ⟨rfl, some⟩

/-- A relay fails with an error exactly if the cause of that error is there, and a failure leaves
the request as it was; it succeeds exactly if the request is sent whole. -/
theorem fails_in_order
    (config : Config)
    (buffer : Buffer)
    (world : World) :
    let relayed := run config buffer world
    let silent := runSilently config buffer world
    (∀ error, relayed.result = .error error ↔ Cause config buffer world error) ∧
    ((∃ length, relayed.result = .ok length) ↔ Sent config buffer world) ∧
    (∀ error, relayed.result = .error error →
      relayed.buffer = buffer ∧
      silent.buffer = buffer ∧
      silent.result = none ∧
      (∀ connection, connect config world = .ok connection →
        (Exchange.run connection buffer).connection.source = connection.source) ∧
      ((∀ failure, error ≠ .send failure) →
        relayed.world = world ∧ silent.world.received = world.received)) ∧
    (∀ bytes, silent.result = some bytes ↔
      relayed.result = .ok bytes.length ∧ relayed.buffer.content = bytes ∧ bytes ≠ []) ∧
    (∀ bytes, silent.result = some bytes →
      silent.buffer.content = bytes ∧ ∃ last, bytes.getLast? = some last ∧ 0x20 < last) := by
  intro relayed silent
  have ends := run_cases config buffer world
  refine ⟨fun _ => result_eq_error_iff, ?_, ?_, ?_, ?_⟩
  · refine ⟨?_, result_of_sent⟩
    rintro ⟨length, succeeded⟩
    rcases exists_cause_or_sent config buffer world with ⟨error, cause⟩ | sent
    · have failed := (result_of_cause cause).symm.trans succeeded
      contradiction
    · exact sent
  · intro error failed
    obtain ⟨result, received⟩ := runSilently_of_error buffer failed
    have same : silent.buffer = relayed.buffer := buffer_runSilently config buffer world
    rw [same]
    rcases ends with ⟨other, unsent, unconnected, ran⟩ |
      ⟨connection, connected, ⟨failure, stopped, kept, unread⟩ | ⟨succeeded, -⟩⟩
    · have world : relayed.world = world := congrArg Relay.world ran
      refine ⟨congrArg Relay.buffer ran, congrArg Relay.buffer ran, result, ?_, ?_⟩
      · intro connection connected
        rw [connected] at unconnected
        contradiction
      · intro _
        exact ⟨world, received.trans (congrArg World.received world)⟩
    · refine ⟨kept, kept, result, ?_, ?_⟩
      · intro other made
        rw [connected] at made
        rwa [← Except.ok.inj made]
      · intro unsent
        exact absurd (Except.error.inj (failed.symm.trans stopped)) (unsent failure)
    · have absent := failed.symm.trans succeeded
      contradiction
  · intro bytes
    exact runSilently_eq_some_iff
  · intro bytes answered
    obtain ⟨succeeded, content, some⟩ := runSilently_eq_some_iff.mp answered
    obtain ⟨-, all, trimmed⟩ := content_run_of_ok succeeded
    refine ⟨(congrArg Buffer.content (buffer_runSilently config buffer world)).trans content, ?_⟩
    rw [content] at trimmed
    subst trimmed
    refine ⟨_, List.getLast?_eq_some_getLast some, ?_⟩
    have visible := Bytes.isBlank_getLast_trimEnd all some
    simpa [Bytes.isBlank] using visible

/-- A server takes five bytes of a request and then breaks off, with an answer that is never
read. -/
theorem fails_in_order_begun :
    let listener : Listener :=
      ⟨[.accept 5, .failure (.plain .brokenPipe)], [.data (Bytes.ofText "late")]⟩
    let request := Buffer.frame.push Request.subagentStart
    (run home request (served listener)).result = .error (.send (.plain .brokenPipe)) ∧
      (run home request (served listener)).buffer = request ∧
      (Exchange.run (connection home listener) request).connection.source.calls = 0 ∧
      (runSilently home request (served listener)).result = none := by
  intro listener request
  have content : request.content = Request.subagentStart := by
    rw [Buffer.content_push, Buffer.frame, Buffer.room_new]
    rfl
  have stopped : sending request listener = .error (.plain .brokenPipe) := by
    rw [sending, content]
    rfl
  have built : Built home (Bytes.ofText "/h" ++ Bytes.ofText "/.amaranthine/hook.sock") :=
    ⟨_, rfl, by decide, rfl⟩
  have cause : Cause home request (served listener) (.send (.plain .brokenPipe)) :=
    ⟨_, listener, ⟨built, by decide, by decide⟩, rfl, stopped⟩
  obtain ⟨causes, -, failed, -⟩ := fails_in_order home request (served listener)
  have result := (causes _).mpr cause
  obtain ⟨kept, -, silent, unread, -⟩ := failed _ result
  have connected : connect home (served listener) = .ok (connection home listener) := rfl
  refine ⟨result, kept, ?_, silent⟩
  rw [unread _ connected]
  rfl

/-- The path is too long for an address and holds a zero, which is the first that is noticed. -/
example :
    let config := { Config.default with home := some (List.replicate 100 0) }
    (run config Buffer.frame (served ⟨[], []⟩)).result = .error (.path .invalidArgument) := by
  rfl

end Ends

end Relay
end HookRelay
