import HookRelay.Program
import HookRelay.Proofs.CheckedWire

/-!
# The program with every position checked

Apart from its two buffers the program uses positions in three places: the path of the socket is
built in an array of fixed size, the marker file is read into another, and the digits of its time
are a slice of what was read.  A time limit has to be short enough for the interval that a socket is
given.

* `Config.buildSocketPath?`, `Config.interval?`, `Gate.lastFired?`: these places.
* `Relay.run?`, `Hook.run?`, `Program.run?`: the program on checked buffers, with these places.
* `Program.stays_in_range`: no position is ever out of range, in a buffer of any number of cells and
  in any run of the program.
-/

namespace HookRelay

/-! ## The path of the socket and the time limit -/

namespace Config

/-- The path of the socket, put together in an array.  The inner option is that of the path. -/
def buildSocketPath? (config : Config) : Option (Option Bytes) := do
  match config.home with
  | none => return none
  | some home =>
      let array := List.replicate Places.socketPathCapacity 0
      let length := home.length + Places.socketSuffix.length
      if length ≤ array.length then
        let begun ← Bytes.copyTo? 0 home.length home array
        let whole ← Bytes.copyTo? home.length length Places.socketSuffix begun
        return some (← Bytes.slice? 0 length whole)
      else
        return none

/-- The longest interval that a socket can be given, in seconds: the microseconds of one second more
are still a signed machine word. -/
def longestInterval : Nat := 9223372036853

/-- The time limit in milliseconds, if it is an interval for a socket. -/
def interval? (config : Config) : Option Nat :=
  if config.socketTimeout / 1000 ≤ longestInterval then some config.socketTimeout else none

theorem buildSocketPath?_eq (config : Config) :
    config.buildSocketPath? = some config.socketPath? := by
  unfold buildSocketPath? socketPath?
  cases config.home with
  | none =>
      rfl
  | some home =>
      simp only [List.length_replicate, Option.bind_some, Option.bind_eq_bind, Option.pure_def]
      split
      · rename_i fits
        have array :
            home.length ≤ (List.replicate Places.socketPathCapacity (0 : UInt8)).length := by
          rw [List.length_replicate]
          omega
        let behind := (List.replicate Places.socketPathCapacity (0 : UInt8)).drop home.length
        have room : Places.socketSuffix.length ≤ behind.length := by
          rw [List.length_drop, List.length_replicate]
          omega
        have path :
            Bytes.slice? 0 (home.length + Places.socketSuffix.length)
                (home ++ Places.socketSuffix ++ behind.drop Places.socketSuffix.length) =
              some (home ++ Places.socketSuffix) := by
          rw [← List.length_append, Bytes.slice?_take (by simp), List.take_left]
        simp only [Bytes.copyTo?_zero array, Option.bind_some]
        rw [Bytes.copyTo?_behind rfl room, Option.bind_some, path]
        rfl
      · rfl

/-- An hour is short enough. -/
theorem interval?_eq (config : Config) : config.interval? = some config.socketTimeout := by
  have hour : config.socketTimeout ≤ longestTimeout := Nat.min_le_right _ _
  rw [interval?, if_pos]
  rw [longestTimeout] at hour
  rw [longestInterval]
  omega

end Config

/-! ## The marker file -/

namespace Timestamp

/-- The value of each digit, which is not below that of the zero. -/
def digitValue? (digit : UInt8) : Option Nat :=
  Bytes.sub? digit.toNat 0x30

/-- The time that the digits in front stand for.  The inner option is that of the time. -/
def parse? (raw : Bytes) : Option (Option Timestamp) := do
  let count := (raw.takeWhile isDigit).length
  if count = 0 then
    return none
  else
    let digits ← Bytes.slice? 0 count raw
    let _ ← digits.mapM digitValue?
    return ofDigits? digits

theorem exists_mapM_digitValue? {digits : Bytes} (all : ∀ digit ∈ digits, isDigit digit = true) :
    ∃ values, digits.mapM digitValue? = some values := by
  induction digits with
  | nil =>
      exact ⟨[], rfl⟩
  | cons digit later ih =>
      obtain ⟨isDigit, others⟩ := List.forall_mem_cons.mp all
      obtain ⟨values, mapped⟩ := ih others
      have atLeast : 0x30 ≤ digit.toNat := by
        simp only [Timestamp.isDigit, Bool.and_eq_true, decide_eq_true_eq] at isDigit
        exact UInt8.le_iff_toNat_le.mp isDigit.1
      refine ⟨(digit.toNat - 0x30) :: values, ?_⟩
      simp [digitValue?, Bytes.sub?, atLeast, mapped]

theorem parse?_eq (raw : Bytes) : parse? raw = some (parse raw) := by
  have front : raw.take (raw.takeWhile isDigit).length = raw.takeWhile isDigit :=
    (List.prefix_iff_eq_take.mp (List.takeWhile_prefix isDigit)).symm
  have digits :
      Bytes.slice? 0 (raw.takeWhile isDigit).length raw = some (raw.takeWhile isDigit) := by
    rw [Bytes.slice?_take (List.takeWhile_prefix isDigit).length_le, front]
  have all : ∀ digit ∈ raw.takeWhile isDigit, isDigit digit = true :=
    fun _ mem => List.mem_takeWhile_imp mem
  obtain ⟨values, mapped⟩ := exists_mapM_digitValue? all
  unfold parse? parse
  by_cases nothing : raw.takeWhile isDigit = []
  · simp [nothing]
  · simp only [List.length_eq_zero_iff, nothing, if_false, digits, mapped, Option.bind_eq_bind,
      Option.bind_some, Option.pure_def]

end Timestamp

theorem Tree.length_read_le {tree : Tree} {working : Location} {path bytes : Bytes} {count : Nat}
    (read : tree.read working count path = .ok bytes) : bytes.length ≤ count := by
  unfold Tree.read at read
  split at read
  · cases read
  · cases read
  · cases read
    exact List.length_take_le _ _
  · cases read

namespace Gate

/-- The array into which the marker file is read has one byte more than is asked for. -/
def markerArray : Bytes :=
  List.replicate (markerCapacity + 1) 0

def lastFired? (marker : Bytes) (world : World) : Option (Option Timestamp) := do
  let room ← Bytes.slice? 0 markerCapacity markerArray
  match world.tree.read world.working room.length marker with
  | .error _ => return none
  | .ok bytes =>
      let filled ← Bytes.copyTo? 0 bytes.length bytes room
      let array ← Bytes.copyTo? 0 markerCapacity filled markerArray
      Timestamp.parse? (← Bytes.slice? 0 bytes.length array)

/-- Whether the reminder is printed, and the world afterwards. -/
def check? (marker : Bytes) (window : UInt64) (now : Timestamp) (world : World) :
    Option (Gate × World) := do
  if isRecent (← lastFired? marker world) window now then
    return (.suppress, world)
  else
    return (.fire, mark marker now world)

theorem lastFired?_eq (marker : Bytes) (world : World) :
    lastFired? marker world = some (lastFired marker world) := by
  have room : Bytes.slice? 0 markerCapacity markerArray =
      some (List.replicate markerCapacity 0) := by
    decide
  have length : (List.replicate markerCapacity (0 : UInt8)).length = markerCapacity :=
    List.length_replicate
  unfold lastFired? lastFired
  rw [room, Option.bind_eq_bind, Option.bind_some, length]
  cases read : world.tree.read world.working markerCapacity marker with
  | error error =>
      rfl
  | ok bytes =>
      have fits : bytes.length ≤ (List.replicate markerCapacity (0 : UInt8)).length := by
        rw [length]
        exact Tree.length_read_le read
      let filled := bytes ++ (List.replicate markerCapacity (0 : UInt8)).drop bytes.length
      have whole : filled.length = markerCapacity := by
        rw [List.length_append, List.length_drop, length]
        rw [length] at fits
        omega
      have array : Bytes.copyTo? 0 markerCapacity filled markerArray =
          some (filled ++ markerArray.drop markerCapacity) := by
        have inside : filled.length ≤ markerArray.length := by
          rw [whole, markerArray, List.length_replicate]
          exact Nat.le_succ _
        have copied := Bytes.copyTo?_zero inside
        rwa [whole] at copied
      have content :
          Bytes.slice? 0 bytes.length (filled ++ markerArray.drop markerCapacity) = some bytes := by
        rw [List.append_assoc, Bytes.slice?_take (by simp), List.take_left]
      dsimp only
      rw [Bytes.copyTo?_zero fits, Option.bind_some, array, Option.bind_some, content]
      exact Timestamp.parse?_eq bytes

theorem check?_eq (marker : Bytes) (window : UInt64) (now : Timestamp) (world : World) :
    check? marker window now world = some (check marker window now world) := by
  unfold check? check
  rw [lastFired?_eq, Option.bind_eq_bind, Option.bind_some]
  split <;> rfl

end Gate

/-! ## Relaying and hooks -/

theorem Buffer.length_eq_zero_iff (buffer : Buffer) :
    buffer.length = 0 ↔ buffer.isEmpty = true := by
  rw [isEmpty, length, List.isEmpty_iff, List.length_eq_zero_iff]

namespace Relay

/-- Relay the content of the cells and leave the response in them. -/
def run? (config : Config) (cells : Cells) (world : World) :
    Option (Except RelayError Nat × Cells × World) := do
  match ← config.buildSocketPath? with
  | none => return (.error .noSocketPath, cells, world)
  | some path =>
      match world.connect path (← config.interval?) with
      | .error error => return (.error error, cells, world)
      | .ok connection =>
          let (result, response, connection) ← cells.exchange? connection
          let world := { world with received := some connection.sink.written }
          match result with
          | .error error => return (.error error, response, world)
          | .ok length =>
              return (.ok length, response, world.log (doneNote world.clock cells.length length))

def runSilently? (config : Config) (cells : Cells) (world : World) :
    Option (Option Bytes × World) := do
  let (result, response, after) ← run? config cells world
  match result with
  | .error error => return (none, after.log (failedNote world.clock error))
  | .ok _ =>
      if response.length = 0 then
        return (none, after)
      else
        return (some (← response.content?), after)

section OfBuffer

variable {buffer : Buffer} (usable : buffer.Usable) (config : Config) (world : World)
include usable

theorem run?_ofBuffer :
    run? config (Cells.ofBuffer buffer) world =
      some ((run config buffer world).result, Cells.ofBuffer (run config buffer world).buffer,
        (run config buffer world).world) := by
  simp only [run?, Config.buildSocketPath?_eq, Config.interval?_eq, Cells.exchange?_ofBuffer usable,
    Option.bind_eq_bind, Option.bind_some, Option.pure_def, Cells.length_ofBuffer]
  unfold run connect
  cases config.socketPath? with
  | none =>
      rfl
  | some path =>
      dsimp only
      cases world.connect path config.socketTimeout with
      | error error =>
          rfl
      | ok connection =>
          dsimp only
          cases (Exchange.run connection buffer).result <;> rfl

theorem runSilently?_ofBuffer :
    runSilently? config (Cells.ofBuffer buffer) world =
      some ((runSilently config buffer world).result, (runSilently config buffer world).world) := by
  simp only [runSilently?, run?_ofBuffer usable, Option.bind_eq_bind, Option.bind_some,
    Option.pure_def, Cells.length_ofBuffer, Cells.content?_ofBuffer]
  unfold runSilently
  dsimp only
  cases (run config buffer world).result with
  | error error =>
      rfl
  | ok length =>
      simp only [Buffer.length_eq_zero_iff]
      split <;> rfl

end OfBuffer

end Relay

namespace Hook

def relay? (config : Config) (request : Cells) (source : Source) (sink : Sink) (world : World) :
    Option Finish := do
  let (response, after) ← Relay.runSilently? config request world
  match response with
  | none => return ⟨source, sink, after⟩
  | some response => return ⟨source, emitLine response sink, after⟩

def runAmbient? (config : Config) (source : Source) (sink : Sink) (world : World) :
    Option Finish := do
  let (input, source) ← (Cells.new Buffer.inputCapacity).capture? source
  if input.length = 0 then
    return ⟨source, sink, world⟩
  else
    let text ← input.content?
    match ← (Cells.new Buffer.frameCapacity).splice? Request.ambientOpening text with
    | none => return ⟨source, sink, world.log (inputNote "ambient.skip" input.length)⟩
    | some request => relay? config request source sink world

def runPostBuild? (source : Source) (sink : Sink) (world : World) : Option Finish := do
  let (input, source) ← (Cells.new Buffer.inputCapacity).capture? source
  if input.length = 0 then
    return ⟨source, sink, world⟩
  else if BuildCommand.isBuild (← input.content?) then
    let world := world.log (inputNote "post_build.hit" input.length)
    return ⟨source, emit Answer.buildReminder sink, world⟩
  else
    return ⟨source, sink, world⟩

def runStop? (config : Config) (source : Source) (sink : Sink) (world : World) :
    Option Finish := do
  let now := world.clock.now
  match ← Gate.check? config.marker config.window now world with
  | (.fire, world) =>
      let world := world.log (stopNote "stop.fired" now)
      return ⟨source, emit Answer.stopReminder sink, world⟩
  | (.suppress, world) => return ⟨source, sink, world.log (stopNote "stop.suppressed" now)⟩

def runSubagentStart? (config : Config) (source : Source) (sink : Sink) (world : World) :
    Option Finish := do
  let request ← (Cells.new Buffer.frameCapacity).push? Request.subagentStart
  relay? config request source sink world

def run? (hook : Hook) (config : Config) (source : Source) (sink : Sink) (world : World) :
    Option Finish := do
  let finish ←
    match hook with
    | .approveMcp => some ⟨source, emit Answer.approval sink, world⟩
    | .ambient => runAmbient? config source sink world
    | .postBuild => runPostBuild? source sink world
    | .stop => runStop? config source sink world
    | .subagentStart => runSubagentStart? config source sink world
  return { finish with sink := finish.sink.flush.2 }

section Run

variable (config : Config) (source : Source) (sink : Sink) (world : World)

theorem usable_input : Buffer.input.Usable :=
  .new (by decide) (by decide)

theorem usable_frame : Buffer.frame.Usable :=
  .new (by decide) (by decide)

theorem relay?_ofBuffer {request : Buffer} (usable : request.Usable) :
    relay? config (Cells.ofBuffer request) source sink world =
      some (relay config request source sink world) := by
  rw [relay?, Relay.runSilently?_ofBuffer usable, Option.bind_eq_bind, Option.bind_some, relay]
  dsimp only
  cases (Relay.runSilently config request world).result <;> rfl

/-- What is read from standard input, with every position checked. -/
theorem capture?_input :
    (Cells.new Buffer.inputCapacity).capture? source =
      some (Cells.ofBuffer (source.capture Buffer.input).1, (source.capture Buffer.input).2) :=
  Cells.capture?_ofBuffer usable_input source

theorem runAmbient?_eq :
    runAmbient? config source sink world = some (runAmbient config source sink world) := by
  have spliced (text : Bytes) :
      (Cells.new Buffer.frameCapacity).splice? Request.ambientOpening text =
        some ((Request.splice Request.ambientOpening text Buffer.frame).map Cells.ofBuffer) :=
    Cells.splice?_ofBuffer usable_frame Request.ambientOpening text
  simp only [runAmbient?, capture?_input, spliced, Option.bind_eq_bind, Option.bind_some,
    Option.pure_def, Cells.length_ofBuffer, Cells.content?_ofBuffer,
    Buffer.length_eq_zero_iff]
  unfold runAmbient
  dsimp only
  split
  · rfl
  · cases made : Request.splice Request.ambientOpening (source.capture Buffer.input).1.content
        Buffer.frame with
    | none =>
        rfl
    | some request =>
        exact relay?_ofBuffer config _ sink world (usable_frame.of_splice made)

theorem runPostBuild?_eq :
    runPostBuild? source sink world = some (runPostBuild source sink world) := by
  simp only [runPostBuild?, capture?_input, Option.bind_eq_bind, Option.bind_some,
    Option.pure_def, Cells.length_ofBuffer, Cells.content?_ofBuffer,
    Buffer.length_eq_zero_iff]
  unfold runPostBuild
  dsimp only
  split
  · rfl
  · split <;> rfl

theorem runStop?_eq :
    runStop? config source sink world = some (runStop config source sink world) := by
  simp only [runStop?, Gate.check?_eq, Option.bind_eq_bind, Option.bind_some, Option.pure_def]
  unfold runStop
  dsimp only
  generalize Gate.check config.marker config.window world.clock.now world = checked
  obtain ⟨decision, after⟩ := checked
  cases decision with
  | fire => rfl
  | suppress => rfl

theorem runSubagentStart?_eq :
    runSubagentStart? config source sink world =
      some (runSubagentStart config source sink world) := by
  have pushed := Cells.push?_ofBuffer usable_frame Request.subagentStart
  rw [Buffer.frame, ← Cells.new_eq_ofBuffer] at pushed
  rw [runSubagentStart?, pushed, Option.bind_eq_bind, Option.bind_some]
  exact relay?_ofBuffer config source sink world (usable_frame.push _)

/-- No hook uses a position out of range. -/
theorem run?_eq (hook : Hook) :
    hook.run? config source sink world = some (hook.run config source sink world) := by
  unfold run? run
  cases hook with
  | approveMcp => rfl
  | ambient =>
      rw [runAmbient?_eq]
      rfl
  | postBuild =>
      rw [runPostBuild?_eq]
      rfl
  | stop =>
      rw [runStop?_eq]
      rfl
  | subagentStart =>
      rw [runSubagentStart?_eq]
      rfl

end Run

end Hook

/-! ## The whole program -/

namespace Program

/-- One invocation, with every position checked. -/
def run? (invocation : Invocation) (world : World) : Option Completion :=
  match action invocation.arguments with
  | .missing =>
      some ⟨1, invocation.input, invocation.output, [], world⟩
  | .ignore =>
      some ⟨0, invocation.input, invocation.output, [], world⟩
  | .run hook => do
      let config := Config.ofEnvironment invocation.environment
      let finish ←
        hook.run? config invocation.input invocation.output (started config hook world)
      return ⟨0, finish.source, finish.sink, [], finish.world⟩

theorem run?_eq (invocation : Invocation) (world : World) :
    run? invocation world = some (run invocation world) := by
  unfold run? run
  cases action invocation.arguments with
  | missing => rfl
  | ignore => rfl
  | run hook =>
      simp only [Hook.run?_eq, Option.bind_eq_bind, Option.bind_some, Option.pure_def]

theorem exitCode_run (invocation : Invocation) (world : World) :
    (run invocation world).exitCode = if invocation.arguments = [] then 1 else 0 := by
  unfold run
  cases named : invocation.arguments with
  | nil =>
      rfl
  | cons argument later =>
      rw [if_neg (List.cons_ne_nil argument later)]
      cases chosen : action (argument :: later) with
      | missing =>
          unfold action at chosen
          dsimp only at chosen
          split at chosen <;> cases chosen
      | ignore => rfl
      | run hook => rfl

/-- A buffer that can be reached keeps a cell free and goes through every further step, and every
run of the program goes through and exits with one exactly if there is no argument. -/
theorem stays_in_range
    (capacity : Nat)
    (positive : 0 < capacity)
    (word : capacity < UInt64.size)
    (buffer : Buffer)
    (reachable : Buffer.Reachable capacity buffer)
    (invocation : Invocation)
    (world : World) :
    buffer.capacity = capacity ∧
    buffer.length ≤ capacity - 1 ∧
    (Cells.ofBuffer buffer).content? = some buffer.content ∧
    (∀ step : Buffer.Step, step.Countable buffer →
      (Cells.ofBuffer buffer).step? step = some (Cells.ofBuffer (buffer.step step))) ∧
    run? invocation world = some (run invocation world) ∧
    ((run invocation world).exitCode = 1 ↔ invocation.arguments = []) ∧
    ((run invocation world).exitCode = 0 ↔ invocation.arguments ≠ []) := by
  have cells := reachable.capacity_eq
  have usable := reachable.usable positive word
  refine ⟨cells, ?_, Cells.content?_ofBuffer, ?_, run?_eq invocation world, ?_, ?_⟩
  · rw [← cells]
    exact usable.length_le
  · intro step countable
    exact Cells.step?_ofBuffer usable step countable
  · rw [exitCode_run]
    split <;> simp [*]
  · rw [exitCode_run]
    split <;> simp [*]

/-- The smallest buffer has room for nothing but the reserved cell, and nothing that is pushed or
shown goes beyond it; and the stop hook finds a time in its marker file. -/
theorem stays_in_range_single_cell :
    let buffer := ((Buffer.new 1).step (.push (Bytes.ofText "abc"))).step (.advance 7)
    let invocation : Invocation :=
      ⟨[Bytes.ofText "stop"], ⟨none, none, none, some (Bytes.ofText "/m"), none⟩,
        Source.ofScript [], Sink.ofScript [] none⟩
    let world : World :=
      ⟨Tree.empty.set [Bytes.ofText "m"] (.file (Bytes.ofText "970\n")), [], ⟨1000, 0, 0⟩, 1, none,
        none, []⟩
    buffer.length = 0 ∧
      (Cells.ofBuffer buffer).step? .terminate = some (Cells.ofBuffer buffer.terminate) ∧
      run? invocation world = some (run invocation world) ∧
      (run invocation world).output.written = [] ∧
      (run invocation world).exitCode = 0 := by
  intro buffer invocation world
  have reachable : Buffer.Reachable 1 buffer := by
    refine .step (.advance 7) (.step (.push (Bytes.ofText "abc")) .new trivial) ?_
    change ((Buffer.new 1).push (Bytes.ofText "abc")).length + 7 < UInt64.size
    decide
  obtain ⟨-, short, -, steps, runs, -, given⟩ :=
    stays_in_range 1 (by decide) (by decide) buffer reachable invocation world
  have suppressed : (run invocation world).output.written = [] := by
    decide +kernel
  exact ⟨Nat.le_zero.mp short, steps .terminate trivial, runs, suppressed, given.mpr (by decide)⟩

end Program
end HookRelay
