import HookRelay.Program
import HookRelay.Proofs.GrownTree
import HookRelay.Proofs.MarkerWriting
import HookRelay.Proofs.Relaying
import Mathlib.Data.List.TakeWhile

/-!
# Logging is not seen from outside

Whether a log is kept shows in the file tree only.  A hook looks at the tree in one place at most:
the stop hook reads the marker file, and the hooks that relay connect to the socket.  A line of the
log that is begun or continued at the marker holds no digit in front, so that the time in it is the
same; and no socket comes or goes.  This is so wherever the marker file is and whether or not the
log can be written, but not if the path that is looked at goes up from a directory that is made only
for the log: it can be followed only when that directory is there.

* `Hook.paths`: the paths that a hook looks at.
* `World.Alike`: two worlds that show a hook the same.  `Hook.respond_alike` says that the hook then
  answers the same.
* `World.alike_log`: a world and the same world after a note was logged.
* `Program.run_with_log`: an invocation with a log and one without.
* `Program.run_with_log_climbing`: a marker path that goes up from a directory of the log, where the
  log is seen after all.
-/

namespace HookRelay

/-! ## What a hook sees of the tree -/

namespace Timestamp

/-- A byte that is no digit ends the time, whatever follows. -/
theorem parse_take_append (raw later : Bytes) {byte : UInt8} (noDigit : isDigit byte = false)
    (count : Nat) :
    parse ((raw ++ byte :: later).take count) = parse (raw.take count) := by
  have same :
      ((raw ++ byte :: later).take count).takeWhile isDigit =
        (raw.take count).takeWhile isDigit := by
    rw [List.take_append, List.takeWhile_append]
    split
    · rename_i all
      have ends : ((byte :: later).take (count - raw.length)).takeWhile isDigit = [] := by
        cases count - raw.length with
        | zero => rfl
        | succ more => simp [noDigit]
      rw [ends, List.append_nil, (List.takeWhile_prefix _).eq_of_length all]
    · rfl
  simp only [parse, same]

end Timestamp

namespace Gate

variable {marker : Bytes} {world : World}

/-- The time in the file that the path of the marker finds. -/
def timeIn : Option Entry → Option Timestamp
  | some (.file content) => Timestamp.parse (content.take markerCapacity)
  | _ => none

theorem lastFired_eq (marker : Bytes) (world : World) :
    lastFired marker world = timeIn (world.tree.entryAt? world.working marker) := by
  simp only [lastFired, Tree.read, Tree.entryAt?]
  cases world.tree.lookup world.working marker with
  | error error => rfl
  | ok entry => cases entry <;> rfl

/-- A line that does not begin with a digit changes no time. -/
theorem timeIn_of_change {byte : UInt8} {later : Bytes} {before after : Option Entry}
    (noDigit : Timestamp.isDigit byte = false)
    (change : Tree.Change (byte :: later) before after) : timeIn after = timeIn before := by
  cases change with
  | kept =>
      rfl
  | made =>
      rfl
  | begun =>
      exact Timestamp.parse_take_append [] later noDigit markerCapacity
  | continued content =>
      exact Timestamp.parse_take_append content later noDigit markerCapacity

theorem received_check (marker : Bytes) (window : UInt64) (now : Timestamp) (world : World) :
    (check marker window now world).2.received = world.received := by
  unfold check
  split
  · rfl
  · exact received_mark marker now world

end Gate

namespace World

/-- The connection to whoever listens at what the path of a socket finds. -/
def connectionTo (timeout : Nat) : Option Entry → Option Connection
  | some (.socket (some listener)) =>
      some ⟨Source.ofScript listener.sends, Sink.ofScript listener.takes none, timeout⟩
  | _ => none

theorem connectionTo_of_change {timeout : Nat} {line : Bytes} {before after : Option Entry}
    (change : Tree.Change line before after) :
    connectionTo timeout after = connectionTo timeout before := by
  cases change <;> rfl

theorem toOption_connect (path : Bytes) (timeout : Nat) (world : World) :
    (world.connect path timeout).toOption =
      if path.contains 0 ∨ addressCapacity ≤ path.length then
        none
      else
        connectionTo timeout (world.tree.entryAt? world.working path) := by
  unfold connect
  split
  · rename_i zero
    rw [if_pos (Or.inl zero)]
    rfl
  · split
    · rename_i long
      rw [if_pos (Or.inr long)]
      rfl
    · rename_i noZero short
      rw [if_neg (not_or.mpr ⟨noZero, short⟩)]
      simp only [Tree.listener?, Tree.entryAt?]
      cases world.tree.lookup world.working path with
      | error error => rfl
      | ok entry =>
          cases entry with
          | directory => rfl
          | file content => rfl
          | socket listener => cases listener <;> rfl

end World

/-! ## Worlds that show a hook the same -/

/-- The paths that a hook looks at in the file tree, apart from that of the log. -/
def Hook.paths (config : Config) : Hook → List Bytes
  | .approveMcp => []
  | .ambient => config.socketPath?.toList
  | .postBuild => []
  | .stop => [config.marker]
  | .subagentStart => config.socketPath?.toList

theorem Hook.paths_of_relays {hook : Hook} (relaying : hook.relays = true) (config : Config) :
    hook.paths config = config.socketPath?.toList := by
  cases hook with
  | ambient => rfl
  | subagentStart => rfl
  | approveMcp => cases relaying
  | postBuild => cases relaying
  | stop => cases relaying

/-- Two worlds that show a hook the same. -/
structure World.Alike (hook : Hook) (config : Config) (one other : World) : Prop where
  clock : one.clock = other.clock
  received : one.received = other.received
  last : hook = .stop → Gate.lastFired config.marker one = Gate.lastFired config.marker other
  connection : hook.relays = true →
    (Relay.connect config one).toOption = (Relay.connect config other).toOption

namespace Relay

variable {config : Config} {one other : World} (buffer : Buffer)

/-- Either neither connection is made, or they are the same. -/
theorem connect_alike
    (connection : (connect config one).toOption = (connect config other).toOption) :
    (∃ error error', connect config one = .error error ∧ connect config other = .error error') ∨
      ∃ connection,
        connect config one = .ok connection ∧ connect config other = .ok connection := by
  cases first : connect config one with
  | error error =>
      cases second : connect config other with
      | error error' =>
          exact Or.inl ⟨error, error', rfl, rfl⟩
      | ok _ =>
          rw [first, second] at connection
          cases connection
  | ok connected =>
      cases second : connect config other with
      | error _ =>
          rw [first, second] at connection
          cases connection
      | ok connected' =>
          rw [first, second] at connection
          rw [Option.some.inj connection]
          exact Or.inr ⟨connected', rfl, rfl⟩

theorem runSilently_alike
    (same : (connect config one).toOption = (connect config other).toOption)
    (untouched : one.received = other.received) :
    (runSilently config buffer one).result = (runSilently config buffer other).result ∧
      (runSilently config buffer one).world.received =
        (runSilently config buffer other).world.received := by
  rcases connect_alike same with ⟨error, error', failed, failed'⟩ | ⟨connection, made, made'⟩
  · obtain ⟨result, received⟩ := runSilently_of_not_connected buffer failed
    obtain ⟨result', received'⟩ := runSilently_of_not_connected buffer failed'
    rw [result, result', received, received']
    exact ⟨rfl, untouched⟩
  · obtain ⟨result, content, received⟩ := run_of_connected buffer made
    obtain ⟨result', content', received'⟩ := run_of_connected buffer made'
    cases exchanged : (Exchange.run connection buffer).result with
    | error error =>
        rw [exchanged] at result result'
        obtain ⟨silent, seen⟩ := runSilently_of_error buffer result
        obtain ⟨silent', seen'⟩ := runSilently_of_error buffer result'
        rw [silent, silent', seen, seen', received, received']
        exact ⟨rfl, rfl⟩
    | ok length =>
        rw [exchanged] at result result'
        obtain ⟨answered, after⟩ := runSilently_of_ok buffer result
        obtain ⟨answered', after'⟩ := runSilently_of_ok buffer result'
        rw [answered, answered', after, after', content, content', received, received']
        exact ⟨rfl, rfl⟩

end Relay

namespace Hook

variable {config : Config} {one other : World}

theorem respondStop_eq (config : Config) (source : Source) (world : World) :
    (respondStop config source world).pieces =
        (if Gate.isRecent (Gate.lastFired config.marker world) config.window world.clock.now then
          []
        else
          [Answer.stopReminder]) ∧
      (respondStop config source world).source = source ∧
      (respondStop config source world).world.received = world.received := by
  have gate := Gate.fst_check config.marker config.window world.clock.now world
  have received := Gate.received_check config.marker config.window world.clock.now world
  unfold respondStop
  dsimp only
  generalize Gate.check config.marker config.window world.clock.now world = checked at gate received
  obtain ⟨decision, after⟩ := checked
  dsimp only at gate received
  split at gate
  · rename_i recent
    subst gate
    exact ⟨(if_pos recent).symm, rfl, by simpa using received⟩
  · rename_i passed
    subst gate
    exact ⟨(if_neg passed).symm, rfl, by simpa using received⟩

/-- A hook answers the same in worlds that show it the same. -/
theorem respond_alike {hook : Hook} (alike : World.Alike hook config one other)
    (source : Source) :
    (hook.respond config source one).pieces = (hook.respond config source other).pieces ∧
      (hook.respond config source one).source = (hook.respond config source other).source ∧
      (hook.respond config source one).world.received =
        (hook.respond config source other).world.received := by
  cases hook with
  | approveMcp =>
      exact ⟨rfl, rfl, alike.received⟩
  | ambient =>
      simp only [respond, respondAmbient]
      split
      · exact ⟨rfl, rfl, alike.received⟩
      · split
        · exact ⟨rfl, rfl, by simpa using alike.received⟩
        · rename_i request _
          obtain ⟨result, received⟩ :=
            Relay.runSilently_alike request (alike.connection rfl) alike.received
          exact ⟨congrArg pieces result, rfl, received⟩
  | postBuild =>
      simp only [respond, respondPostBuild]
      split
      · exact ⟨rfl, rfl, alike.received⟩
      · split
        · exact ⟨rfl, rfl, by simpa using alike.received⟩
        · exact ⟨rfl, rfl, alike.received⟩
  | stop =>
      obtain ⟨printed, left, received⟩ := respondStop_eq config source one
      obtain ⟨printed', left', received'⟩ := respondStop_eq config source other
      simp only [respond]
      rw [printed, printed', left, left', received, received', alike.last rfl, alike.clock,
        alike.received]
      exact ⟨rfl, rfl, rfl⟩
  | subagentStart =>
      obtain ⟨result, received⟩ :=
        Relay.runSilently_alike _ (alike.connection rfl) alike.received
      exact ⟨congrArg pieces result, rfl, received⟩

end Hook

/-! ## A note that is logged -/

theorem Note.exists_line_eq_cons (moment : Moment) (process : Nat) (note : Note) :
    ∃ later, note.line moment process = Request.openingBrace :: later :=
  ⟨_, rfl⟩

namespace World

section Log

variable {hook : Hook} {config : Config} {world : World} {log : Bytes}

/-- The directories of the log are made, and if the log can be opened then, it is continued. -/
theorem continued_cases (path bytes : Bytes) (world : World) :
    let made := world.tree.createDirectories world.working (Path.parent path)
    world.continued path bytes = made ∨
      ∃ location content,
        made.openFile world.working path = .ok (location, content) ∧
          world.continued path bytes = made.set location (.file (content ++ bytes)) := by
  intro made
  unfold continued Tree.append
  dsimp only
  cases opened : made.openFile world.working path with
  | error error =>
      exact Or.inl rfl
  | ok found =>
      exact Or.inr ⟨found.1, found.2, rfl, rfl⟩

/-- Behind its directories, the log begins or continues one file. -/
theorem grown_made_continued (path bytes : Bytes) (world : World) :
    Tree.Grown bytes (world.tree.createDirectories world.working (Path.parent path))
      (world.continued path bytes) := by
  rcases continued_cases path bytes world with same | ⟨location, content, opened, same⟩
  · rw [same]
    exact fun _ => .kept _
  · rw [same]
    exact Tree.grown_set_of_opened opened bytes

/-- The log may add directories, and it begins or continues one file. -/
theorem grown_continued (path bytes : Bytes) (world : World) :
    Tree.Grown bytes world.tree (world.continued path bytes) := by
  intro other
  have change := grown_made_continued path bytes world other
  rcases Tree.get?_createDirectories world.working (Path.parent path) world.tree other with
    kept | ⟨missing, made⟩
  · rwa [kept] at change
  · rw [made] at change
    rw [missing, change.eq_of_directory]
    exact .made

/-- No directory is made but those of the path. -/
theorem directory_of_continued {path bytes : Bytes} {location : Location}
    (found : (world.continued path bytes).get? location = some .directory) :
    (world.tree.createDirectories world.working (Path.parent path)).get? location =
      some .directory := by
  rcases continued_cases path bytes world with same | ⟨place, content, opened, same⟩
  · rw [same] at found
    exact found
  · obtain ⟨name, directory, rfl, -⟩ := Tree.openFile_cases opened
    rw [same, Tree.get?_set] at found
    split at found
    · cases found
    · exact found

theorem change_entryAt?_continued (rooted : world.tree.Rooted) {path : Bytes}
    (climbs : world.tree.KeepsClimbs world.working log path) (bytes : Bytes) :
    Tree.Change bytes (world.tree.entryAt? world.working path)
      ((world.continued log bytes).entryAt? world.working path) := by
  refine (grown_continued log bytes world).entryAt? rooted ?_
  intro front back place split reached
  exact climbs.descend split (Tree.descend_mono (fun _ => directory_of_continued) front reached)

/-- A note that is logged is not seen by a hook. -/
theorem alike_log (rooted : world.tree.Rooted) (note : Note)
    (climbs : ∀ path ∈ hook.paths config, world.tree.KeepsClimbs world.working log path) :
    World.Alike hook config ({ world with journal := some log }.log note)
      { world with journal := none } where
  clock := rfl
  received := received_log note _
  last := by
    rintro rfl
    obtain ⟨later, written⟩ := note.exists_line_eq_cons world.clock.moment world.process
    have change :=
      change_entryAt?_continued rooted (climbs config.marker (List.mem_singleton_self _))
        (note.line world.clock.moment world.process)
    rw [written] at change
    rw [Gate.lastFired_eq, Gate.lastFired_eq]
    have same := Gate.timeIn_of_change (by decide) change
    rw [← written] at same
    exact same
  connection := by
    intro relaying
    rw [Hook.paths_of_relays relaying] at climbs
    unfold Relay.connect
    cases socket : config.socketPath? with
    | none => rfl
    | some path =>
        have change :=
          change_entryAt?_continued rooted (climbs path (by simp [socket]))
            (note.line world.clock.moment world.process)
        rw [toOption_connect, toOption_connect]
        split
        · rfl
        · exact connectionTo_of_change change

theorem Alike.refl (hook : Hook) (config : Config) (world : World) :
    World.Alike hook config world world :=
  ⟨rfl, rfl, fun _ => rfl, fun _ => rfl⟩

end Log

end World

/-! ## The whole program -/

/-- The paths that the program looks at in the file tree, apart from that of the log. -/
def Action.paths (config : Config) : Action → List Bytes
  | .missing => []
  | .ignore => []
  | .run hook => hook.paths config

/-- The same invocation with another value for the log. -/
def Invocation.withLog (value : Option Bytes) (invocation : Invocation) : Invocation :=
  { invocation with environment := { invocation.environment with log := value } }

namespace Program

section Run

variable {invocation : Invocation} {world : World} {hook : Hook}

/-- Of a value for the log, a run of a hook sees only whether it asks for one. -/
theorem run_withLog (chosen : action invocation.arguments = .run hook) (value : Option Bytes) :
    let config := Config.ofEnvironment invocation.environment
    let logging := value == some (Bytes.ofText "1")
    let start := started { config with logging := logging } hook world
    let response := hook.respond config invocation.input start
    run (invocation.withLog value) world =
      ⟨0, response.source, Hook.print response.pieces invocation.output, [], response.world⟩ := by
  intro config logging start response
  simp only [run, Invocation.withLog, chosen, Hook.run_eq]
  cases hook <;> rfl

theorem alike_started {config : Config} (rooted : world.tree.Rooted)
    (climbs : ∀ log ∈ config.logPath?, ∀ path ∈ hook.paths config,
      world.tree.KeepsClimbs world.working log path) :
    World.Alike hook config
      (started { config with logging := true } hook world)
      (started { config with logging := false } hook world) := by
  have on :
      openLog { config with logging := true } world = { world with journal := config.logPath? } :=
    rfl
  have off : openLog { config with logging := false } world = { world with journal := none } := rfl
  rw [started, on, started, off]
  cases home : config.logPath? with
  | none =>
      exact World.Alike.refl hook config _
  | some log =>
      exact World.alike_log rooted (startNote hook) (climbs log home)

end Run

/-- Keeping a log changes nothing that is seen from outside, as long as the path that the hook looks
at does not go up from a directory that is made only for the log. -/
theorem run_with_log
    (invocation : Invocation)
    (world : World)
    (rooted : world.tree.Rooted)
    (climbs :
      let config := Config.ofEnvironment invocation.environment
      ∀ log ∈ config.logPath?, ∀ path ∈ (action invocation.arguments).paths config,
        world.tree.KeepsClimbs world.working log path) :
    let logged := run (invocation.withLog (some (Bytes.ofText "1"))) world
    let plain := run (invocation.withLog none) world
    logged.exitCode = plain.exitCode ∧
    logged.input = plain.input ∧
    logged.output = plain.output ∧
    logged.errors = [] ∧
    plain.errors = [] ∧
    logged.world.received = plain.world.received := by
  intro logged plain
  cases chosen : action invocation.arguments with
  | missing =>
      simp [logged, plain, run, Invocation.withLog, chosen]
  | ignore =>
      simp [logged, plain, run, Invocation.withLog, chosen]
  | run hook =>
      rw [chosen] at climbs
      obtain ⟨pieces, source, received⟩ :=
        Hook.respond_alike (alike_started rooted climbs) invocation.input
      have on : logged = _ := run_withLog chosen (some (Bytes.ofText "1"))
      have off : plain = _ := run_withLog chosen none
      rw [on, off]
      exact ⟨rfl, source, congrArg (fun printed => Hook.print printed invocation.output) pieces,
        rfl, rfl, received⟩

/-- The stop hook with a home directory and the given marker. -/
def stopAt (marker : Bytes) : Invocation where
  arguments := [Bytes.ofText "stop"]
  environment := ⟨some (Bytes.ofText "/h"), none, none, some marker, none⟩
  input := Source.ofScript []
  output := Sink.ofScript [] none

/-- A world with a home directory and what is named. -/
def homeWith (entries : List (Location × Entry)) : World :=
  ⟨⟨entries ++ [([Bytes.ofText "h"], .directory)], []⟩, [], ⟨100, 0, 0⟩, 1, none, none, []⟩

/-- The marker is the log itself, on a path that goes up from a directory that was there before. -/
theorem run_with_log_marker_in_log :
    let invocation := stopAt (Bytes.ofText "/h/.amaranthine/../.amaranthine/logs/hook.log")
    let world := homeWith [([Places.directoryName, Bytes.ofText "h"], .directory)]
    let logged := run (invocation.withLog (some (Bytes.ofText "1"))) world
    let plain := run (invocation.withLog none) world
    world.tree.Rooted ∧
      logged.output = plain.output ∧
      plain.output.written = Answer.stopReminder := by
  intro invocation world logged plain
  have rooted : world.tree.Rooted := Tree.rooted_of_forall_mem (by decide)
  have climbs :
      let config := Config.ofEnvironment invocation.environment
      ∀ log ∈ config.logPath?, ∀ path ∈ (action invocation.arguments).paths config,
        world.tree.KeepsClimbs world.working log path := by
    decide
  obtain ⟨-, -, printed, -⟩ := run_with_log invocation world rooted climbs
  exact ⟨rooted, printed, by decide +kernel⟩

/-- The marker is found on a path that goes up from a directory of the log.  It can be followed only
when the directory has been made, and then the reminder is suppressed. -/
theorem run_with_log_climbing :
    let invocation := stopAt (Bytes.ofText "/h/.amaranthine/../../stop.last")
    let world := homeWith [([Bytes.ofText "stop.last"], .file (Bytes.ofText "9999999999"))]
    let logged := run (invocation.withLog (some (Bytes.ofText "1"))) world
    let plain := run (invocation.withLog none) world
    world.tree.Rooted ∧
      plain.output.written = Answer.stopReminder ∧
      logged.output.written = [] := by
  intro invocation world logged plain
  exact ⟨Tree.rooted_of_forall_mem (by decide), by decide +kernel, by decide +kernel⟩

end Program
end HookRelay
