import HookRelay.Proofs.Directories

/-!
# Two ways to make a path

The directory of the program and the log in it are found by joining, which looks at the slash at the
end of what it joins.  The path of the socket is made by appending a fixed text, whatever stands in
front of it.  The two give different bytes for a home directory that ends with slashes, but the same
names, since the file system does not count slashes.

Only for an empty home directory would they disagree on more: the one path would be relative and the
other absolute.  An empty home directory counts as none.

* `Path.names_join`, `Path.isAbsolute_join`: the names of a joined path, and where it starts.
* `Config.directory?_eq`, `Config.logPath?_eq`, `Config.isSome_socketPath?_iff`: which paths there
  are.
* `Config.paths_agree`: the paths that come from one value of the environment.
-/

namespace HookRelay

namespace Path

section Join

/-- Joining does not run names together, and a slash that is there already adds none. -/
theorem names_join (base part : Bytes) :
    names (Places.join base part) = names base ++ names part := by
  unfold Places.join
  split
  · rename_i ends
    rcases ends with rfl | slash
    · rfl
    · obtain ⟨front, rfl⟩ := List.getLast?_eq_some_iff.mp slash
      have alone : names (front ++ [Places.slash]) = names front ++ names [] :=
        names_append_slash front []
      rw [List.append_assoc, List.singleton_append, names_append_slash, alone]
      simp [names, parts]
  · rw [names_append_slash]

variable {base : Bytes}

/-- Where a path starts is seen in its first part, unless that is empty. -/
theorem isAbsolute_append (some : base ≠ []) (later : Bytes) :
    isAbsolute (base ++ later) = isAbsolute base := by
  obtain ⟨first, others, rfl⟩ := List.exists_cons_of_ne_nil some
  rfl

theorem isAbsolute_join (some : base ≠ []) (part : Bytes) :
    isAbsolute (Places.join base part) = isAbsolute base := by
  unfold Places.join
  split
  · exact isAbsolute_append some part
  · exact isAbsolute_append some _

end Join

end Path

namespace Places

def socketName : Bytes :=
  Bytes.ofText "hook.sock"

def logNames : List Bytes :=
  [Bytes.ofText "logs", Bytes.ofText "hook.log"]

theorem socketSuffix_eq : socketSuffix = slash :: (directoryName ++ slash :: socketName) := by
  rfl

theorem names_directoryName : Path.names directoryName = [directoryName] :=
  Path.names_of_notMem (by decide) (by decide)

theorem names_socketName : Path.names socketName = [socketName] :=
  Path.names_of_notMem (by decide) (by decide)

theorem names_append_socketSuffix (home : Bytes) :
    Path.names (home ++ socketSuffix) = Path.names home ++ [directoryName, socketName] := by
  rw [socketSuffix_eq, Path.names_append_slash, Path.names_append_slash, names_directoryName,
    names_socketName, List.singleton_append]

end Places

namespace Config

section Home

variable {config : Config} {home : Bytes} (found : config.home = some home)
include found

theorem directory?_eq : config.directory? = some (Places.join home Places.directoryName) := by
  rw [directory?, found]
  rfl

theorem logPath?_eq :
    config.logPath? =
      some (Places.join
        (Places.join (Places.join home Places.directoryName) (Bytes.ofText "logs"))
        (Bytes.ofText "hook.log")) := by
  rw [logPath?, directory?_eq found]
  rfl

theorem isSome_socketPath?_iff : config.socketPath?.isSome = true ↔ home.length ≤ 105 := by
  rw [Option.isSome_iff_exists]
  constructor
  · rintro ⟨path, made⟩
    obtain ⟨other, same, fits, -⟩ := socketPath?_eq_some_iff.mp made
    rw [Option.some.inj (found.symm.trans same)]
    omega
  · intro fits
    exact ⟨_, socketPath?_eq_some_iff.mpr ⟨home, found, by omega, rfl⟩⟩

end Home

/-- Without a home directory there are no paths. -/
theorem paths_of_no_home {config : Config} (none : config.home = .none) :
    config.directory? = .none ∧ config.logPath? = .none ∧ config.socketPath? = .none := by
  simp [directory?, logPath?, socketPath?, none]

/-- The paths of the program lie in one directory under the home directory, however they are made,
and there is one of the socket exactly if the home directory has at most 105 bytes. -/
theorem paths_agree (environment : Environment) :
    let config := ofEnvironment environment
    (environment.home = none ∨ environment.home = some [] →
      config.directory? = none ∧ config.logPath? = none ∧ config.socketPath? = none) ∧
    ∀ home, environment.home = some home → home ≠ [] →
      (config.socketPath?.isSome = true ↔ home.length ≤ 105) ∧
      ∃ directory log,
        config.directory? = some directory ∧
        config.logPath? = some log ∧
        Path.isAbsolute directory = Path.isAbsolute home ∧
        Path.names directory = Path.names home ++ [Places.directoryName] ∧
        Path.names log = Path.names directory ++ Places.logNames ∧
        ∀ socket, config.socketPath? = some socket →
          socket = home ++ Bytes.ofText "/.amaranthine/hook.sock" ∧
          Path.isAbsolute socket = Path.isAbsolute directory ∧
          Path.names socket = Path.names directory ++ [Places.socketName] := by
  intro config
  refine ⟨?_, ?_⟩
  · rintro (unset | empty)
    · exact paths_of_no_home (by simp [config, ofEnvironment, nonempty?, unset])
    · exact paths_of_no_home (by simp [config, ofEnvironment, nonempty?, empty])
  · intro home set some
    have found : config.home = .some home := by
      simp [config, ofEnvironment, nonempty?, set, some]
    have absolute := Path.isAbsolute_join some Places.directoryName
    have names : Path.names (Places.join home Places.directoryName) =
        Path.names home ++ [Places.directoryName] := by
      rw [Path.names_join, Places.names_directoryName]
    refine ⟨isSome_socketPath?_iff found, _, _, directory?_eq found, logPath?_eq found, absolute,
      names, ?_, ?_⟩
    · rw [Path.names_join, Path.names_join, List.append_assoc]
      rfl
    · intro socket made
      obtain ⟨other, same, -, rfl⟩ := socketPath?_eq_some_iff.mp made
      obtain rfl : home = other := Option.some.inj (found.symm.trans same)
      refine ⟨rfl, (Path.isAbsolute_append some _).trans absolute.symm, ?_⟩
      rw [names, Places.names_append_socketSuffix, List.append_assoc, List.singleton_append]

/-- A home directory with slashes in between and at its end. -/
theorem paths_agree_slashes :
    let home := Bytes.ofText "//a//b//"
    let environment : Environment := ⟨some home, none, none, none, none⟩
    let config := ofEnvironment environment
    ∃ directory socket,
      config.directory? = some directory ∧
      config.socketPath? = some socket ∧
      socket = home ++ Bytes.ofText "/.amaranthine/hook.sock" ∧
      directory = home ++ Places.directoryName ∧
      Path.names socket = Path.names directory ++ [Places.socketName] := by
  intro home environment config
  obtain ⟨-, agree⟩ := paths_agree environment
  obtain ⟨fits, directory, log, made, -, -, -, -, same⟩ := agree home rfl (by decide)
  obtain ⟨socket, path⟩ := Option.isSome_iff_exists.mp (fits.mpr (by decide))
  obtain ⟨whole, -, names⟩ := same socket path
  have joined : config.directory? = some (home ++ Places.directoryName) := by
    rfl
  exact ⟨directory, socket, made, path, whole, Option.some.inj (made.symm.trans joined), names⟩

end Config
end HookRelay
