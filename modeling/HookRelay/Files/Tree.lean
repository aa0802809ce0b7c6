import HookRelay.Files.Path
import HookRelay.Stream.Sink
import HookRelay.Stream.Source

/-!
# The file tree

The tree says for each location whether there is nothing, a directory, a file with its content,
or a socket with whoever listens there, and where no file is opened for writing, whatever is there:
a file that is only read, or a name in a directory that takes no new ones.  The root is always a
directory.

A path is followed name by name: each name but the last has to lead to a directory, and the two
dot names lead to the directory itself and to the one above.  Reading, writing and connecting
then differ in what they accept at the end of the path.

Left out are links, devices and pipes, files that are not read, directories that are not searched or
take no new directory, and a name that two locations share.  That a disk takes less than it is given
is no matter of the tree.

* `Tree.descend`: the directory to which names lead.
* `Tree.read`: the first bytes of a file.
* `Tree.openFile`: where a file is written, and what is in it.
* `Tree.write`, `Tree.append`: the tree with a file replaced or continued, made if it is missing.
* `Tree.createDirectories`: the tree with all directories on a path.
* `Tree.listener?`: who listens at a path.

`get?_set` says what a change changes.
-/

namespace HookRelay

/-- Whoever listens at a socket: how it takes what is sent, and what it sends back. -/
structure Listener where
  takes : List WriteEvent
  sends : List ReadEvent
deriving DecidableEq, Repr

inductive Entry where
  | directory
  | file (content : Bytes)
  | socket (listener : Option Listener)
deriving DecidableEq, Repr

/-- The file tree, with the latest entry of each location first. -/
structure Tree where
  entries : List (Location × Entry)
  /-- Where no file is opened for writing, and why. -/
  refusals : List (Location × IoError) := []
deriving DecidableEq, Repr

/-- Where a path leads: to a directory, or to the name in it with which the path ends. -/
structure Target where
  directory : Location
  name : Option Name
  asDirectory : Bool
deriving DecidableEq, Repr

namespace Tree

def empty : Tree where
  entries := []

def get? (tree : Tree) : Location → Option Entry
  | [] => some .directory
  | name :: above => tree.entries.lookup (name :: above)

def set (location : Location) (entry : Entry) (tree : Tree) : Tree :=
  { tree with entries := (location, entry) :: tree.entries }

/-- Why no file is opened for writing at a location, if that is so. -/
def refusal? (tree : Tree) (location : Location) : Option IoError :=
  tree.refusals.lookup location

/-- Below the root, a change is seen at its location and nowhere else. -/
theorem get?_set (tree : Tree) (name : Name) (above location : Location) (entry : Entry) :
    (tree.set (name :: above) entry).get? location =
      if location = name :: above then some entry else tree.get? location := by
  cases location with
  | nil =>
      simp [get?]
  | cons first others =>
      by_cases same : first :: others = name :: above
      · simp [get?, set, same]
      · have differs : (first :: others == name :: above) = false := by
          simpa using same
        simp [get?, set, same, List.lookup_cons, differs]

section Following

variable (tree : Tree)

/-- The directory to which names lead from a directory. -/
def descend (here : Location) : List Name → Except Errno Location
  | [] =>
      .ok here
  | name :: later =>
      if name = Path.dot then
        descend here later
      else if name = Path.dotDot then
        descend here.tail later
      else if Path.nameCapacity < name.length then
        .error .nameTooLong
      else
        match tree.get? (name :: here) with
        | none => .error .notFound
        | some .directory => descend (name :: here) later
        | some _ => .error .notDirectory

def start (working : Location) (path : Bytes) : Location :=
  if Path.isAbsolute path then [] else working

def follow (working : Location) (path : Bytes) : Except IoError Target :=
  match Path.refusal? path with
  | some error => .error error
  | none =>
      let names := Path.names path
      match tree.descend (start working path) names.dropLast with
      | .error errno => .error (.system errno)
      | .ok directory =>
          match names.getLast? with
          | none => .ok ⟨directory, none, true⟩
          | some name =>
              if name = Path.dot then
                .ok ⟨directory, none, true⟩
              else if name = Path.dotDot then
                .ok ⟨directory.tail, none, true⟩
              else
                .ok ⟨directory, some name, Path.asksForDirectory path⟩

def find (target : Target) : Except Errno Entry :=
  match target.name with
  | none => .ok .directory
  | some name =>
      if Path.nameCapacity < name.length then
        .error .nameTooLong
      else
        match tree.get? (name :: target.directory) with
        | none => .error .notFound
        | some .directory => .ok .directory
        | some entry => if target.asDirectory then .error .notDirectory else .ok entry

def lookup (working : Location) (path : Bytes) : Except IoError Entry :=
  match tree.follow working path with
  | .error error => .error error
  | .ok target => (tree.find target).mapError .system

def read (working : Location) (count : Nat) (path : Bytes) : Except IoError Bytes :=
  match tree.lookup working path with
  | .error error => .error error
  | .ok .directory => .error (.system .isDirectory)
  | .ok (.file content) => .ok (content.take count)
  | .ok (.socket _) => .error (.system .noSuchDevice)

/-- The location and the content of the file at a path, for writing: a missing one is made. -/
def openFile (working : Location) (path : Bytes) : Except IoError (Location × Bytes) :=
  match tree.follow working path with
  | .error error => .error error
  | .ok target =>
      match target.name with
      | none => .error (.system .isDirectory)
      | some name =>
          if target.asDirectory then
            .error (.system .isDirectory)
          else if Path.nameCapacity < name.length then
            .error (.system .nameTooLong)
          else
            let location := name :: target.directory
            match tree.get? location, tree.refusal? location with
            | some .directory, _ => .error (.system .isDirectory)
            | _, some error => .error error
            | none, none => .ok (location, [])
            | some (.file content), none => .ok (location, content)
            | some (.socket _), none => .error (.system .noSuchDevice)

def write (working : Location) (path content : Bytes) : Except IoError Tree :=
  match tree.openFile working path with
  | .error error => .error error
  | .ok (location, _) => .ok (tree.set location (.file content))

def append (working : Location) (path bytes : Bytes) : Except IoError Tree :=
  match tree.openFile working path with
  | .error error => .error error
  | .ok (location, content) => .ok (tree.set location (.file (content ++ bytes)))

def listener? (working : Location) (path : Bytes) : Except IoError Listener :=
  match tree.lookup working path with
  | .error error => .error error
  | .ok (.socket (some listener)) => .ok listener
  | .ok _ => .error (.system .connectionRefused)

end Following

/-- The tree with the directories to which names lead, up to the first that cannot be made. -/
def createFrom (here : Location) (tree : Tree) : List Name → Tree
  | [] =>
      tree
  | name :: later =>
      if name = Path.dot then
        createFrom here tree later
      else if name = Path.dotDot then
        createFrom here.tail tree later
      else if Path.nameCapacity < name.length then
        tree
      else
        match tree.get? (name :: here) with
        | none => createFrom (name :: here) (tree.set (name :: here) .directory) later
        | some .directory => createFrom (name :: here) tree later
        | some _ => tree

/-- The tree with all directories on a path, as far as they can be made. -/
def createDirectories (working : Location) (path : Bytes) (tree : Tree) : Tree :=
  match Path.refusal? path with
  | some _ => tree
  | none => createFrom (start working path) tree (Path.names path)

end Tree

end HookRelay
