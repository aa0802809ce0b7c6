import HookRelay.Failure.IoError
import HookRelay.Places

/-!
# Paths as the file system reads them

A path is a byte string.  The file system reads it as a row of names between slashes, starting at
the root if the path begins with a slash and at the working directory if not.  Several slashes
count as one; a slash at the end asks for a directory.

* `Path.names`: the names of a path, in order.
* `Path.parent`: what stands before the last slash.
* `Path.refusal?`: why a path as a whole is refused.
-/

namespace HookRelay

abbrev Name := Bytes

/-- A place in the file system: the names that lead to it from the root, the last one first. -/
abbrev Location := List Name

namespace Path

def dot : Name := [0x2e]

def dotDot : Name := [0x2e, 0x2e]

def nameCapacity : Nat := 255

/-- The number of bytes from which on a path is too long. -/
def lengthLimit : Nat := 4096

/-- The parts between slashes, empty ones included. -/
def parts : Bytes → List Bytes
  | [] =>
      [[]]
  | byte :: later =>
      if byte = Places.slash then
        [] :: parts later
      else
        match parts later with
        | [] => [[byte]]
        | first :: others => (byte :: first) :: others

def names (path : Bytes) : List Name :=
  (parts path).filter (fun part => !part.isEmpty)

def isAbsolute (path : Bytes) : Bool :=
  path.head? == some Places.slash

def asksForDirectory (path : Bytes) : Bool :=
  path.getLast? == some Places.slash

/-- What stands before the last slash. -/
def parent (path : Bytes) : Bytes :=
  ((path.reverse.dropWhile (fun byte => byte != Places.slash)).drop 1).reverse

/-- Why a path is refused before any of its names is looked up. -/
def refusal? (path : Bytes) : Option IoError :=
  if path.contains 0 then
    some IoError.zeroInPath
  else if path = [] then
    some (.system .notFound)
  else if lengthLimit ≤ path.length then
    some (.system .nameTooLong)
  else
    none

theorem parts_ne_nil : ∀ path : Bytes, parts path ≠ []
  | [] => by
      simp [parts]
  | byte :: later => by
      unfold parts
      split
      · simp
      · split <;> simp

/-- A slash separates the names on its two sides. -/
theorem names_append_slash (front back : Bytes) :
    names (front ++ Places.slash :: back) = names front ++ names back := by
  have split : parts (front ++ Places.slash :: back) = parts front ++ parts back := by
    induction front with
    | nil =>
        simp [parts]
    | cons byte later ih =>
        by_cases separator : byte = Places.slash
        · simp [parts, separator, ih]
        · have some := parts_ne_nil later
          simp only [List.cons_append, parts, separator, if_false, ih]
          cases found : parts later with
          | nil =>
              exact absurd found some
          | cons first others =>
              rfl
  simp [names, split]

end Path

end HookRelay
