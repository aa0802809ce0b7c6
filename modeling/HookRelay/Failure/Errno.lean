import HookRelay.Failure.Wording
import HookRelay.Text.Decimal

/-!
# System error numbers

A failed system call reports a number.  Failed reads, writes and file operations report it by its
text, setting up a socket by its symbol with a short description.  A number that is not in use has
a wording too, and so has zero, which stands for success.

* `Errno.text`: the text for file and stream operations, `No such file or directory`.
* `Errno.symbol`, `Errno.description`: the wording for sockets, `ENOENT` and
  `No such file or directory`.
-/

namespace HookRelay

/-- A system error number. -/
structure Errno where
  number : Int
deriving DecidableEq, Repr

namespace Errno

/-- Nothing has the given name. -/
def notFound : Errno := ⟨2⟩

/-- A signal arrived before the call did anything. -/
def interrupted : Errno := ⟨4⟩

/-- The file is a socket and cannot be opened. -/
def noSuchDevice : Errno := ⟨6⟩

/-- The call would have to wait. -/
def wouldBlock : Errno := ⟨11⟩

/-- A directory is needed and the name is something else. -/
def notDirectory : Errno := ⟨20⟩

/-- The name is a directory and something else is needed. -/
def isDirectory : Errno := ⟨21⟩

/-- The argument is not acceptable. -/
def invalidArgument : Errno := ⟨22⟩

/-- A name or a whole path is too long. -/
def nameTooLong : Errno := ⟨36⟩

/-- Nobody accepts connections there. -/
def connectionRefused : Errno := ⟨111⟩

/-- The wordings of the number, if it is in use. -/
def wording? (errno : Errno) : Option Wording :=
  Wording.ofNumber? errno.number

/-- The wording for file and stream operations. -/
def text (errno : Errno) : String :=
  if errno.number = 0 then
    "Success"
  else
    match errno.wording? with
    | some wording => wording.text
    | none => "Unknown error " ++ Decimal.ofInt errno.number

/-- The symbol by which sockets report the number. -/
def symbol (errno : Errno) : String :=
  (errno.wording?.map Wording.symbol).getD "UnknownErrno"

/-- The description that follows the symbol. -/
def description (errno : Errno) : String :=
  (errno.wording?.map Wording.description).getD "Unknown errno"

end Errno

end HookRelay
