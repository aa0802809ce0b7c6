import HookRelay.Failure.Errno

/-!
# Failed reads, writes and file operations

An operation fails for a kind of reason, with or without a text of its own, or with a system
error number.  The only distinction that the hooks make is whether the operation was merely
interrupted: then it is tried again, and any other failure ends what was going on.

* `IoError.isInterrupted`: the operation is to be tried again.
* `IoError.message`: the wording.
-/

namespace HookRelay

inductive ErrorKind where
  | interrupted
  | brokenPipe
  | wouldBlock
  | timedOut
  | connectionReset
  | unexpectedEof
  | writeZero
  | permissionDenied
  | invalidInput
  | other
deriving DecidableEq, Repr

def ErrorKind.message : ErrorKind → String
  | .interrupted => "operation interrupted"
  | .brokenPipe => "broken pipe"
  | .wouldBlock => "operation would block"
  | .timedOut => "timed out"
  | .connectionReset => "connection reset"
  | .unexpectedEof => "unexpected end of file"
  | .writeZero => "write zero"
  | .permissionDenied => "permission denied"
  | .invalidInput => "invalid input parameter"
  | .other => "other error"

inductive IoError where
  | plain (kind : ErrorKind)
  | described (kind : ErrorKind) (text : String)
  | system (errno : Errno)
deriving DecidableEq, Repr

namespace IoError

/-- A write took nothing of what it was offered. -/
def nothingWritten : IoError :=
  .described .writeZero "failed to write whole buffer"

/-- A file operation was given a path that contains a zero byte. -/
def zeroInPath : IoError :=
  .described .invalidInput "file name contained an unexpected NUL byte"

/-- The operation did nothing and is to be tried again. -/
def isInterrupted : IoError → Bool
  | .plain kind => kind == .interrupted
  | .described kind _ => kind == .interrupted
  | .system errno => errno == Errno.interrupted

def message : IoError → String
  | .plain kind => kind.message
  | .described _ text => text
  | .system errno => errno.text ++ " (os error " ++ Decimal.ofInt errno.number ++ ")"

end IoError

end HookRelay
