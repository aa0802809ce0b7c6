import HookRelay.Failure.IoError

/-!
# Failed relays

The causes for which a request gets no response, in the order in which they are met.  Each of
them means that the hook prints nothing; the wording only reaches the log.
-/

namespace HookRelay

/-- Why a request was not relayed. -/
inductive RelayError where
  /-- There is no home directory, or its path leaves no place for the socket path. -/
  | noSocketPath
  /-- The socket path is no socket address. -/
  | path (errno : Errno)
  /-- The socket could not be made. -/
  | socket (errno : Errno)
  /-- Nobody answers at the socket path. -/
  | connect (error : IoError)
  /-- The request was not taken whole. -/
  | send (error : IoError)
deriving DecidableEq, Repr

/-- The wording of a cause. -/
def RelayError.message : RelayError → String
  | .noSocketPath => "no socket path: HOME unset or too long"
  | .path errno => "unusable socket path: " ++ errno.symbol ++ ": " ++ errno.description
  | .socket errno => "socket setup failed: " ++ errno.symbol ++ ": " ++ errno.description
  | .connect error => "connect failed: " ++ error.message
  | .send error => "send failed: " ++ error.message

end HookRelay
