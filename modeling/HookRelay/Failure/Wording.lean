/-!
# Wordings of system errors

Every system error number has a symbol and two wordings.  The first is the short description that
follows the symbol when a socket is set up; the second is the text that failed reads, writes and
file operations report.  For most numbers the two are the same.

* `Wording.table`: the wordings by number, from 1 to 133 without 41 and 58, which are not in use.
* `Wording.ofNumber?`: the wording of a number.
-/

namespace HookRelay

structure Wording where
  symbol : String
  description : String
  text : String
deriving DecidableEq, Repr

namespace Wording

/-- A system error whose two wordings are the same. -/
def same (symbol text : String) : Wording :=
  ⟨symbol, text, text⟩

def table : List (Nat × Wording) :=
  [ (1, same "EPERM" "Operation not permitted"),
    (2, same "ENOENT" "No such file or directory"),
    (3, same "ESRCH" "No such process"),
    (4, same "EINTR" "Interrupted system call"),
    (5, ⟨"EIO", "I/O error", "Input/output error"⟩),
    (6, same "ENXIO" "No such device or address"),
    (7, same "E2BIG" "Argument list too long"),
    (8, same "ENOEXEC" "Exec format error"),
    (9, ⟨"EBADF", "Bad file number", "Bad file descriptor"⟩),
    (10, same "ECHILD" "No child processes"),
    (11, ⟨"EAGAIN", "Try again", "Resource temporarily unavailable"⟩),
    (12, ⟨"ENOMEM", "Out of memory", "Cannot allocate memory"⟩),
    (13, same "EACCES" "Permission denied"),
    (14, same "EFAULT" "Bad address"),
    (15, same "ENOTBLK" "Block device required"),
    (16, same "EBUSY" "Device or resource busy"),
    (17, same "EEXIST" "File exists"),
    (18, ⟨"EXDEV", "Cross-device link", "Invalid cross-device link"⟩),
    (19, same "ENODEV" "No such device"),
    (20, same "ENOTDIR" "Not a directory"),
    (21, same "EISDIR" "Is a directory"),
    (22, same "EINVAL" "Invalid argument"),
    (23, ⟨"ENFILE", "File table overflow", "Too many open files in system"⟩),
    (24, same "EMFILE" "Too many open files"),
    (25, ⟨"ENOTTY", "Not a typewriter", "Inappropriate ioctl for device"⟩),
    (26, same "ETXTBSY" "Text file busy"),
    (27, same "EFBIG" "File too large"),
    (28, same "ENOSPC" "No space left on device"),
    (29, same "ESPIPE" "Illegal seek"),
    (30, same "EROFS" "Read-only file system"),
    (31, same "EMLINK" "Too many links"),
    (32, same "EPIPE" "Broken pipe"),
    (33, ⟨"EDOM", "Math argument out of domain of func", "Numerical argument out of domain"⟩),
    (34, ⟨"ERANGE", "Math result not representable", "Numerical result out of range"⟩),
    (35, ⟨"EDEADLK", "Resource deadlock would occur", "Resource deadlock avoided"⟩),
    (36, same "ENAMETOOLONG" "File name too long"),
    (37, ⟨"ENOLCK", "No record locks available", "No locks available"⟩),
    (38, same "ENOSYS" "Function not implemented"),
    (39, same "ENOTEMPTY" "Directory not empty"),
    (40, ⟨"ELOOP", "Too many symbolic links encountered", "Too many levels of symbolic links"⟩),
    (42, same "ENOMSG" "No message of desired type"),
    (43, same "EIDRM" "Identifier removed"),
    (44, same "ECHRNG" "Channel number out of range"),
    (45, same "EL2NSYNC" "Level 2 not synchronized"),
    (46, same "EL3HLT" "Level 3 halted"),
    (47, same "EL3RST" "Level 3 reset"),
    (48, same "ELNRNG" "Link number out of range"),
    (49, same "EUNATCH" "Protocol driver not attached"),
    (50, same "ENOCSI" "No CSI structure available"),
    (51, same "EL2HLT" "Level 2 halted"),
    (52, same "EBADE" "Invalid exchange"),
    (53, same "EBADR" "Invalid request descriptor"),
    (54, same "EXFULL" "Exchange full"),
    (55, same "ENOANO" "No anode"),
    (56, same "EBADRQC" "Invalid request code"),
    (57, same "EBADSLT" "Invalid slot"),
    (59, same "EBFONT" "Bad font file format"),
    (60, same "ENOSTR" "Device not a stream"),
    (61, same "ENODATA" "No data available"),
    (62, same "ETIME" "Timer expired"),
    (63, same "ENOSR" "Out of streams resources"),
    (64, same "ENONET" "Machine is not on the network"),
    (65, same "ENOPKG" "Package not installed"),
    (66, same "EREMOTE" "Object is remote"),
    (67, same "ENOLINK" "Link has been severed"),
    (68, same "EADV" "Advertise error"),
    (69, same "ESRMNT" "Srmount error"),
    (70, same "ECOMM" "Communication error on send"),
    (71, same "EPROTO" "Protocol error"),
    (72, same "EMULTIHOP" "Multihop attempted"),
    (73, same "EDOTDOT" "RFS specific error"),
    (74, ⟨"EBADMSG", "Not a data message", "Bad message"⟩),
    (75, same "EOVERFLOW" "Value too large for defined data type"),
    (76, same "ENOTUNIQ" "Name not unique on network"),
    (77, same "EBADFD" "File descriptor in bad state"),
    (78, same "EREMCHG" "Remote address changed"),
    (79, same "ELIBACC" "Can not access a needed shared library"),
    (80, same "ELIBBAD" "Accessing a corrupted shared library"),
    (81, same "ELIBSCN" ".lib section in a.out corrupted"),
    (82, same "ELIBMAX" "Attempting to link in too many shared libraries"),
    (83, same "ELIBEXEC" "Cannot exec a shared library directly"),
    (84, ⟨"EILSEQ", "Illegal byte sequence",
      "Invalid or incomplete multibyte or wide character"⟩),
    (85, same "ERESTART" "Interrupted system call should be restarted"),
    (86, same "ESTRPIPE" "Streams pipe error"),
    (87, same "EUSERS" "Too many users"),
    (88, same "ENOTSOCK" "Socket operation on non-socket"),
    (89, same "EDESTADDRREQ" "Destination address required"),
    (90, same "EMSGSIZE" "Message too long"),
    (91, same "EPROTOTYPE" "Protocol wrong type for socket"),
    (92, same "ENOPROTOOPT" "Protocol not available"),
    (93, same "EPROTONOSUPPORT" "Protocol not supported"),
    (94, same "ESOCKTNOSUPPORT" "Socket type not supported"),
    (95, ⟨"EOPNOTSUPP", "Operation not supported on transport endpoint",
      "Operation not supported"⟩),
    (96, same "EPFNOSUPPORT" "Protocol family not supported"),
    (97, same "EAFNOSUPPORT" "Address family not supported by protocol"),
    (98, same "EADDRINUSE" "Address already in use"),
    (99, same "EADDRNOTAVAIL" "Cannot assign requested address"),
    (100, same "ENETDOWN" "Network is down"),
    (101, same "ENETUNREACH" "Network is unreachable"),
    (102, ⟨"ENETRESET", "Network dropped connection because of reset",
      "Network dropped connection on reset"⟩),
    (103, same "ECONNABORTED" "Software caused connection abort"),
    (104, same "ECONNRESET" "Connection reset by peer"),
    (105, same "ENOBUFS" "No buffer space available"),
    (106, same "EISCONN" "Transport endpoint is already connected"),
    (107, same "ENOTCONN" "Transport endpoint is not connected"),
    (108, same "ESHUTDOWN" "Cannot send after transport endpoint shutdown"),
    (109, same "ETOOMANYREFS" "Too many references: cannot splice"),
    (110, same "ETIMEDOUT" "Connection timed out"),
    (111, same "ECONNREFUSED" "Connection refused"),
    (112, same "EHOSTDOWN" "Host is down"),
    (113, same "EHOSTUNREACH" "No route to host"),
    (114, same "EALREADY" "Operation already in progress"),
    (115, same "EINPROGRESS" "Operation now in progress"),
    (116, same "ESTALE" "Stale file handle"),
    (117, same "EUCLEAN" "Structure needs cleaning"),
    (118, same "ENOTNAM" "Not a XENIX named type file"),
    (119, same "ENAVAIL" "No XENIX semaphores available"),
    (120, same "EISNAM" "Is a named type file"),
    (121, same "EREMOTEIO" "Remote I/O error"),
    (122, ⟨"EDQUOT", "Quota exceeded", "Disk quota exceeded"⟩),
    (123, same "ENOMEDIUM" "No medium found"),
    (124, same "EMEDIUMTYPE" "Wrong medium type"),
    (125, same "ECANCELED" "Operation canceled"),
    (126, same "ENOKEY" "Required key not available"),
    (127, same "EKEYEXPIRED" "Key has expired"),
    (128, same "EKEYREVOKED" "Key has been revoked"),
    (129, same "EKEYREJECTED" "Key was rejected by service"),
    (130, same "EOWNERDEAD" "Owner died"),
    (131, same "ENOTRECOVERABLE" "State not recoverable"),
    (132, same "ERFKILL" "Operation not possible due to RF-kill"),
    (133, same "EHWPOISON" "Memory page has hardware error") ]

/-- The wording of a number, if the number is in use. -/
def ofNumber? (number : Int) : Option Wording :=
  number.toNat?.bind fun number => table.lookup number

end Wording

end HookRelay
