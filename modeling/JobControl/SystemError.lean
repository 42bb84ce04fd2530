/-!
# Failures reported by the operating system

* `SystemError` : a failed request, either an error number or a failure with a text of its own;
* `SystemError.message` : the text shown to the user;
* `SystemError.isInterrupted` : the request was cut short by a signal and may be repeated;
* `SystemError.check` : the convention by which a call reports failure through the value `-1`.
-/

set_option autoImplicit false

namespace JobControl

/-- Why a request to the operating system failed. -/
inductive SystemError where
  /-- The system's error number. -/
  | os (code : Int)
  /-- A failure found before the system was asked. -/
  | other (text : String)
  deriving DecidableEq, Repr

namespace SystemError

/-! ## Error numbers -/

abbrev perm : SystemError := .os 1
abbrev noEntry : SystemError := .os 2
abbrev noProcess : SystemError := .os 3
abbrev interrupted : SystemError := .os 4
abbrev noDevice : SystemError := .os 6
abbrev noChild : SystemError := .os 10
abbrev again : SystemError := .os 11
abbrev denied : SystemError := .os 13
abbrev fileExists : SystemError := .os 17
abbrev notDirectory : SystemError := .os 20
abbrev isDirectory : SystemError := .os 21
abbrev invalid : SystemError := .os 22
abbrev noSpace : SystemError := .os 28
abbrev brokenPipe : SystemError := .os 32
abbrev nameTooLong : SystemError := .os 36

/-- The descriptions of the error numbers from 0 on. The numbers without a meaning have theirs. -/
def descriptions : List String :=
  ["Success", "Operation not permitted", "No such file or directory", "No such process",
   "Interrupted system call", "Input/output error", "No such device or address",
   "Argument list too long", "Exec format error", "Bad file descriptor", "No child processes",
   "Resource temporarily unavailable", "Cannot allocate memory", "Permission denied",
   "Bad address", "Block device required", "Device or resource busy", "File exists",
   "Invalid cross-device link", "No such device", "Not a directory", "Is a directory",
   "Invalid argument", "Too many open files in system", "Too many open files",
   "Inappropriate ioctl for device", "Text file busy", "File too large",
   "No space left on device", "Illegal seek", "Read-only file system", "Too many links",
   "Broken pipe", "Numerical argument out of domain", "Numerical result out of range",
   "Resource deadlock avoided", "File name too long", "No locks available",
   "Function not implemented", "Directory not empty", "Too many levels of symbolic links",
   "Unknown error 41", "No message of desired type", "Identifier removed",
   "Channel number out of range", "Level 2 not synchronized", "Level 3 halted", "Level 3 reset",
   "Link number out of range", "Protocol driver not attached", "No CSI structure available",
   "Level 2 halted", "Invalid exchange", "Invalid request descriptor", "Exchange full",
   "No anode", "Invalid request code", "Invalid slot", "Unknown error 58", "Bad font file format",
   "Device not a stream", "No data available", "Timer expired", "Out of streams resources",
   "Machine is not on the network", "Package not installed", "Object is remote",
   "Link has been severed", "Advertise error", "Srmount error", "Communication error on send",
   "Protocol error", "Multihop attempted", "RFS specific error", "Bad message",
   "Value too large for defined data type", "Name not unique on network",
   "File descriptor in bad state", "Remote address changed",
   "Can not access a needed shared library", "Accessing a corrupted shared library",
   ".lib section in a.out corrupted", "Attempting to link in too many shared libraries",
   "Cannot exec a shared library directly", "Invalid or incomplete multibyte or wide character",
   "Interrupted system call should be restarted", "Streams pipe error", "Too many users",
   "Socket operation on non-socket", "Destination address required", "Message too long",
   "Protocol wrong type for socket", "Protocol not available", "Protocol not supported",
   "Socket type not supported", "Operation not supported", "Protocol family not supported",
   "Address family not supported by protocol", "Address already in use",
   "Cannot assign requested address", "Network is down", "Network is unreachable",
   "Network dropped connection on reset", "Software caused connection abort",
   "Connection reset by peer", "No buffer space available",
   "Transport endpoint is already connected", "Transport endpoint is not connected",
   "Cannot send after transport endpoint shutdown", "Too many references: cannot splice",
   "Connection timed out", "Connection refused", "Host is down", "No route to host",
   "Operation already in progress", "Operation now in progress", "Stale file handle",
   "Structure needs cleaning", "Not a XENIX named type file", "No XENIX semaphores available",
   "Is a named type file", "Remote I/O error", "Disk quota exceeded", "No medium found",
   "Wrong medium type", "Operation canceled", "Required key not available", "Key has expired",
   "Key has been revoked", "Key was rejected by service", "Owner died", "State not recoverable",
   "Operation not possible due to RF-kill", "Memory page has hardware error"]

def describe (code : Int) : String :=
  match code with
  | .ofNat n => descriptions.getD n s!"Unknown error {n}"
  | .negSucc _ => s!"Unknown error {code}"

/-- The text shown for a failure: a description and the number, or the failure's own text. -/
def message : SystemError → String
  | .os code => s!"{describe code} (os error {code})"
  | .other text => text

def isInterrupted (e : SystemError) : Bool := e == interrupted

/-- A call that answers `-1` failed, for the reason the thread's error number gives; any other
answer is its result. -/
def check (answer errno : Int) : Except SystemError Int :=
  if answer = -1 then .error (.os errno) else .ok answer

end SystemError
end JobControl
