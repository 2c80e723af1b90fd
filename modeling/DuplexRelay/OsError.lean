/-!
# Errors of socket operations

An error either carries a number of the operating system, or a kind without a number, or a text.
Errors that only say "not now" are transient; all others are fatal to a connection.
-/

namespace DuplexRelay

/-- The kinds of error that matter to a relay. -/
inductive ErrorKind where
  | wouldBlock
  | interrupted
  | other
  deriving DecidableEq

inductive OsError where
  | number (errno : Nat)
  | kind (kind : ErrorKind)
  | text (text : String)
  deriving DecidableEq

namespace OsError

-- the error numbers, as the operating system has them
def eintr : Nat := 4
def ebadf : Nat := 9
def eagain : Nat := 11
def enomem : Nat := 12
def epipe : Nat := 32
def enetdown : Nat := 100
def econnreset : Nat := 104
def einprogress : Nat := 115

def errorKind : OsError → ErrorKind
  | number errno =>
    if errno = eagain then .wouldBlock
    else if errno = eintr then .interrupted
    else .other
  | kind k => k
  | text _ => .other

def isNotNow (e : OsError) : Bool :=
  e.errorKind = .wouldBlock || e.errorKind = .interrupted

/-- The error says nothing about the connection itself: a later try may succeed. -/
def isTransient (e : OsError) : Bool :=
  e.isNotNow || e = number eagain || e = number enomem

def fatalForRecv (e : OsError) : Bool := !e.isTransient

def fatalForSend (e : OsError) : Bool := !e.isTransient

/-- A failed connect is final, rather than still in progress. -/
def fatalForConnect (e : OsError) : Bool := !(e.isNotNow || e = number einprogress)

def describeNumber (errno : Nat) : String :=
  if errno = ebadf then "Bad file descriptor"
  else if errno = eintr then "Interrupted system call"
  else if errno = eagain then "Resource temporarily unavailable"
  else if errno = enomem then "Cannot allocate memory"
  else if errno = epipe then "Broken pipe"
  else if errno = enetdown then "Network is down"
  else if errno = econnreset then "Connection reset by peer"
  else if errno = einprogress then "Operation now in progress"
  else s!"Unknown error {errno}"

def message : OsError → String
  | number errno => s!"{describeNumber errno} (os error {errno})"
  | kind .wouldBlock => "operation would block"
  | kind .interrupted => "operation interrupted"
  | kind .other => "other error"
  | text t => t

end OsError

end DuplexRelay
