/-!
# Faults of a line

A fault is what the operating system says about a failed read or write: its kind
and a text for the operator.  A session that meets one has lost its line.  A loss
is never retried, so a session that ends early ends with exactly one of them.
-/

namespace TerminalHost

inductive FaultKind where
  | notFound
  | permissionDenied
  | connectionRefused
  | connectionReset
  | connectionAborted
  | notConnected
  | addressInUse
  | addressNotAvailable
  | brokenPipe
  | alreadyExists
  | wouldBlock
  | invalidInput
  | invalidData
  | timedOut
  | writeZero
  | interrupted
  | unsupported
  | unexpectedEnd
  | outOfMemory
  | other
deriving DecidableEq, Repr

namespace FaultKind

def text : FaultKind → String
  | notFound => "entity not found"
  | permissionDenied => "permission denied"
  | connectionRefused => "connection refused"
  | connectionReset => "connection reset"
  | connectionAborted => "connection aborted"
  | notConnected => "not connected"
  | addressInUse => "address in use"
  | addressNotAvailable => "address not available"
  | brokenPipe => "broken pipe"
  | alreadyExists => "entity already exists"
  | wouldBlock => "operation would block"
  | invalidInput => "invalid input parameter"
  | invalidData => "invalid data"
  | timedOut => "timed out"
  | writeZero => "write zero"
  | interrupted => "operation interrupted"
  | unsupported => "unsupported"
  | unexpectedEnd => "unexpected end of file"
  | outOfMemory => "out of memory"
  | other => "other error"

end FaultKind

structure Fault where
  kind : FaultKind
  text : String
deriving DecidableEq, Repr

def Fault.ofKind (kind : FaultKind) : Fault := ⟨kind, kind.text⟩

inductive Loss where
  /-- The other side ended the stream in good order. -/
  | peerClosed
  /-- This side has closed the line before. -/
  | closed
  | fault (cause : Fault)
deriving DecidableEq, Repr

def Loss.message : Loss → String
  | peerClosed => "peer closed the connection"
  | closed => "connection already closed"
  | fault cause => "transport i/o failure: " ++ cause.text

end TerminalHost
