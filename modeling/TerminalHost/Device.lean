import TerminalHost.Fault

/-!
# Opening a serial port

When a serial port cannot be opened, the operator is told the likely cause and what
to do about it.  The causes are told apart by what the serial driver reports.
-/

namespace TerminalHost

inductive PortFault where
  | noDevice
  | invalidInput
  | unknown
  | fault (kind : FaultKind)
deriving DecidableEq, Repr

inductive OpenCause where
  | notFound
  | permissionDenied
  | invalidSettings (description : String)
  | other (description : String)
deriving DecidableEq, Repr

namespace OpenCause

def ofPortFault (fault : PortFault) (description : String) : OpenCause :=
  match fault with
  | .noDevice | .fault .notFound => notFound
  | .fault .permissionDenied => permissionDenied
  | .invalidInput => invalidSettings description
  | _ => other description

def message : OpenCause → String
  | notFound => "device not found; check the port name and that the adapter is connected"
  | permissionDenied =>
    "permission denied; add your user to the group owning the device (often `dialout`) "
      ++ "or close other programs using the port"
  | invalidSettings description => "unsupported line settings: " ++ description
  | other description => description

end OpenCause

structure OpenError where
  path : String
  cause : OpenCause
deriving DecidableEq, Repr

def OpenError.message (error : OpenError) : String :=
  "cannot open serial port " ++ error.path ++ ": " ++ error.cause.message

def OpenError.ofPortFault (path : String) (fault : PortFault) (description : String) :
    OpenError :=
  ⟨path, OpenCause.ofPortFault fault description⟩

end TerminalHost
