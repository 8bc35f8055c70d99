import TerminalHost.Duration
import TerminalHost.Line.Basic

/-!
# Lines over byte streams

Serial ports and network connections are byte streams: a read waits until there is
something, a write takes as much as it can, and what was written is on its way
after a flush.  A stream line sends a chunk by writing all of it, flushing once and
then waiting the send delay.  It receives with a bound on the wait, if it has one.
A read that is ready at the very end of the wait still counts, and a read that is
given up takes nothing from the stream.
-/

namespace TerminalHost

/-- A stream of octets in both directions. -/
class ByteStream (β : Type) where
  /-- Read at most `room` octets, waiting until `deadline` at the longest; nothing
  read means the end of the stream, and no answer that the wait was in vain. -/
  read : β → (now room : Nat) → (deadline : Option Nat) →
    β × Option (Nat × Except Fault Bytes)
  /-- Write some of the octets and say how many. -/
  write : β → Bytes → β × Except Fault Nat
  /-- Send what was written on its way. -/
  flush : β → β × Except Fault Unit
  /-- End the stream. -/
  shutdown : β → β × Except Fault Unit

/-- Write all octets, by at most `fuel` writes; as many writes as octets are enough,
because a write that takes nothing is a fault. -/
def writeWithin {β : Type} [ByteStream β] : Nat → β → Bytes → β × Except Fault Unit
  | _, stream, [] => (stream, .ok ())
  | 0, stream, _ :: _ => (stream, .error (Fault.ofKind .writeZero))
  | fuel + 1, stream, octet :: rest =>
    match ByteStream.write stream (octet :: rest) with
    | (stream, .error fault) => (stream, .error fault)
    | (stream, .ok 0) => (stream, .error (Fault.ofKind .writeZero))
    | (stream, .ok (taken + 1)) => writeWithin fuel stream (rest.drop taken)

def writeAll {β : Type} [ByteStream β] (stream : β) (bytes : Bytes) :
    β × Except Fault Unit :=
  writeWithin bytes.length stream bytes

def earlier : Option Nat → Option Nat → Option Nat
  | some a, some b => some (min a b)
  | some a, none => some a
  | none, b => b

structure StreamLine (β : Type) where
  stream : β
  /-- A line that was closed never touches its stream again. -/
  isOpen : Bool
  name : String
  sendDelay : Duration
  /-- The longest wait of one receive, if there is a longest one. -/
  readTimeout : Option Duration

namespace StreamLine

variable {β : Type} [ByteStream β]

def deliver (stream : β) (bytes : Bytes) : β × Except Fault Unit :=
  match writeAll stream bytes with
  | (stream, .ok ()) => ByteStream.flush stream
  | (stream, .error fault) => (stream, .error fault)

/-- Send octets as one chunk; only a send that succeeds waits the send delay. -/
def send (line : StreamLine β) (now : Nat) (bytes : Bytes) : StreamLine β × Answer Unit :=
  if line.isOpen then
    match deliver line.stream bytes with
    | (stream, .ok ()) => ({ line with stream := stream }, ⟨now + line.sendDelay.ticks, .ok ()⟩)
    | (stream, .error fault) => ({ line with stream := stream }, ⟨now, .error (.fault fault)⟩)
  else (line, ⟨now, .error .closed⟩)

/-- What a read means: octets, the end of the stream, or a fault.  A read that timed
out by itself has found nothing yet. -/
def heard : Except Fault Bytes → Except Loss Bytes
  | .ok [] => .error .peerClosed
  | .ok bytes => .ok bytes
  | .error fault => if fault.kind = .timedOut then .ok [] else .error (.fault fault)

/-- Receive octets, waiting until `limit` at the longest.  Without an answer the wait
was given up at the limit, before the line itself gave up. -/
def receiveUntil (line : StreamLine β) (now most : Nat) (limit : Option Nat) :
    StreamLine β × Option (Answer Bytes) :=
  if line.isOpen then
    let deadline := line.readTimeout.map (now + ·.ticks)
    match ByteStream.read line.stream now (max most 1) (earlier deadline limit) with
    | (stream, some (time, result)) => ({ line with stream := stream }, some ⟨time, heard result⟩)
    | (stream, none) =>
      let line := { line with stream := stream }
      match deadline, limit with
      | some deadline, some limit =>
        (line, if deadline ≤ limit then some ⟨deadline, .ok []⟩ else none)
      | some deadline, none => (line, some ⟨deadline, .ok []⟩)
      | none, _ => (line, none)
  else (line, some ⟨now, .error .closed⟩)

def close (line : StreamLine β) : StreamLine β × List Entry :=
  if line.isOpen then
    match ByteStream.shutdown line.stream with
    | (stream, .ok ()) => ({ line with stream := stream, isOpen := false }, [])
    | (stream, .error fault) =>
      ({ line with stream := stream, isOpen := false }, [.shutdownFailed line.name fault])
  else (line, [])

instance : Line (StreamLine β) where
  peer := name
  send := send
  receive line now most := line.receiveUntil now most none
  close := close

end StreamLine

end TerminalHost
