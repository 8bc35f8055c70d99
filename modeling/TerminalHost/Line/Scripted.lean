import TerminalHost.Line.Stream

/-!
# Scripted streams

A byte stream whose whole future is written down: the octets that come, the waits
between them, faults and ends of the stream.  A wait begins when a read first
meets it and goes on by itself, also when that read is given up.  On the other
side it can be told how much a write takes and from where on writes, flushes and
the shutdown fail; it keeps what was flushed apart from what was only written.
-/

namespace TerminalHost

inductive ReadEvent where
  | bytes (bytes : Bytes)
  /-- A wait of some milliseconds that has not begun. -/
  | delay (millis : Nat)
  /-- A wait that ends at a time. -/
  | untilTime (time : Nat)
  /-- A read that fails, once. -/
  | fault (fault : Fault)
  /-- An end of the stream; what follows can still be read. -/
  | finish
deriving DecidableEq, Repr

/-- A byte stream with a written future. -/
structure Scripted where
  events : List ReadEvent
  /-- Whether a read waits for ever after the events, instead of meeting the end. -/
  staysOpen : Bool
  /-- The most octets that one write takes. -/
  writeRoom : Option Nat
  /-- From so many octets in total on, every write fails. -/
  writeFault : Option (Nat × Fault)
  flushFault : Option Fault
  shutdownFault : Option Fault
  /-- What was written since the last flush that succeeded, the latest first. -/
  unflushedBackwards : Bytes
  /-- What was written between flushes, the latest first. -/
  latest : List Bytes
  written : Nat
  shutdowns : Nat
deriving DecidableEq, Repr

namespace Scripted

def ofEvents (events : List ReadEvent) : Scripted :=
  ⟨events, false, none, none, none, none, [], [], 0, 0⟩

def unflushed (stream : Scripted) : Bytes := stream.unflushedBackwards.reverse

def chunks (stream : Scripted) : List Bytes := stream.latest.reverse

def feed (stream : Scripted) (events : List ReadEvent) : Scripted :=
  { stream with events := stream.events ++ events }

def allows (deadline : Option Nat) (time : Nat) : Bool :=
  match deadline with
  | some deadline => time ≤ deadline
  | none => true

/-- What a read meets: the events that are left, and when it ends with what. -/
def readEvents (staysOpen : Bool) (room : Nat) (deadline : Option Nat) :
    Nat → List ReadEvent → List ReadEvent × Option (Nat × Except Fault Bytes)
  | now, [] => ([], if staysOpen then none else some (now, .ok []))
  | now, .bytes [] :: rest => readEvents staysOpen room deadline now rest
  | now, .bytes (octet :: octets) :: rest =>
    let later := (octet :: octets).drop room
    (if later.isEmpty then rest else .bytes later :: rest,
      some (now, .ok ((octet :: octets).take room)))
  | now, .delay millis :: rest =>
    let time := now + millis
    if allows deadline time then readEvents staysOpen room deadline time rest
    else (.untilTime time :: rest, none)
  | now, .untilTime time :: rest =>
    if time ≤ now then readEvents staysOpen room deadline now rest
    else if allows deadline time then readEvents staysOpen room deadline time rest
    else (.untilTime time :: rest, none)
  | now, .fault fault :: rest => (rest, some (now, .error fault))
  | now, .finish :: rest => (rest, some (now, .ok []))

def read (stream : Scripted) (now room : Nat) (deadline : Option Nat) :
    Scripted × Option (Nat × Except Fault Bytes) :=
  let (events, answer) := readEvents stream.staysOpen room deadline now stream.events
  ({ stream with events := events }, answer)

def accept (stream : Scripted) (bytes : Bytes) : Scripted :=
  { stream with
    unflushedBackwards := bytes.reverse ++ stream.unflushedBackwards
    written := stream.written + bytes.length }

def write (stream : Scripted) (bytes : Bytes) : Scripted × Except Fault Nat :=
  let offered :=
    match stream.writeRoom with
    | some room => bytes.take room
    | none => bytes
  match stream.writeFault with
  | some (limit, fault) =>
    if limit ≤ stream.written then (stream, .error fault)
    else
      let taken := offered.take (limit - stream.written)
      (stream.accept taken, .ok taken.length)
  | none => (stream.accept offered, .ok offered.length)

def flush (stream : Scripted) : Scripted × Except Fault Unit :=
  match stream.flushFault with
  | some fault => (stream, .error fault)
  | none =>
    ({ stream with unflushedBackwards := [], latest := stream.unflushed :: stream.latest },
      .ok ())

def shutdown (stream : Scripted) : Scripted × Except Fault Unit :=
  ({ stream with shutdowns := stream.shutdowns + 1 },
    match stream.shutdownFault with
    | some fault => .error fault
    | none => .ok ())

instance : ByteStream Scripted where
  read := read
  write := write
  flush := flush
  shutdown := shutdown

def toCome (stream : Scripted) : Bytes :=
  stream.events.flatMap fun
    | .bytes bytes => bytes
    | _ => []

/-- More receives of one octet than the events can answer. -/
def patience (stream : Scripted) : Nat :=
  stream.events.length + stream.toCome.length + 1

end Scripted

def StreamLine.patience (line : StreamLine Scripted) (limit : Nat) : Nat :=
  let timeouts := match line.readTimeout with
    | some timeout => limit / timeout.ticks + 1
    | none => 0
  line.stream.patience + timeouts

end TerminalHost
