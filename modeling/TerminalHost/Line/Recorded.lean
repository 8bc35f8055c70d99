import TerminalHost.Line.Basic

/-!
# Recorded lines

A line without a terminal: what will be received stands in a queue, and what is
sent is recorded chunk by chunk.  An idle item of the queue is a receive that
finds nothing.  The other side is gone when the queue is empty.  Nothing on this
line takes time.
-/

namespace TerminalHost

inductive Item where
  | octet (octet : UInt8)
  /-- A receive that finds nothing. -/
  | idle
deriving DecidableEq, Repr

/-- A line that plays back a queue and records what is sent. -/
structure Recorded where
  queue : List Item
  /-- The chunks sent so far, the latest first. -/
  latest : List Bytes
  /-- How many sends have succeeded. -/
  sends : Nat
  /-- How many receives have been tried. -/
  receives : Nat
  closes : Nat
  isClosed : Bool
  /-- After so many sends every send fails. -/
  sendLimit : Option Nat
deriving DecidableEq, Repr

namespace Recorded

def empty : Recorded := ⟨[], [], 0, 0, 0, false, none⟩

def push (line : Recorded) (items : List Item) : Recorded :=
  { line with queue := line.queue ++ items }

def pushBytes (line : Recorded) (bytes : Bytes) : Recorded :=
  line.push (bytes.map Item.octet)

def pushIdle (line : Recorded) (count : Nat) : Recorded :=
  line.push (List.replicate count Item.idle)

def ofBytes (bytes : Bytes) : Recorded := empty.pushBytes bytes

/-- The line with a limit for its sends, all sends since the beginning counted. -/
def failAfter (line : Recorded) (count : Nat) : Recorded :=
  { line with sendLimit := some count }

def chunks (line : Recorded) : List Bytes := line.latest.reverse

def sent (line : Recorded) : Bytes := line.chunks.flatten

def isSpent (line : Recorded) : Bool :=
  match line.sendLimit with
  | some limit => limit ≤ line.sends
  | none => false

def send (line : Recorded) (bytes : Bytes) : Recorded × Except Loss Unit :=
  if line.isClosed then (line, .error .closed)
  else if line.isSpent then (line, .error (.fault (Fault.ofKind .brokenPipe)))
  else ({ line with latest := bytes :: line.latest, sends := line.sends + 1 }, .ok ())

/-- The octets in front of the queue, at most so many, and the rest of the queue. -/
def takeOctets : Nat → List Item → Bytes × List Item
  | most + 1, .octet octet :: rest =>
    let (octets, rest) := takeOctets most rest
    (octet :: octets, rest)
  | _, queue => ([], queue)

/-- Taking octets loses none of the queue. -/
theorem takeOctets_append (most : Nat) (queue : List Item) :
    (takeOctets most queue).1.map Item.octet ++ (takeOctets most queue).2 = queue := by
  fun_induction takeOctets most queue with
  | case1 most octet rest octets left h ih => simp_all
  | case2 => rfl

/-- What a receive takes from the queue: one idle item, or a run of octets. -/
def take (most : Nat) : List Item → Except Loss Bytes × List Item
  | [] => (.error .peerClosed, [])
  | .idle :: rest => (.ok [], rest)
  | .octet octet :: rest =>
    let (octets, rest) := takeOctets (most - 1) rest
    (.ok (octet :: octets), rest)

def receive (line : Recorded) (most : Nat) : Recorded × Except Loss Bytes :=
  let line := { line with receives := line.receives + 1 }
  if line.isClosed then (line, .error .closed)
  else
    let (result, queue) := take most line.queue
    ({ line with queue := queue }, result)

def close (line : Recorded) : Recorded :=
  { line with closes := line.closes + 1, isClosed := true }

def peer : String := "memory"

instance : Line Recorded where
  peer _ := peer
  send line now bytes :=
    let (line, result) := line.send bytes
    (line, ⟨now, result⟩)
  receive line now most :=
    let (line, result) := line.receive most
    (line, some ⟨now, result⟩)
  close line := (line.close, [])

/-- More receives than the queue can answer. -/
def patience (line : Recorded) : Nat := line.queue.length + 1

end Recorded

end TerminalHost
