import TerminalHost.Proofs.Line.Clock
import TerminalHost.Proofs.Line.Wrapped

/-!
# Lines that note the time

To say what has been written by some time, the line notes for each send when it was made
and which octets the stream took of it.  All that a stream has taken of a session is what
its sends have written, in order.
-/

namespace TerminalHost

structure Writing where
  time : Nat
  octets : Bytes

def Writing.written (writings : List Writing) : Bytes := writings.flatMap Writing.octets

@[simp] theorem Writing.written_append (earlier later : List Writing) :
    written (earlier ++ later) = written earlier ++ written later :=
  List.flatMap_append

/-- A line over a scripted stream with the writings on it, in order. -/
structure Stamped where
  line : StreamLine Scripted
  writings : List Writing

namespace Stamped

def stamp (line : StreamLine Scripted) : Stamped := ⟨line, []⟩

instance : Line Stamped where
  peer stamped := Line.peer stamped.line
  send stamped now octets :=
    let (line, answer) := Line.send stamped.line now octets
    let taken := line.stream.accepted.drop stamped.line.stream.accepted.length
    (⟨line, stamped.writings ++ [⟨now, taken⟩]⟩, answer)
  receive stamped now most :=
    let (line, answer) := Line.receive stamped.line now most
    (⟨line, stamped.writings⟩, answer)
  close stamped :=
    let (line, entries) := Line.close stamped.line
    (⟨line, stamped.writings⟩, entries)

theorem wraps : Line.Wraps Stamped.line where
  peer _ := rfl
  send _ _ _ := rfl
  receive _ _ _ := rfl
  close _ := rfl

/-- The stream has taken what it had taken before, and then what was written. -/
def Accounts (before : Bytes) (stamped : Stamped) : Prop :=
  stamped.line.stream.accepted = before ++ Writing.written stamped.writings

variable {before : Bytes} {stamped : Stamped}

theorem Accounts.send (h : Accounts before stamped) (now : Nat) (octets : Bytes) :
    Accounts before (Line.send stamped now octets).1 := by
  obtain ⟨taken, -, haccepted, -⟩ :=
    StreamLine.exists_accepted_send stamped.line now octets
  have hsend : (Line.send stamped now octets).1
      = ⟨(Line.send stamped.line now octets).1, stamped.writings ++ [⟨now,
          (Line.send stamped.line now octets).1.stream.accepted.drop
            stamped.line.stream.accepted.length⟩]⟩ := rfl
  rw [Accounts, hsend, haccepted, List.drop_left, Writing.written_append,
    ← List.append_assoc, ← h]
  simp [Writing.written]

theorem Accounts.receive (h : Accounts before stamped) (now most : Nat) :
    Accounts before (Line.receive stamped now most).1 := by
  obtain ⟨events, hevents⟩ := StreamLine.exists_withEvents stamped.line now most
  show (Line.receive stamped.line now most).1.stream.accepted = _
  rw [hevents]
  exact h

theorem Accounts.close (h : Accounts before stamped) :
    Accounts before (Line.close stamped).1 :=
  (StreamLine.accepted_close stamped.line).trans h

theorem accounts_stamp (line : StreamLine Scripted) :
    Accounts line.stream.accepted (stamp line) :=
  (List.append_nil _).symm

theorem timely : Line.Timely (fun stamped : Stamped => stamped.line.weight) where
  send_time stamped := StreamLine.timely.send_time stamped.line
  send_left stamped := StreamLine.timely.send_left stamped.line
  receive stamped now := by
    have hspent := StreamLine.timely.receive stamped.line now
    have hreceive : Line.receive stamped now 1
        = (⟨(Line.receive stamped.line now 1).1, stamped.writings⟩,
          (Line.receive stamped.line now 1).2) := rfl
    rw [hreceive]
    generalize Line.receive stamped.line now 1 = received at hspent
    cases hspent with
    | lost htime hle => exact .lost htime hle
    | used htime hless => exact .used htime hless
    | waited htime hle => exact .waited htime hle
    | kept => exact .kept
    | silent hle => exact .silent hle
  close stamped := StreamLine.timely.close stamped.line

end Stamped

end TerminalHost
