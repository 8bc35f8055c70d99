import TerminalHost.Proofs.Line.Reading
import TerminalHost.Proofs.Line.Wrapped

/-!
# Watched streams

What a line does to its stream is only seen from the side of the stream.  So the stream is
watched: each read, write, flush and shutdown is noted, in order and with its result.  A line
over a watched stream answers as the line over the stream itself.
-/

namespace TerminalHost

/-- What a line does to its stream, and what the stream makes of it. -/
inductive Touch where
  | read
  /-- A write of some octets; the stream says how many of them it has taken. -/
  | write (offered : Bytes) (result : Except Fault Nat)
  | flush (result : Except Fault Unit)
  | shutdown (result : Except Fault Unit)

namespace Touch

def octets : Touch → Bytes
  | write offered (.ok count) => offered.take count
  | _ => []

def received (touches : List Touch) : Bytes := touches.flatMap octets

/-- What of some octets still waits for a flush after a touch. -/
def waiting (octets : Bytes) : Touch → Bytes
  | flush (.ok ()) => []
  | touch => octets ++ touch.octets

/-- The octets that the stream has taken since it was last flushed. -/
def unflushed (touches : List Touch) : Bytes := touches.foldl waiting []

def isShutdown : Touch → Bool
  | shutdown _ => true
  | _ => false

def Takes (touch : Touch) : Prop :=
  ∃ offered count, touch = .write offered (.ok (count + 1))

@[simp] theorem received_append (left right : List Touch) :
    received (left ++ right) = received left ++ received right :=
  List.flatMap_append

/-- Octets that were flushed wait no longer. -/
theorem unflushed_of_flush (touches : List Touch) :
    unflushed (touches ++ [.flush (.ok ())]) = [] := by
  rw [unflushed, List.foldl_append]
  rfl

theorem Takes.not_isShutdown {touch : Touch} (h : touch.Takes) : touch.isShutdown = false := by
  obtain ⟨offered, count, rfl⟩ := h
  rfl

end Touch

structure Watched (β : Type) where
  stream : β
  /-- What was done to the stream, in order. -/
  touches : List Touch

variable {β : Type} [ByteStream β]

namespace Watched

instance : ByteStream (Watched β) where
  read watched now room deadline :=
    let (stream, answer) := ByteStream.read watched.stream now room deadline
    (⟨stream, watched.touches ++ [.read]⟩, answer)
  write watched octets :=
    let (stream, result) := ByteStream.write watched.stream octets
    (⟨stream, watched.touches ++ [.write octets result]⟩, result)
  flush watched :=
    let (stream, result) := ByteStream.flush watched.stream
    (⟨stream, watched.touches ++ [.flush result]⟩, result)
  shutdown watched :=
    let (stream, result) := ByteStream.shutdown watched.stream
    (⟨stream, watched.touches ++ [.shutdown result]⟩, result)

theorem touches_read (watched : Watched β) (now room : Nat) (deadline : Option Nat) :
    (ByteStream.read watched now room deadline).1.touches = watched.touches ++ [.read] := rfl

theorem touches_shutdown (watched : Watched β) :
    (ByteStream.shutdown watched).1.touches
      = watched.touches ++ [.shutdown (ByteStream.shutdown watched).2] := rfl

theorem writeWithin_stream (fuel : Nat) (watched : Watched β) (octets : Bytes) :
    writeWithin fuel watched.stream octets
      = ((writeWithin fuel watched octets).1.stream, (writeWithin fuel watched octets).2) := by
  induction fuel generalizing watched octets with
  | zero => cases octets <;> rfl
  | succ fuel ih =>
    cases octets with
    | nil => rfl
    | cons octet rest =>
      rcases hwrite : ByteStream.write watched.stream (octet :: rest)
        with ⟨stream, fault | _ | count⟩
      · simp only [writeWithin, ByteStream.write, hwrite]
      · simp only [writeWithin, ByteStream.write, hwrite]
      · have hnext := ih
          ⟨stream, watched.touches ++ [.write (octet :: rest) (.ok (count + 1))]⟩
          (rest.drop count)
        simp only [writeWithin, ByteStream.write, hwrite]
        exact hnext

theorem deliver_stream (watched : Watched β) (octets : Bytes) :
    StreamLine.deliver watched.stream octets
      = ((StreamLine.deliver watched octets).1.stream,
        (StreamLine.deliver watched octets).2) := by
  rcases hwritten : writeWithin octets.length watched octets with ⟨next, fault | ⟨⟨⟩⟩⟩
  · simp only [StreamLine.deliver, writeAll, writeWithin_stream, hwritten]
  · simp only [StreamLine.deliver, writeAll, writeWithin_stream, hwritten]
    rfl

end Watched

namespace StreamLine

def watch (line : StreamLine β) : StreamLine (Watched β) :=
  ⟨⟨line.stream, []⟩, line.isOpen, line.name, line.sendDelay, line.readTimeout⟩

def unwatch (line : StreamLine (Watched β)) : StreamLine β :=
  ⟨line.stream.stream, line.isOpen, line.name, line.sendDelay, line.readTimeout⟩

theorem wraps_unwatch : Line.Wraps (unwatch (β := β)) where
  peer _ := rfl
  send line now octets := by
    have hdeliver := Watched.deliver_stream line.stream octets
    cases hopen : line.isOpen with
    | true =>
      simp only [Line.send, send, unwatch, hopen, if_true, hdeliver]
      rcases deliver line.stream octets with ⟨next, fault | ⟨⟨⟩⟩⟩
      · rfl
      · rfl
    | false => simp [Line.send, send, unwatch, hopen]
  receive line now most := by
    by_cases hopen : line.isOpen = true
    · have hbare : line.unwatch.isOpen = true := hopen
      rw [receive_eq hopen, receive_eq hbare]
      rcases hread : ByteStream.read line.stream.stream now (max most 1)
        (line.readTimeout.map (now + ·.ticks)) with ⟨stream, _ | answer⟩
      · simp only [ByteStream.read, unwatch, hread]
      · simp only [ByteStream.read, unwatch, hread]
    · have hbare : ¬ line.unwatch.isOpen = true := hopen
      rw [receive_of_not_isOpen hopen, receive_of_not_isOpen hbare]
  close line := by
    cases hopen : line.isOpen with
    | true =>
      simp only [Line.close, close, unwatch, hopen, if_true, ByteStream.shutdown]
      rcases ByteStream.shutdown line.stream.stream with ⟨stream, fault | ⟨⟨⟩⟩⟩
      · rfl
      · rfl
    | false => simp [Line.close, close, unwatch, hopen]

end StreamLine

end TerminalHost
