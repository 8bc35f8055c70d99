import TerminalHost.Line.Scripted

/-!
# Reads of a scripted stream

A stream that goes on until it has brought certain octets brings them in order,
however they are cut into pieces and whatever waits and time-outs stand between them.
A read that has to be given up takes nothing, and the wait it stood in gets shorter by
the time it lasted.
-/

namespace TerminalHost

/-- The events bring exactly these octets, and then the stream ends.  Between them there
may be waits and reads that time out by themselves. -/
inductive Carries (staysOpen : Bool) : List ReadEvent → Bytes → Prop where
  | exhausted (h : staysOpen = false) : Carries staysOpen [] []
  | finish (rest : List ReadEvent) : Carries staysOpen (.finish :: rest) []
  | bytes (octets : Bytes) {rest : List ReadEvent} {later : Bytes}
      (h : Carries staysOpen rest later) :
      Carries staysOpen (.bytes octets :: rest) (octets ++ later)
  | delay (millis : Nat) {rest : List ReadEvent} {later : Bytes}
      (h : Carries staysOpen rest later) : Carries staysOpen (.delay millis :: rest) later
  | untilTime (time : Nat) {rest : List ReadEvent} {later : Bytes}
      (h : Carries staysOpen rest later) :
      Carries staysOpen (.untilTime time :: rest) later
  | timedOut {fault : Fault} (hkind : fault.kind = .timedOut) {rest : List ReadEvent}
      {later : Bytes} (h : Carries staysOpen rest later) :
      Carries staysOpen (.fault fault :: rest) later

namespace ReadEvent

/-- What an event still has to give: octets, time to wait, or a fault. -/
def cost (now : Nat) : ReadEvent → Nat
  | .bytes octets => octets.length
  | .delay millis => millis
  | .untilTime time => time - now
  | .fault _ => 1
  | .finish => 0

theorem cost_le {now later : Nat} (hle : now ≤ later) (event : ReadEvent) :
    event.cost later ≤ event.cost now := by
  cases event <;> simp only [cost] <;> omega

end ReadEvent

namespace Scripted

def pending (now : Nat) : List ReadEvent → Nat
  | [] => 0
  | event :: rest => event.cost now + pending now rest

@[simp] theorem pending_cons (now : Nat) (event : ReadEvent) (rest : List ReadEvent) :
    pending now (event :: rest) = event.cost now + pending now rest := rfl

theorem pending_le {now later : Nat} (hle : now ≤ later) (events : List ReadEvent) :
    pending later events ≤ pending now events := by
  induction events with
  | nil => exact Nat.le_refl _
  | cons event rest ih =>
    have hevent := ReadEvent.cost_le hle event
    simp only [pending_cons]
    omega

/-- What a read comes to on a stream that still has to bring `octets`. -/
inductive Met (staysOpen : Bool) (room : Nat) (deadline : Option Nat) (now : Nat)
    (events : List ReadEvent) (octets : Bytes) :
    List ReadEvent × Option (Nat × Except Fault Bytes) → Prop where
  | ended (left : List ReadEvent) (time : Nat) (hnil : octets = []) :
      Met staysOpen room deadline now events octets (left, some (time, .ok []))
  | got (left : List ReadEvent) (time : Nat) {taken later : Bytes}
      (hsplit : octets = taken ++ later) (hne : taken ≠ []) (hroom : taken.length ≤ room)
      (hleft : Carries staysOpen left later) :
      Met staysOpen room deadline now events octets (left, some (time, .ok taken))
  | timedOut {left : List ReadEvent} {time : Nat} {fault : Fault}
      (hkind : fault.kind = .timedOut) (hleft : Carries staysOpen left octets)
      (hless : pending time left < pending now events) :
      Met staysOpen room deadline now events octets (left, some (time, .error fault))
  | givenUp {left : List ReadEvent} {limit : Nat} (hlimit : deadline = some limit)
      (hleft : Carries staysOpen left octets)
      (hless : now ≤ limit → pending limit left + (limit - now) ≤ pending now events) :
      Met staysOpen room deadline now events octets (left, none)

/-- Passing over events that cost at least the time that goes by changes nothing about
what a read comes to. -/
theorem Met.later {staysOpen : Bool} {room : Nat} {deadline : Option Nat}
    {now later : Nat} {events rest : List ReadEvent} {octets : Bytes}
    {read : List ReadEvent × Option (Nat × Except Fault Bytes)}
    (h : Met staysOpen room deadline later rest octets read) (hle : now ≤ later)
    (hdeadline : ∀ {limit : Nat}, deadline = some limit → now ≤ limit → later ≤ limit)
    (hcost : pending later rest + (later - now) ≤ pending now events) :
    Met staysOpen room deadline now events octets read := by
  cases h with
  | ended left time hnil => exact .ended left time hnil
  | got left time hsplit hne hroom hleft => exact .got left time hsplit hne hroom hleft
  | timedOut hkind hleft hless => exact .timedOut hkind hleft (by omega)
  | givenUp hlimit hleft hless =>
    refine .givenUp hlimit hleft fun hnow => ?_
    have hlater := hdeadline hlimit hnow
    have hrest := hless hlater
    omega

/-- A wait that begins or goes on: it is over in time, or the read is given up in it. -/
theorem met_wait {staysOpen : Bool} {room : Nat} {deadline : Option Nat}
    {now time : Nat} {event : ReadEvent} {rest : List ReadEvent} {octets : Bytes}
    (hrest : Carries staysOpen rest octets) (hle : now ≤ time)
    (hcost : event.cost now = time - now)
    (ih : Met staysOpen room deadline time rest octets
      (readEvents staysOpen room deadline time rest)) :
    Met staysOpen room deadline now (event :: rest) octets
      (if allows deadline time then readEvents staysOpen room deadline time rest
        else (.untilTime time :: rest, none)) := by
  have hpending := pending_le hle rest
  cases deadline with
  | none =>
    refine ih.later hle (by simp) ?_
    simp only [pending_cons, hcost]
    omega
  | some limit =>
    by_cases hallows : time ≤ limit
    · rw [if_pos (by simpa [allows] using hallows)]
      refine ih.later hle (fun hlimit _ => ?_) ?_
      · simp only [Option.some.injEq] at hlimit
        omega
      · simp only [pending_cons, hcost]
        omega
    · rw [if_neg (by simpa [allows] using hallows)]
      refine .givenUp rfl (.untilTime time hrest) fun hnow => ?_
      have hlimit := pending_le hnow rest
      have huntil : (ReadEvent.untilTime time).cost limit = time - limit := rfl
      simp only [pending_cons, hcost, huntil]
      omega

theorem met_readEvents {staysOpen : Bool} {room : Nat} (hroom : 0 < room)
    (deadline : Option Nat) (now : Nat) {events : List ReadEvent} {octets : Bytes}
    (h : Carries staysOpen events octets) :
    Met staysOpen room deadline now events octets
      (readEvents staysOpen room deadline now events) := by
  induction h generalizing now with
  | exhausted h =>
    simp only [readEvents, h, Bool.false_eq_true, if_false]
    exact .ended [] now rfl
  | finish rest => exact .ended rest now rfl
  | @bytes octets rest later h ih =>
    cases octets with
    | nil => exact (ih now).later (Nat.le_refl now) (fun _ hnow => hnow) (by simp)
    | cons octet octets =>
      have hsplit : (octet :: octets) ++ later
          = (octet :: octets).take room ++ ((octet :: octets).drop room ++ later) := by
        rw [← List.append_assoc, List.take_append_drop]
      have hne : (octet :: octets).take room ≠ [] := by
        simp [Nat.ne_of_gt hroom]
      have hleft : Carries staysOpen
          (if ((octet :: octets).drop room).isEmpty then rest
            else .bytes ((octet :: octets).drop room) :: rest)
          ((octet :: octets).drop room ++ later) := by
        split
        · rename_i hempty
          rwa [List.isEmpty_iff.mp hempty]
        · exact .bytes _ h
      exact .got _ now hsplit hne (List.length_take_le _ _) hleft
  | delay millis h ih =>
    exact met_wait h (Nat.le_add_right now millis)
      (by simp only [ReadEvent.cost]; omega) (ih (now + millis))
  | untilTime time h ih =>
    simp only [readEvents]
    split
    · exact (ih now).later (Nat.le_refl now) (fun _ hnow => hnow) (by simp)
    · exact met_wait h (by omega) (by simp only [ReadEvent.cost]) (ih time)
  | timedOut hkind h ih =>
    refine .timedOut hkind h ?_
    simp only [pending_cons, ReadEvent.cost]
    omega

end Scripted

namespace StreamLine

theorem receive_eq {β : Type} [ByteStream β] {line : StreamLine β}
    (hopen : line.isOpen = true) (now most : Nat) :
    Line.receive line now most =
      match ByteStream.read line.stream now (max most 1)
          (line.readTimeout.map (now + ·.ticks)) with
      | (stream, some (time, result)) =>
        ({ line with stream := stream }, some ⟨time, heard result⟩)
      | (stream, none) =>
        ({ line with stream := stream },
          (line.readTimeout.map (now + ·.ticks)).map fun deadline => ⟨deadline, .ok []⟩) := by
  simp only [Line.receive, receiveUntil]
  rw [if_pos hopen]
  cases line.readTimeout with
  | none => rfl
  | some timeout => rfl

theorem receive_of_not_isOpen {β : Type} [ByteStream β] {line : StreamLine β}
    (h : ¬ line.isOpen = true) (now most : Nat) :
    Line.receive line now most = (line, some ⟨now, .error .closed⟩) := by
  simp only [Line.receive, receiveUntil]
  rw [if_neg h]

def withEvents (line : StreamLine Scripted) (events : List ReadEvent) :
    StreamLine Scripted :=
  { line with stream := { line.stream with events := events } }

theorem exists_withEvents (line : StreamLine Scripted) (now most : Nat) :
    ∃ events, (Line.receive line now most).1 = line.withEvents events := by
  by_cases hopen : line.isOpen = true
  · rw [receive_eq hopen]
    simp only [ByteStream.read, Scripted.read]
    generalize Scripted.readEvents line.stream.staysOpen (max most 1)
      (line.readTimeout.map (now + ·.ticks)) now line.stream.events = read
    rcases read with ⟨events, _ | answer⟩
    · exact ⟨events, rfl⟩
    · exact ⟨events, rfl⟩
  · rw [receive_of_not_isOpen hopen]
    exact ⟨line.stream.events, rfl⟩

end StreamLine

end TerminalHost
