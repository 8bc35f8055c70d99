import TerminalHost.Proofs.Line.Reading
import TerminalHost.Proofs.Line.Writing

/-!
# Time on a line

No call ends before it is made.  Between two receives that find something, a line can give
up any number of waits, so a session may listen for ever.  Each wait that is given up uses
something of what the line has left, or time goes by in it.  If neither happens the line is
as it was, and the next receive can only come to the same.
-/

namespace TerminalHost

/-- What a receive comes to in time, and what it uses up of the `left` of the line. -/
inductive Line.Spent {ℓ : Type} (left : ℓ → Nat) (line : ℓ) (now : Nat) :
    ℓ × Option (Answer Bytes) → Prop where
  | lost {next : ℓ} {time : Nat} {loss : Loss} (htime : now ≤ time)
      (hle : left next ≤ left line) : Spent left line now (next, some ⟨time, .error loss⟩)
  | used {next : ℓ} {time : Nat} {octets : Bytes} (htime : now ≤ time)
      (hless : left next < left line) : Spent left line now (next, some ⟨time, .ok octets⟩)
  | waited {next : ℓ} {time : Nat} {octets : Bytes} (htime : now < time)
      (hle : left next ≤ left line) : Spent left line now (next, some ⟨time, .ok octets⟩)
  /-- Nothing has come, no time has gone by and the line is as it was. -/
  | kept : Spent left line now (line, some ⟨now, .ok []⟩)
  | silent {next : ℓ} (hle : left next ≤ left line) : Spent left line now (next, none)

/-- No call on the line ends before it is made, and `left` bounds the receives that the
line can answer at one time before it stays as it is. -/
structure Line.Timely {ℓ : Type} [Line ℓ] (left : ℓ → Nat) : Prop where
  send_time (line : ℓ) (now : Nat) (octets : Bytes) :
    now ≤ (Line.send line now octets).2.time
  send_left (line : ℓ) (now : Nat) (octets : Bytes) :
    left (Line.send line now octets).1 ≤ left line
  receive (line : ℓ) (now : Nat) : Line.Spent left line now (Line.receive line now 1)
  close (line : ℓ) : left (Line.close line).1 ≤ left line

namespace Line.Timely

variable {ℓ : Type} [Line ℓ] {left : ℓ → Nat} {line next : ℓ} {now : Nat}

theorem le_time_send (h : Line.Timely left) {octets : Bytes} {answer : Answer Unit}
    (hsend : Line.send line now octets = (next, answer)) : now ≤ answer.time := by
  have htime := h.send_time line now octets
  rwa [hsend] at htime

theorem le_time_receive (h : Line.Timely left) {answer : Answer Bytes}
    (hreceive : Line.receive line now 1 = (next, some answer)) : now ≤ answer.time := by
  have hspent := h.receive line now
  rw [hreceive] at hspent
  cases hspent with
  | lost htime hle => exact htime
  | used htime hless => exact htime
  | waited htime hle => exact Nat.le_of_lt htime
  | kept => exact Nat.le_refl now

theorem left_receive (h : Line.Timely left) (line : ℓ) (now : Nat) :
    left (Line.receive line now 1).1 ≤ left line := by
  have hspent := h.receive line now
  generalize Line.receive line now 1 = received at hspent
  cases hspent with
  | lost htime hle => exact hle
  | used htime hless => exact Nat.le_of_lt hless
  | waited htime hle => exact hle
  | kept => exact Nat.le_refl _
  | silent hle => exact hle

/-- An answer that uses nothing up and takes no time leaves everything as it was. -/
theorem eq_of_receive (h : Line.Timely left) {time : Nat} {octets : Bytes}
    (hreceive : Line.receive line now 1 = (next, some ⟨time, .ok octets⟩))
    (hleft : left line ≤ left next) (htime : time ≤ now) :
    next = line ∧ time = now ∧ octets = [] := by
  have hspent := h.receive line now
  rw [hreceive] at hspent
  cases hspent with
  | used _ hless => omega
  | waited hlt _ => omega
  | kept => exact ⟨rfl, rfl, rfl⟩

end Line.Timely

/-- More than the reads an event can answer or keep waiting at one time. -/
def ReadEvent.weight : ReadEvent → Nat
  | .bytes octets => octets.length + 1
  | .delay _ => 2
  | .untilTime _ | .fault _ | .finish => 1

namespace Scripted

def weight : List ReadEvent → Nat
  | [] => 0
  | event :: rest => event.weight + weight rest

theorem weight_cons (event : ReadEvent) (rest : List ReadEvent) :
    weight (event :: rest) = event.weight + weight rest := rfl

theorem weight_rest_lt (event : ReadEvent) (rest : List ReadEvent) :
    weight rest < weight (event :: rest) := by
  have hpos : 0 < event.weight := by cases event <;> simp [ReadEvent.weight]
  rw [weight_cons]
  omega

inductive Spent (now : Nat) (events : List ReadEvent) :
    List ReadEvent × Option (Nat × Except Fault Bytes) → Prop where
  | ended {left : List ReadEvent} {time : Nat} (htime : now ≤ time)
      (hle : weight left ≤ weight events) : Spent now events (left, some (time, .ok []))
  | used {left : List ReadEvent} {time : Nat} {result : Except Fault Bytes}
      (htime : now ≤ time) (hless : weight left < weight events) :
      Spent now events (left, some (time, result))
  /-- The read waits for what it cannot have yet. -/
  | kept : Spent now events (events, none)
  /-- The wait has begun, or what stood before it is gone. -/
  | begun {left : List ReadEvent} (hless : weight left < weight events) :
      Spent now events (left, none)

theorem Spent.later {now later : Nat} {events rest : List ReadEvent}
    {read : List ReadEvent × Option (Nat × Except Fault Bytes)}
    (h : Spent later rest read) (hle : now ≤ later) (hless : weight rest < weight events) :
    Spent now events read := by
  cases h with
  | ended htime hleft => exact .ended (by omega) (by omega)
  | used htime hleft => exact .used (by omega) (by omega)
  | kept => exact .begun hless
  | begun hleft => exact .begun (by omega)

theorem spent_readEvents (staysOpen : Bool) {room : Nat} (hroom : 0 < room)
    (deadline : Option Nat) (now : Nat) (events : List ReadEvent) :
    Spent now events (readEvents staysOpen room deadline now events) := by
  induction events generalizing now with
  | nil =>
    unfold readEvents
    split
    · exact .kept
    · exact .ended (Nat.le_refl now) (Nat.le_refl _)
  | cons event rest ih =>
    have hrest := weight_rest_lt event rest
    cases event with
    | bytes octets =>
      cases octets with
      | nil => exact (ih now).later (Nat.le_refl now) hrest
      | cons octet octets =>
        refine .used (Nat.le_refl now) ?_
        split
        · exact hrest
        · rw [weight_cons, weight_cons]
          simp only [ReadEvent.weight, List.length_drop, List.length_cons]
          omega
    | delay millis =>
      simp only [readEvents]
      split
      · exact (ih (now + millis)).later (Nat.le_add_right now millis) hrest
      · refine .begun ?_
        rw [weight_cons, weight_cons]
        simp only [ReadEvent.weight]
        omega
    | untilTime time =>
      simp only [readEvents]
      split
      · exact (ih now).later (Nat.le_refl now) hrest
      · split
        · exact (ih time).later (by omega) hrest
        · exact .kept
    | fault fault => exact .used (Nat.le_refl now) hrest
    | finish => exact .used (Nat.le_refl now) hrest

end Scripted

namespace StreamLine

def weight (line : StreamLine Scripted) : Nat := Scripted.weight line.stream.events

theorem le_time_send (line : StreamLine Scripted) (now : Nat) (octets : Bytes) :
    now ≤ (Line.send line now octets).2.time := by
  simp only [Line.send, send]
  split
  · split
    · exact Nat.le_add_right now _
    · exact Nat.le_refl now
  · exact Nat.le_refl now

theorem weight_send (line : StreamLine Scripted) (now : Nat) (octets : Bytes) :
    (Line.send line now octets).1.weight = line.weight := by
  obtain ⟨taken, -, -, hevents, -⟩ := exists_accepted_send line now octets
  rw [weight, hevents, weight]

theorem spent_receive (line : StreamLine Scripted) (now : Nat) :
    Line.Spent weight line now (Line.receive line now 1) := by
  by_cases hopen : line.isOpen = true
  · have hspent := Scripted.spent_readEvents line.stream.staysOpen (by decide : 0 < max 1 1)
      (line.readTimeout.map (now + ·.ticks)) now line.stream.events
    rw [receive_eq hopen]
    simp only [ByteStream.read, Scripted.read]
    generalize Scripted.readEvents line.stream.staysOpen (max 1 1)
      (line.readTimeout.map (now + ·.ticks)) now line.stream.events = read at hspent ⊢
    cases hspent with
    | ended htime hle => exact .lost htime hle
    | @used left time result htime hless =>
      simp only
      cases heard result with
      | ok octets => exact .used htime hless
      | error loss => exact .lost htime (Nat.le_of_lt hless)
    | kept =>
      cases htimeout : line.readTimeout with
      | none => exact .silent (Nat.le_refl _)
      | some timeout =>
        rcases Nat.eq_zero_or_pos timeout.ticks with hzero | hpos
        · simp only [Option.map_some, hzero, Nat.add_zero]
          rw [← htimeout]
          exact .kept
        · exact .waited (Nat.lt_add_of_pos_right hpos) (Nat.le_refl _)
    | begun hless =>
      cases htimeout : line.readTimeout with
      | none => exact .silent (Nat.le_of_lt hless)
      | some timeout => exact .used (Nat.le_add_right now _) hless
  · rw [receive_of_not_isOpen hopen]
    exact .lost (Nat.le_refl now) (Nat.le_refl _)

theorem weight_close (line : StreamLine Scripted) :
    (Line.close line).1.weight = line.weight := by
  rw [close_eq]
  split <;> rfl

theorem timely : Line.Timely weight where
  send_time := le_time_send
  send_left line now octets := Nat.le_of_eq (weight_send line now octets)
  receive := spent_receive
  close line := Nat.le_of_eq (weight_close line)

end StreamLine

end TerminalHost
