import TerminalHost.Line.Scripted

/-!
# What a stream brings

Without its waits, and without the cuts between its chunks, a scripted stream brings octets,
faults and ends in a fixed order, each of them at the earliest at a time of its own.  A read
that can wait long enough ends when the first of them is there and takes no more than it met.
A read that has to be given up takes nothing, and what it waited for is not put off by it.
-/

namespace TerminalHost

inductive Arrival where
  | octet (octet : UInt8)
  | fault (fault : Fault)
  | finish
deriving DecidableEq

/-- What an event brings: a chunk its octets, a wait nothing. -/
def ReadEvent.arrivals : ReadEvent → List Arrival
  | .bytes octets => octets.map .octet
  | .delay _ => []
  | .untilTime _ => []
  | .fault cause => [.fault cause]
  | .finish => [.finish]

namespace Scripted

def arrivals (events : List ReadEvent) : List Arrival := events.flatMap ReadEvent.arrivals

@[simp] theorem arrivals_cons (event : ReadEvent) (rest : List ReadEvent) :
    arrivals (event :: rest) = event.arrivals ++ arrivals rest := List.flatMap_cons

/-- The first thing that a reader meets who begins to wait now, and when; after the last
event it is the end of the stream, if the stream does not stay open. -/
def next? (staysOpen : Bool) : Nat → List ReadEvent → Option (Nat × Arrival)
  | now, [] => if staysOpen then none else some (now, .finish)
  | now, .bytes [] :: rest => next? staysOpen now rest
  | now, .bytes (octet :: _) :: _ => some (now, .octet octet)
  | now, .delay millis :: rest => next? staysOpen (now + millis) rest
  | now, .untilTime time :: rest => next? staysOpen (max now time) rest
  | now, .fault cause :: _ => some (now, .fault cause)
  | now, .finish :: _ => some (now, .finish)

/-- How a read ends, by what it met, and what it takes away of the arrivals. -/
inductive Reads (staysOpen : Bool) (room : Nat) (deadline : Option Nat) (now : Nat)
    (events : List ReadEvent) : List ReadEvent × Option (Nat × Except Fault Bytes) → Prop where
  | octets {left : List ReadEvent} {time : Nat} {first : UInt8} {rest : Bytes}
      (hnext : next? staysOpen now events = some (time, .octet first))
      (hallows : allows deadline time = true) (hroom : (first :: rest).length ≤ room)
      (hsplit : arrivals events = (first :: rest).map .octet ++ arrivals left) :
      Reads staysOpen room deadline now events (left, some (time, .ok (first :: rest)))
  | fault {left : List ReadEvent} {time : Nat} {cause : Fault}
      (hnext : next? staysOpen now events = some (time, .fault cause))
      (hallows : allows deadline time = true)
      (hsplit : arrivals events = .fault cause :: arrivals left) :
      Reads staysOpen room deadline now events (left, some (time, .error cause))
  | finish {left : List ReadEvent} {time : Nat}
      (hnext : next? staysOpen now events = some (time, .finish))
      (hallows : allows deadline time = true)
      (hsplit : arrivals events = .finish :: arrivals left ∨
        arrivals events = [] ∧ arrivals left = []) :
      Reads staysOpen room deadline now events (left, some (time, .ok []))
  /-- The read is given up: nothing is there by the deadline. -/
  | late {left : List ReadEvent}
      (hlate : ∀ met, next? staysOpen now events = some met → allows deadline met.1 = false)
      (hkept : arrivals left = arrivals events)
      (hwait : ∀ later, allows deadline later = true →
        next? staysOpen later left = next? staysOpen now events) :
      Reads staysOpen room deadline now events (left, none)

variable {staysOpen : Bool} {room : Nat} {deadline : Option Nat} {now : Nat}

/-- Events that bring nothing and let a reader wait until a time change nothing else. -/
theorem Reads.later {later : Nat} {events rest : List ReadEvent}
    {read : List ReadEvent × Option (Nat × Except Fault Bytes)}
    (h : Reads staysOpen room deadline later rest read)
    (hnext : next? staysOpen now events = next? staysOpen later rest)
    (harrivals : arrivals events = arrivals rest) :
    Reads staysOpen room deadline now events read := by
  cases h with
  | octets hmet hallows hroom hsplit =>
    exact .octets (hnext.trans hmet) hallows hroom (harrivals.trans hsplit)
  | fault hmet hallows hsplit => exact .fault (hnext.trans hmet) hallows (harrivals.trans hsplit)
  | finish hmet hallows hsplit =>
    rw [← harrivals] at hsplit
    exact .finish (hnext.trans hmet) hallows hsplit
  | late hlate hkept hwait =>
    rw [← hnext] at hlate hwait
    exact .late hlate (hkept.trans harrivals.symm) hwait

theorem le_of_next? {events : List ReadEvent} {met : Nat × Arrival}
    (h : next? staysOpen now events = some met) : now ≤ met.1 := by
  have hfirst {time : Nat} {arrival : Arrival} (hmet : some (time, arrival) = some met) :
      time ≤ met.1 := by
    obtain rfl := Option.some.inj hmet
    exact Nat.le_refl time
  induction events generalizing now with
  | nil =>
    rw [next?, Option.ite_none_left_eq_some] at h
    exact hfirst h.2
  | cons event rest ih =>
    cases event with
    | bytes octets =>
      cases octets with
      | nil => exact ih h
      | cons octet octets => exact hfirst h
    | delay millis =>
      have hle := ih h
      omega
    | untilTime time =>
      have hle := ih h
      omega
    | fault cause => exact hfirst h
    | finish => exact hfirst h

theorem lt_of_allows {early late : Nat} (hearly : allows deadline early = true)
    (hlate : allows deadline late = false) : early < late := by
  unfold allows at hearly hlate
  cases deadline with
  | none => cases hlate
  | some limit =>
    simp only [decide_eq_true_eq, decide_eq_false_iff_not] at hearly hlate
    omega

/-- A wait that ends at a time: the reader goes on there, or the read is given up in it. -/
theorem reads_wait {time : Nat} {event : ReadEvent} {rest : List ReadEvent}
    (hnext : next? staysOpen now (event :: rest) = next? staysOpen time rest)
    (hnothing : event.arrivals = [])
    (ih : allows deadline time = true →
      Reads staysOpen room deadline time rest (readEvents staysOpen room deadline time rest)) :
    Reads staysOpen room deadline now (event :: rest)
      (if allows deadline time then readEvents staysOpen room deadline time rest
        else (.untilTime time :: rest, none)) := by
  have harrivals : arrivals (event :: rest) = arrivals rest := by
    rw [arrivals_cons, hnothing, List.nil_append]
  split
  · rename_i hallows
    exact (ih hallows).later hnext harrivals
  · rename_i hforbids
    rw [Bool.not_eq_true] at hforbids
    have hkept : arrivals (.untilTime time :: rest) = arrivals rest := arrivals_cons _ rest
    -- The wait that is left ends when it would have ended, so whoever begins to wait before
    -- that meets the same.
    refine .late ?_ (hkept.trans harrivals.symm) ?_
    · intro met hmet
      rw [hnext] at hmet
      have hle := le_of_next? hmet
      rw [← Bool.not_eq_true]
      intro hallows
      have hlt := lt_of_allows hallows hforbids
      omega
    · intro later hlater
      have hlt := lt_of_allows hlater hforbids
      rw [hnext, next?, Nat.max_eq_right (Nat.le_of_lt hlt)]

/-- **How a read ends.**  It ends with the first thing it meets, when it meets it, or it is
given up. -/
theorem reads_readEvents (hroom : 0 < room) (hnow : allows deadline now = true)
    (events : List ReadEvent) :
    Reads staysOpen room deadline now events
      (readEvents staysOpen room deadline now events) := by
  induction events generalizing now with
  | nil =>
    unfold readEvents
    cases staysOpen with
    | true =>
      refine .late ?_ rfl ?_
      · intro met hmet
        cases hmet
      · intro later _
        rfl
    | false => exact .finish rfl hnow (.inr ⟨rfl, rfl⟩)
  | cons event rest ih =>
    cases event with
    | bytes octets =>
      cases octets with
      | nil => exact (ih hnow).later rfl rfl
      | cons octet octets =>
        obtain ⟨more, rfl⟩ := Nat.exists_eq_succ_of_ne_zero (Nat.ne_of_gt hroom)
        unfold readEvents
        rw [List.take_succ_cons, List.drop_succ_cons]
        refine .octets rfl hnow ?_ ?_
        · rw [List.length_cons]
          exact Nat.succ_le_succ (List.length_take_le more octets)
        · have hleft : arrivals (if (octets.drop more).isEmpty then rest
              else .bytes (octets.drop more) :: rest)
                = (octets.drop more).map .octet ++ arrivals rest := by
            split
            · rename_i hempty
              rw [List.isEmpty_iff.mp hempty]
              rfl
            · exact arrivals_cons _ rest
          rw [hleft, arrivals_cons, ReadEvent.arrivals, ← List.append_assoc, ← List.map_append,
            List.cons_append, List.take_append_drop]
    | delay millis => exact reads_wait rfl rfl ih
    | untilTime time =>
      unfold readEvents
      split
      · rename_i hpast
        refine (ih hnow).later ?_ rfl
        rw [next?, Nat.max_eq_left hpast]
      · rename_i hfuture
        refine reads_wait ?_ rfl ih
        rw [next?, Nat.max_eq_right (by omega)]
    | fault cause => exact .fault rfl hnow (arrivals_cons _ rest)
    | finish => exact .finish rfl hnow (.inl (arrivals_cons _ rest))

end Scripted

end TerminalHost
