/-!
# Lengths of time

A duration is a whole number of nanoseconds.  The program's own waits are whole
milliseconds; the clock of a running session counts milliseconds too, so a wait
ends at the first millisecond that is not earlier than its length.
-/

namespace TerminalHost

structure Duration where
  nanos : Nat
deriving DecidableEq, Repr

namespace Duration

def zero : Duration := ⟨0⟩

def ofMillis (millis : Nat) : Duration := ⟨millis * 1000000⟩

def ofSeconds (seconds : Nat) (nanos : Nat) : Duration := ⟨seconds * 1000000000 + nanos⟩

def seconds (d : Duration) : Nat := d.nanos / 1000000000

def subsecond (d : Duration) : Nat := d.nanos % 1000000000

/-- The longest duration that fits in 64 bits of seconds. -/
def longest : Duration := ofSeconds (UInt64.size - 1) 999999999

def sum (ds : List Duration) : Duration := ⟨ds.foldr (fun d total => d.nanos + total) 0⟩

/-- How many ticks of a millisecond clock a wait of this length takes. -/
def ticks (d : Duration) : Nat := (d.nanos + 999999) / 1000000

@[simp] theorem ticks_zero : zero.ticks = 0 := rfl

@[simp] theorem ticks_ofMillis (millis : Nat) : (ofMillis millis).ticks = millis := by
  simp only [ticks, ofMillis]
  omega

/-- The decimal digits of `value` in `width` places, without trailing zeros. -/
def fraction : Nat → Nat → List Char
  | 0, _ => []
  | width + 1, value =>
    if value = 0 then []
    else
      Nat.digitChar (value / 10 ^ width) :: fraction width (value % 10 ^ width)

def decimal (whole : Nat) (width value : Nat) (unit : String) : String :=
  let digits := fraction width value
  toString whole ++ (if digits.isEmpty then "" else "." ++ String.ofList digits) ++ unit

/-- The duration in the largest unit that is not more than it, as operators read it. -/
def compact (d : Duration) : String :=
  if 1000000000 ≤ d.nanos then decimal d.seconds 9 d.subsecond "s"
  else if 1000000 ≤ d.nanos then decimal (d.nanos / 1000000) 6 (d.nanos % 1000000) "ms"
  else if 1000 ≤ d.nanos then decimal (d.nanos / 1000) 3 (d.nanos % 1000) "µs"
  else toString d.nanos ++ "ns"

end Duration

end TerminalHost
