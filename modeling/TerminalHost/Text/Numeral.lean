/-!
# Numerals

Numbers on the command line are decimal digits of ASCII behind an optional sign.
There is no limit to the number of digits; the value decides whether a number fits.
-/

namespace TerminalHost.Text

def digits? (chars : List Char) : Option Nat :=
  if chars.isEmpty || !chars.all Char.isDigit then none
  else some (chars.foldl (fun value c => value * 10 + (c.toNat - 0x30)) 0)

/-- A natural number with an optional plus sign that is at most `most`. -/
def natural? (most : Nat) (text : String) : Option Nat :=
  let value := match text.toList with
    | '+' :: digits => digits? digits
    | digits => digits? digits
  value.filter (· ≤ most)

/-- A natural number that is at most `most`, written like an integer: zero may also
have a minus sign. -/
def integer? (most : Nat) (text : String) : Option Nat :=
  match text.toList with
  | '-' :: digits => (digits? digits).filter (· = 0)
  | _ => natural? most text

end TerminalHost.Text
