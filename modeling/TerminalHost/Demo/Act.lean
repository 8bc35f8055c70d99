/-!
# The acts of the demonstration

The demonstration shows what the terminal can do in five acts, always in the same
order.  A playbill keeps the acts that have been given and those still to come.
-/

namespace TerminalHost

inductive Act where
  | controlCharacters
  | cursorPositioning
  | eraseFunctions
  | scrollBehavior
  | boxDrawing
deriving DecidableEq, Repr

namespace Act

def all : List Act :=
  [controlCharacters, cursorPositioning, eraseFunctions, scrollBehavior, boxDrawing]

def name : Act → String
  | controlCharacters => "control_characters"
  | cursorPositioning => "cursor_positioning"
  | eraseFunctions => "erase_functions"
  | scrollBehavior => "scroll_behavior"
  | boxDrawing => "box_drawing"

def title : Act → String
  | controlCharacters => "Control Characters Test:"
  | cursorPositioning => "Cursor Positioning Test:"
  | eraseFunctions => "Erase Functions Test:"
  | scrollBehavior => "Scroll Behavior Test:"
  | boxDrawing => "Box Drawing Demo:"

def label : Act → String
  | controlCharacters => "Control Characters"
  | cursorPositioning => "Cursor Positioning"
  | eraseFunctions => "Erase Functions"
  | scrollBehavior => "Hardware Scroll Operations"
  | boxDrawing => "Box Drawing"

end Act

/-- The acts given so far and the acts to come, both in the order of the programme. -/
structure Playbill where
  given : List Act
  ahead : List Act
deriving DecidableEq, Repr

namespace Playbill

def start : Playbill := ⟨[], Act.all⟩

def next? (bill : Playbill) : Option Act := bill.ahead.head?

/-- The playbill after the next act; nothing changes when no act is left. -/
def advance (bill : Playbill) : Playbill :=
  match bill.ahead with
  | [] => bill
  | act :: ahead => ⟨bill.given ++ [act], ahead⟩

def finish (bill : Playbill) : Playbill := ⟨bill.given ++ bill.ahead, []⟩

def isFinished (bill : Playbill) : Bool := bill.ahead.isEmpty

theorem advance_acts (bill : Playbill) :
    bill.advance.given ++ bill.advance.ahead = bill.given ++ bill.ahead := by
  unfold advance
  split <;> simp_all

end Playbill

end TerminalHost
