/-!
# Letters

The game only knows the twenty-six letters of ASCII.  Case is folded upwards:
a word is written in capitals and a typed letter is compared as a capital.
Characters outside ASCII are left as they are.
-/

namespace TerminalHost.Text

def isLetter (c : Char) : Bool := c.isAlpha

/-- The text with its ASCII letters in capitals and everything else unchanged. -/
def capitals (text : String) : String :=
  String.ofList (text.toList.map Char.toUpper)

@[simp] theorem toList_capitals (text : String) :
    (capitals text).toList = text.toList.map Char.toUpper := by
  simp [capitals]

end TerminalHost.Text
