/-!
# Octets

A line carries octets; the program writes texts.  This module fixes the one
way in which a text becomes octets, so that every later statement about the
line can be read as a statement about lists of `UInt8`.
-/

namespace TerminalHost

abbrev Bytes := List UInt8

def utf8 (text : String) : Bytes :=
  text.toList.flatMap String.utf8EncodeChar

def lineEnd : Bytes := [0x0D, 0x0A]

theorem utf8_append (left right : String) :
    utf8 (left ++ right) = utf8 left ++ utf8 right := by
  simp [utf8]

@[simp] theorem utf8_empty : utf8 "" = [] := rfl

end TerminalHost
