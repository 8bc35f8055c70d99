import TerminalHost.Text.Hidden

/-!
# Quoted text

A message that repeats what an operator typed quotes it: between quotation marks,
with escapes for what would end the quotation and for what cannot be shown.
-/

namespace TerminalHost.Text

def codePoint (c : Char) : List Char :=
  ['\\', 'u', '\x7b'] ++ Nat.toDigits 16 c.toNat ++ ['\x7d']

def quoteChar (c : Char) : List Char :=
  if c = '\x00' then ['\\', '0']
  else if c = '\t' then ['\\', 't']
  else if c = '\r' then ['\\', 'r']
  else if c = '\n' then ['\\', 'n']
  else if c = '\\' ∨ c = '"' then ['\\', c]
  else if isHidden c then codePoint c
  else [c]

def quoted (text : String) : String :=
  String.ofList (['"'] ++ text.toList.flatMap quoteChar ++ ['"'])

end TerminalHost.Text
