import TerminalHost.CommandLine
import TerminalHost.Text.Numeral

/-!
# A reader of command lines

The parser that the program runs with.  A value stands in the same argument as its option,
after an equals sign, or in the next argument.  A value in the next argument is only looked
at when the following option begins, or at the end: until then an unknown argument is the
more important error.  The environment is asked when the command line has been read, in the
order of the declarations, and what has no value then has its usual one.
-/

namespace TerminalHost

inductive Argument where
  /-- Two dashes alone. -/
  | terminator
  /-- Two dashes and a name, perhaps with an equals sign and a value. -/
  | long (name : String) (value : Option String)
  /-- One dash and more; only the first character after the dash matters. -/
  | short (first : Char)
  /-- Anything else, also a dash alone. -/
  | plain (text : String)
deriving DecidableEq, Repr

def Argument.ofText (text : String) : Argument :=
  match text.toList with
  | ['-', '-'] => .terminator
  | '-' :: '-' :: rest =>
    let name := String.ofList (rest.takeWhile (· ≠ '='))
    match rest.dropWhile (· ≠ '=') with
    | [] => .long name none
    | _ :: value => .long name (some (String.ofList value))
  | '-' :: first :: _ => .short first
  | _ => .plain text

def orError {α : Type} (error : UsageError) : Option α → Except UsageError α
  | some value => .ok value
  | none => .error error

def ValueKind.read (kind : ValueKind) (text : String) : Except UsageError Value :=
  match kind with
  | .text => .ok (.text text)
  | .oneOf names => if text ∈ names then .ok (.text text) else .error .invalidValue
  | .number32 => do
    pure (.number (← orError .valueValidation (Text.integer? (UInt32.size - 1) text)))
  | .number64 => do
    pure (.number (← orError .valueValidation (Text.natural? (UInt64.size - 1) text)))
  | .switch =>
    if text = "true" then .ok (.switch true)
    else if text = "false" then .ok (.switch false)
    else .error .invalidValue

/-- An option whose value stands in another argument, with the value if it has been
met. -/
structure Awaited where
  option : LongOption
  value : Option String
deriving DecidableEq, Repr

namespace Found

def nothing : Found := fun _ => []

def add (found : Found) (name : String) (values : List Value) : Found := fun asked =>
  if asked = name then found name ++ values else found asked

def put (found : Found) (option : LongOption) (text : String) : Except UsageError Found := do
  let values ← (option.pieces text).mapM option.kind.read
  pure (found.add option.name values)

/-- The values with those of one use more, where not every option can be used again. -/
def assign (found : Found) (option : LongOption) (text : String) : Except UsageError Found :=
  if option.action ≠ .append ∧ found option.name ≠ [] then .error .argumentConflict
  else found.put option text

def settle (found : Found) : Option Awaited → Except UsageError Found
  | none => .ok found
  | some ⟨option, some text⟩ => found.assign option text
  | some ⟨_, none⟩ => .error .invalidValue

/-- A request to be shown something ends the reading, unless it is given a value or there is
something wrong with the value awaited. -/
def leave (found : Found) (awaited : Option Awaited) (value : Option String)
    (shown : UsageError) : Except UsageError Found :=
  match value with
  | some _ => .error .tooManyValues
  | none => do
    let _ ← found.settle awaited
    .error shown

/-- The values that some arguments give, behind other values and perhaps an option that
awaits its value. -/
def read (options : List LongOption) (found : Found) (awaited : Option Awaited) :
    List String → Except UsageError Found
  | [] => found.settle awaited
  | argument :: rest =>
    match Argument.ofText argument with
    | .terminator => if rest.isEmpty then found.settle awaited else .error .unknownArgument
    | .plain text =>
      match awaited with
      | some ⟨option, none⟩ => read options found (some ⟨option, some text⟩) rest
      | _ => .error .unknownArgument
    | .short first =>
      if first = 'h' then found.leave awaited none .displayHelp
      else if first = 'V' then found.leave awaited none .displayVersion
      else .error .unknownArgument
    | .long name value =>
      match options.find? (fun option => option.name == name) with
      | none =>
        if name = "help" then found.leave awaited value .displayHelp
        else if name = "version" then found.leave awaited value .displayVersion
        else .error .unknownArgument
      | some option =>
        if option.action = .setTrue then
          match value with
          | some _ => .error .tooManyValues
          | none => do
            let found ← found.settle awaited
            read options (← found.assign option "true") none rest
        else do
          let found ← found.settle awaited
          match value with
          | some text => read options (← found.assign option text) none rest
          | none => read options found (some ⟨option, none⟩) rest

def supply (source : LongOption → Option String) (found : Found) (option : LongOption) :
    Except UsageError Found :=
  if found option.name = [] then
    match source option with
    | some text => found.put option text
    | none => .ok found
  else .ok found

end Found

/-- The values of a command line, of the environment and the usual values, in this order. -/
def readArguments : Parser := fun options environment arguments => do
  let found ← Found.nothing.read options none arguments
  let found ← options.foldlM (Found.supply (LongOption.fallback? environment)) found
  options.foldlM (Found.supply LongOption.usual) found

end TerminalHost
