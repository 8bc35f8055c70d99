import Mathlib.Data.List.Nodup
import TerminalHost.Proofs.Settings.Values

/-!
# What is known of a parser

A parser of command lines is a parameter of the host.  What the host relies on is written
down here for declarations of any kind, one documented fact after the other, and that the
options of a run are declared as a parser demands.
-/

namespace TerminalHost

/-! ## Uses of options -/

/-- A use of an option that is complete in one argument. -/
structure Use where
  option : LongOption
  text : String
deriving DecidableEq, Repr

namespace Use

variable {options : List LongOption} {uses : List Use} {use : Use} {option : LongOption}

def argument (use : Use) : String :=
  if use.option.action = .setTrue then "--" ++ use.option.name
  else "--" ++ use.option.name ++ "=" ++ use.text

/-- The option is declared, and if it takes no value, the text is the one it stands for. -/
def Fits (options : List LongOption) (use : Use) : Prop :=
  use.option ∈ options ∧ (use.option.action = .setTrue → use.text = "true")

def text? (option : LongOption) (use : Use) : Option String :=
  if use.option = option then some use.text else none

def texts (uses : List Use) (option : LongOption) : List String :=
  uses.filterMap (text? option)

theorem texts_concat_self (uses : List Use) (use : Use) :
    texts (uses ++ [use]) use.option = texts uses use.option ++ [use.text] := by
  simp [texts, text?]

theorem texts_concat_of_ne (uses : List Use) (h : use.option ≠ option) :
    texts (uses ++ [use]) option = texts uses option := by
  simp [texts, text?, h]

theorem texts_prefix_concat (uses : List Use) (use : Use) (option : LongOption) :
    texts uses option <+: texts (uses ++ [use]) option := by
  unfold texts
  rw [List.filterMap_append]
  exact List.prefix_append _ _

end Use

def filled (texts : List String) (source : Option String) : List String :=
  if texts = [] then source.toList else texts

@[simp] theorem filled_nil (source : Option String) : filled [] source = source.toList := rfl

theorem filled_of_ne {texts : List String} (h : texts ≠ []) (source : Option String) :
    filled texts source = texts :=
  if_neg h

def LongOption.Accepts (option : LongOption) (text : String) : Prop :=
  ∀ piece ∈ option.pieces text, ∃ value, option.kind.Reads piece value

theorem LongOption.accepts_iff {option : LongOption} {text : String} :
    option.Accepts text ↔ ∃ values, option.Reads [text] values := by
  simp only [LongOption.reads_singleton_iff]
  unfold Accepts
  induction option.pieces text with
  | nil => simp
  | cons piece rest ih =>
    rw [List.forall_mem_cons, ih]
    simp only [List.forall₂_cons_left_iff]
    constructor
    · rintro ⟨⟨value, hvalue⟩, values, hvalues⟩
      exact ⟨value :: values, value, values, hvalue, hvalues, rfl⟩
    · rintro ⟨_, value, values, hvalue, hvalues, -⟩
      exact ⟨⟨value, hvalue⟩, values, hvalues⟩

theorem Setting.Says.accepts {setting : Setting} {text : String} {content : Content}
    (h : setting.Says text content) : setting.option.Accepts text :=
  LongOption.accepts_iff.mpr ⟨_, h.reads⟩

/-- What can be wrong with uses: an option that stands for itself alone has several, or a text
is none that the option takes. -/
inductive Use.Misused (options : List LongOption) (uses : List Use) : Prop where
  | repeated {option : LongOption} (hmem : option ∈ options) (hset : option.action ≠ .append)
      (hmany : 1 < (texts uses option).length)
  | unreadable {option : LongOption} {text : String} (hmem : option ∈ options)
      (htext : text ∈ texts uses option) (hnone : ¬ option.Accepts text)

theorem Use.Misused.concat {options : List LongOption} {uses : List Use}
    (h : Misused options uses) (use : Use) : Misused options (uses ++ [use]) := by
  cases h with
  | @repeated option hmem hset hmany =>
    exact .repeated hmem hset (hmany.trans_le (texts_prefix_concat uses use option).length_le)
  | @unreadable option text hmem htext hnone =>
    exact .unreadable hmem ((texts_prefix_concat uses use option).mem htext) hnone

/-! ## Declarations -/

structure LongOption.IsNamed (option : LongOption) : Prop where
  starts : option.name.toList.head?.any Char.isAlpha = true
  goesOn : ∀ c ∈ option.name.toList, c.isAlphanum = true ∨ c = '-'

/-- Declarations that a parser accepts: no name stands for two options, the names of the
options that every parser has are left to it, a usual text is one that the option takes, and
an option without a value is a switch that is usually off. -/
structure Declared (options : List LongOption) : Prop where
  distinct : (options.map LongOption.name).Nodup
  named : ∀ option ∈ options, option.IsNamed
  unreserved : ∀ option ∈ options, option.name ≠ "help" ∧ option.name ≠ "version"
  usual : ∀ option ∈ options, ∀ text, option.usual = some text → option.Accepts text
  switches : ∀ option ∈ options, option.action = .setTrue →
    option.kind = .switch ∧ option.environment = none ∧ option.usual = some "false" ∧
      option.delimiter = none

theorem Declared.eq_of_name {options : List LongOption} (h : Declared options)
    {option other : LongOption} (hoption : option ∈ options) (hother : other ∈ options)
    (hname : option.name = other.name) : option = other :=
  List.inj_on_of_nodup_map h.distinct hoption hother hname

/-! ## Parsers -/

/-- What is documented of a parser, for all declarations it accepts and for command lines in
which every use is complete in one argument. -/
structure Parser.Documented (parser : Parser) : Prop where
  /-- Uses in any order are accepted, unless an option that stands for itself alone is used
  again, or a text is not of the type that is declared: one of a use, or one of a variable
  whose option is not used.  Nobody looks at the variable of an option that is used. -/
  fails {options : List LongOption} {environment : String → Option String} {uses : List Use}
      {error : UsageError} (hdeclared : Declared options)
      (hfits : ∀ use ∈ uses, use.Fits options)
      (herror : parser options environment (uses.map Use.argument) = .error error) :
    Use.Misused options uses ∨
      ∃ option ∈ options, Use.texts uses option = [] ∧
        ∃ text, option.fallback? environment = some text ∧ ¬ option.Accepts text
  /-- An option that is used has the values of its uses, in their order, and several values
  from a text with delimiters. -/
  used {options : List LongOption} {environment : String → Option String} {uses : List Use}
      {found : Found} (hdeclared : Declared options) (hfits : ∀ use ∈ uses, use.Fits options)
      (hfound : parser options environment (uses.map Use.argument) = .ok found)
      {option : LongOption} (hmem : option ∈ options) (hsome : Use.texts uses option ≠ []) :
    option.Reads (Use.texts uses option) (found option.name)
  /-- The variable is read when the option is not used. -/
  fallback {options : List LongOption} {environment : String → Option String} {uses : List Use}
      {found : Found} (hdeclared : Declared options) (hfits : ∀ use ∈ uses, use.Fits options)
      (hfound : parser options environment (uses.map Use.argument) = .ok found)
      {option : LongOption} (hmem : option ∈ options) (hnone : Use.texts uses option = [])
      {text : String} (htext : option.fallback? environment = some text) :
    option.Reads [text] (found option.name)
  /-- The usual text counts when there is neither a use nor a variable; without one there is
  no value. -/
  usual {options : List LongOption} {environment : String → Option String} {uses : List Use}
      {found : Found} (hdeclared : Declared options) (hfits : ∀ use ∈ uses, use.Fits options)
      (hfound : parser options environment (uses.map Use.argument) = .ok found)
      {option : LongOption} (hmem : option ∈ options) (hnone : Use.texts uses option = [])
      (hunset : option.fallback? environment = none) :
    option.Reads option.usual.toList (found option.name)

/-- The texts of an option that decide what it comes to. -/
def LongOption.deciding (option : LongOption) (environment : String → Option String)
    (texts : List String) : List String :=
  filled (filled texts (option.fallback? environment)) option.usual

theorem Parser.Documented.reads {parser : Parser} (h : parser.Documented)
    {options : List LongOption} {environment : String → Option String} {uses : List Use}
    {found : Found} (hdeclared : Declared options) (hfits : ∀ use ∈ uses, use.Fits options)
    (hfound : parser options environment (uses.map Use.argument) = .ok found)
    {option : LongOption} (hmem : option ∈ options) :
    option.Reads (option.deciding environment (Use.texts uses option)) (found option.name) := by
  unfold LongOption.deciding
  by_cases hnone : Use.texts uses option = []
  · rw [hnone, filled_nil]
    cases hvariable : option.fallback? environment with
    | none => exact h.usual hdeclared hfits hfound hmem hnone hvariable
    | some text => exact h.fallback hdeclared hfits hfound hmem hnone hvariable
  · rw [filled_of_ne hnone, filled_of_ne hnone]
    exact h.used hdeclared hfits hfound hmem hnone

/-! ## The declarations of a run -/

namespace Arguments

theorem mem_options_iff {option : LongOption} :
    option ∈ options ↔ option = pausesOption ∨ ∃ setting : Setting, option = setting.option := by
  constructor
  · intro h
    simp only [options, List.mem_cons, List.not_mem_nil, or_false] at h
    rcases h with h | h | h | h | h | h | h | h | h
    all_goals first | exact .inl h | exact .inr ⟨_, h⟩
  · rintro (rfl | ⟨setting, rfl⟩)
    · simp [options]
    · cases setting <;> simp [options]

theorem says_usual {setting : Setting} {text : String} (h : setting.option.usual = some text) :
    setting.Says text (usual.content setting) := by
  cases setting with
  | mode =>
    cases h
    exact .serial
  | port =>
    cases h
    exact .port _
  | host =>
    cases h
    exact .host _
  | logLevel =>
    cases h
    exact .logLevel _
  | words => cases h
  | baudrate =>
    cases h
    have hread : Text.integer? 4294967295 (toString usual.baudrate) = some usual.baudrate := by
      decide +kernel
    obtain ⟨hnumber, hle⟩ := Text.integer?_eq_some_iff.mp hread
    exact .baudrate hnumber hle
  | sendDelay =>
    cases h
    have hread : Text.natural? 18446744073709551615 (toString usual.sendDelay)
        = some usual.sendDelay := by
      decide +kernel
    obtain ⟨hnumber, hle⟩ := Text.natural?_eq_some_iff.mp hread
    exact .sendDelay hnumber hle
  | drain =>
    cases h
    have hread : Text.natural? 18446744073709551615 (toString usual.drain) = some usual.drain := by
      decide +kernel
    obtain ⟨hnumber, hle⟩ := Text.natural?_eq_some_iff.mp hread
    exact .drain hnumber hle

theorem declared_options : Declared options := by
  constructor
  · decide
  · intro option hmem
    have hnamed : options.all (fun option => option.name.toList.head?.any Char.isAlpha &&
        option.name.toList.all fun c => c.isAlphanum || c == '-') = true := by
      decide +kernel
    have h := List.all_eq_true.mp hnamed option hmem
    simp only [Bool.and_eq_true, List.all_eq_true, Bool.or_eq_true, beq_iff_eq] at h
    exact ⟨h.1, h.2⟩
  · decide
  · intro option hmem text htext
    rcases mem_options_iff.mp hmem with rfl | ⟨setting, rfl⟩
    · cases htext
      rw [LongOption.accepts_iff]
      refine ⟨[.switch false], LongOption.reads_singleton_iff.mpr ?_⟩
      exact .cons (.switch rfl) .nil
    · exact (says_usual htext).accepts
  · decide

end Arguments

end TerminalHost
