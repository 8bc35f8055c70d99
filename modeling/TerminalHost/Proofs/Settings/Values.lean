import Mathlib.Data.List.Forall2
import TerminalHost.CommandLine
import TerminalHost.Proofs.Text.Numeral

/-!
# What texts say about settings

A mode has two names, a number is a numeral that fits, words stand between commas, and any
other setting takes a text as it is.  The types that the options declare come to the same.
-/

namespace TerminalHost

/-! ## Words between commas -/

/-- The text is these pieces with commas between them, and no piece holds a comma. -/
structure Text.IsJoined (text : String) (pieces : List String) : Prop where
  pieces_ne : pieces ≠ []
  joined : ",".intercalate pieces = text
  plain : ∀ piece ∈ pieces, ',' ∉ piece.toList

theorem not_mem_of_mem_splitOn {c : Char} {chars piece : List Char}
    (h : piece ∈ chars.splitOn c) : c ∉ piece := by
  induction chars generalizing piece with
  | nil =>
    rw [List.splitOn_nil, List.mem_singleton] at h
    rw [h]
    exact List.not_mem_nil
  | cons first rest ih =>
    rw [List.splitOn_cons_eq_if_modifyHead] at h
    by_cases hcomma : (first == c) = true
    · rw [if_pos hcomma] at h
      rcases List.mem_cons.mp h with rfl | hpiece
      · exact List.not_mem_nil
      · exact ih hpiece
    · obtain ⟨head, tail, hsplit⟩ :=
        List.exists_cons_of_ne_nil (List.splitOn_ne_nil c rest)
      rw [if_neg hcomma, hsplit, List.modifyHead_cons] at h
      rcases List.mem_cons.mp h with rfl | hpiece
      · rw [List.mem_cons, not_or]
        refine ⟨?_, ih (hsplit ▸ List.mem_cons_self)⟩
        rintro rfl
        exact hcomma (beq_self_eq_true c)
      · exact ih (hsplit ▸ List.mem_cons_of_mem _ hpiece)

theorem pieces_words (text : String) :
    Setting.words.option.pieces text = (text.toList.splitOn ',').map String.ofList := rfl

theorem pieces_eq_iff {text : String} {pieces : List String} :
    Setting.words.option.pieces text = pieces ↔ Text.IsJoined text pieces := by
  have hcomma : ",".toList = [','] := rfl
  rw [pieces_words]
  constructor
  · rintro rfl
    refine ⟨?_, ?_, ?_⟩
    · rw [ne_eq, List.map_eq_nil_iff]
      exact List.splitOn_ne_nil _ _
    · apply String.toList_injective
      have hpieces : ((text.toList.splitOn ',').map String.ofList).map String.toList
          = text.toList.splitOn ',' := by
        simp
      rw [String.toList_intercalate, hcomma, hpieces, List.intercalate_splitOn]
    · intro piece hpiece
      obtain ⟨chars, hchars, rfl⟩ := List.mem_map.mp hpiece
      rw [String.toList_ofList]
      exact not_mem_of_mem_splitOn hchars
  · rintro ⟨hne, rfl, hplain⟩
    have hsplit : (",".intercalate pieces).toList.splitOn ',' = pieces.map String.toList := by
      rw [String.toList_intercalate, hcomma]
      apply List.splitOn_intercalate
      · intro chars hchars
        obtain ⟨piece, hpiece, rfl⟩ := List.mem_map.mp hchars
        exact hplain piece hpiece
      · rwa [ne_eq, List.map_eq_nil_iff]
    rw [hsplit]
    simp

theorem Text.IsJoined.unique {text : String} {pieces others : List String}
    (h : Text.IsJoined text pieces) (hothers : Text.IsJoined text others) : pieces = others := by
  rw [← pieces_eq_iff.mpr h, pieces_eq_iff.mpr hothers]

/-! ## Values of a type -/

inductive ValueKind.Reads : ValueKind → String → Value → Prop where
  | text (text : String) : Reads .text text (.text text)
  | oneOf {names : List String} {text : String} (h : text ∈ names) :
      Reads (.oneOf names) text (.text text)
  | number32 {text : String} {number : Nat} (h : Text.IsInteger text number)
      (hle : number ≤ 4294967295) : Reads .number32 text (.number number)
  | number64 {text : String} {number : Nat} (h : Text.IsNumeral text number)
      (hle : number ≤ 18446744073709551615) : Reads .number64 text (.number number)
  | switch {text : String} {value : Bool} (h : text = toString value) :
      Reads .switch text (.switch value)

theorem ValueKind.Reads.unique {kind : ValueKind} {text : String} {value other : Value}
    (h : kind.Reads text value) (h' : kind.Reads text other) : value = other := by
  cases h with
  | text | oneOf h =>
    cases h'
    rfl
  | number32 h =>
    cases h' with
    | number32 h' => rw [h.unique h']
  | number64 h =>
    cases h' with
    | number64 h' => rw [h.unique h']
  | @switch _ value h =>
    cases h' with
    | @switch _ other h' =>
      have hsame : toString value = toString other := h.symm.trans h'
      cases value <;> cases other <;> first | rfl | exact absurd hsame (by decide)

namespace LongOption

variable {option : LongOption} {texts : List String} {values : List Value}

/-- The pieces of some texts stand for these values, one for each piece. -/
def Reads (option : LongOption) (texts : List String) (values : List Value) : Prop :=
  List.Forall₂ option.kind.Reads (texts.flatMap option.pieces) values

theorem Reads.unique {others : List Value} (h : option.Reads texts values)
    (hothers : option.Reads texts others) : values = others := by
  have hunique : Relator.RightUnique option.kind.Reads := fun _ _ _ => ValueKind.Reads.unique
  exact List.right_unique_forall₂' hunique h hothers

theorem Reads.append {more : List String} {others : List Value} (h : option.Reads texts values)
    (hmore : option.Reads more others) : option.Reads (texts ++ more) (values ++ others) := by
  rw [Reads, List.flatMap_append]
  exact List.rel_append h hmore

theorem reads_nil_iff : option.Reads [] values ↔ values = [] :=
  List.forall₂_nil_left_iff

theorem reads_singleton_iff {text : String} :
    option.Reads [text] values ↔ List.Forall₂ option.kind.Reads (option.pieces text) values := by
  rw [Reads, List.flatMap_singleton]

theorem pieces_ne_nil (option : LongOption) (text : String) : option.pieces text ≠ [] := by
  unfold pieces
  cases option.delimiter with
  | none => exact List.cons_ne_nil _ _
  | some delimiter =>
    rw [ne_eq, List.map_eq_nil_iff]
    exact List.splitOn_ne_nil _ _

theorem Reads.eq_nil_iff (h : option.Reads texts values) : values = [] ↔ texts = [] := by
  rw [← List.length_eq_zero_iff, ← List.Forall₂.length_eq h, List.length_eq_zero_iff,
    List.flatMap_eq_nil_iff]
  constructor
  · intro hnone
    rw [List.eq_nil_iff_forall_not_mem]
    exact fun text htext => option.pieces_ne_nil text (hnone text htext)
  · rintro rfl text htext
    cases htext

end LongOption

/-! ## What settings come to -/

inductive Content where
  | mode (mode : Mode)
  | text (text : String)
  | number (number : Nat)
  | words (words : List String)
deriving DecidableEq, Repr

/-- A text says what a setting is set to. -/
inductive Setting.Says : Setting → String → Content → Prop where
  | serial : Says .mode "serial" (.mode .serial)
  | telnet : Says .mode "telnet" (.mode .telnet)
  | port (text : String) : Says .port text (.text text)
  | baudrate {text : String} {number : Nat} (h : Text.IsInteger text number)
      (hle : number ≤ 4294967295) : Says .baudrate text (.number number)
  | host (text : String) : Says .host text (.text text)
  | sendDelay {text : String} {number : Nat} (h : Text.IsNumeral text number)
      (hle : number ≤ 18446744073709551615) : Says .sendDelay text (.number number)
  | drain {text : String} {number : Nat} (h : Text.IsNumeral text number)
      (hle : number ≤ 18446744073709551615) : Says .drain text (.number number)
  | words {text : String} {pieces : List String} (h : Text.IsJoined text pieces) :
      Says .words text (.words pieces)
  | logLevel (text : String) : Says .logLevel text (.text text)

theorem Setting.Says.unique {setting : Setting} {text : String} {content other : Content}
    (h : setting.Says text content) (h' : setting.Says text other) : content = other := by
  cases h with
  | serial =>
    generalize htext : "serial" = text at h'
    cases h' with
    | serial => rfl
    | telnet => exact absurd htext (by decide)
  | telnet =>
    generalize htext : "telnet" = text at h'
    cases h' with
    | serial => exact absurd htext (by decide)
    | telnet => rfl
  | port | host | logLevel =>
    cases h'
    rfl
  | baudrate h =>
    cases h' with
    | baudrate h' => rw [h.unique h']
  | sendDelay h =>
    cases h' with
    | sendDelay h' => rw [h.unique h']
  | drain h =>
    cases h' with
    | drain h' => rw [h.unique h']
  | words h =>
    cases h' with
    | words h' => rw [h.unique h']

/-- The values that an option has for this. -/
def Content.values : Content → List Value
  | .mode given => [.text given.name]
  | .text given => [.text given]
  | .number given => [.number given]
  | .words given => given.map .text

def Arguments.content (arguments : Arguments) : Setting → Content
  | .mode => .mode arguments.mode
  | .port => .text arguments.port
  | .baudrate => .number arguments.baudrate
  | .host => .text arguments.host
  | .sendDelay => .number arguments.sendDelay
  | .drain => .number arguments.drain
  | .words => .words arguments.words
  | .logLevel => .text arguments.logLevel

theorem forall₂_reads_text_iff {pieces : List String} {values : List Value} :
    List.Forall₂ (ValueKind.Reads .text) pieces values ↔ values = pieces.map .text := by
  have hreads : ValueKind.Reads .text = fun piece value => .text piece = value := by
    funext piece value
    rw [eq_iff_iff]
    constructor
    · rintro ⟨⟩
      rfl
    · rintro rfl
      exact .text piece
  rw [hreads, ← List.forall₂_map_left_iff, List.forall₂_eq_eq_eq, eq_comm]

namespace Setting

variable {setting : Setting} {text : String} {content : Content}

/-- Only words have several pieces. -/
theorem pieces_option (hsetting : setting ≠ .words) (text : String) :
    setting.option.pieces text = [text] := by
  cases setting <;> first | rfl | exact absurd rfl hsetting

theorem reads_singleton_iff (hsetting : setting ≠ .words) {values : List Value} :
    setting.option.Reads [text] values ↔
      ∃ value, setting.option.kind.Reads text value ∧ values = [value] := by
  rw [LongOption.reads_singleton_iff, pieces_option hsetting, List.forall₂_cons_left_iff]
  simp only [List.forall₂_nil_left_iff]
  constructor
  · rintro ⟨value, _, hvalue, rfl, rfl⟩
    exact ⟨value, hvalue, rfl⟩
  · rintro ⟨value, hvalue, rfl⟩
    exact ⟨value, [], hvalue, rfl, rfl⟩

theorem Says.reads (h : setting.Says text content) :
    setting.option.Reads [text] content.values := by
  cases h with
  | serial | telnet =>
    rw [Setting.reads_singleton_iff (by decide)]
    exact ⟨_, .oneOf (by decide), rfl⟩
  | port | host | logLevel =>
    rw [Setting.reads_singleton_iff (by decide)]
    exact ⟨_, .text _, rfl⟩
  | baudrate h hle =>
    rw [Setting.reads_singleton_iff (by decide)]
    exact ⟨_, .number32 h hle, rfl⟩
  | sendDelay h hle | drain h hle =>
    rw [Setting.reads_singleton_iff (by decide)]
    exact ⟨_, .number64 h hle, rfl⟩
  | words h =>
    rw [LongOption.reads_singleton_iff, pieces_eq_iff.mpr h]
    exact forall₂_reads_text_iff.mpr rfl

/-- What the values for a text come to is what the text means. -/
theorem says_of_reads {arguments : Arguments}
    (h : setting.option.Reads [text] (arguments.content setting).values) :
    setting.Says text (arguments.content setting) := by
  by_cases hwords : setting = .words
  · obtain rfl := hwords
    rw [LongOption.reads_singleton_iff] at h
    have hmap : arguments.words.map Value.text = (words.option.pieces text).map Value.text :=
      forall₂_reads_text_iff.mp h
    have hinjective : Function.Injective Value.text := fun _ _ => Value.text.inj
    exact .words (pieces_eq_iff.mp (List.map_injective_iff.mpr hinjective hmap).symm)
  · obtain ⟨value, hvalue, hvalues⟩ := (reads_singleton_iff hwords).mp h
    cases setting with
    | words => exact absurd rfl hwords
    | mode =>
      cases hvalue with
      | oneOf =>
        have hname : arguments.mode.name = text := Value.text.inj (List.cons.inj hvalues).1
        rw [← hname]
        unfold Arguments.content
        cases arguments.mode with
        | serial => exact .serial
        | telnet => exact .telnet
    | port | host | logLevel =>
      cases hvalue
      cases hvalues
      first | exact .port _ | exact .host _ | exact .logLevel _
    | baudrate =>
      cases hvalue with
      | number32 hnumber hle =>
        cases hvalues
        exact .baudrate hnumber hle
    | sendDelay =>
      cases hvalue with
      | number64 hnumber hle =>
        cases hvalues
        exact .sendDelay hnumber hle
    | drain =>
      cases hvalue with
      | number64 hnumber hle =>
        cases hvalues
        exact .drain hnumber hle

/-! A text has values of the kind that the option declares. -/

variable {values : List Value}

theorem exists_mode (h : mode.option.Reads [text] values) :
    ∃ mode : Mode, values = (Content.mode mode).values := by
  obtain ⟨value, hvalue, rfl⟩ := (reads_singleton_iff (by decide)).mp h
  cases hvalue with
  | oneOf hname =>
    obtain ⟨mode, -, rfl⟩ := List.mem_map.mp hname
    exact ⟨mode, rfl⟩

theorem values_text (hwords : setting ≠ .words) (hkind : setting.option.kind = .text)
    (h : setting.option.Reads [text] values) : values = (Content.text text).values := by
  obtain ⟨value, hvalue, rfl⟩ := (reads_singleton_iff hwords).mp h
  rw [hkind] at hvalue
  cases hvalue
  rfl

theorem exists_number (hwords : setting ≠ .words)
    (hkind : setting.option.kind = .number32 ∨ setting.option.kind = .number64)
    (h : setting.option.Reads [text] values) :
    ∃ number, values = (Content.number number).values := by
  obtain ⟨value, hvalue, rfl⟩ := (reads_singleton_iff hwords).mp h
  rcases hkind with hkind | hkind
  all_goals
    rw [hkind] at hvalue
    cases hvalue
    exact ⟨_, rfl⟩

end Setting

/-! ## Arguments with what was found -/

namespace Arguments

variable {found : Found}

theorem one_eq_ok {α : Type} {option : LongOption} {value : Value} {result : α}
    (hfound : found option.name = [value]) (view : Value → Option α)
    (hview : view value = some result) : found.one option view = .ok result := by
  have hmany : found.many option view = [result] := by
    rw [Found.many, hfound, List.filterMap_cons_some hview, List.filterMap_nil]
  rw [Found.one, hmany]

theorem ofFound_eq_ok {arguments : Arguments}
    (h : ∀ setting : Setting, found setting.option.name = (arguments.content setting).values)
    (hpauses : found pausesOption.name = [.switch arguments.noPauses]) :
    ofFound found = .ok arguments := by
  have hmode : Value.mode? (.text arguments.mode.name) = some arguments.mode := by
    cases arguments.mode <;> rfl
  have hwords : found.many Setting.words.option Value.text? = arguments.words := by
    rw [Found.many, h .words, content, Content.values, List.filterMap_map]
    exact List.filterMap_some
  rw [ofFound, hwords, one_eq_ok (h .mode) Value.mode? hmode, one_eq_ok (h .port) Value.text? rfl,
    one_eq_ok (h .baudrate) Value.number? rfl, one_eq_ok (h .host) Value.text? rfl,
    one_eq_ok (h .sendDelay) Value.number? rfl, one_eq_ok hpauses Value.switch? rfl,
    one_eq_ok (h .drain) Value.number? rfl, one_eq_ok (h .logLevel) Value.text? rfl]
  rfl

/-- Values that are those of one text for each setting but the words, and of a switch, are
the values of some arguments. -/
theorem exists_ofFound {texts : Setting → List String} {noPauses : Bool}
    (hreads : ∀ setting : Setting,
      setting.option.Reads (texts setting) (found setting.option.name))
    (hone : ∀ setting, setting ≠ .words → ∃ text, texts setting = [text])
    (hpauses : found pausesOption.name = [.switch noPauses]) :
    ∃ arguments, ofFound found = .ok arguments ∧ arguments.noPauses = noPauses ∧
      ∀ setting : Setting, found setting.option.name = (arguments.content setting).values := by
  have htext : ∀ setting : Setting, setting ≠ .words →
      ∃ text, setting.option.Reads [text] (found setting.option.name) := by
    intro setting hwords
    obtain ⟨text, htext⟩ := hone setting hwords
    exact ⟨text, htext ▸ hreads setting⟩
  obtain ⟨_, hmode⟩ := htext .mode (by decide)
  obtain ⟨mode, hmode⟩ := Setting.exists_mode hmode
  obtain ⟨port, hport⟩ := htext .port (by decide)
  obtain ⟨_, hbaudrate⟩ := htext .baudrate (by decide)
  obtain ⟨baudrate, hbaudrate⟩ := Setting.exists_number (by decide) (.inl rfl) hbaudrate
  obtain ⟨host, hhost⟩ := htext .host (by decide)
  obtain ⟨_, hsendDelay⟩ := htext .sendDelay (by decide)
  obtain ⟨sendDelay, hsendDelay⟩ := Setting.exists_number (by decide) (.inr rfl) hsendDelay
  obtain ⟨_, hdrain⟩ := htext .drain (by decide)
  obtain ⟨drain, hdrain⟩ := Setting.exists_number (by decide) (.inr rfl) hdrain
  have hwords := forall₂_reads_text_iff.mp (hreads .words)
  obtain ⟨logLevel, hlogLevel⟩ := htext .logLevel (by decide)
  let words := (texts .words).flatMap Setting.words.option.pieces
  let arguments : Arguments :=
    ⟨mode, port, baudrate, host, sendDelay, noPauses, drain, words, logLevel⟩
  have hcontent : ∀ setting : Setting,
      found setting.option.name = (arguments.content setting).values := by
    intro setting
    cases setting with
    | mode => exact hmode
    | port => exact Setting.values_text (by decide) rfl hport
    | baudrate => exact hbaudrate
    | host => exact Setting.values_text (by decide) rfl hhost
    | sendDelay => exact hsendDelay
    | drain => exact hdrain
    | words => exact hwords
    | logLevel => exact Setting.values_text (by decide) rfl hlogLevel
  exact ⟨arguments, ofFound_eq_ok hcontent hpauses, rfl, hcontent⟩

theorem content_inj {arguments other : Arguments} {setting : Setting}
    (h : (arguments.content setting).values = (other.content setting).values) :
    arguments.content setting = other.content setting := by
  cases setting with
  | mode =>
    have hname : arguments.mode.name = other.mode.name := Value.text.inj (List.cons.inj h).1
    have hmode : arguments.mode = other.mode := by
      cases hfirst : arguments.mode <;> cases hsecond : other.mode <;>
        rw [hfirst, hsecond] at hname <;> first | rfl | exact absurd hname (by decide)
    exact congrArg Content.mode hmode
  | words =>
    have hinjective : Function.Injective Value.text := fun _ _ => Value.text.inj
    exact congrArg Content.words (List.map_injective_iff.mpr hinjective h)
  | port | host | logLevel => exact congrArg Content.text (Value.text.inj (List.cons.inj h).1)
  | baudrate | sendDelay | drain =>
    exact congrArg Content.number (Value.number.inj (List.cons.inj h).1)

theorem ext_content {arguments other : Arguments}
    (h : ∀ setting, arguments.content setting = other.content setting)
    (hpauses : arguments.noPauses = other.noPauses) : arguments = other := by
  have hmode := Content.mode.inj (h .mode)
  have hport := Content.text.inj (h .port)
  have hbaudrate := Content.number.inj (h .baudrate)
  have hhost := Content.text.inj (h .host)
  have hsendDelay := Content.number.inj (h .sendDelay)
  have hdrain := Content.number.inj (h .drain)
  have hwords := Content.words.inj (h .words)
  have hlogLevel := Content.text.inj (h .logLevel)
  cases arguments
  cases other
  simp_all

end Arguments

end TerminalHost
