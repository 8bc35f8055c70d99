import TerminalHost.Wire.Reading

/-!
# Reading what was written

A reading is written as a command or as one octet, and no octet of text is the escape
octet.  So every list of readings can be read back from its octets, a list of octets is
read in one way at most, and octets that break off are read up to an unfinished command.
A script is written by its readings: it can be read if its texts hold nothing that begins
a command.
-/

namespace TerminalHost

namespace Command

theorem coordinateOf_coordinate (value : UInt8) : coordinateOf (coordinate value) = value :=
  UInt8.add_sub_cancel value coordinateOffset

theorem coordinate_coordinateOf (octet : UInt8) : coordinate (coordinateOf octet) = octet :=
  UInt8.sub_add_cancel octet coordinateOffset

theorem ofLetter_eq_some_iff {octet : UInt8} {command : Command} :
    ofLetter octet = some command ↔ command.letter = octet ∧ command.parameters = [] := by
  constructor
  · intro h
    have hletter := List.find?_some h
    have hmem := List.mem_of_find?_eq_some h
    refine ⟨by simpa using hletter, ?_⟩
    cases command with
    | moveTo position => simp at hmem
    | _ => rfl
  · rintro ⟨rfl, hplain⟩
    cases command with
    | moveTo position => cases hplain
    | _ => rfl

theorem encode_of_ofLetter {octet : UInt8} {command : Command}
    (h : ofLetter octet = some command) : command.encode = [escape, octet] := by
  obtain ⟨rfl, hplain⟩ := ofLetter_eq_some_iff.mp h
  rw [encode, hplain]

theorem encode_moveTo_coordinateOf (row col : UInt8) :
    (moveTo ⟨coordinateOf row, coordinateOf col⟩).encode = [escape, 0x59, row, col] := by
  rw [encode, letter, parameters, coordinate_coordinateOf, coordinate_coordinateOf]

theorem letter_ne_of_parameters {command : Command} (h : command.parameters = []) :
    command.letter ≠ 0x59 := by
  cases command with
  | moveTo position => cases h
  | _ => simp [letter]

end Command

/-! ## The reader, step by step -/

@[simp] theorem readWire_nil : readWire [] = some [] := readWire.eq_1

theorem readWire_text {octet : UInt8} (h : octet ≠ Command.escape) (rest : Bytes) :
    readWire (octet :: rest) = (readWire rest).map (.text octet :: ·) := by
  rw [readWire.eq_def]
  simp [h]

theorem readWire_command (command : Command) (rest : Bytes) :
    readWire (command.encode ++ rest) = (readWire rest).map (.command command :: ·) := by
  by_cases hplain : command.parameters = []
  · have hletter := Command.ofLetter_eq_some_iff.mpr ⟨rfl, hplain⟩
    have hne := Command.letter_ne_of_parameters hplain
    rw [Command.encode, hplain, readWire.eq_def]
    simp [hletter, hne]
  · cases command with
    | moveTo position =>
      rw [Command.encode, readWire.eq_def]
      simp [Command.letter, Command.parameters, Command.coordinateOf_coordinate]
    | _ => exact absurd rfl hplain

/-! ## Readings and their octets -/

def Reading.octets : Reading → Bytes
  | command meant => meant.encode
  | text octet => [octet]

/-- What is written is read back. -/
theorem readWire_flatMap {readings : List Reading} (h : .text Command.escape ∉ readings) :
    readWire (readings.flatMap Reading.octets) = some readings := by
  induction readings with
  | nil => rfl
  | cons first rest ih =>
    simp only [List.mem_cons, not_or] at h
    rw [List.flatMap_cons]
    cases first with
    | command meant =>
      rw [Reading.octets, readWire_command, ih h.2]
      rfl
    | text octet =>
      have hne : octet ≠ Command.escape := by
        rintro rfl
        exact h.1 rfl
      rw [Reading.octets, List.singleton_append, readWire_text hne, ih h.2]
      rfl

/-- What is read has been written like that. -/
theorem flatMap_of_readWire {octets : Bytes} {readings : List Reading}
    (h : readWire octets = some readings) :
    octets = readings.flatMap Reading.octets ∧ .text Command.escape ∉ readings := by
  induction octets using readWire.induct generalizing readings with
  | case1 =>
    obtain rfl := Option.some.inj h
    simp
  | case2 => cases h
  | case3 row col rest ih =>
    have hmove : Command.escape :: 0x59 :: row :: col :: rest
        = (Command.moveTo ⟨Command.coordinateOf row, Command.coordinateOf col⟩).encode ++ rest := by
      rw [Command.encode_moveTo_coordinateOf]
      rfl
    rw [hmove, readWire_command, Option.map_eq_some_iff] at h
    obtain ⟨later, hlater, rfl⟩ := h
    obtain ⟨hrest, hplain⟩ := ih hlater
    rw [hmove, List.flatMap_cons, ← hrest]
    exact ⟨rfl, by simp [hplain]⟩
  | case4 rest hrest =>
    rw [readWire.eq_def] at h
    simp at h
  | case5 letter rest hletter command hcommand ih =>
    have hnamed : Command.escape :: letter :: rest = command.encode ++ rest := by
      rw [Command.encode_of_ofLetter hcommand]
      rfl
    rw [hnamed, readWire_command, Option.map_eq_some_iff] at h
    obtain ⟨later, hlater, rfl⟩ := h
    obtain ⟨hrest, hplain⟩ := ih hlater
    rw [hnamed, List.flatMap_cons, ← hrest]
    exact ⟨rfl, by simp [hplain]⟩
  | case6 letter rest hletter hnone =>
    rw [readWire.eq_def] at h
    simp [hletter, hnone] at h
  | case7 octet rest hne ih =>
    rw [readWire_text hne, Option.map_eq_some_iff] at h
    obtain ⟨later, hlater, rfl⟩ := h
    obtain ⟨hrest, hplain⟩ := ih hlater
    rw [List.flatMap_cons, ← hrest]
    exact ⟨rfl, by simp [hplain, Ne.symm hne]⟩

/-- A list of octets is read in the one way in which it can have been written. -/
theorem readWire_eq_some_iff {octets : Bytes} {readings : List Reading} :
    readWire octets = some readings ↔
      octets = readings.flatMap Reading.octets ∧ .text Command.escape ∉ readings := by
  constructor
  · exact flatMap_of_readWire
  · rintro ⟨rfl, hplain⟩
    exact readWire_flatMap hplain

/-- Octets that end before the command that they begin does. -/
def Command.Unfinished (octets : Bytes) : Prop :=
  ∃ command : Command, octets <+: command.encode ∧ octets ≠ command.encode

/-- Octets that break off are readings and perhaps the beginning of a command. -/
theorem exists_of_prefix_flatMap {octets : Bytes} {readings : List Reading}
    (h : octets <+: readings.flatMap Reading.octets) :
    ∃ few cut, octets = few.flatMap Reading.octets ++ cut ∧ few <+: readings ∧
      Command.Unfinished cut := by
  have hnothing : Command.Unfinished [] := ⟨.home, List.nil_prefix, by simp [Command.encode]⟩
  induction readings generalizing octets with
  | nil => exact ⟨[], [], List.prefix_nil.mp h, List.nil_prefix, hnothing⟩
  | cons first rest ih =>
    rw [List.flatMap_cons] at h
    rcases Nat.lt_or_ge octets.length first.octets.length with hshort | hlong
    · have hfirst : octets <+: first.octets :=
        List.prefix_of_prefix_length_le h (List.prefix_append _ _) (Nat.le_of_lt hshort)
      refine ⟨[], octets, rfl, List.nil_prefix, ?_⟩
      cases first with
      | command meant =>
        refine ⟨meant, hfirst, ?_⟩
        rintro rfl
        exact absurd hshort (Nat.lt_irrefl _)
      | text octet =>
        have hnil : octets = [] := List.length_eq_zero_iff.mp (Nat.lt_one_iff.mp hshort)
        exact hnil ▸ hnothing
    · obtain ⟨more, rfl⟩ : first.octets <+: octets :=
        List.prefix_of_prefix_length_le (List.prefix_append _ _) h hlong
      rw [List.prefix_append_right_inj] at h
      obtain ⟨few, cut, rfl, hfew, hcut⟩ := ih h
      refine ⟨first :: few, cut, ?_, List.cons_prefix_cons.mpr ⟨rfl, hfew⟩, hcut⟩
      rw [List.flatMap_cons, List.append_assoc]

/-! ## Plain octets and texts -/

/-- What may stand in a text for the terminal: a printable character of ASCII, or the
backspace, the tab, the line feed or the carriage return. -/
def IsPlain (octet : UInt8) : Prop :=
  0x20 ≤ octet ∧ octet ≤ 0x7E ∨ octet ∈ [0x08, 0x09, 0x0A, 0x0D]

instance (octet : UInt8) : Decidable (IsPlain octet) :=
  inferInstanceAs (Decidable (_ ∨ _))

theorem IsPlain.ne_escape {octet : UInt8} (h : IsPlain octet) : octet ≠ Command.escape := by
  rintro rfl
  revert h
  decide

namespace Text

def IsPlain (text : String) : Prop := ∀ octet ∈ utf8 text, TerminalHost.IsPlain octet

def isPlainChar (c : Char) : Bool :=
  (0x20 ≤ c.toNat && c.toNat ≤ 0x7E) || c == '\t' || c == '\n' || c == '\r'

theorem toNat_of_isPlainChar {c : Char} (h : isPlainChar c = true) :
    0x20 ≤ c.toNat ∧ c.toNat ≤ 0x7E ∨ c.toNat ∈ [0x09, 0x0A, 0x0D] := by
  simp only [isPlainChar, Bool.or_eq_true, Bool.and_eq_true, decide_eq_true_eq, beq_iff_eq] at h
  rcases h with ((hrange | rfl) | rfl) | rfl
  · exact .inl hrange
  · exact .inr (by decide)
  · exact .inr (by decide)
  · exact .inr (by decide)

theorem isPlain_of_isPlainChar {c : Char} (h : isPlainChar c = true) {octet : UInt8}
    (hoctet : octet ∈ String.utf8EncodeChar c) : TerminalHost.IsPlain octet := by
  have hvalues := toNat_of_isPlainChar h
  simp only [List.mem_cons, List.not_mem_nil, or_false] at hvalues
  have hsize : c.utf8Size = 1 := by
    rw [Char.utf8Size_eq_one_iff, UInt32.le_iff_toNat_le]
    show c.toNat ≤ 127
    omega
  rw [String.utf8EncodeChar_eq_singleton hsize, List.mem_singleton] at hoctet
  have hvalue : octet.toNat = c.toNat := by
    rw [hoctet, UInt32.toNat_toUInt8]
    exact Nat.mod_eq_of_lt (by show c.toNat < 256; omega)
  rw [← hvalue] at hvalues
  simp only [TerminalHost.IsPlain, List.mem_cons, List.not_mem_nil, or_false,
    UInt8.le_iff_toNat_le, ← UInt8.toNat_inj]
  change 0x20 ≤ octet.toNat ∧ octet.toNat ≤ 0x7E ∨ octet.toNat = 0x08 ∨ octet.toNat = 0x09 ∨
    octet.toNat = 0x0A ∨ octet.toNat = 0x0D
  omega

/-- A text is plain if its characters are; they can be read off a literal. -/
theorem isPlain_ofList {chars : List Char} (h : chars.all isPlainChar = true) :
    IsPlain (String.ofList chars) := by
  intro octet hoctet
  rw [utf8, String.toList_ofList, List.mem_flatMap] at hoctet
  obtain ⟨c, hc, hoctet⟩ := hoctet
  exact isPlain_of_isPlainChar (List.all_eq_true.mp h c hc) hoctet

@[simp] theorem isPlain_append (left right : String) :
    IsPlain (left ++ right) ↔ IsPlain left ∧ IsPlain right := by
  simp only [IsPlain, utf8_append, List.mem_append, or_imp, forall_and]

theorem isPlain_toString (n : Nat) : IsPlain (toString n) := by
  rw [Nat.toString_eq_ofList_toDigits]
  apply isPlain_ofList
  rw [List.all_eq_true]
  intro c hc
  have hdigit := Nat.isDigit_of_mem_toDigits (by decide) (by decide) hc
  rw [Char.isDigit_iff_toNat] at hdigit
  have hzero : '0'.toNat = 48 := rfl
  have hnine : '9'.toNat = 57 := rfl
  have hrange : (0x20 ≤ c.toNat && c.toNat ≤ 0x7E) = true := by
    rw [Bool.and_eq_true, decide_eq_true_eq, decide_eq_true_eq]
    omega
  simp [isPlainChar, hrange]

end Text

/-! ## Scripts -/

theorem Part.encode_eq (part : Part) : part.encode = part.readings.flatMap Reading.octets := by
  cases part <;> simp [Part.encode, Part.readings, Reading.octets, List.flatMap_map]

theorem Step.chunk_eq (parts : List Part) :
    Step.chunk parts = (parts.flatMap Part.readings).flatMap Reading.octets := by
  rw [Step.chunk, List.flatMap_assoc]
  exact congrArg (parts.flatMap ·) (funext Part.encode_eq)

namespace Script

theorem wire_eq (script : Script) : script.wire = script.readings.flatMap Reading.octets := by
  induction script with
  | nil => rfl
  | cons step rest ih =>
    have hreadings : readings (step :: rest) = step.readings ++ readings rest := List.flatMap_cons
    rw [hreadings, List.flatMap_append, ← ih]
    cases step with
    | send parts =>
      rw [Step.readings, ← Step.chunk_eq]
      rfl
    | pause length => rfl

/-- No text of the script holds anything but plain octets. -/
def Legible (script : Script) : Prop := ∀ octet, .text octet ∈ script.readings → IsPlain octet

/-- The terminal reads a legible script as it was meant. -/
theorem Legible.readWire_wire {script : Script} (h : script.Legible) :
    readWire script.wire = some script.readings := by
  refine readWire_eq_some_iff.mpr ⟨script.wire_eq, ?_⟩
  intro hescape
  exact (h _ hescape).ne_escape rfl

@[simp] theorem legible_nil : Legible [] := by
  intro octet hmem
  cases hmem

@[simp] theorem legible_append (left right : Script) :
    Legible (left ++ right) ↔ left.Legible ∧ right.Legible := by
  simp only [Legible, readings, List.flatMap_append, List.mem_append, or_imp, forall_and]

theorem legible_flatten {scripts : List Script} :
    Legible scripts.flatten ↔ ∀ script ∈ scripts, script.Legible := by
  induction scripts with
  | nil => simp
  | cons script rest ih => rw [List.flatten_cons, legible_append, ih, List.forall_mem_cons]

theorem legible_flatMap {α : Type} {items : List α} {screen : α → Script}
    (h : ∀ item ∈ items, (screen item).Legible) : Legible (items.flatMap screen) := by
  rw [List.flatMap_def, legible_flatten, List.forall_mem_map]
  exact h

@[simp] theorem legible_text (text : String) : (Script.text text).Legible ↔ Text.IsPlain text := by
  simp [Legible, Script.text, readings, Step.readings, Part.readings, Text.IsPlain]

@[simp] theorem legible_octets (plain : Bytes) :
    (Script.octets plain).Legible ↔ ∀ octet ∈ plain, IsPlain octet := by
  simp [Legible, Script.octets, readings, Step.readings, Part.readings]

@[simp] theorem legible_line (text : String) : (Script.line text).Legible ↔ Text.IsPlain text := by
  have hreadings : readings (Script.line text)
      = readings (Script.text text ++ Script.octets lineEnd) := by
    simp [Script.line, Script.text, Script.octets, readings, Step.readings]
  have hend : ∀ octet ∈ lineEnd, IsPlain octet := by simp [lineEnd, IsPlain]
  rw [Legible, hreadings]
  refine (legible_append _ _).trans ?_
  rw [legible_text, legible_octets, and_iff_left hend]

@[simp] theorem legible_command (command : Command) : (Script.command command).Legible := by
  simp [Legible, Script.command, readings, Step.readings, Part.readings]

@[simp] theorem legible_commands (commands : List Command) :
    (Script.commands commands).Legible := by
  simp [Legible, Script.commands, readings, Step.readings, Part.readings]

@[simp] theorem legible_moveTo (row col : UInt8) : (Script.moveTo row col).Legible :=
  legible_command _

@[simp] theorem legible_pause (length : Duration) : (Script.pause length).Legible := by
  simp [Legible, Script.pause, readings, Step.readings]

@[simp] theorem legible_pauseMillis (millis : Nat) : (Script.pauseMillis millis).Legible :=
  legible_pause _

theorem legible_banner {lines : List String} (h : ∀ line ∈ lines, Text.IsPlain line) :
    (Script.banner lines).Legible := by
  have hindent : Text.IsPlain bannerIndent := Text.isPlain_ofList rfl
  have hbody : Legible (lines.flatMap fun body => line (bannerIndent ++ body)) := by
    apply legible_flatMap
    intro body hmem
    rw [legible_line, Text.isPlain_append]
    exact ⟨hindent, h body hmem⟩
  simp only [banner, legible_append, legible_line]
  exact ⟨⟨Text.isPlain_ofList rfl, hbody⟩, hindent⟩

end Script

end TerminalHost
