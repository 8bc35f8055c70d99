import TerminalHost.Proofs.Wire.Legible

/-!
# Commands back to back

A command has no end mark, and its parameters may be any octets, the escape octet and the
letters among them.  Still a list of commands is read back from its octets in one way only,
because the first two octets of a command say how many follow; and octets that are read as
commands are the octets of these commands.
-/

namespace TerminalHost

namespace Command

/-- The first command of a list of octets takes its own octets and no others. -/
theorem decodeAll_command (command : Command) (rest : Bytes) :
    decodeAll (command.encode ++ rest) = (decodeAll rest).map (command :: ·) := by
  by_cases hplain : command.parameters = []
  · have hletter := ofLetter_eq_some_iff.mpr ⟨rfl, hplain⟩
    have hne := letter_ne_of_parameters hplain
    rw [encode, hplain, decodeAll.eq_def]
    simp [hletter, hne]
  · cases command with
    | moveTo position =>
      rw [encode, decodeAll.eq_def]
      simp [letter, parameters, coordinateOf_coordinate]
    | _ => exact absurd rfl hplain

theorem decodeAll_encodeAll (commands : List Command) :
    decodeAll (encodeAll commands) = some commands := by
  unfold encodeAll
  induction commands with
  | nil => rw [List.flatMap_nil, decodeAll]
  | cons command rest ih =>
    rw [List.flatMap_cons, decodeAll_command, ih]
    rfl

theorem encodeAll_of_decodeAll {octets : Bytes} {commands : List Command}
    (h : decodeAll octets = some commands) : encodeAll commands = octets := by
  unfold encodeAll
  induction octets using decodeAll.induct generalizing commands with
  | case1 =>
    obtain rfl := Option.some.inj h
    rfl
  | case2 octet => cases h
  | case3 row col rest ih =>
    have hmove : escape :: 0x59 :: row :: col :: rest
        = (moveTo ⟨coordinateOf row, coordinateOf col⟩).encode ++ rest := by
      rw [encode_moveTo_coordinateOf]
      rfl
    rw [hmove, decodeAll_command, Option.map_eq_some_iff] at h
    obtain ⟨later, hlater, rfl⟩ := h
    rw [hmove, List.flatMap_cons, ih hlater]
  | case4 rest hshort =>
    rw [decodeAll.eq_def] at h
    simp at h
  | case5 octet rest hne command hcommand ih =>
    have hnamed : escape :: octet :: rest = command.encode ++ rest := by
      rw [encode_of_ofLetter hcommand]
      rfl
    rw [hnamed, decodeAll_command, Option.map_eq_some_iff] at h
    obtain ⟨later, hlater, rfl⟩ := h
    rw [hnamed, List.flatMap_cons, ih hlater]
  | case6 octet rest hne hnone =>
    rw [decodeAll.eq_def] at h
    simp [hne, hnone] at h
  | case7 first octet rest hne =>
    rw [decodeAll.eq_def] at h
    simp [hne] at h

theorem length_encode_le (command : Command) : command.encode.length ≤ 4 := by
  cases command <;> simp [encode, parameters]

theorem encodeInto_injective (buffer : Bytes) : Function.Injective (encodeInto buffer) := by
  intro commands others h
  have hsame : encodeAll commands = encodeAll others := List.append_cancel_left h
  apply Option.some.inj
  rw [← decodeAll_encodeAll commands, hsame, decodeAll_encodeAll]

/-- **Commands can be read back in one way only.**  Commands are put behind a buffer, which
stays as it was, and what is behind it is read as these commands.  So different lists of
commands never give the same octets, and octets are read as commands exactly if they are
the octets of these commands.  No command is longer than four octets, and one that moves
the cursor is an encoded position. -/
theorem encodeInto_uniquely_decodable :
    (∀ buffer commands, buffer <+: encodeInto buffer commands ∧
      decodeAll ((encodeInto buffer commands).drop buffer.length) = some commands) ∧
    (∀ buffer, Function.Injective (encodeInto buffer)) ∧
    (∀ octets commands, decodeAll octets = some commands ↔ encodeAll commands = octets) ∧
    (∀ command : Command, command.encode.length ≤ 4) ∧
    ∀ row col, (moveTo ⟨row, col⟩).encode = encodePosition row col := by
  refine ⟨?_, encodeInto_injective, ?_, length_encode_le, encode_moveTo⟩
  · intro buffer commands
    unfold encodeInto
    rw [List.drop_left, decodeAll_encodeAll]
    exact ⟨List.prefix_append buffer (encodeAll commands), rfl⟩
  · intro octets commands
    constructor
    · exact encodeAll_of_decodeAll
    · rintro rfl
      exact decodeAll_encodeAll commands

/-- A column on the wire that is the escape octet, and a command behind it. -/
example : decodeAll [0x1B, 0x59, 0x20, 0x1B, 0x1B, 0x4A]
    = some [.moveTo ⟨1, 252⟩, .eraseScreen] := by
  decide

end Command

end TerminalHost
