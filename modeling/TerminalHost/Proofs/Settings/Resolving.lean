import Mathlib.Data.List.Forall2
import TerminalHost.Proofs.Text.Blank
import TerminalHost.Proofs.Text.Letters
import TerminalHost.Proofs.Text.Numeral
import TerminalHost.Settings

/-!
# What arguments resolve to

A word is accepted if its inner part is a text of letters, and a port if it is the usual
device or a numeral below 2^16 with white space around it.  Arguments resolve to what their
words and their port stand for; the first word that stands for nothing is reported, and the
port only if there is no such word.
-/

namespace TerminalHost

/-! ## Checks one after the other -/

section Checks

variable {ε α β : Type} {check : α → Except ε β} {items : List α} {error : ε}

theorem bind_eq_ok_iff {first : Except ε α} {next : α → Except ε β} {result : β} :
    first >>= next = .ok result ↔ ∃ value, first = .ok value ∧ next value = .ok result := by
  cases first with
  | error other =>
    constructor
    · intro h
      cases h
    · rintro ⟨value, h, -⟩
      cases h
  | ok value =>
    constructor
    · intro h
      exact ⟨value, rfl, h⟩
    · rintro ⟨other, hother, h⟩
      rwa [Except.ok.inj hother]

theorem bind_eq_error_iff {first : Except ε α} {next : α → Except ε β} :
    first >>= next = .error error ↔
      first = .error error ∨ ∃ value, first = .ok value ∧ next value = .error error := by
  cases first with
  | error other =>
    constructor
    · intro h
      exact .inl (congrArg Except.error (Except.error.inj h))
    · rintro (h | ⟨value, h, -⟩)
      · exact congrArg Except.error (Except.error.inj h)
      · cases h
  | ok value =>
    constructor
    · intro h
      exact .inr ⟨value, rfl, h⟩
    · rintro (h | ⟨other, hother, h⟩)
      · cases h
      · rwa [Except.ok.inj hother]

theorem mapM_eq_ok_iff {results : List β} :
    items.mapM check = .ok results ↔
      List.Forall₂ (fun item result => check item = .ok result) items results := by
  induction items generalizing results with
  | nil =>
    rw [List.mapM_nil, List.forall₂_nil_left_iff]
    constructor
    · intro h
      exact (Except.ok.inj h).symm
    · rintro rfl
      rfl
  | cons item rest ih =>
    rw [List.mapM_cons, bind_eq_ok_iff, List.forall₂_cons_left_iff]
    apply exists_congr
    intro result
    rw [bind_eq_ok_iff]
    constructor
    · rintro ⟨hitem, others, hothers, h⟩
      exact ⟨others, hitem, ih.mp hothers, (Except.ok.inj h).symm⟩
    · rintro ⟨others, hitem, hothers, rfl⟩
      exact ⟨hitem, others, ih.mpr hothers, rfl⟩

/-- The first item that fails decides. -/
theorem mapM_eq_error_iff :
    items.mapM check = .error error ↔
      ∃ before item after, items = before ++ item :: after ∧
        (∀ other ∈ before, ∃ result, check other = .ok result) ∧ check item = .error error := by
  induction items with
  | nil =>
    rw [List.mapM_nil]
    constructor
    · intro h
      cases h
    · rintro ⟨before, item, after, h, -⟩
      simp at h
  | cons first rest ih =>
    rw [List.mapM_cons, bind_eq_error_iff]
    constructor
    · rintro (hfirst | ⟨result, hfirst, h⟩)
      · exact ⟨[], first, rest, rfl, by simp, hfirst⟩
      · rcases bind_eq_error_iff.mp h with h | ⟨others, -, h⟩
        · obtain ⟨before, item, after, hrest, hbefore, hitem⟩ := ih.mp h
          refine ⟨first :: before, item, after, ?_, ?_, hitem⟩
          · rw [hrest, List.cons_append]
          · rw [List.forall_mem_cons]
            exact ⟨⟨result, hfirst⟩, hbefore⟩
        · cases h
    · rintro ⟨before, item, after, hsplit, hbefore, hitem⟩
      cases before with
      | nil =>
        obtain ⟨rfl, -⟩ := List.cons.inj hsplit
        exact .inl hitem
      | cons other before =>
        obtain ⟨rfl, hrest⟩ := List.cons.inj hsplit
        rw [List.forall_mem_cons] at hbefore
        obtain ⟨⟨result, hfirst⟩, hbefore⟩ := hbefore
        refine .inr ⟨result, hfirst, bind_eq_error_iff.mpr (.inl ?_)⟩
        exact ih.mpr ⟨before, item, after, hrest, hbefore, hitem⟩

end Checks

/-! ## Words -/

/-- A word has an inner part of letters, and stands for this part in capitals. -/
def StandsFor (word accepted : String) : Prop :=
  ∃ inner, Text.Pads word inner ∧ inner ≠ "" ∧ Text.IsSpelled inner ∧
    accepted = Text.capitals inner

variable {word accepted : String}

theorem normalizeWord?_eq_some_iff_standsFor :
    normalizeWord? word = some accepted ↔ StandsFor word accepted := by
  rw [normalizeWord?_eq_some_iff]
  constructor
  · rintro ⟨hne, hletters, h⟩
    exact ⟨_, Text.pads_trim word, hne, hletters, h.symm⟩
  · rintro ⟨inner, hpads, hne, hletters, rfl⟩
    rw [← hpads.eq_trim]
    exact ⟨hne, hletters, rfl⟩

theorem StandsFor.unique {other : String} (h : StandsFor word accepted)
    (hother : StandsFor word other) : accepted = other := by
  rw [← normalizeWord?_eq_some_iff_standsFor] at h hother
  exact Option.some.inj (h.symm.trans hother)

theorem StandsFor.isSpelled (h : StandsFor word accepted) : Text.IsSpelled accepted := by
  obtain ⟨inner, -, -, hletters, rfl⟩ := h
  exact hletters.capitals

theorem isSpelled_of_forall₂ {words others : List String}
    (h : List.Forall₂ StandsFor words others) : ∀ word ∈ others, Text.IsSpelled word := by
  induction h with
  | nil => simp
  | cons hword _ ih =>
    rw [List.forall_mem_cons]
    exact ⟨hword.isSpelled, ih⟩

theorem standsFor_capitals (hne : word ≠ "") (hletters : Text.IsSpelled word) :
    StandsFor word (Text.capitals word) := by
  have hpads := Text.pads_trim word
  rw [hletters.trim_eq] at hpads
  exact ⟨word, hpads, hne, hletters, rfl⟩

theorem exists_standsFor_iff :
    (∃ accepted, StandsFor word accepted) ↔
      ∃ inner, Text.Pads word inner ∧ inner ≠ "" ∧ Text.IsSpelled inner := by
  constructor
  · rintro ⟨_, inner, hpads, hne, hletters, -⟩
    exact ⟨inner, hpads, hne, hletters⟩
  · rintro ⟨inner, hpads, hne, hletters⟩
    exact ⟨_, inner, hpads, hne, hletters, rfl⟩

namespace Arguments

theorem checkWord_eq_ok_iff : checkWord word = .ok accepted ↔ StandsFor word accepted := by
  rw [← normalizeWord?_eq_some_iff_standsFor, checkWord]
  cases normalizeWord? word <;> simp

theorem checkWord_eq_error_iff {error : StartError} :
    checkWord word = .error error ↔
      (¬ ∃ accepted, StandsFor word accepted) ∧ error = .invalidWord word := by
  simp only [← normalizeWord?_eq_some_iff_standsFor]
  unfold checkWord
  cases normalizeWord? word <;> simp [eq_comm]

/-! ## Ports -/

/-- A port is the usual device, which stands for the usual number, or a numeral with white
space around it that is at most 65535. -/
def ListensOn (port : String) (number : Nat) : Prop :=
  (port = usualPort ∧ number = 2323) ∨
    (port ≠ usualPort ∧ ∃ inner, Text.Pads port inner ∧ Text.IsNumeral inner number ∧
      number ≤ 65535)

variable {port : String} {number : Nat}

theorem exists_listensOn_iff :
    (∃ number, ListensOn port number) ↔ port = usualPort ∨
      ∃ inner number, Text.Pads port inner ∧ Text.IsNumeral inner number ∧ number ≤ 65535 := by
  constructor
  · rintro ⟨number, ⟨husual, -⟩ | ⟨-, inner, hnumber⟩⟩
    · exact .inl husual
    · exact .inr ⟨inner, number, hnumber⟩
  · rintro (husual | ⟨inner, number, hnumber⟩)
    · exact ⟨2323, .inl ⟨husual, rfl⟩⟩
    · by_cases husual : port = usualPort
      · exact ⟨2323, .inl ⟨husual, rfl⟩⟩
      · exact ⟨number, .inr ⟨husual, inner, hnumber⟩⟩

theorem telnetPort_eq_ok_iff : telnetPort port = .ok number ↔ ListensOn port number := by
  unfold telnetPort ListensOn
  by_cases husual : port = usualPort
  · simp [husual, usualTelnetPort, eq_comm]
  · have hread : Text.natural? 65535 (Text.trim port) = some number ↔
        ∃ inner, Text.Pads port inner ∧ Text.IsNumeral inner number ∧ number ≤ 65535 := by
      rw [Text.natural?_eq_some_iff]
      constructor
      · intro h
        exact ⟨_, Text.pads_trim port, h⟩
      · rintro ⟨inner, hpads, h⟩
        rwa [← hpads.eq_trim]
    rw [← hread, if_neg husual]
    cases Text.natural? 65535 (Text.trim port) <;> simp [husual]

theorem telnetPort_eq_error_iff {error : StartError} :
    telnetPort port = .error error ↔
      (¬ ∃ number, ListensOn port number) ∧ error = .invalidPort port := by
  simp only [← telnetPort_eq_ok_iff]
  unfold telnetPort
  split
  · simp
  · cases Text.natural? 65535 (Text.trim port) <;> simp [eq_comm]

/-! ## Runs -/

variable {arguments : Arguments}

/-- What a run needs, from what the words and the port stand for. -/
structure Yields (arguments : Arguments) (run : RunSettings) : Prop where
  words : List.Forall₂ StandsFor arguments.words run.session.words
  pacing : run.session.pacing = arguments.pacing
  /-- The line waits after a send as long as the pacing of the sessions says. -/
  serial : arguments.mode = .serial → run.endpoint = .serial
    { path := arguments.port
      baudRate := arguments.baudrate
      readTimeout := Duration.ofMillis serialReadMillis
      sendDelay := run.session.pacing.sendDelay }
  network : arguments.mode = .telnet → ∃ number, ListensOn arguments.port number ∧
    run.endpoint = .network
      { host := arguments.host
        port := number
        drainTimeout := Duration.ofSeconds arguments.drain 0 }

inductive Fails (arguments : Arguments) : StartError → Prop where
  /-- The first word that stands for nothing, whatever the port is. -/
  | word {before after : List String} {word : String}
      (hwords : arguments.words = before ++ word :: after)
      (hbefore : ∀ other ∈ before, ∃ accepted, StandsFor other accepted)
      (hword : ¬ ∃ accepted, StandsFor word accepted) : Fails arguments (.invalidWord word)
  | port (hwords : ∀ word ∈ arguments.words, ∃ accepted, StandsFor word accepted)
      (hmode : arguments.mode = .telnet)
      (hport : ¬ ∃ number, ListensOn arguments.port number) :
      Fails arguments (.invalidPort arguments.port)

theorem endpoint_of_serial (hmode : arguments.mode = .serial) :
    arguments.endpoint = .ok (.serial
      { path := arguments.port
        baudRate := arguments.baudrate
        readTimeout := Duration.ofMillis serialReadMillis
        sendDelay := arguments.pacing.sendDelay }) := by
  rw [endpoint, hmode]

theorem endpoint_of_telnet (hmode : arguments.mode = .telnet) :
    arguments.endpoint = telnetPort arguments.port >>= fun number => .ok (.network
      { host := arguments.host
        port := number
        drainTimeout := Duration.ofSeconds arguments.drain 0 }) := by
  rw [endpoint, hmode]
  rfl

theorem resolve_eq_ok_iff {run : RunSettings} :
    arguments.resolve = .ok run ↔
      List.Forall₂ StandsFor arguments.words run.session.words ∧
        arguments.endpoint = .ok run.endpoint ∧ run.session.pacing = arguments.pacing := by
  rw [resolve, bind_eq_ok_iff]
  simp only [bind_eq_ok_iff, mapM_eq_ok_iff, checkWord_eq_ok_iff]
  constructor
  · rintro ⟨words, hwords, endpoint, hendpoint, h⟩
    obtain rfl := Except.ok.inj h
    exact ⟨hwords, hendpoint, rfl⟩
  · rintro ⟨hwords, hendpoint, hpacing⟩
    refine ⟨_, hwords, _, hendpoint, ?_⟩
    rw [← hpacing]
    rfl

theorem yields_iff {run : RunSettings} : arguments.resolve = .ok run ↔ arguments.Yields run := by
  rw [resolve_eq_ok_iff]
  constructor
  · rintro ⟨hwords, hendpoint, hpacing⟩
    refine ⟨hwords, hpacing, ?_, ?_⟩
    · intro hmode
      rw [endpoint_of_serial hmode, ← hpacing] at hendpoint
      exact (Except.ok.inj hendpoint).symm
    · intro hmode
      rw [endpoint_of_telnet hmode, bind_eq_ok_iff] at hendpoint
      obtain ⟨number, hnumber, h⟩ := hendpoint
      exact ⟨number, telnetPort_eq_ok_iff.mp hnumber, (Except.ok.inj h).symm⟩
  · intro h
    refine ⟨h.words, ?_, h.pacing⟩
    cases hmode : arguments.mode with
    | serial => rw [endpoint_of_serial hmode, h.serial hmode, h.pacing]
    | telnet =>
      obtain ⟨number, hnumber, hendpoint⟩ := h.network hmode
      rw [endpoint_of_telnet hmode, hendpoint, telnetPort_eq_ok_iff.mpr hnumber]
      rfl

theorem endpoint_eq_error_iff {error : StartError} :
    arguments.endpoint = .error error ↔
      arguments.mode = .telnet ∧ (¬ ∃ number, ListensOn arguments.port number) ∧
        error = .invalidPort arguments.port := by
  cases hmode : arguments.mode with
  | serial => simp [endpoint_of_serial hmode]
  | telnet =>
    rw [endpoint_of_telnet hmode, bind_eq_error_iff, telnetPort_eq_error_iff]
    simp

theorem exists_of_forall₂ {words accepted : List String}
    (h : List.Forall₂ StandsFor words accepted) :
    ∀ word ∈ words, ∃ accepted, StandsFor word accepted := by
  induction h with
  | nil => simp
  | cons hword _ ih =>
    rw [List.forall_mem_cons]
    exact ⟨⟨_, hword⟩, ih⟩

theorem exists_forall₂ {words : List String}
    (h : ∀ word ∈ words, ∃ accepted, StandsFor word accepted) :
    ∃ accepted, List.Forall₂ StandsFor words accepted := by
  induction words with
  | nil => exact ⟨[], .nil⟩
  | cons word rest ih =>
    rw [List.forall_mem_cons] at h
    obtain ⟨⟨first, hfirst⟩, hrest⟩ := h
    obtain ⟨others, hothers⟩ := ih hrest
    exact ⟨first :: others, .cons hfirst hothers⟩

theorem fails_iff {error : StartError} :
    arguments.resolve = .error error ↔ arguments.Fails error := by
  rw [resolve, bind_eq_error_iff, mapM_eq_error_iff]
  simp only [bind_eq_error_iff, mapM_eq_ok_iff, checkWord_eq_ok_iff, checkWord_eq_error_iff,
    endpoint_eq_error_iff]
  constructor
  · rintro (⟨before, word, after, hwords, hbefore, hword, rfl⟩ | ⟨accepted, hwords, h⟩)
    · exact .word hwords hbefore hword
    · rcases h with ⟨hmode, hport, rfl⟩ | ⟨endpoint, -, h⟩
      · exact .port (exists_of_forall₂ hwords) hmode hport
      · cases h
  · rintro (⟨hwords, hbefore, hword⟩ | ⟨hwords, hmode, hport⟩)
    · exact .inl ⟨_, _, _, hwords, hbefore, hword, rfl⟩
    · obtain ⟨accepted, haccepted⟩ := exists_forall₂ hwords
      exact .inr ⟨accepted, haccepted, .inl ⟨hmode, hport, rfl⟩⟩

theorem exists_resolve_iff :
    (∃ run, arguments.resolve = .ok run) ↔
      (∀ word ∈ arguments.words, ∃ accepted, StandsFor word accepted) ∧
        (arguments.mode = .serial ∨ ∃ number, ListensOn arguments.port number) := by
  constructor
  · rintro ⟨run, h⟩
    have hyields := yields_iff.mp h
    refine ⟨exists_of_forall₂ hyields.words, ?_⟩
    cases hmode : arguments.mode with
    | serial => exact .inl rfl
    | telnet =>
      obtain ⟨number, hnumber, -⟩ := hyields.network hmode
      exact .inr ⟨number, hnumber⟩
  · rintro ⟨hwords, hport⟩
    cases hresolve : arguments.resolve with
    | ok run => exact ⟨run, rfl⟩
    | error error =>
      cases fails_iff.mp hresolve with
      | word hsplit _ hword =>
        refine absurd (hwords _ ?_) hword
        rw [hsplit]
        exact List.mem_append_right _ List.mem_cons_self
      | port _ hmode hnone =>
        rcases hport with hserial | hsome
        · rw [hmode] at hserial
          cases hserial
        · exact absurd hsome hnone

/-- **Arguments resolve to what their words and their port stand for.**  They resolve
exactly if every word has an inner part of letters and, in telnet mode, the port is the usual
device or has a numeral below 2^16 as its inner part.  A run then gets the inner parts of the
words in capitals, each in its place, and the number of the port; a serial line waits after a
send as long as the sessions say.  Otherwise the first word that stands for nothing is
reported as it was given, and the port only if every word stands for something. -/
theorem resolve_settles (arguments : Arguments) :
    ((∃ run, arguments.resolve = .ok run) ↔
      (∀ word ∈ arguments.words,
        ∃ inner, Text.Pads word inner ∧ inner ≠ "" ∧ Text.IsSpelled inner) ∧
      (arguments.mode = .serial ∨ arguments.port = usualPort ∨
        ∃ inner number, Text.Pads arguments.port inner ∧ Text.IsNumeral inner number ∧
          number ≤ 65535)) ∧
    (∀ run, arguments.resolve = .ok run ↔ arguments.Yields run) ∧
    ∀ error, arguments.resolve = .error error ↔ arguments.Fails error := by
  refine ⟨?_, fun run => yields_iff, fun error => fails_iff⟩
  rw [exists_resolve_iff, exists_listensOn_iff]
  simp only [exists_standsFor_iff]

/-- The usual device is looked for before white space is taken off. -/
example : resolve { usual with mode := .telnet, port := " /dev/ttyUSB0" }
    = .error (.invalidPort " /dev/ttyUSB0") := by
  decide +kernel

end Arguments

end TerminalHost
