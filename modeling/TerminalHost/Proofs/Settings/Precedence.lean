import TerminalHost.Proofs.Settings.Reading

/-!
# Which text decides a setting

A setting is what its flag says; without a flag it is what its variable says, and without
either it is the usual value.  A flag keeps its variable from being read, so whatever stands
there does no harm.  Only words can have several flags, whose words come one behind the other,
and this is all that the order of the flags decides.
-/

namespace TerminalHost

/-! ## Flags -/

/-- An argument that is complete in itself: a setting with its text behind an equals sign, or
the switch for the pauses. -/
inductive Flag where
  | value (setting : Setting) (text : String)
  | noPauses
deriving DecidableEq, Repr

namespace Flag

def argument : Flag → String
  | .value setting text => "--" ++ setting.option.name ++ "=" ++ text
  | .noPauses => "--no-pauses"

def text? (setting : Setting) : Flag → Option String
  | .value other text => if other = setting then some text else none
  | .noPauses => none

def texts (flags : List Flag) (setting : Setting) : List String :=
  flags.filterMap (text? setting)

theorem mem_texts_iff {flags : List Flag} {setting : Setting} {text : String} :
    text ∈ texts flags setting ↔ value setting text ∈ flags := by
  rw [texts, List.mem_filterMap]
  constructor
  · rintro ⟨flag, hflag, htext⟩
    cases flag with
    | noPauses => cases htext
    | value other found =>
      rw [text?] at htext
      split at htext
      · next hsame =>
        cases htext
        rwa [← hsame]
      · cases htext
  · intro h
    exact ⟨_, h, if_pos rfl⟩

/-- Every text is one the setting can take, and only words have more than one flag. -/
structure Fit (flags : List Flag) : Prop where
  possible : ∀ setting, ∀ text ∈ texts flags setting, ∃ content, setting.Says text content
  once : ∀ setting, setting ≠ .words → (texts flags setting).length ≤ 1
  noPauses : flags.count .noPauses ≤ 1

namespace Fit

variable {flags others : List Flag}

/-- Flags in another order have the same texts for each setting, if this is so for words. -/
theorem texts_eq_of_perm (h : Fit flags) (hperm : others.Perm flags)
    (hwords : texts others .words = texts flags .words) : texts others = texts flags := by
  funext setting
  by_cases hsetting : setting = .words
  · rw [hsetting, hwords]
  · -- A list that is no longer than one text has no other order.
    have hpermuted : (texts others setting).Perm (texts flags setting) := hperm.filterMap _
    have honce := h.once setting hsetting
    match hflags : texts flags setting with
    | [] =>
      rw [hflags] at hpermuted
      exact hpermuted.eq_nil
    | [text] =>
      rw [hflags] at hpermuted
      exact hpermuted.eq_singleton
    | _ :: _ :: _ =>
      rw [hflags] at honce
      simp at honce

theorem of_perm (h : Fit flags) (hperm : others.Perm flags)
    (hwords : texts others .words = texts flags .words) : Fit others := by
  have htexts := h.texts_eq_of_perm hperm hwords
  constructor
  · rw [htexts]
    exact h.possible
  · rw [htexts]
    exact h.once
  · rw [hperm.count_eq]
    exact h.noPauses

end Fit

/-! ## Flags as uses of options -/

def use : Flag → Use
  | .value setting text => ⟨setting.option, text⟩
  | .noPauses => ⟨Arguments.pausesOption, "true"⟩

theorem argument_use (flag : Flag) : flag.use.argument = flag.argument := by
  cases flag with
  | noPauses => decide +kernel
  | value setting text =>
    have hset : setting.option.action ≠ .setTrue := by
      cases setting <;> decide
    exact if_neg hset

theorem fits_use (flag : Flag) : flag.use.Fits Arguments.options := by
  rw [Use.Fits, Arguments.mem_options_iff]
  cases flag with
  | noPauses => exact ⟨.inl rfl, fun _ => rfl⟩
  | value setting text =>
    refine ⟨.inr ⟨setting, rfl⟩, fun hswitch => ?_⟩
    cases setting <;> cases hswitch

theorem text?_use (flag : Flag) (setting : Setting) :
    flag.use.text? setting.option = flag.text? setting := by
  cases flag with
  | noPauses => cases setting <;> rfl
  | value other text => cases other <;> cases setting <;> rfl

theorem texts_use (flags : List Flag) (setting : Setting) :
    Use.texts (flags.map use) setting.option = texts flags setting := by
  rw [Use.texts, List.filterMap_map]
  apply List.filterMap_congr
  intro flag _
  exact flag.text?_use setting

theorem texts_use_pauses (flags : List Flag) :
    Use.texts (flags.map use) Arguments.pausesOption
      = List.replicate (flags.count .noPauses) "true" := by
  induction flags with
  | nil => rfl
  | cons flag rest ih =>
    rw [Use.texts] at ih ⊢
    cases flag with
    | noPauses =>
      rw [List.count_cons_self, List.replicate_succ, ← ih]
      rfl
    | value setting text =>
      have hother : (value setting text).use.text? Arguments.pausesOption = none := by
        cases setting <;> rfl
      rw [List.count_cons_of_ne (by simp), ← ih, List.map_cons,
        List.filterMap_cons_none hother]

end Flag

/-! ## What a parser finds -/

namespace Arguments

variable {parser : Parser} {environment : String → Option String} {flags : List Flag}
  {found : Found} {arguments : Arguments}

theorem not_misused (hfit : Flag.Fit flags) : ¬ Use.Misused options (flags.map Flag.use) := by
  rintro (⟨hmem, hset, hmany⟩ | ⟨hmem, htext, hnone⟩)
  · rcases mem_options_iff.mp hmem with rfl | ⟨setting, rfl⟩
    · rw [Flag.texts_use_pauses, List.length_replicate] at hmany
      have hcount := hfit.noPauses
      omega
    · rw [Flag.texts_use] at hmany
      have hwords : setting ≠ .words := by
        rintro rfl
        exact hset rfl
      have honce := hfit.once setting hwords
      omega
  · rcases mem_options_iff.mp hmem with rfl | ⟨setting, rfl⟩
    · rw [Flag.texts_use_pauses] at htext
      rw [List.eq_of_mem_replicate htext] at hnone
      refine hnone (LongOption.accepts_iff.mpr ⟨[.switch true], ?_⟩)
      exact LongOption.reads_singleton_iff.mpr (.cons (.switch rfl) .nil)
    · rw [Flag.texts_use] at htext
      obtain ⟨content, hsaid⟩ := hfit.possible setting _ htext
      exact hnone hsaid.accepts

/-- Flags that fit are accepted, and every option has the values of the texts that decide
it. -/
theorem exists_found (hparser : parser.Documented) (hfit : Flag.Fit flags)
    (hvariables : ∀ setting text, Flag.texts flags setting = [] →
      setting.option.fallback? environment = some text →
        ∃ content, setting.Says text content) :
    ∃ found, parser options environment (flags.map Flag.argument) = .ok found ∧
      ∀ option ∈ options, option.Reads
        (option.deciding environment (Use.texts (flags.map Flag.use) option))
        (found option.name) := by
  have harguments : (flags.map Flag.use).map Use.argument = flags.map Flag.argument := by
    rw [List.map_map]
    exact List.map_congr_left fun flag _ => flag.argument_use
  have hfits : ∀ use ∈ flags.map Flag.use, use.Fits options :=
    List.forall_mem_map.mpr fun flag _ => flag.fits_use
  rw [← harguments]
  cases hparse : parser options environment ((flags.map Flag.use).map Use.argument) with
  | ok found => exact ⟨found, rfl, fun _ => hparser.reads declared_options hfits hparse⟩
  | error error =>
    rcases hparser.fails declared_options hfits hparse with hmisused | hvariable
    · exact absurd hmisused (not_misused hfit)
    · obtain ⟨option, hmem, hnone, text, htext, hrefused⟩ := hvariable
      rcases mem_options_iff.mp hmem with rfl | ⟨setting, rfl⟩
      · cases htext
      · rw [Flag.texts_use] at hnone
        obtain ⟨content, hsaid⟩ := hvariables setting text hnone htext
        exact absurd hsaid.accepts hrefused

theorem exists_usual {setting : Setting} (hwords : setting ≠ .words) :
    ∃ text, setting.option.usual = some text := by
  cases setting <;> first | exact ⟨_, rfl⟩ | exact absurd rfl hwords

/-- One text decides a setting, unless it is the words. -/
theorem exists_deciding (hfit : Flag.Fit flags) {setting : Setting} (hwords : setting ≠ .words) :
    ∃ text, setting.option.deciding environment (Flag.texts flags setting) = [text] := by
  unfold LongOption.deciding
  have honce := hfit.once setting hwords
  cases hflags : Flag.texts flags setting with
  | nil =>
    cases hvariable : setting.option.fallback? environment with
    | none =>
      obtain ⟨text, htext⟩ := exists_usual hwords
      exact ⟨text, by rw [htext]; rfl⟩
    | some text => exact ⟨text, rfl⟩
  | cons text rest =>
    rw [hflags, List.length_cons] at honce
    have hrest : rest = [] := by
      rw [← List.length_eq_zero_iff]
      omega
    exact ⟨text, by rw [hrest]; rfl⟩

theorem switch_of_found (hfit : Flag.Fit flags)
    (h : pausesOption.Reads (pausesOption.deciding environment
      (Use.texts (flags.map Flag.use) pausesOption)) (found pausesOption.name)) :
    found pausesOption.name = [.switch (decide (.noPauses ∈ flags))] := by
  refine h.unique ?_
  rw [Flag.texts_use_pauses]
  by_cases hmem : .noPauses ∈ flags
  · have hcount : flags.count .noPauses = 1 := by
      have hpositive := List.count_pos_iff.mpr hmem
      have honce := hfit.noPauses
      omega
    rw [hcount, decide_eq_true hmem]
    exact .cons (.switch rfl) .nil
  · rw [List.count_eq_zero.mpr hmem, decide_eq_false hmem]
    exact .cons (.switch rfl) .nil

/-! ## Arguments -/

/-- Each setting is what its flag says, else what its variable says, else the usual. -/
structure Follows (environment : String → Option String) (flags : List Flag)
    (arguments : Arguments) : Prop where
  fromFlag : ∀ setting text, setting ≠ .words → .value setting text ∈ flags →
    setting.Says text (arguments.content setting)
  /-- The words of all the flags, one flag behind the other. -/
  words : Flag.texts flags .words ≠ [] →
    ∃ groups, List.Forall₂ Text.IsJoined (Flag.texts flags .words) groups ∧
      arguments.words = groups.flatten
  fromVariable : ∀ setting text, Flag.texts flags setting = [] →
    setting.option.fallback? environment = some text →
      setting.Says text (arguments.content setting)
  usual : ∀ setting, Flag.texts flags setting = [] →
    setting.option.fallback? environment = none →
      arguments.content setting = usual.content setting
  noPauses : arguments.noPauses = true ↔ .noPauses ∈ flags

/-- Words are listed by flags, with commas between the words of one flag, or all of them in
the variable. -/
inductive Listed (environment : String → Option String) (flags : List Flag) :
    List String → Prop where
  | inFlags (groups : List (List String)) (hne : ∀ group ∈ groups, group ≠ [])
      (htexts : Flag.texts flags .words = groups.map ",".intercalate) :
      Listed environment flags groups.flatten
  | inVariable (words : List String) (hnone : Flag.texts flags .words = [])
      (hvariable : environment "VT52_WORDS" = some (",".intercalate words)) :
      Listed environment flags words

theorem exists_groups {texts : List String} {words : List String}
    (h : Setting.words.option.Reads texts (words.map .text)) :
    ∃ groups, List.Forall₂ Text.IsJoined texts groups ∧ words = groups.flatten := by
  have hmap := forall₂_reads_text_iff.mp h
  have hinjective : Function.Injective Value.text := fun _ _ => Value.text.inj
  refine ⟨texts.map Setting.words.option.pieces, ?_, ?_⟩
  · rw [List.forall₂_map_right_iff, List.forall₂_same]
    exact fun text _ => pieces_eq_iff.mp rfl
  · exact List.map_injective_iff.mpr hinjective hmap

theorem follows_of_reads (hfit : Flag.Fit flags)
    (h : ∀ setting : Setting, setting.option.Reads
      (setting.option.deciding environment (Flag.texts flags setting))
      (arguments.content setting).values)
    (hpauses : arguments.noPauses = decide (.noPauses ∈ flags)) :
    arguments.Follows environment flags := by
  constructor
  · intro setting text hwords hflag
    have hmem := Flag.mem_texts_iff.mpr hflag
    have htext : Flag.texts flags setting = [text] := by
      obtain ⟨first, hfirst⟩ : ∃ first, Flag.texts flags setting = [first] := by
        rw [← List.length_eq_one_iff]
        have hpositive := List.length_pos_of_mem hmem
        have honce := hfit.once setting hwords
        omega
      rw [hfirst, List.mem_singleton] at hmem
      rw [hfirst, hmem]
    have hreads := h setting
    rw [htext] at hreads
    exact Setting.says_of_reads hreads
  · intro hsome
    have hreads := h .words
    rw [LongOption.deciding, filled_of_ne hsome, filled_of_ne hsome] at hreads
    exact exists_groups hreads
  · intro setting text hnone hvariable
    have hreads := h setting
    rw [LongOption.deciding, hnone, filled_nil, hvariable] at hreads
    exact Setting.says_of_reads hreads
  · intro setting hnone hvariable
    have hreads := h setting
    rw [LongOption.deciding, hnone, filled_nil, hvariable, Option.toList_none,
      filled_nil] at hreads
    by_cases hwords : setting = .words
    · obtain rfl := hwords
      exact congrArg Content.words (List.map_eq_nil_iff.mp (LongOption.reads_nil_iff.mp hreads))
    · obtain ⟨text, htext⟩ := exists_usual hwords
      rw [htext] at hreads
      exact (Setting.says_of_reads hreads).unique (says_usual htext)
  · rw [hpauses, decide_eq_true_iff]

theorem exists_parse (hparser : parser.Documented) (hfit : Flag.Fit flags)
    (hvariables : ∀ setting text, Flag.texts flags setting = [] →
      setting.option.fallback? environment = some text →
        ∃ content, setting.Says text content) :
    ∃ arguments, parse parser environment (flags.map Flag.argument) = .ok arguments ∧
      arguments.noPauses = decide (.noPauses ∈ flags) ∧
      ∀ setting : Setting, setting.option.Reads
        (setting.option.deciding environment (Flag.texts flags setting))
        (arguments.content setting).values := by
  obtain ⟨found, hfound, hoptions⟩ := exists_found hparser hfit hvariables
  have hreads : ∀ setting : Setting, setting.option.Reads
      (setting.option.deciding environment (Flag.texts flags setting))
      (found setting.option.name) := by
    intro setting
    have h := hoptions setting.option (mem_options_iff.mpr (.inr ⟨setting, rfl⟩))
    rwa [Flag.texts_use] at h
  have hpauses := switch_of_found hfit (hoptions pausesOption (mem_options_iff.mpr (.inl rfl)))
  obtain ⟨arguments, harguments, hsame, hcontent⟩ :=
    exists_ofFound hreads (fun _ => exists_deciding hfit) hpauses
  refine ⟨arguments, ?_, hsame, ?_⟩
  · rw [parse, hfound]
    exact harguments
  · intro setting
    rw [← hcontent setting]
    exact hreads setting

theorem isJoined_of_isSpelled {words : List String} (hne : words ≠ [])
    (hletters : ∀ word ∈ words, Text.IsSpelled word) :
    Text.IsJoined (",".intercalate words) words := by
  refine ⟨hne, rfl, ?_⟩
  intro word hword hcomma
  have hletter : Text.isLetter ',' = true := hletters word hword ',' hcomma
  exact absurd hletter (by decide)

/-- Words that are listed are the words of the arguments. -/
theorem Follows.words_eq {words : List String} (h : arguments.Follows environment flags)
    (hlisted : Listed environment flags words) (hne : words ≠ [])
    (hletters : ∀ word ∈ words, Text.IsSpelled word) : arguments.words = words := by
  cases hlisted with
  | inFlags groups hgroups htexts =>
    have hsome : Flag.texts flags .words ≠ [] := by
      rw [htexts, ne_eq, List.map_eq_nil_iff]
      rintro rfl
      exact hne rfl
    obtain ⟨pieces, hpieces, hwords⟩ := h.words hsome
    have hjoined : List.Forall₂ Text.IsJoined (Flag.texts flags .words) groups := by
      rw [htexts, List.forall₂_map_left_iff, List.forall₂_same]
      intro group hgroup
      apply isJoined_of_isSpelled (hgroups group hgroup)
      intro word hword
      exact hletters word (List.mem_flatten_of_mem hgroup hword)
    have hunique : Relator.RightUnique Text.IsJoined := fun _ _ _ => Text.IsJoined.unique
    rw [hwords, List.right_unique_forall₂' hunique hpieces hjoined]
  | inVariable words hnone hvariable =>
    have hsaid := h.fromVariable .words _ hnone hvariable
    have hjoined : Setting.Says .words _ (.words words) :=
      .words (isJoined_of_isSpelled hne hletters)
    exact Content.words.inj (hsaid.unique hjoined)

theorem forall₂_standsFor_iff {words accepted : List String}
    (hletters : ∀ word ∈ words, word ≠ "" ∧ Text.IsSpelled word) :
    List.Forall₂ StandsFor words accepted ↔ accepted = words.map Text.capitals := by
  have hcapitals : List.Forall₂ StandsFor words (words.map Text.capitals) := by
    rw [List.forall₂_map_right_iff, List.forall₂_same]
    intro word hword
    exact standsFor_capitals (hletters word hword).1 (hletters word hword).2
  have hunique : Relator.RightUnique StandsFor := fun _ _ _ => StandsFor.unique
  constructor
  · intro haccepted
    exact List.right_unique_forall₂' hunique haccepted hcapitals
  · rintro rfl
    exact hcapitals

/-- **A flag decides before the environment does.**  Whatever parser does what is known of
parsers, flags with possible texts, of which only words have several, are accepted in every
order, whatever stands in the variables of the settings that have a flag, if the other
variables have possible texts.  Each setting is what its flag says, else what its variable
says, else the usual value, and the words are those of all the flags.  Only the order of the
flags for words matters.  Words of letters are the same words, in capitals, however they are
listed. -/
theorem parse_follows (hparser : parser.Documented) (hfit : Flag.Fit flags)
    (hvariables : ∀ setting text, Flag.texts flags setting = [] →
      setting.option.fallback? environment = some text →
        ∃ content, setting.Says text content) :
    ∃ arguments, parse parser environment (flags.map Flag.argument) = .ok arguments ∧
      arguments.Follows environment flags ∧
      (∀ others, others.Perm flags → Flag.texts others .words = Flag.texts flags .words →
        parse parser environment (others.map Flag.argument) = .ok arguments) ∧
      ∀ words, words ≠ [] → (∀ word ∈ words, word ≠ "" ∧ Text.IsSpelled word) →
        Listed environment flags words →
        arguments.words = words ∧
        ((∃ run, arguments.resolve = .ok run) ↔
          arguments.mode = .serial ∨ ∃ number, ListensOn arguments.port number) ∧
        ∀ run, arguments.resolve = .ok run → run.session.words = words.map Text.capitals := by
  obtain ⟨arguments, hparse, hpauses, hreads⟩ := exists_parse hparser hfit hvariables
  have hfollows := follows_of_reads hfit hreads hpauses
  refine ⟨arguments, hparse, hfollows, ?_, ?_⟩
  · intro others hperm hwords
    have htexts := hfit.texts_eq_of_perm hperm hwords
    obtain ⟨other, hother, hswitched, hread⟩ :=
      exists_parse hparser (hfit.of_perm hperm hwords) (htexts ▸ hvariables)
    have hsame : other = arguments := by
      rw [htexts] at hread
      refine ext_content (fun setting => content_inj ((hread setting).unique (hreads setting))) ?_
      rw [hswitched, hpauses, decide_eq_decide, hperm.mem_iff]
    rw [hother, hsame]
  · intro words hne hletters hlisted
    have hwords := hfollows.words_eq hlisted hne fun word hword => (hletters word hword).2
    refine ⟨hwords, ?_, ?_⟩
    · rw [exists_resolve_iff, hwords]
      constructor
      · exact fun h => h.2
      · intro hport
        refine ⟨?_, hport⟩
        intro word hword
        exact ⟨_, standsFor_capitals (hletters word hword).1 (hletters word hword).2⟩
    · intro run hrun
      have hyields := yields_iff.mp hrun
      have haccepted := hyields.words
      rwa [hwords, forall₂_standsFor_iff hletters] at haccepted

def serverFlags : List Flag :=
  [.value .words "ox,Yak", .noPauses, .value .mode "telnet", .value .words "fox",
    .value .port "+04000"]

/-- Variables of which only the last one is read beside these flags. -/
def serverVariables : List (String × String) :=
  [("VT52_MODE", "modem"), ("VT52_WORDS", "2fast"), ("VT52_DRAIN_SECS", "7")]

theorem parse_follows_server :
    Parser.Documented readArguments ∧ Flag.Fit serverFlags ∧
    ∃ arguments, parse readArguments (fun name => serverVariables.lookup name)
        ["--words=ox,Yak", "--no-pauses", "--mode=telnet", "--words=fox", "--port=+04000"]
          = .ok arguments ∧
      arguments.content .drain = .number 7 ∧
      ∃ run, arguments.resolve = .ok run ∧ run.session.words = ["OX", "YAK", "FOX"] := by
  have hfit : Flag.Fit serverFlags := by
    constructor
    · intro setting text htext
      rw [Flag.mem_texts_iff] at htext
      simp only [serverFlags, List.mem_cons, List.not_mem_nil, or_false, false_or, reduceCtorEq,
        Flag.value.injEq] at htext
      rcases htext with ⟨rfl, rfl⟩ | ⟨rfl, rfl⟩ | ⟨rfl, rfl⟩ | ⟨rfl, rfl⟩
      · exact ⟨_, .words (pieces_eq_iff.mp rfl)⟩
      · exact ⟨_, .telnet⟩
      · exact ⟨_, .words (pieces_eq_iff.mp rfl)⟩
      · exact ⟨_, .port _⟩
    · intro setting hwords
      cases setting <;> first | exact absurd rfl hwords | decide
    · decide
  have hread : Text.natural? 7 "7" = some 7 := by decide +kernel
  have hseven : Setting.Says .drain "7" (.number 7) :=
    .drain (Text.natural?_eq_some_iff.mp hread).1 (by decide)
  have hvariables : ∀ setting text, Flag.texts serverFlags setting = [] →
      setting.option.fallback? (fun name => serverVariables.lookup name) = some text →
        ∃ content, setting.Says text content := by
    intro setting text hnone hvariable
    cases setting with
    | mode | words | port => cases hnone
    | baudrate | host | sendDelay | logLevel => cases hvariable
    | drain =>
      cases hvariable
      exact ⟨_, hseven⟩
  obtain ⟨arguments, hparse, hfollows, -, hwords⟩ :=
    parse_follows readArguments_documented hfit hvariables
  have hlisted : Listed (fun name => serverVariables.lookup name) serverFlags
      ["ox", "Yak", "fox"] :=
    .inFlags [["ox", "Yak"], ["fox"]] (by decide) (by decide +kernel)
  have hletters : ∀ word ∈ ["ox", "Yak", "fox"], word ≠ "" ∧ Text.IsSpelled word := by
    have hall : ["ox", "Yak", "fox"].all
        (fun word => word != "" && word.toList.all Text.isLetter) = true := by
      decide +kernel
    intro word hword
    have hboth := List.all_eq_true.mp hall word hword
    rwa [Bool.and_eq_true, bne_iff_ne, List.all_eq_true] at hboth
  obtain ⟨-, hresolves, hrun⟩ := hwords _ (by decide) hletters hlisted
  have hport : arguments.port = "+04000" := by
    have hsaid := hfollows.fromFlag .port "+04000" (by decide) (by decide)
    exact Content.text.inj (hsaid.unique (.port _))
  have hnumber : Text.natural? 65535 (Text.trim "+04000") = some 4000 := by decide +kernel
  obtain ⟨run, hresolve⟩ := hresolves.mpr (.inr ⟨4000, telnetPort_eq_ok_iff.mp (by
    rw [hport, telnetPort, hnumber]
    rfl)⟩)
  refine ⟨readArguments_documented, hfit, arguments, hparse, ?_, run, hresolve, ?_⟩
  · exact (hfollows.fromVariable .drain "7" rfl rfl).unique hseven
  · rw [hrun run hresolve]
    decide +kernel

end Arguments

end TerminalHost
