import TerminalHost.CommandLine.Reader
import TerminalHost.Proofs.Settings.Parsing
import TerminalHost.Proofs.Settings.Resolving

/-!
# The reader is a parser

The reader of the program does what is known of a parser: it follows the uses from the left,
then it supplies what is missing from the variables, and then from the usual texts.
-/

namespace TerminalHost

theorem orError_eq_ok_iff {α : Type} {error : UsageError} {found : Option α} {value : α} :
    orError error found = .ok value ↔ found = some value := by
  cases found <;> simp [orError]

theorem ValueKind.read_eq_ok_iff {kind : ValueKind} {text : String} {value : Value} :
    kind.read text = .ok value ↔ kind.Reads text value := by
  constructor
  · intro h
    cases kind with
    | text =>
      cases h
      exact .text text
    | oneOf names =>
      rw [read] at h
      split at h
      · next hmem =>
        cases h
        exact .oneOf hmem
      · cases h
    | number32 =>
      obtain ⟨number, hnumber, hvalue⟩ := bind_eq_ok_iff.mp h
      rw [orError_eq_ok_iff, Text.integer?_eq_some_iff] at hnumber
      cases hvalue
      exact .number32 hnumber.1 hnumber.2
    | number64 =>
      obtain ⟨number, hnumber, hvalue⟩ := bind_eq_ok_iff.mp h
      rw [orError_eq_ok_iff, Text.natural?_eq_some_iff] at hnumber
      cases hvalue
      exact .number64 hnumber.1 hnumber.2
    | switch =>
      rw [read] at h
      split at h
      · next htrue =>
        cases h
        exact .switch htrue
      · split at h
        · next hfalse =>
          cases h
          exact .switch hfalse
        · cases h
  · intro h
    cases h with
    | text => rfl
    | oneOf hmem => rw [read, if_pos hmem]
    | number32 hnumber hle =>
      refine bind_eq_ok_iff.mpr ⟨_, ?_, rfl⟩
      exact orError_eq_ok_iff.mpr (Text.integer?_eq_some_iff.mpr ⟨hnumber, hle⟩)
    | number64 hnumber hle =>
      refine bind_eq_ok_iff.mpr ⟨_, ?_, rfl⟩
      exact orError_eq_ok_iff.mpr (Text.natural?_eq_some_iff.mpr ⟨hnumber, hle⟩)
    | @switch _ value htext =>
      rw [htext]
      cases value <;> rfl

/-! ## Texts that are put behind values -/

namespace Found

variable {found next : Found} {option : LongOption} {text : String} {error : UsageError}

theorem add_self (found : Found) (name : String) (values : List Value) :
    found.add name values name = found name ++ values :=
  if_pos rfl

theorem add_of_ne (found : Found) {name other : String} (values : List Value)
    (h : other ≠ name) : found.add name values other = found other :=
  if_neg h

theorem put_eq_ok_iff :
    found.put option text = .ok next ↔
      ∃ values, option.Reads [text] values ∧ next = found.add option.name values := by
  rw [put, bind_eq_ok_iff]
  simp only [mapM_eq_ok_iff, ValueKind.read_eq_ok_iff, LongOption.reads_singleton_iff]
  apply exists_congr
  intro values
  apply and_congr_right
  intro _
  constructor
  · intro h
    exact (Except.ok.inj h).symm
  · rintro rfl
    rfl

theorem not_accepts_of_put (h : found.put option text = .error error) : ¬ option.Accepts text := by
  rw [LongOption.accepts_iff]
  rintro ⟨values, hvalues⟩
  rw [put_eq_ok_iff.mpr ⟨values, hvalues, rfl⟩] at h
  cases h

end Found

/-! ## The command line -/

theorem Use.ofText_argument {options : List LongOption} (hdeclared : Declared options) {use : Use}
    (hfits : use.Fits options) :
    Argument.ofText use.argument
      = .long use.option.name (if use.option.action = .setTrue then none else some use.text) := by
  have hnamed := hdeclared.named use.option hfits.1
  have hplain : ∀ c ∈ use.option.name.toList, decide (c ≠ '=') = true := by
    intro c hc
    rw [decide_eq_true_iff]
    rintro rfl
    exact absurd (hnamed.goesOn _ hc) (by decide)
  obtain ⟨first, rest, hname⟩ : ∃ first rest, use.option.name.toList = first :: rest := by
    rw [← List.ne_nil_iff_exists_cons]
    intro hnil
    have hstarts := hnamed.starts
    rw [hnil] at hstarts
    cases hstarts
  unfold argument
  split
  · have hargument : ("--" ++ use.option.name).toList = '-' :: '-' :: first :: rest := by
      simp [hname]
    rw [hname] at hplain
    simp only [Argument.ofText, hargument, List.takeWhile_eq_self_iff.mpr hplain,
      List.dropWhile_eq_nil_iff.mpr hplain]
    rw [← hname, String.ofList_toList]
  · have hargument : ("--" ++ use.option.name ++ "=" ++ use.text).toList
        = '-' :: '-' :: first :: (rest ++ '=' :: use.text.toList) := by
      simp [hname]
    rw [hname] at hplain
    have hfirst : (first :: (rest ++ '=' :: use.text.toList)).takeWhile (· ≠ '=')
        = first :: rest := by
      rw [← List.cons_append, List.takeWhile_append_of_pos hplain]
      simp
    have hlast : (first :: (rest ++ '=' :: use.text.toList)).dropWhile (· ≠ '=')
        = '=' :: use.text.toList := by
      rw [← List.cons_append, List.dropWhile_append_of_pos hplain]
      simp
    simp only [Argument.ofText, hargument, hfirst, hlast]
    rw [← hname, String.ofList_toList, String.ofList_toList]

theorem Declared.find?_name {options : List LongOption} (h : Declared options)
    {option : LongOption} (hmem : option ∈ options) :
    options.find? (fun other => other.name == option.name) = some option := by
  cases hfind : options.find? fun other => other.name == option.name with
  | none =>
    rw [List.find?_eq_none] at hfind
    exact absurd BEq.rfl (hfind option hmem)
  | some other =>
    have hname := List.find?_some hfind
    rw [h.eq_of_name (List.mem_of_find?_eq_some hfind) hmem (beq_iff_eq.mp hname)]

namespace Found

variable {options : List LongOption} {uses : List Use} {found next : Found}
  {error : UsageError}

def follow (found : Found) (use : Use) : Except UsageError Found :=
  found.assign use.option use.text

theorem read_uses (hdeclared : Declared options) (hfits : ∀ use ∈ uses, use.Fits options)
    (found : Found) :
    found.read options none (uses.map Use.argument) = uses.foldlM follow found := by
  induction uses generalizing found with
  | nil => rfl
  | cons use rest ih =>
    rw [List.forall_mem_cons] at hfits
    obtain ⟨huse, hrest⟩ := hfits
    rw [List.map_cons, List.foldlM_cons, read, use.ofText_argument hdeclared huse]
    simp only [hdeclared.find?_name huse.1, ih hrest]
    by_cases hswitch : use.option.action = .setTrue
    · simp only [if_pos hswitch, follow, huse.2 hswitch]
      rfl
    · simp only [if_neg hswitch]
      rfl

theorem follow_eq_ok_iff {use : Use} :
    found.follow use = .ok next ↔
      (use.option.action = .append ∨ found use.option.name = []) ∧
        found.put use.option use.text = .ok next := by
  rw [follow, assign]
  split
  · next hagain => simp [hagain]
  · next hagain =>
    rw [not_and_or, not_not, not_not] at hagain
    simp [hagain]

theorem of_follow_eq_error {use : Use} (h : found.follow use = .error error) :
    (use.option.action ≠ .append ∧ found use.option.name ≠ []) ∨
      ¬ use.option.Accepts use.text := by
  rw [follow, assign] at h
  split at h
  · next hagain => exact .inl hagain
  · exact .inr (not_accepts_of_put h)

def Holds (found : Found) (options : List LongOption) (uses : List Use) : Prop :=
  ∀ option ∈ options, option.Reads (Use.texts uses option) (found option.name)

theorem Holds.follow (hdeclared : Declared options) {use : Use} (huse : use.option ∈ options)
    (h : found.Holds options uses) (hnext : found.follow use = .ok next) :
    next.Holds options (uses ++ [use]) := by
  obtain ⟨-, hput⟩ := follow_eq_ok_iff.mp hnext
  obtain ⟨values, hvalues, rfl⟩ := put_eq_ok_iff.mp hput
  intro option hmem
  by_cases hsame : use.option = option
  · obtain rfl := hsame
    rw [Use.texts_concat_self, add_self]
    exact (h _ hmem).append hvalues
  · have hname : option.name ≠ use.option.name := by
      intro hname
      exact hsame (hdeclared.eq_of_name huse hmem hname.symm)
    rw [Use.texts_concat_of_ne uses hsame, add_of_ne found values hname]
    exact h option hmem

theorem holds_of_foldlM (hdeclared : Declared options) (hfits : ∀ use ∈ uses, use.Fits options)
    (hfound : uses.foldlM follow nothing = .ok found) : found.Holds options uses := by
  -- The uses are followed from the left, so the last one is taken off.
  induction uses using List.reverseRecOn generalizing found with
  | nil =>
    cases hfound
    exact fun option _ => LongOption.reads_nil_iff.mpr rfl
  | append_singleton uses use ih =>
    rw [List.forall_mem_append, List.forall_mem_singleton] at hfits
    rw [List.foldlM_append, bind_eq_ok_iff] at hfound
    obtain ⟨before, hbefore, hlast⟩ := hfound
    rw [List.foldlM_cons, bind_eq_ok_iff] at hlast
    obtain ⟨after, hafter, hsame⟩ := hlast
    cases hsame
    exact (ih hfits.1 hbefore).follow hdeclared hfits.2.1 hafter

theorem misused_of_foldlM (hdeclared : Declared options) (hfits : ∀ use ∈ uses, use.Fits options)
    (herror : uses.foldlM follow nothing = .error error) : Use.Misused options uses := by
  induction uses using List.reverseRecOn with
  | nil => cases herror
  | append_singleton uses use ih =>
    rw [List.forall_mem_append, List.forall_mem_singleton] at hfits
    rw [List.foldlM_append, bind_eq_error_iff] at herror
    rcases herror with hbefore | ⟨before, hbefore, hlast⟩
    · exact (ih hfits.1 hbefore).concat use
    · have huse := hfits.2.1
      rw [List.foldlM_cons, bind_eq_error_iff] at hlast
      rcases hlast with hlast | ⟨_, -, hpure⟩
      · rcases of_follow_eq_error hlast with ⟨hset, hsome⟩ | hnone
        · refine .repeated huse hset ?_
          have hvalues := holds_of_foldlM hdeclared hfits.1 hbefore use.option huse
          rw [ne_eq, hvalues.eq_nil_iff, ← ne_eq, ← List.length_pos_iff] at hsome
          rw [Use.texts_concat_self, List.length_append, List.length_singleton]
          omega
        · refine .unreadable huse ?_ hnone
          rw [Use.texts_concat_self]
          exact List.mem_append_right _ List.mem_cons_self
      · cases hpure

end Found

/-! ## What is supplied -/

namespace Found

variable {source : LongOption → Option String} {options : List LongOption}
  {found next : Found} {option : LongOption} {error : UsageError}

/-- The texts that a source has for an option that has no values. -/
def missing (source : LongOption → Option String) (found : Found) (option : LongOption) :
    List String :=
  if found option.name = [] then (source option).toList else []

theorem supply_eq_ok (h : found.supply source option = .ok next) :
    ∃ values, option.Reads (found.missing source option) values ∧
      next = found.add option.name values := by
  have hnothing : found.add option.name [] = found := by
    funext name
    by_cases hname : name = option.name
    · rw [hname, add_self, List.append_nil]
    · exact add_of_ne found [] hname
  rw [supply] at h
  unfold missing
  split at h
  · next hnone =>
    rw [if_pos hnone]
    cases hsource : source option with
    | none =>
      rw [hsource] at h
      cases h
      exact ⟨[], LongOption.reads_nil_iff.mpr rfl, hnothing.symm⟩
    | some text =>
      rw [hsource] at h
      exact put_eq_ok_iff.mp h
  · next hsome =>
    cases h
    rw [if_neg hsome]
    exact ⟨[], LongOption.reads_nil_iff.mpr rfl, hnothing.symm⟩

theorem of_supply_eq_error (h : found.supply source option = .error error) :
    found option.name = [] ∧ ∃ text, source option = some text ∧ ¬ option.Accepts text := by
  rw [supply] at h
  split at h
  · next hnone =>
    cases hsource : source option with
    | none =>
      rw [hsource] at h
      cases h
    | some text =>
      rw [hsource] at h
      exact ⟨hnone, text, rfl, not_accepts_of_put h⟩
  · cases h

/-- Each option gets the values of its source, if it has none, and nothing else changes. -/
theorem foldlM_supply_eq_ok (hdistinct : (options.map LongOption.name).Nodup)
    (h : options.foldlM (supply source) found = .ok next) :
    (∀ option ∈ options, ∃ values, option.Reads (found.missing source option) values ∧
        next option.name = found option.name ++ values) ∧
      ∀ name ∉ options.map LongOption.name, next name = found name := by
  induction options generalizing found with
  | nil =>
    cases h
    simp
  | cons option rest ih =>
    rw [List.foldlM_cons, bind_eq_ok_iff] at h
    obtain ⟨mid, hmid, hrest⟩ := h
    obtain ⟨values, hvalues, rfl⟩ := supply_eq_ok hmid
    rw [List.map_cons, List.nodup_cons] at hdistinct
    obtain ⟨hnew, hdistinct⟩ := hdistinct
    obtain ⟨hoptions, hothers⟩ := ih hdistinct hrest
    constructor
    · rw [List.forall_mem_cons]
      constructor
      · refine ⟨values, hvalues, ?_⟩
        rw [hothers option.name hnew, add_self]
      · intro other hother
        have hname : other.name ≠ option.name := by
          rintro hname
          exact hnew (hname ▸ List.mem_map_of_mem hother)
        obtain ⟨more, hmore, hnext⟩ := hoptions other hother
        have hsame := add_of_ne found values hname
        rw [missing, hsame] at hmore
        exact ⟨more, hmore, hsame ▸ hnext⟩
    · intro name hname
      rw [List.map_cons, List.mem_cons, not_or] at hname
      rw [hothers name hname.2, add_of_ne found values hname.1]

theorem of_foldlM_supply_eq_error
    (h : options.foldlM (supply source) found = .error error) :
    ∃ option ∈ options, found option.name = [] ∧
      ∃ text, source option = some text ∧ ¬ option.Accepts text := by
  induction options generalizing found with
  | nil => cases h
  | cons option rest ih =>
    rw [List.foldlM_cons, bind_eq_error_iff] at h
    rcases h with hfirst | ⟨mid, hmid, hrest⟩
    · exact ⟨option, List.mem_cons_self, of_supply_eq_error hfirst⟩
    · obtain ⟨values, -, rfl⟩ := supply_eq_ok hmid
      obtain ⟨other, hother, hnone, hsource⟩ := ih hrest
      refine ⟨other, List.mem_cons_of_mem _ hother, ?_, hsource⟩
      -- What has no values behind others has none before them.
      by_cases hname : other.name = option.name
      · rw [hname, add_self, List.append_eq_nil_iff] at hnone
        rw [hname, hnone.1]
      · rwa [add_of_ne found values hname] at hnone

end Found

/-! ## The reader -/

section Documented

variable {options : List LongOption} {environment : String → Option String} {uses : List Use}
  {found : Found} {option : LongOption}

theorem LongOption.Reads.fill {source : LongOption → Option String} {texts : List String}
    {values : List Value} (h : option.Reads texts (found option.name))
    (hvalues : option.Reads (found.missing source option) values) :
    option.Reads (filled texts (source option)) (found option.name ++ values) := by
  unfold filled
  split
  · next hnone =>
    have hfound := h.eq_nil_iff.mpr hnone
    rw [Found.missing, if_pos hfound] at hvalues
    rwa [hfound, List.nil_append]
  · next hsome =>
    rw [Found.missing, if_neg (mt h.eq_nil_iff.mp hsome), LongOption.reads_nil_iff] at hvalues
    rwa [hvalues, List.append_nil]

theorem reads_of_readArguments (hdeclared : Declared options)
    (hfits : ∀ use ∈ uses, use.Fits options)
    (hfound : readArguments options environment (uses.map Use.argument) = .ok found)
    (hmem : option ∈ options) :
    option.Reads (option.deciding environment (Use.texts uses option)) (found option.name) := by
  rw [readArguments, Found.read_uses hdeclared hfits, bind_eq_ok_iff] at hfound
  obtain ⟨used, hused, hfound⟩ := hfound
  obtain ⟨read, hread, hfound⟩ := bind_eq_ok_iff.mp hfound
  have huses := Found.holds_of_foldlM hdeclared hfits hused option hmem
  obtain ⟨more, hmore, hadded⟩ :=
    (Found.foldlM_supply_eq_ok hdeclared.distinct hread).1 option hmem
  have hvariable := huses.fill hmore
  rw [← hadded] at hvariable
  obtain ⟨rest, hrest, hlast⟩ :=
    (Found.foldlM_supply_eq_ok hdeclared.distinct hfound).1 option hmem
  rw [hlast]
  exact hvariable.fill hrest

theorem refused_of_readArguments {error : UsageError} (hdeclared : Declared options)
    (hfits : ∀ use ∈ uses, use.Fits options)
    (herror : readArguments options environment (uses.map Use.argument) = .error error) :
    Use.Misused options uses ∨
      ∃ option ∈ options, Use.texts uses option = [] ∧
        ∃ text, option.fallback? environment = some text ∧ ¬ option.Accepts text := by
  rw [readArguments, Found.read_uses hdeclared hfits, bind_eq_error_iff] at herror
  rcases herror with huses | ⟨used, hused, herror⟩
  · exact .inl (Found.misused_of_foldlM hdeclared hfits huses)
  · rcases bind_eq_error_iff.mp herror with hvariable | ⟨read, -, husual⟩
    · obtain ⟨option, hmem, hnone, htext⟩ := Found.of_foldlM_supply_eq_error hvariable
      have hvalues := Found.holds_of_foldlM hdeclared hfits hused option hmem
      exact .inr ⟨option, hmem, hvalues.eq_nil_iff.mp hnone, htext⟩
    · -- A usual text is always accepted.
      obtain ⟨option, hmem, -, text, htext, hnone⟩ := Found.of_foldlM_supply_eq_error husual
      exact absurd (hdeclared.usual option hmem text htext) hnone

/-- The reader does what is known of a parser. -/
theorem readArguments_documented : Parser.Documented readArguments where
  fails := refused_of_readArguments
  used hdeclared hfits hfound option hmem hsome := by
    have h := reads_of_readArguments hdeclared hfits hfound hmem
    rwa [LongOption.deciding, filled_of_ne hsome, filled_of_ne hsome] at h
  fallback hdeclared hfits hfound option hmem hnone text htext := by
    have h := reads_of_readArguments hdeclared hfits hfound hmem
    rwa [LongOption.deciding, hnone, filled_nil, htext] at h
  usual hdeclared hfits hfound option hmem hnone hunset := by
    have h := reads_of_readArguments hdeclared hfits hfound hmem
    rwa [LongOption.deciding, hnone, filled_nil, hunset] at h

end Documented

end TerminalHost
