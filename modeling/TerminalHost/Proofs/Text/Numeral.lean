import Mathlib.Data.List.Induction
import Mathlib.Data.Nat.Digits.Defs
import TerminalHost.Text.Numeral

/-!
# What a numeral stands for

A numeral is a row of decimal digits behind an optional sign, and it stands for the sum of
its digits, each times the power of ten of its place.  A text is read as a number exactly if
it is a numeral whose value fits; leading zeros neither hurt nor count.
-/

namespace TerminalHost.Text

/-- A row of decimal digits, the highest one first, and the number they stand for. -/
def IsDigits (chars : List Char) (value : Nat) : Prop :=
  ∃ digits : List Nat, digits ≠ [] ∧ (∀ digit ∈ digits, digit < 10) ∧
    chars = digits.map Nat.digitChar ∧ value = Nat.ofDigits 10 digits.reverse

/-- Decimal digits behind an optional plus sign. -/
def IsNumeral (text : String) (value : Nat) : Prop :=
  ∃ digits, IsDigits digits value ∧ (text.toList = digits ∨ text.toList = '+' :: digits)

/-- A numeral, or zero behind a minus sign. -/
def IsInteger (text : String) (value : Nat) : Prop :=
  IsNumeral text value ∨
    (value = 0 ∧ ∃ digits, IsDigits digits 0 ∧ text.toList = '-' :: digits)

variable {chars : List Char} {text : String} {value most : Nat}

/-! ## Digits -/

theorem digitChar_of_isDigit {c : Char} (h : c.isDigit = true) :
    c.toNat - 0x30 < 10 ∧ Nat.digitChar (c.toNat - 0x30) = c := by
  have hrange : 48 ≤ c.toNat ∧ c.toNat ≤ 57 := by
    obtain ⟨hlow, hhigh⟩ := Bool.and_eq_true_iff.mp h
    exact ⟨of_decide_eq_true hlow, of_decide_eq_true hhigh⟩
  have hlt : c.toNat - 0x30 < 10 := by omega
  refine ⟨hlt, Char.toNat_inj.mp ?_⟩
  rw [Nat.toNat_digitChar_of_lt_ten hlt]
  omega

theorem isDigit_of_mem_map {digits : List Nat} (h : ∀ digit ∈ digits, digit < 10) :
    ∀ c ∈ digits.map Nat.digitChar, c.isDigit = true := by
  intro c hc
  obtain ⟨digit, hdigit, rfl⟩ := List.mem_map.mp hc
  rw [Nat.isDigit_digitChar]
  exact decide_eq_true (h digit hdigit)

theorem foldl_digitChar {digits : List Nat} (h : ∀ digit ∈ digits, digit < 10) :
    (digits.map Nat.digitChar).foldl (fun value c => value * 10 + (c.toNat - 0x30)) 0
      = Nat.ofDigits 10 digits.reverse := by
  induction digits using List.reverseRecOn with
  | nil => rfl
  | append_singleton higher last ih =>
    rw [List.forall_mem_append] at h
    have hlast : last < 10 := h.2 last (List.mem_singleton_self last)
    rw [List.map_append, List.foldl_append, ih h.1, List.map_singleton, List.foldl_cons,
      List.foldl_nil, Nat.toNat_digitChar_sub_48_of_lt_ten hlast, List.reverse_append,
      List.reverse_singleton, List.singleton_append, Nat.ofDigits_cons]
    omega

theorem digits?_eq_some_iff : digits? chars = some value ↔ IsDigits chars value := by
  unfold digits? IsDigits
  rw [Option.ite_none_left_eq_some, Bool.or_eq_true, not_or, List.isEmpty_iff,
    Bool.not_eq_true', Bool.not_eq_false, List.all_eq_true, Option.some.injEq]
  constructor
  · rintro ⟨⟨hne, hall⟩, hvalue⟩
    have hchars : (chars.map fun c => c.toNat - 0x30).map Nat.digitChar = chars := by
      rw [List.map_map]
      conv_rhs => rw [← List.map_id chars]
      apply List.map_congr_left
      intro c hc
      exact (digitChar_of_isDigit (hall c hc)).2
    have hdigits : ∀ digit ∈ chars.map fun c => c.toNat - 0x30, digit < 10 := by
      intro digit hdigit
      obtain ⟨c, hc, rfl⟩ := List.mem_map.mp hdigit
      exact (digitChar_of_isDigit (hall c hc)).1
    refine ⟨chars.map fun c => c.toNat - 0x30, ?_, ?_, ?_, ?_⟩
    · rwa [ne_eq, List.map_eq_nil_iff]
    · exact hdigits
    · exact hchars.symm
    · rw [← foldl_digitChar hdigits, hchars, hvalue]
  · rintro ⟨digits, hne, hdigits, rfl, hvalue⟩
    rw [foldl_digitChar hdigits]
    refine ⟨⟨?_, isDigit_of_mem_map hdigits⟩, hvalue.symm⟩
    rwa [List.map_eq_nil_iff]

/-- No sign is a digit, so digits do not begin with one. -/
theorem IsDigits.ne_cons (h : IsDigits chars value) {sign : Char}
    (hsign : sign.isDigit = false) (rest : List Char) : chars ≠ sign :: rest := by
  obtain ⟨digits, -, hdigits, hchars, -⟩ := h
  rw [hchars]
  intro hcons
  have hdigit := isDigit_of_mem_map hdigits sign (hcons ▸ List.mem_cons_self)
  rw [hsign] at hdigit
  exact Bool.false_ne_true hdigit

/-! ## Signs -/

theorem natural?_eq_some_iff :
    natural? most text = some value ↔ IsNumeral text value ∧ value ≤ most := by
  unfold natural? IsNumeral
  rw [Option.filter_eq_some_iff, decide_eq_true_eq]
  apply and_congr_left
  intro _
  split
  · rename_i digits hplus
    rw [digits?_eq_some_iff, hplus]
    constructor
    · intro h
      exact ⟨digits, h, .inr rfl⟩
    · rintro ⟨others, h, hbare | hsigned⟩
      · exact absurd hbare.symm (h.ne_cons rfl digits)
      · rwa [(List.cons.inj hsigned).2]
  · rename_i hplain
    rw [digits?_eq_some_iff]
    constructor
    · intro h
      exact ⟨_, h, .inl rfl⟩
    · rintro ⟨digits, h, hbare | hsigned⟩
      · rwa [hbare]
      · exact absurd hsigned (hplain digits)

theorem integer?_eq_some_iff :
    integer? most text = some value ↔ IsInteger text value ∧ value ≤ most := by
  unfold integer? IsInteger
  split
  · rename_i digits hminus
    rw [Option.filter_eq_some_iff, decide_eq_true_eq, digits?_eq_some_iff]
    constructor
    · rintro ⟨h, rfl⟩
      exact ⟨.inr ⟨rfl, digits, h, hminus⟩, Nat.zero_le most⟩
    · rintro ⟨⟨others, h, hbare | hsigned⟩ | ⟨rfl, others, h, hsigned⟩, -⟩
      · rw [hminus] at hbare
        exact absurd hbare.symm (h.ne_cons rfl digits)
      · rw [hminus] at hsigned
        exact absurd (List.cons.inj hsigned).1 (by decide)
      · rw [hminus] at hsigned
        rw [(List.cons.inj hsigned).2]
        exact ⟨h, rfl⟩
  · rename_i hplain
    rw [natural?_eq_some_iff]
    apply and_congr_left
    intro _
    constructor
    · exact .inl
    · rintro (h | ⟨-, digits, -, hminus⟩)
      · exact h
      · exact absurd hminus (hplain digits)

theorem IsNumeral.unique {other : Nat} (h : IsNumeral text value) (h' : IsNumeral text other) :
    value = other := by
  have hfirst := natural?_eq_some_iff.mpr ⟨h, Nat.le_max_left value other⟩
  have hsecond := natural?_eq_some_iff.mpr ⟨h', Nat.le_max_right value other⟩
  rwa [hfirst, Option.some.injEq] at hsecond

theorem IsInteger.unique {other : Nat} (h : IsInteger text value) (h' : IsInteger text other) :
    value = other := by
  have hfirst := integer?_eq_some_iff.mpr ⟨h, Nat.le_max_left value other⟩
  have hsecond := integer?_eq_some_iff.mpr ⟨h', Nat.le_max_right value other⟩
  rwa [hfirst, Option.some.injEq] at hsecond

end TerminalHost.Text
