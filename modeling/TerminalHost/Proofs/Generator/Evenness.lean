import Mathlib.Algebra.Order.Floor.Div
import TerminalHost.Proofs.Game.Transcript
import TerminalHost.Proofs.Generator.Period
import TerminalHost.Words

/-!
# Evenly picked words

A pick scales a draw to the length of the list, so the values of one position are an
interval, and the intervals of all positions divide the 32-bit values as evenly as whole
numbers can be divided.  Since each value is drawn once in a period, that is also how often
each position is picked in a period, wherever the period begins.
-/

namespace TerminalHost

/-! ## The values of a position -/

/-- The first value of a position when a period is shared by the positions of a list; the
position after the last one begins where the period ends. -/
def Generator.firstValue (length i : Nat) : Nat := (i * period) ⌈/⌉ length

namespace Generator

variable {length : Nat}

theorem firstValue_le_iff (hlength : 0 < length) (i value : Nat) :
    firstValue length i ≤ value ↔ i * period ≤ length * value :=
  ceilDiv_le_iff_le_mul hlength

theorem firstValue_succ_le (hlength : 0 < length) (i : Nat) :
    firstValue length (i + 1) ≤ firstValue length i + period / length + 1 := by
  have hfirst := (firstValue_le_iff hlength i _).mp (Nat.le_refl _)
  have hperiod := Nat.lt_mul_div_succ period hlength
  rw [firstValue_le_iff hlength]
  calc (i + 1) * period = i * period + period := Nat.succ_mul i period
    _ ≤ length * firstValue length i + length * (period / length + 1) := by omega
    _ = length * (firstValue length i + period / length + 1) := by ring

theorem le_firstValue_succ (hlength : 0 < length) (i : Nat) :
    firstValue length i + period / length ≤ firstValue length (i + 1) := by
  have hnext := (firstValue_le_iff hlength (i + 1) _).mp (Nat.le_refl _)
  have hperiod := Nat.mul_div_le period length
  have hshare : length * (period / length) ≤ length * firstValue length (i + 1) := by
    rw [Nat.succ_mul] at hnext
    omega
  have hle : period / length ≤ firstValue length (i + 1) :=
    Nat.le_of_mul_le_mul_left hshare hlength
  have hbefore : firstValue length i ≤ firstValue length (i + 1) - period / length := by
    rw [firstValue_le_iff hlength, Nat.mul_sub]
    rw [Nat.succ_mul] at hnext
    omega
  omega

theorem firstValue_le_period (hlength : 0 < length) {i : Nat} (hi : i ≤ length) :
    firstValue length i ≤ period := by
  rw [firstValue_le_iff hlength]
  exact Nat.mul_le_mul_right period hi

/-- The values that are scaled to a position are those from its first value on, up to the
first value of the next position. -/
theorem mul_div_period_eq_iff (hlength : 0 < length) (i value : Nat) :
    value * length / period = i
      ↔ firstValue length i ≤ value ∧ value < firstValue length (i + 1) := by
  have hperiod : 0 < period := Nat.two_pow_pos 32
  rw [← Nat.not_le, firstValue_le_iff hlength, firstValue_le_iff hlength, Nat.not_le,
    Nat.mul_comm value length, Nat.div_eq_iff hperiod, Nat.succ_mul]
  omega

theorem card_values (hlength : 0 < length) {i : Nat} (hi : i < length) :
    ((Finset.range period).filter fun value => value * length / period = i).card
      = firstValue length (i + 1) - firstValue length i := by
  have hend : firstValue length (i + 1) ≤ period := firstValue_le_period hlength hi
  have hvalues : (Finset.range period).filter (fun value => value * length / period = i)
      = Finset.Ico (firstValue length i) (firstValue length (i + 1)) := by
    ext value
    rw [Finset.mem_filter, Finset.mem_range, Finset.mem_Ico, mul_div_period_eq_iff hlength]
    omega
  rw [hvalues, Nat.card_Ico]

/-! ## Picks -/

def position (g : Generator) (length : Nat) : Nat :=
  (g.drawBelow (UInt32.ofNat length)).1.toNat

/-- How often a position is picked in the period that begins with some pick. -/
def picksOf {α : Type} (g : Generator) (items : List α) (start i : Nat) : Nat :=
  ((Finset.Ico start (start + period)).filter fun count =>
    (g.afterPicks items count).position items.length = i).card

variable {α : Type} {items : List α}

theorem pick_of_ne_nil (g : Generator) (h : items ≠ []) :
    g.pick items = (items[g.position items.length]?, g.draw.2) := by
  rw [pick, if_neg (by simpa using h)]
  rfl

theorem afterPicks_eq_after (g : Generator) (h : items ≠ []) (count : Nat) :
    g.afterPicks items count = g.after count := by
  induction count with
  | zero => rfl
  | succ count ih => rw [afterPicks, after, ih, pick_of_ne_nil _ h]

theorem position_eq (g : Generator) (hlt : length < period) :
    g.position length = g.draw.1.toNat * length / period := by
  have hlength : (UInt32.ofNat length).toNat = length := by
    rw [UInt32.toNat_ofNat']
    exact Nat.mod_eq_of_lt hlt
  have hscaled : g.advance.state.toNat * length / period < period := by
    apply Nat.div_lt_of_lt_mul
    exact Nat.mul_lt_mul'' g.advance.toNat_state_lt hlt
  rw [position, drawBelow, hlength, UInt32.toNat_ofNat']
  exact Nat.mod_eq_of_lt hscaled

theorem position_lt (g : Generator) (hpos : 0 < length) (hlt : length < period) :
    g.position length < length := by
  rw [g.position_eq hlt]
  apply Nat.div_lt_of_lt_mul
  exact Nat.mul_lt_mul_of_pos_right g.advance.toNat_state_lt hpos

/-- In a period each position is picked once for each of its values. -/
theorem picksOf_eq (g : Generator) (hpos : 0 < items.length) (hlt : items.length < period)
    (start : Nat) {i : Nat} (hi : i < items.length) :
    g.picksOf items start i = firstValue items.length (i + 1) - firstValue items.length i := by
  have hitems : items ≠ [] := List.length_pos_iff.mp hpos
  have hinj : Set.InjOn (fun count => (g.drawn count).toNat)
      (Finset.Ico start (start + period)) := by
    intro few hfew many hmany heq
    rw [Finset.coe_Ico] at hfew hmany
    exact g.drawn_injOn start hfew hmany (UInt32.toNat_inj.mp heq)
  calc g.picksOf items start i
      = ((Finset.Ico start (start + period)).filter fun count =>
          (g.drawn count).toNat * items.length / period = i).card := by
        apply congrArg Finset.card
        apply Finset.filter_congr
        intro count _
        rw [afterPicks_eq_after g hitems, position_eq _ hlt, drawn]
    _ = ((Finset.range period).filter fun value => value * items.length / period = i).card := by
        rw [← g.image_toNat_drawn start, Finset.filter_image]
        rw [Finset.card_image_of_injOn]
        exact hinj.mono (Finset.coe_subset.mpr (Finset.filter_subset _ _))
    _ = firstValue items.length (i + 1) - firstValue items.length i := card_values hpos hi

/-- No position is picked less often than the period divided by the number of positions,
or by more than one pick more often. -/
theorem picksOf_bounds (g : Generator) (hpos : 0 < items.length) (hlt : items.length < period)
    (start : Nat) {i : Nat} (hi : i < items.length) :
    period / items.length ≤ g.picksOf items start i ∧
      g.picksOf items start i ≤ period / items.length + 1 := by
  have hle := firstValue_succ_le hpos i
  have hge := le_firstValue_succ hpos i
  rw [picksOf_eq g hpos hlt start hi]
  generalize period / items.length = share at hle hge ⊢
  omega

/-- **Words are picked evenly.**  Whatever the seed, each 32-bit value is drawn exactly once
in any period of draws.  A pick takes the item at its position, and in any period of picks
a position is picked as often as there are values that are scaled to it.  So each position
is picked in every period, and no position more than once more often than another one. -/
theorem picks_even (seed : UInt32) (words : List α) (hpos : 1 ≤ words.length)
    (hlt : words.length < 2 ^ 32) :
    (∀ start value, ∃! count, (start ≤ count ∧ count < start + 2 ^ 32) ∧
      (seeded seed).drawn count = value) ∧
    (∀ count, ((seeded seed).afterPicks words count).position words.length < words.length ∧
      (((seeded seed).afterPicks words count).pick words).1
        = words[((seeded seed).afterPicks words count).position words.length]?) ∧
    (∀ start i, i < words.length →
      (seeded seed).picksOf words start i
        = ((i + 1) * 2 ^ 32) ⌈/⌉ words.length - (i * 2 ^ 32) ⌈/⌉ words.length) ∧
    (∀ start i, i < words.length → ∃ count, (start ≤ count ∧ count < start + 2 ^ 32) ∧
      ((seeded seed).afterPicks words count).position words.length = i) ∧
    ∀ start i j, i < words.length → j < words.length →
      (seeded seed).picksOf words start i ≤ (seeded seed).picksOf words start j + 1 := by
  refine ⟨(seeded seed).existsUnique_drawn, ?_, ?_, ?_, ?_⟩
  · intro count
    refine ⟨position_lt _ hpos hlt, ?_⟩
    rw [pick_of_ne_nil _ (List.length_pos_iff.mp hpos)]
  · intro start i hi
    exact picksOf_eq _ hpos hlt start hi
  · intro start i hi
    have hshare : 0 < period / words.length := Nat.div_pos (Nat.le_of_lt hlt) hpos
    have hbounds := (seeded seed).picksOf_bounds hpos hlt start hi
    have hpicked : 0 < (seeded seed).picksOf words start i := by omega
    obtain ⟨count, hcount⟩ := Finset.card_pos.mp hpicked
    rw [Finset.mem_filter, Finset.mem_Ico] at hcount
    exact ⟨count, hcount⟩
  · intro start i j hi hj
    have hi' := (seeded seed).picksOf_bounds hpos hlt start hi
    have hj' := (seeded seed).picksOf_bounds hpos hlt start hj
    omega

/-- Of the animals the first one is picked once more in a period than the last one. -/
theorem picks_even_animals :
    (1 ≤ animals.length ∧ animals.length < 2 ^ 32) ∧
    (seeded 0).picksOf animals 7 0 = 286331154 ∧
    (seeded 0).picksOf animals 7 14 = 286331153 ∧
    ∃ count, (7 ≤ count ∧ count < 7 + 2 ^ 32) ∧
      ((seeded 0).afterPicks animals count).position animals.length = 14 := by
  have hlength : animals.length = 15 := rfl
  have hpos : 1 ≤ animals.length := by decide
  have hlt : animals.length < 2 ^ 32 := by decide
  obtain ⟨-, -, hpicks, hreached, -⟩ := picks_even 0 animals hpos hlt
  refine ⟨⟨hpos, hlt⟩, ?_, ?_, hreached 7 14 (by decide)⟩
  · rw [hpicks 7 0 (by decide), hlength]
    decide
  · rw [hpicks 7 14 (by decide), hlength]
    decide

end Generator

end TerminalHost
