import Mathlib.Algebra.Ring.GeomSum
import Mathlib.Data.Nat.ModEq
import Mathlib.Data.Nat.Prime.Basic
import Mathlib.Tactic.Ring
import TerminalHost.Generator

/-!
# The period of the generator

The multiplier of the generator leaves 1 when it is divided by 4, and the increment is odd.
So the generator comes back to where it was after `2 ^ 32` draws and not before: what has
been added to the state in `count` draws is an odd number times the geometric sum of the
multiplier, and that sum holds the factor 2 as often as `count` does.  All 32-bit values
are therefore drawn once in each period.
-/

namespace TerminalHost

/-! ## Geometric sums -/

section GeometricSum

open Finset

variable {a : Nat}

theorem pow_mod_four (ha : a % 4 = 1) (count : Nat) : a ^ count % 4 = 1 := by
  induction count with
  | zero => rfl
  | succ count ih => rw [Nat.pow_succ, Nat.mul_mod, ih, ha]

theorem geom_sum_add (a few more : Nat) :
    ∑ i ∈ range (few + more), a ^ i
      = a ^ more * ∑ i ∈ range few, a ^ i + ∑ i ∈ range more, a ^ i := by
  induction more with
  | zero => simp
  | succ more ih =>
    rw [← Nat.add_assoc, geom_sum_succ, geom_sum_succ, ih]
    ring

theorem geom_sum_mod_two (ha : a % 4 = 1) (count : Nat) :
    (∑ i ∈ range count, a ^ i) % 2 = count % 2 := by
  have hodd : a % 2 = 1 := by omega
  induction count with
  | zero => rfl
  | succ count ih =>
    rw [geom_sum_succ, Nat.add_mod, Nat.mul_mod, hodd, ih]
    omega

/-- A geometric sum holds the factor 2 as often as the number of its terms. -/
theorem two_pow_dvd_geom_sum_iff (ha : a % 4 = 1) (exponent count : Nat) :
    2 ^ exponent ∣ ∑ i ∈ range count, a ^ i ↔ 2 ^ exponent ∣ count := by
  -- The induction halves the number of terms: two equal halves are one of them times a
  -- number that holds the factor 2 once.
  induction exponent generalizing count with
  | zero => simp
  | succ exponent ih =>
    have hparity := geom_sum_mod_two ha count
    rcases Nat.even_or_odd' count with ⟨half, rfl | rfl⟩
    · have hpow := pow_mod_four ha half
      obtain ⟨quarter, hquarter⟩ : ∃ quarter, a ^ half + 1 = 2 * (2 * quarter + 1) :=
        ⟨a ^ half / 4, by omega⟩
      have hdouble : ∑ i ∈ range (2 * half), a ^ i
          = 2 * ((2 * quarter + 1) * ∑ i ∈ range half, a ^ i) := by
        calc ∑ i ∈ range (2 * half), a ^ i
            = (a ^ half + 1) * ∑ i ∈ range half, a ^ i := by
              rw [Nat.two_mul, geom_sum_add]
              ring
          _ = 2 * ((2 * quarter + 1) * ∑ i ∈ range half, a ^ i) := by
              rw [hquarter]
              ring
      have hcoprime : Nat.Coprime (2 ^ exponent) (2 * quarter + 1) := by
        apply Nat.Coprime.pow_left
        simp
      rw [hdouble, Nat.pow_succ', Nat.mul_dvd_mul_iff_left Nat.two_pos,
        Nat.mul_dvd_mul_iff_left Nat.two_pos, hcoprime.dvd_mul_left]
      exact ih half
    · -- An odd number of terms is not divided by 2, and neither is their sum.
      have hneither (number : Nat) (hodd : number % 2 = 1) : ¬ 2 ^ (exponent + 1) ∣ number := by
        intro hdvd
        have htwo : 2 ∣ number := Nat.dvd_trans (Dvd.intro_left _ (Nat.pow_succ ..).symm) hdvd
        omega
      have hcount : (2 * half + 1) % 2 = 1 := by omega
      exact iff_of_false (hneither _ (hparity.trans hcount)) (hneither _ hcount)

end GeometricSum

/-! ## The states of a generator -/

namespace Generator

def after (g : Generator) : Nat → Generator
  | 0 => g
  | count + 1 => (g.after count).draw.2

/-- The value of a draw, counted from 0. -/
def drawn (g : Generator) (count : Nat) : UInt32 := (g.after count).draw.1

def period : Nat := 2 ^ 32

theorem after_add (g : Generator) (few more : Nat) :
    g.after (few + more) = (g.after few).after more := by
  induction more with
  | zero => rfl
  | succ more ih => rw [← Nat.add_assoc, after, ih, after]

theorem toNat_state_lt (g : Generator) : g.state.toNat < period := g.state.toNat_lt

theorem toNat_state_advance (g : Generator) :
    g.advance.state.toNat
      = (multiplier.toNat * g.state.toNat + increment.toNat) % period := by
  rw [advance, UInt32.toNat_add, UInt32.toNat_mul, Nat.mul_comm]
  exact Nat.mod_add_mod ..

theorem toNat_state_after (g : Generator) (count : Nat) :
    (g.after count).state.toNat
      = (multiplier.toNat ^ count * g.state.toNat
          + increment.toNat * ∑ i ∈ Finset.range count, multiplier.toNat ^ i) % period := by
  induction count with
  | zero => simp [after, Nat.mod_eq_of_lt g.toNat_state_lt]
  | succ count ih =>
    rw [after, draw, toNat_state_advance, ih, geom_sum_succ, Nat.pow_succ, Nat.add_mod,
      Nat.mul_mod_mod, ← Nat.add_mod]
    generalize multiplier.toNat = a
    generalize increment.toNat = c
    apply congrArg (· % period)
    ring

/-- A generator is back where it was after whole periods, and at no other time. -/
theorem after_eq_self_iff (g : Generator) (count : Nat) : g.after count = g ↔ period ∣ count := by
  have hmultiplier : multiplier.toNat % 4 = 1 := rfl
  set total := ∑ i ∈ Finset.range count, multiplier.toNat ^ i with htotal
  -- What the draws add to the state is an odd number for each power of the multiplier.
  have hpow : multiplier.toNat ^ count = 1664524 * total + 1 := by
    have hsum := geom_sum_mul_add 1664524 count
    rw [htotal, Nat.mul_comm]
    exact hsum.symm
  have hadded : multiplier.toNat ^ count * g.state.toNat + increment.toNat * total
      = g.state.toNat + total * (1664524 * g.state.toNat + increment.toNat) := by
    rw [hpow]
    ring
  have hodd : Nat.Coprime period (1664524 * g.state.toNat + increment.toNat) := by
    have hincrement : increment.toNat = 2 * 506952111 + 1 := rfl
    apply Nat.Coprime.pow_left
    rw [Nat.coprime_two_left, hincrement]
    exact ⟨832262 * g.state.toNat + 506952111, by ring⟩
  have hstate := g.toNat_state_after count
  rw [hadded] at hstate
  calc g.after count = g
      ↔ (g.after count).state.toNat = g.state.toNat := by
        rw [UInt32.toNat_inj]
        exact ⟨congrArg state, fun h => by
          rcases hafter : g.after count with ⟨final⟩
          rw [hafter] at h
          exact congrArg mk h⟩
    _ ↔ g.state.toNat + total * (1664524 * g.state.toNat + increment.toNat)
          ≡ g.state.toNat + 0 [MOD period] := by
        rw [hstate, Nat.add_zero, Nat.ModEq, Nat.mod_eq_of_lt g.toNat_state_lt]
    _ ↔ period ∣ total * (1664524 * g.state.toNat + increment.toNat) := by
        rw [Nat.ModEq.add_iff_left (Nat.ModEq.refl _), Nat.modEq_zero_iff_dvd]
    _ ↔ period ∣ total := hodd.dvd_mul_right
    _ ↔ period ∣ count := two_pow_dvd_geom_sum_iff hmultiplier 32 count

theorem drawn_injOn (g : Generator) (start : Nat) :
    Set.InjOn g.drawn (Set.Ico start (start + period)) := by
  have hne {few many : Nat} (hlt : few < many) (hnear : many < few + period) :
      g.drawn few ≠ g.drawn many := by
    intro heq
    obtain ⟨more, rfl⟩ := Nat.exists_eq_add_of_le (Nat.le_of_lt hlt)
    have hback : (g.after (few + 1)).after more = g.after (few + 1) := by
      rw [← after_add, Nat.add_right_comm]
      exact congrArg mk heq.symm
    have hdvd := Nat.le_of_dvd (by omega) (((g.after (few + 1)).after_eq_self_iff more).mp hback)
    omega
  rintro few ⟨hfew, hfew'⟩ many ⟨hmany, hmany'⟩ heq
  rcases Nat.lt_trichotomy few many with hlt | rfl | hlt
  · exact absurd heq (hne hlt (by omega))
  · rfl
  · exact absurd heq.symm (hne hlt (by omega))

theorem image_toNat_drawn (g : Generator) (start : Nat) :
    (Finset.Ico start (start + period)).image (fun count => (g.drawn count).toNat)
      = Finset.range period := by
  apply Finset.eq_of_subset_of_card_le
  · intro value hvalue
    obtain ⟨count, -, rfl⟩ := Finset.mem_image.mp hvalue
    exact Finset.mem_range.mpr (g.drawn count).toNat_lt
  · rw [Finset.card_range, Finset.card_image_of_injOn, Nat.card_Ico, Nat.add_sub_cancel_left]
    intro few hfew many hmany heq
    apply g.drawn_injOn start
    · simpa using hfew
    · simpa using hmany
    · exact UInt32.toNat_inj.mp heq

/-- Every value is drawn once in each period. -/
theorem existsUnique_drawn (g : Generator) (start : Nat) (value : UInt32) :
    ∃! count, (start ≤ count ∧ count < start + period) ∧ g.drawn count = value := by
  have hvalue : value.toNat ∈ Finset.range period := Finset.mem_range.mpr value.toNat_lt
  rw [← g.image_toNat_drawn start] at hvalue
  obtain ⟨count, hcount, heq⟩ := Finset.mem_image.mp hvalue
  have hcount' := Finset.mem_Ico.mp hcount
  refine ⟨count, ⟨hcount', UInt32.toNat_inj.mp heq⟩, ?_⟩
  rintro other ⟨hother, rfl⟩
  exact g.drawn_injOn start hother hcount' (UInt32.toNat_inj.mp heq).symm

end Generator

end TerminalHost
