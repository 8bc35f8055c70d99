/-!
# The word generator

A linear congruential generator on 32 bits picks the secret words, so that a
session can be replayed from its seed.  Only the high bits of a draw are used to
pick from a list, since the low bits of such a generator have short periods.
-/

namespace TerminalHost

structure Generator where
  state : UInt32
deriving DecidableEq, Repr

namespace Generator

def multiplier : UInt32 := 1664525

def increment : UInt32 := 1013904223

/-- The generator that a seed starts; the seed 0 stands for 1. -/
def seeded (seed : UInt32) : Generator := ⟨if seed = 0 then 1 else seed⟩

def usual : Generator := seeded 1

def advance (g : Generator) : Generator := ⟨g.state * multiplier + increment⟩

def draw (g : Generator) : UInt32 × Generator := (g.advance.state, g.advance)

/-- One draw scaled to the values below `bound`; 0 if there are none. -/
def drawBelow (g : Generator) (bound : UInt32) : UInt32 × Generator :=
  (UInt32.ofNat (g.advance.state.toNat * bound.toNat / UInt32.size), g.advance)

theorem drawBelow_lt (g : Generator) (bound : UInt32) (h : bound ≠ 0) :
    (g.drawBelow bound).1 < bound := by
  have hstate : g.advance.state.toNat < UInt32.size := g.advance.state.toNat_lt
  have hbound : bound.toNat < UInt32.size := bound.toNat_lt
  have hpos : 0 < bound.toNat := by
    rcases Nat.eq_zero_or_pos bound.toNat with hz | hz
    · exact absurd (UInt32.toNat_inj.mp hz) h
    · exact hz
  have hlt : g.advance.state.toNat * bound.toNat / UInt32.size < bound.toNat := by
    apply Nat.div_lt_of_lt_mul
    exact Nat.mul_lt_mul_of_pos_right hstate hpos
  rw [UInt32.lt_iff_toNat_lt]
  simp only [drawBelow, UInt32.toNat_ofNat']
  rw [Nat.mod_eq_of_lt (Nat.lt_trans hlt hbound)]
  exact hlt

/-- An item of the list by one draw.  The length counts modulo the number of 32-bit
values, and an empty list needs no draw. -/
def pick {α : Type} (g : Generator) (items : List α) : Option α × Generator :=
  if items.isEmpty then (none, g)
  else
    let (index, g) := g.drawBelow (UInt32.ofNat items.length)
    (items[index.toNat]?, g)

end Generator

end TerminalHost
