import Mathlib.Algebra.Group.Nat.Defs
import Mathlib.Data.Nat.Log

/-!
# Rounding to a number of bits

A natural number is rounded to the nearest one that a given number of bits
can hold, and between two of them to the even one.  Rounding keeps the order
and leaves alone what already fits.
-/

namespace Motrix.Lib.Rounding

/-- How often the unit goes into the number, to the nearest. -/
def nearest (unit number : Nat) : Nat :=
  let quotient := number / unit
  let rest := number % unit
  if unit < 2 * rest ∨ 2 * rest = unit ∧ quotient % 2 = 1 then quotient + 1
  else quotient

/-- The exponent of the last bit that is kept. -/
def exponent (precision number : Nat) : Nat :=
  Nat.log2 number + 1 - precision

def round (precision number : Nat) : Nat :=
  nearest (2 ^ exponent precision number) number *
    2 ^ exponent precision number

variable {unit precision m n : Nat}

theorem div_le_nearest : n / unit ≤ nearest unit n := by
  unfold nearest
  dsimp only
  split
  · exact Nat.le_succ _
  · exact Nat.le_refl _

theorem nearest_le : nearest unit n ≤ n / unit + 1 := by
  unfold nearest
  dsimp only
  split
  · exact Nat.le_refl _
  · exact Nat.le_succ _

theorem nearest_one : nearest 1 n = n := by
  simp [nearest, Nat.mod_one]

theorem nearest_mono (order : m ≤ n) : nearest unit m ≤ nearest unit n := by
  rcases (Nat.div_le_div_right order : m / unit ≤ n / unit).lt_or_eq with
    less | same
  · exact nearest_le.trans (less.trans_le div_le_nearest)
  · have rests : m % unit ≤ n % unit := by
      have first := Nat.div_add_mod m unit
      have second := Nat.div_add_mod n unit
      rw [same] at first
      omega
    unfold nearest
    simp only [same]
    split
    · next up =>
        rw [if_pos (by omega)]
    · split
      · exact Nat.le_succ _
      · exact Nat.le_refl _

theorem round_of_fits (kept : precision ≠ 0) (fits : n < 2 ^ precision) :
    round precision n = n := by
  have small : exponent precision n = 0 := by
    unfold exponent
    by_cases zero : n = 0
    · subst zero
      simp only [Nat.log2_zero]
      omega
    · have := (Nat.log2_lt zero).mpr fits
      omega
  simp [round, small, nearest_one]

theorem round_le : round precision m ≤ 2 ^ (Nat.log2 m + 1) := by
  have bound : m < 2 ^ (Nat.log2 m + 1) := Nat.lt_log2_self
  have split : 2 ^ (Nat.log2 m + 1) =
      2 ^ (Nat.log2 m + 1 - exponent precision m) *
        2 ^ exponent precision m := by
    rw [← Nat.pow_add, Nat.sub_add_cancel]
    unfold exponent
    omega
  have below : m / 2 ^ exponent precision m <
      2 ^ (Nat.log2 m + 1 - exponent precision m) := by
    rw [Nat.div_lt_iff_lt_mul (Nat.two_pow_pos _), ← split]
    exact bound
  rw [split]
  exact Nat.mul_le_mul_right _ (nearest_le.trans below)

theorem le_round (kept : precision ≠ 0) (positive : n ≠ 0) :
    2 ^ Nat.log2 n ≤ round precision n := by
  have bound : 2 ^ Nat.log2 n ≤ n := Nat.log2_self_le positive
  have split : 2 ^ Nat.log2 n =
      2 ^ (Nat.log2 n - exponent precision n) * 2 ^ exponent precision n := by
    rw [← Nat.pow_add, Nat.sub_add_cancel]
    unfold exponent
    omega
  have above : 2 ^ (Nat.log2 n - exponent precision n) ≤
      n / 2 ^ exponent precision n := by
    rw [Nat.le_div_iff_mul_le (Nat.two_pow_pos _), ← split]
    exact bound
  rw [split]
  exact Nat.mul_le_mul_right _ (above.trans div_le_nearest)

/-- Where the exponents agree the quotients are compared, and otherwise a power
of two lies between the two numbers. -/
theorem round_mono (kept : precision ≠ 0) (order : m ≤ n) :
    round precision m ≤ round precision n := by
  by_cases zero : m = 0
  · simp [zero, round_of_fits kept (Nat.two_pow_pos _)]
  have logs : Nat.log2 m ≤ Nat.log2 n := by
    rw [Nat.le_log2 (by omega)]
    exact (Nat.log2_self_le zero).trans order
  rcases logs.lt_or_eq with less | same
  · calc
      round precision m ≤ 2 ^ (Nat.log2 m + 1) := round_le
      _ ≤ 2 ^ Nat.log2 n := Nat.pow_le_pow_right (by decide) less
      _ ≤ round precision n := le_round kept (by omega)
  · unfold round exponent
    rw [same]
    exact Nat.mul_le_mul_right _ (nearest_mono order)

end Motrix.Lib.Rounding
