/-
The two products of an integer and a `float` the game computes, exactly.

`m_maxHp * HP_REGEN_RATE` and `m_exp * (1.0f - DEATH_EXP_PENALTY)` convert the
integer to single precision, multiply, and truncate the product to an integer
again. A conversion and a product are rounded to 24 significant bits, to the
nearest value and on a tie to the even one. All values here are far from the
ends of the exponent range, so that rounding is all there is to it, and it
does not depend on where the binary point is.
-/
import Mathlib.Algebra.Group.Int.Defs
import Mathlib.Algebra.Group.Nat.Defs
import Mathlib.Tactic.Common

set_option autoImplicit false

namespace Mmorpg

/-- The nearest number with 24 significant bits, on a tie the even one. -/
def roundBits (n : ℕ) : ℕ :=
  let unit := 2 ^ (n.log2 + 1 - 24)
  let q := n / unit
  let r := n % unit
  if 2 * r < unit ∨ 2 * r = unit ∧ q % 2 = 0 then q * unit else (q + 1) * unit

/-- The value nearest to `0.10` is `13421773 / 2 ^ 27`. -/
abbrev hpRegenRate : ℕ := 13421773

/-- `static_cast<int32_t>(maxHp * HP_REGEN_RATE)`. -/
def regenAmount (maxHp : Int) : Int :=
  maxHp.sign * (roundBits (roundBits maxHp.natAbs * hpRegenRate) / 2 ^ 27 : ℕ)

/-- `static_cast<int32_t>(exp * (1.0f - DEATH_EXP_PENALTY))`, the factor being one half. -/
def expAfterDeath (exp : Int) : Int := exp.sign * (roundBits exp.natAbs / 2 : ℕ)

example : regenAmount 100 = 10 := by decide

example : expAfterDeath 33554435 = 16777218 := by decide

/-- Regeneration does not take hit points. -/
theorem regenAmount_nonneg {maxHp : Int} (h : 0 ≤ maxHp) : 0 ≤ regenAmount maxHp := by
  unfold regenAmount
  have hs : 0 ≤ maxHp.sign := by
    rcases Int.lt_or_eq_of_le h with hpos | rfl
    · rw [Int.sign_eq_one_of_pos hpos]
      decide
    · decide
  exact Int.mul_nonneg hs (Int.natCast_nonneg _)

/-- Rounding at most doubles. -/
theorem roundBits_le (n : ℕ) : roundBits n ≤ 2 * n := by
  rcases Nat.eq_zero_or_pos n with rfl | hpos
  · decide
  · have hunit : 2 ^ (n.log2 + 1 - 24) ≤ n := by
      have hexp : n.log2 + 1 - 24 ≤ n.log2 := by omega
      exact Nat.le_trans (Nat.pow_le_pow_right (by decide) hexp) (Nat.log2_self_le (by omega))
    have hq : n / 2 ^ (n.log2 + 1 - 24) * 2 ^ (n.log2 + 1 - 24) ≤ n := Nat.div_mul_le_self n _
    unfold roundBits
    dsimp only
    split
    · omega
    · rw [Nat.succ_mul]
      omega

/-- A death gives no experience, and does not take more than there is. -/
theorem expAfterDeath_bounds {exp : Int} (h : 0 ≤ exp) :
    0 ≤ expAfterDeath exp ∧ expAfterDeath exp ≤ exp := by
  obtain ⟨n, rfl⟩ := Int.eq_ofNat_of_zero_le h
  unfold expAfterDeath
  rcases Nat.eq_zero_or_pos n with rfl | hpos
  · decide
  · have hround := roundBits_le n
    rw [Int.sign_eq_one_of_pos (by omega), Int.natAbs_natCast, Int.one_mul]
    omega

end Mmorpg
