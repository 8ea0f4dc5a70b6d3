import Journey.Policy
import Mathlib.Algebra.Order.Field.Power
import Mathlib.Data.Rat.Floor

/-!
The growth of pauses. In exact arithmetic a pause is the initial one times a power of the multiplier, cut
at the greatest one: no pause is longer than that, and pauses never get shorter while their exponents
rise. The exponent is held in 32 bits, so that it rises up to attempt `2 ^ 31`, falls below zero there,
and rises again. What rounding does to pauses is left out.
-/

namespace Journey

/-- The number itself, if it is finite. -/
def Binary64.value (x : Binary64) : Rat :=
  (if x.isNegative then -1 else 1) * x.significand * 2 ^ x.exponent

namespace Arithmetic

/-- Exact arithmetic. Nothing is rounded but the whole part, which stays within 64 bits. -/
def exact : Arithmetic Rat where
  ofNat n := n
  ofBinary64 := Binary64.value
  one := 1
  mul x y := x * y
  div x y := x / y
  lesser := min
  larger := max
  toNat x := min ⌊x⌋₊ (2 ^ 64 - 1)

theorem powerBySquaring_exact {fuel n : Nat} (enough : n < 2 ^ fuel) (r x : Rat) :
    exact.powerBySquaring fuel r x n = r * x ^ n := by
  induction fuel generalizing r x n with
  | zero =>
      obtain rfl : n = 0 := by omega
      simp [powerBySquaring]
  | succ fuel ih =>
      -- The lowest bit goes to the product, the others to a power of the square.
      have bit : (if n % 2 = 1 then exact.mul r x else r) = r * x ^ (n % 2) := by
        rcases Nat.mod_two_eq_zero_or_one n with even | odd
        · simp [even]
        · simp [odd, exact]
      have halves : x ^ n = x ^ (n % 2) * (x * x) ^ (n / 2) := by
        rw [← sq, ← pow_mul, ← pow_add, Nat.mod_add_div]
      simp only [powerBySquaring, bit]
      split
      case isTrue last => rw [halves, last, pow_zero, mul_one]
      case isFalse =>
        rw [ih (by omega), halves, mul_assoc]
        rfl

theorem power_exact (x : Rat) {e : Int} (enough : e.natAbs < 2 ^ 33) : exact.power x e = x ^ e := by
  have whole : exact.powerBySquaring 33 exact.one x e.natAbs = x ^ e.natAbs := by
    rw [powerBySquaring_exact enough]
    exact one_mul _
  simp only [power, whole]
  split
  case isTrue negative =>
    obtain ⟨n, rfl⟩ := Int.exists_eq_neg_ofNat negative.le
    simp [exact]
  case isFalse positive =>
    obtain ⟨n, rfl⟩ := Int.eq_ofNat_of_zero_le (not_lt.mp positive)
    simp

theorem toNat_exact_mono {x y : Rat} (h : x ≤ y) : exact.toNat x ≤ exact.toNat y :=
  min_le_min_right _ (Nat.floor_mono h)

theorem toNat_exact_natCast {n : Nat} (fits : n < 2 ^ 64) : exact.toNat (n : Rat) = n := by
  simp only [exact, Nat.floor_natCast]
  omega

end Arithmetic

namespace RetryPolicy

open Arithmetic (exact)

variable {p : RetryPolicy} {a b : Nat}

theorem backoffExponent_natAbs (a : Nat) : (backoffExponent a).natAbs < 2 ^ 33 := by
  unfold backoffExponent
  rw [Int.bmod_def]
  split <;> omega

/-- Up to attempt `2 ^ 31` the exponent is one less than the number of the attempt. -/
theorem backoffExponent_early (positive : 1 ≤ a) (early : a ≤ 2 ^ 31) :
    backoffExponent a = a - 1 := by
  unfold backoffExponent
  rw [Int.bmod_def]
  split <;> omega

/-- Beyond that, the exponent is as far below zero as the attempt is below `2 ^ 32 + 1`. -/
theorem backoffExponent_late (late : 2 ^ 31 < a) (fits : a < 2 ^ 32) :
    backoffExponent a = a - 1 - 2 ^ 32 := by
  unfold backoffExponent
  rw [Int.bmod_def]
  split <;> omega

def factor (p : RetryPolicy) : Rat := max p.multiplier.value 1

/-- The exact pause for an exponent. -/
def pauseAt (p : RetryPolicy) (e : Int) : Nat :=
  exact.toNat (min (p.initialBackoff * p.factor ^ e) p.maxBackoff)

theorem pause_exact (p : RetryPolicy) (a : Nat) : p.pause exact a = p.pauseAt (backoffExponent a) :=
  congrArg (fun factor : Rat => exact.toNat (min (p.initialBackoff * factor) p.maxBackoff))
    (Arithmetic.power_exact _ (backoffExponent_natAbs a))

theorem pauseAt_le_maxBackoff (fits : p.maxBackoff < 2 ^ 64) (e : Int) : p.pauseAt e ≤ p.maxBackoff :=
  calc p.pauseAt e
      ≤ exact.toNat (p.maxBackoff : Rat) := Arithmetic.toNat_exact_mono (min_le_right _ _)
    _ = p.maxBackoff := Arithmetic.toNat_exact_natCast fits

theorem pauseAt_zero (fits : p.maxBackoff < 2 ^ 64) :
    p.pauseAt 0 = min p.initialBackoff p.maxBackoff := by
  rw [pauseAt, zpow_zero, mul_one, ← Nat.cast_min]
  exact Arithmetic.toNat_exact_natCast (lt_of_le_of_lt (min_le_right _ _) fits)

/-- The multiplier counts as one at least, so that its powers rise with the exponent. -/
theorem pauseAt_mono {e f : Int} (h : e ≤ f) : p.pauseAt e ≤ p.pauseAt f := by
  have powers : p.factor ^ e ≤ p.factor ^ f := zpow_le_zpow_right₀ (le_max_right _ _) h
  have products : (p.initialBackoff : Rat) * p.factor ^ e ≤ p.initialBackoff * p.factor ^ f :=
    mul_le_mul_of_nonneg_left powers (Nat.cast_nonneg _)
  exact Arithmetic.toNat_exact_mono (min_le_min_right _ products)

theorem pause_one (fits : p.maxBackoff < 2 ^ 64) :
    p.pause exact 1 = min p.initialBackoff p.maxBackoff := by
  rw [pause_exact, backoffExponent_early (le_refl 1) (by decide), Nat.cast_one, sub_self]
  exact pauseAt_zero fits

/-- How the exact pauses of a policy follow each other. They rise on either side of attempt `2 ^ 31`, and
behind it no pause is longer than the first one. -/
structure Paces (p : RetryPolicy) : Prop where
  first : p.pause exact 1 = min p.initialBackoff p.maxBackoff
  ceiling : ∀ a, p.pause exact a ≤ p.maxBackoff
  rises : ∀ {a b}, 1 ≤ a → a ≤ b → b < 2 ^ 32 → ¬(a ≤ 2 ^ 31 ∧ 2 ^ 31 < b) →
    p.pause exact a ≤ p.pause exact b
  falls : ∀ {b}, 2 ^ 31 < b → b < 2 ^ 32 → p.pause exact b ≤ p.pause exact 1

theorem pause_paces (p : RetryPolicy) (fits : p.maxBackoff < 2 ^ 64) : p.Paces where
  first := pause_one fits
  ceiling a := by
    rw [pause_exact]
    exact pauseAt_le_maxBackoff fits _
  rises := by
    intro a b positive order inRange sameSide
    rw [pause_exact, pause_exact]
    refine pauseAt_mono ?_
    rcases Nat.lt_or_ge (2 ^ 31) a with late | early
    · rw [backoffExponent_late late (by omega), backoffExponent_late (by omega) inRange]
      omega
    · rw [backoffExponent_early positive early, backoffExponent_early (by omega) (by omega)]
      omega
  falls := by
    intro b late inRange
    rw [pause_exact, pause_exact]
    refine pauseAt_mono ?_
    rw [backoffExponent_late late inRange, backoffExponent_early (le_refl 1) (by decide)]
    omega

theorem pause_default_paces : default.maxBackoff < 2 ^ 64 ∧ default.Paces :=
  ⟨by decide, pause_paces default (by decide)⟩

/-- Behind attempt `2 ^ 31` there is no pause left of the default one, rounded or not. -/
theorem backoff_default_falls : default.multiplier.isFinite = true ∧ ∃ a b,
    1 ≤ a ∧ a ≤ b ∧ b < 2 ^ 32 ∧ default.backoff b < default.backoff a ∧
      default.pause exact b < default.pause exact a := by
  refine ⟨by decide, 1, 2 ^ 31 + 1, by decide, by decide, by decide, by decide +kernel, ?_⟩
  have first : default.pause exact 1 = 250 := pause_one (by decide)
  have small : default.pauseAt (-8) = 0 := by decide +kernel
  have below : default.pauseAt (backoffExponent (2 ^ 31 + 1)) ≤ default.pauseAt (-8) :=
    pauseAt_mono (by decide +kernel)
  rw [first, pause_exact]
  omega

end RetryPolicy
end Journey
