import Journey.Decimal.Nearest

/-!
The arithmetic that pauses are reckoned in: the few operations that it takes, and powers made of them
by squaring. It runs on binary floating point, where every operation rounds.
-/

namespace Journey

/-- The operations of a kind of number, with its readings of naturals and of 64-bit numbers, and the
whole part of a number as a natural of 64 bits. -/
structure Arithmetic (α : Type) where
  ofNat : Nat → α
  ofBinary64 : Binary64 → α
  one : α
  mul : α → α → α
  div : α → α → α
  lesser : α → α → α
  larger : α → α → α
  toNat : α → Nat

namespace Arithmetic

variable {α : Type}

/-- The product of `r` and the powers of `x` that the bits of `n` select, by squaring. -/
def powerBySquaring (A : Arithmetic α) : (fuel : Nat) → (r x : α) → Nat → α
  | 0, r, _, _ => r
  | fuel + 1, r, x, n =>
      let r := if n % 2 = 1 then A.mul r x else r
      if n / 2 = 0 then r else powerBySquaring A fuel r (A.mul x x) (n / 2)

def power (A : Arithmetic α) (x : α) (e : Int) : α :=
  let r := A.powerBySquaring 33 A.one x e.natAbs
  if e < 0 then A.div A.one r else r

/-- Binary floating point with 64 bits. Of two numbers, one that is not a number is passed over. -/
def rounded : Arithmetic Float where
  ofNat n := (Decimal.nearest n 0).toFloat
  ofBinary64 := Binary64.toFloat
  one := 1.0
  mul x y := x * y
  div x y := x / y
  lesser x y := if x.isNaN then y else if y.isNaN then x else if y < x then y else x
  larger x y := if x.isNaN then y else if y.isNaN then x else if x < y then y else x
  toNat x := x.toUInt64.toNat

end Arithmetic
end Journey
