import Journey.Decimal.Nearest

/-!
The shortest decimal that reads back as a given 64-bit number. On the grids of 1, 2, ... 17
significant digits the two neighbours of the number are tested against the interval of values that
round to it; the first grid with a hit wins, the nearer of two hits is taken, and a tie goes to the
even digit.
-/

namespace Journey.Decimal

/-- The exact value `num / den` of a positive number and the ends of its rounding interval, all
over one denominator; the ends belong to it when `closed`. -/
structure Rounding where
  num : Nat
  low : Nat
  high : Nat
  den : Nat
  closed : Bool

def Rounding.of (x : Binary64) : Rounding :=
  let m := x.significand
  let e := x.exponent
  let gapBelow := if m = Binary64.hiddenBit && decide (-1074 < e) then 1 else 2
  let up : Nat := 1 <<< (e - 2).toNat
  let down : Nat := 1 <<< (2 - e).toNat
  ⟨4 * m * up, (4 * m - gapBelow) * up, (4 * m + 2) * up, down, m % 2 = 0⟩

def scaleTen (num den : Nat) (k : Int) : Nat × Nat :=
  (num * tenTo (-k), den * tenTo k)

def Rounding.contains (r : Rounding) (d : Nat) (k : Int) : Bool :=
  let value := d * tenTo k * r.den
  let unit := tenTo (-k)
  if r.closed then r.low * unit ≤ value && value ≤ r.high * unit
  else r.low * unit < value && value < r.high * unit

/-- The digits of the grid `10 ^ k` that read back, nearest first, if any do. -/
def Rounding.onGrid? (r : Rounding) (k : Int) : Option Nat :=
  let (n, d) := scaleTen r.num r.den k
  let below := n / d
  let twice := 2 * (n % d)
  let preferUp := d < twice || (twice == d && below % 2 == 1)
  let (first, second) := if preferUp then (below + 1, below) else (below, below + 1)
  if r.contains first k then some first
  else if r.contains second k then some second
  else none

def Rounding.magnitude (r : Rounding) : Int :=
  let guess : Int := (((r.num.log2 : Int) - r.den.log2 - 1) * 30103).fdiv 100000 - 1
  let reaches (p : Int) : Bool := r.den * tenTo p ≤ r.num * tenTo (-p)
  if reaches (guess + 3) then guess + 3
  else if reaches (guess + 2) then guess + 2
  else if reaches (guess + 1) then guess + 1
  else guess

/-- Tries grids with ever more digits; `tries` of them are left. -/
def Rounding.search (r : Rounding) (magnitude : Int) : (tries : Nat) → (digits : Nat) → Nat × Int
  | 0, _ => (0, 0)
  | tries + 1, digits =>
      let k := magnitude + 1 - digits
      match r.onGrid? k with
      | some d => (d, k)
      | none => search r magnitude tries (digits + 1)

def stripZeros : (fuel : Nat) → Nat → Int → Nat × Int
  | 0, d, k => (d, k)
  | fuel + 1, d, k => if d % 10 = 0 && d ≠ 0 then stripZeros fuel (d / 10) (k + 1) else (d, k)

/-- Digits and exponent of ten of the shortest decimal that rounds to a positive finite number. -/
def shortest (x : Binary64) : Nat × Int :=
  let r := Rounding.of x
  let (d, k) := r.search r.magnitude 17 1
  stripZeros 20 d k

def digitsOf (n : Nat) : List Char := (toString n).toList

/-- Digits and exponent in the notation of data files: a point and at least one place after it when
the number lies between `1e-5` and `1e16`, else one digit before the point and a signed
exponent. -/
def layout (d : Nat) (k : Int) : List Char :=
  let ds := digitsOf d
  let point : Int := ds.length + k
  if 16 < point || point ≤ -5 then
    let mantissa :=
      match ds with
      | [] => []
      | [c] => [c]
      | c :: rest => c :: '.' :: rest
    let e := point - 1
    mantissa ++ 'e' :: (if e < 0 then '-' else '+') :: digitsOf e.natAbs
  else if point ≤ 0 then '0' :: '.' :: List.replicate (-point).toNat '0' ++ ds
  else if 0 ≤ k then ds ++ List.replicate k.toNat '0' ++ ['.', '0']
  else ds.take point.toNat ++ '.' :: ds.drop point.toNat

def print (x : Binary64) : List Char :=
  let body :=
    if x.isZero then ['0', '.', '0']
    else
      let (d, k) := shortest x
      layout d k
  if x.isNegative then '-' :: body else body

end Journey.Decimal
