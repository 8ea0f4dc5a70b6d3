import Journey.Decimal.Binary64

/-!
Decimal notation to the nearest 64-bit number. The quotient of two naturals is scaled to 53
binary places, or to the least exponent, and rounded there with ties to even.
-/

namespace Journey.Decimal

/-- `num / den` rounded to a natural, ties to even. -/
def roundDiv (num den : Nat) : Nat :=
  let q := num / den
  let r := num % den
  if 2 * r < den then q else if den < 2 * r then q + 1 else q + q % 2

def scaleTwo (num den : Nat) (e : Int) : Nat × Nat :=
  if 0 ≤ e then (num, den <<< e.toNat) else (num <<< (-e).toNat, den)

/-- The power of ten, and 1 below the exponent 0. -/
def tenTo (exponent : Int) : Nat := Nat.pow 10 exponent.toNat

/-- The number nearest to `num / den`, where both are positive. -/
def nearestQuotient (num den : Nat) : Binary64 :=
  let low : Int := max ((num.log2 : Int) - den.log2 - 53) (-1074)
  let (n, d) := scaleTwo num den low
  let e := if n / d < 2 * Binary64.hiddenBit then low else low + 1
  let (n, d) := scaleTwo num den e
  let m := roundDiv n d
  let (m, e) := if m = 2 * Binary64.hiddenBit then (Binary64.hiddenBit, e + 1) else (m, e)
  if 971 < e then .infinity
  else if m < Binary64.hiddenBit then ⟨UInt64.ofNat m⟩
  else ⟨UInt64.ofNat ((e + 1075).toNat * Binary64.hiddenBit + (m - Binary64.hiddenBit))⟩

def nearest (digits : Nat) (exponent : Int) : Binary64 :=
  if digits = 0 then .zero
  else
    let places : Int := exponent + (digits.log2 : Int)
    if 2000 < exponent then .infinity
    else if places < -2000 - 3 * (digits.log2 : Int) then .zero
    else if 0 ≤ exponent then nearestQuotient (digits * tenTo exponent) 1
    else nearestQuotient digits (tenTo (-exponent))

def ofInt (i : Int) : Binary64 :=
  if i < 0 then (nearest i.natAbs 0).negate else nearest i.natAbs 0

def digitValue (c : Char) : Nat := c.toNat - 48

def ofDigits (ds : List Char) : Nat := ds.foldl (fun n c => 10 * n + digitValue c) 0

def isDigits (ds : List Char) : Bool := !ds.isEmpty && ds.all fun c => '0' ≤ c && c ≤ '9'

def signed : List Char → Bool × List Char
  | '-' :: rest => (true, rest)
  | '+' :: rest => (false, rest)
  | rest => (false, rest)

def readInt? (low high : Int) (cs : List Char) : Option Int :=
  let (minus, digits) := signed cs
  if isDigits digits then
    let i : Int := if minus then -(ofDigits digits : Int) else ofDigits digits
    if low ≤ i && i ≤ high then some i else none
  else none

def minInt64 : Int := -9223372036854775808
def maxInt64 : Int := 9223372036854775807
def maxNat64 : Int := 18446744073709551615

def minInt128 : Int := -170141183460469231731687303715884105728

def maxNat128 : Int := 340282366920938463463374607431768211455

def readExponent? : List Char → Option Int
  | [] => some 0
  | c :: rest =>
      if c = 'e' || c = 'E' then
        let (minus, digits) := signed rest
        if isDigits digits then
          some (if minus then -(ofDigits digits : Int) else ofDigits digits)
        else none
      else none

/-- A finite number in decimal notation: an optional sign, digits with at most one point among or
around them, and an optional exponent. -/
def readFinite? (cs : List Char) : Option Binary64 :=
  let isDigit (c : Char) : Bool := '0' ≤ c && c ≤ '9'
  let (minus, rest) := signed cs
  let whole := rest.takeWhile isDigit
  let rest := rest.dropWhile isDigit
  let (fraction, rest) :=
    match rest with
    | '.' :: rest => (rest.takeWhile isDigit, rest.dropWhile isDigit)
    | rest => ([], rest)
  if whole.isEmpty && fraction.isEmpty then none
  else
    match readExponent? rest with
    | none => none
    | some e =>
        let x := nearest (ofDigits (whole ++ fraction)) (e - fraction.length)
        if x.isFinite then some (if minus then x.negate else x) else none

end Journey.Decimal
