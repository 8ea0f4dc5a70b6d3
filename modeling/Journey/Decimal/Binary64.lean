/-!
Binary floating point numbers of 64 bits as bit patterns, and their reading as a sign and an exact
binary fraction `significand * 2 ^ exponent`.
-/

namespace Journey

structure Binary64 where
  bits : UInt64
  deriving DecidableEq, Inhabited

namespace Binary64

def toFloat (x : Binary64) : Float := Float.ofBits x.bits

def ofFloat (x : Float) : Binary64 := ⟨x.toBits⟩

def isNegative (x : Binary64) : Bool := x.bits >>> 63 == 1

def biasedExponent (x : Binary64) : Nat := ((x.bits >>> 52) &&& 0x7FF).toNat

def fraction (x : Binary64) : Nat := (x.bits &&& 0xFFFFFFFFFFFFF).toNat

def isFinite (x : Binary64) : Bool := x.biasedExponent != 0x7FF

def isZero (x : Binary64) : Bool := x.biasedExponent == 0 && x.fraction == 0

def hiddenBit : Nat := 0x10000000000000

/-- The integer significand; normal numbers have the hidden bit in it. -/
def significand (x : Binary64) : Nat :=
  if x.biasedExponent = 0 then x.fraction else x.fraction + hiddenBit

def exponent (x : Binary64) : Int :=
  if x.biasedExponent = 0 then -1074 else (x.biasedExponent : Int) - 1075

/-- Equal as numbers: the two zeros are equal, and what is not a number equals nothing. -/
def sameNumber (x y : Binary64) : Bool :=
  let isNumber (z : Binary64) := z.isFinite || z.fraction == 0
  isNumber x && isNumber y && (x.bits == y.bits || (x.isZero && y.isZero))

def zero : Binary64 := ⟨0⟩

def infinity : Binary64 := ⟨0x7FF0000000000000⟩

def notANumber : Binary64 := ⟨0x7FF8000000000000⟩

def negate (x : Binary64) : Binary64 := ⟨x.bits ^^^ 0x8000000000000000⟩

end Binary64
end Journey
