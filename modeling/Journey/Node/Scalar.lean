import Journey.Node

/-!
The types of unquoted scalars: null, truth values, integers in four bases, floating point numbers
with their infinities, and text for everything else. Digits after a leading zero are text.
-/

namespace Journey.Node.Scalar

def radixDigit? (radix : Nat) (c : Char) : Option Nat :=
  let d :=
    if '0' ≤ c && c ≤ '9' then c.toNat - 48
    else if 'a' ≤ c && c ≤ 'f' then c.toNat - 87
    else if 'A' ≤ c && c ≤ 'F' then c.toNat - 55
    else 99
  if d < radix then some d else none

def radixValue? (radix : Nat) : List Char → Option Nat
  | [] => none
  | cs => cs.foldl (fun n c => n.bind fun n => (radixDigit? radix c).map (radix * n + ·)) (some 0)

def marked? : List Char → Option (Nat × List Char)
  | '0' :: 'x' :: digits => some (16, digits)
  | '0' :: 'o' :: digits => some (8, digits)
  | '0' :: 'b' :: digits => some (2, digits)
  | _ => none

def dropPlus : List Char → List Char
  | '+' :: rest => rest
  | rest => rest

/-- An integer after `0x`, `0o` or `0b`. A minus stands in front of the mark; a plus may stand in
front of it, after it, or both. -/
def based? : List Char → Option Int
  | '-' :: rest => do
      let (radix, digits) ← marked? rest
      let n ← radixValue? radix digits
      if (n : Int) ≤ -Decimal.minInt64 then some (-(n : Int)) else none
  | cs => do
      let (radix, digits) ← marked? (dropPlus cs)
      let n ← radixValue? radix (dropPlus digits)
      if (n : Int) ≤ Decimal.maxNat64 then some n else none

def hasLeadingZero (cs : List Char) : Bool :=
  match (Decimal.signed cs).2 with
  | '0' :: c :: rest => Decimal.isDigits (c :: rest)
  | _ => false

def infinity? (cs : List Char) : Option Binary64 :=
  let names := [".inf".toList, ".Inf".toList, ".INF".toList]
  match cs with
  | '-' :: rest => if names.contains rest then some (Binary64.negate .infinity) else none
  | cs => if names.contains (cs.dropWhile (· == '+')) then some .infinity else none

def resolve (s : String) : Atom :=
  let cs := s.toList
  if s = "~" || s = "null" then .null
  else if s = "true" then .bool true
  else if s = "false" then .bool false
  else
    match based? cs with
    | some i => .int i
    | none =>
        if hasLeadingZero cs then .text s
        else
          match Decimal.readInt? Decimal.minInt128 Decimal.maxNat128 cs with
          | some i => .int i
          | none =>
              match infinity? cs with
              | some x => .float x
              | none =>
                  if [".nan", ".NaN", ".NAN"].contains s then .float .notANumber
                  else
                    match Decimal.readFinite? cs with
                    | some x => .float x
                    | none => .text s

end Journey.Node.Scalar
