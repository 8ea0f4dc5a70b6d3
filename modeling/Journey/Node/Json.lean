import Journey.Node

/-!
Documents from JSON text. Integers that fit in 64 bits stay integers and all other numbers become
floating point numbers, which must be finite; strings are Unicode text, so lone surrogates have no
reading. A number or string without a reading matters only where it is asked for.
-/

namespace Journey.Node.Json

def isSpace (c : Char) : Bool := c == ' ' || c == '\t' || c == '\n' || c == '\r'

def skipSpace (cs : List Char) : List Char := cs.dropWhile isSpace

def hexValue? (c : Char) : Option Nat :=
  if '0' ≤ c && c ≤ '9' then some (c.toNat - 48)
  else if 'a' ≤ c && c ≤ 'f' then some (c.toNat - 87)
  else if 'A' ≤ c && c ≤ 'F' then some (c.toNat - 55)
  else none

def hexFour? : List Char → Option (Nat × List Char)
  | a :: b :: c :: d :: rest =>
      match hexValue? a, hexValue? b, hexValue? c, hexValue? d with
      | some a, some b, some c, some d => some (((a * 16 + b) * 16 + c) * 16 + d, rest)
      | _, _, _, _ => none
  | _ => none

/-- The character that the code units after `\u` stand for, if any, and the text after them: one
unit outside the surrogates, or a pair of surrogates. -/
def unicodeEscape? (cs : List Char) : Option (Option Char × List Char) :=
  match hexFour? cs with
  | none => none
  | some (high, rest) =>
      if 0xDC00 ≤ high && high < 0xE000 then some (none, rest)
      else if 0xD800 ≤ high && high < 0xDC00 then
        match rest with
        | '\\' :: 'u' :: after =>
            match hexFour? after with
            | some (low, after) =>
                if 0xDC00 ≤ low && low < 0xE000 then
                  let code := 0x10000 + (high - 0xD800) * 0x400 + (low - 0xDC00)
                  some (some (Char.ofNat code), after)
                else some (none, rest)
            | none => none
        | rest => some (none, rest)
      else some (some (Char.ofNat high), rest)

def simpleEscape? (c : Char) : Option Char :=
  if c = '"' || c = '\\' || c = '/' then some c
  else if c = 'b' then some '\x08'
  else if c = 'f' then some '\x0c'
  else if c = 'n' then some '\n'
  else if c = 'r' then some '\r'
  else if c = 't' then some '\t'
  else none

/-- The rest of a string after its opening quote; `held` is what has been read, backwards, as long
as it has a reading. -/
def string? : (fuel : Nat) → (held : Option (List Char)) → List Char →
    Option (Option String × List Char)
  | 0, _, _ => none
  | _ + 1, _, [] => none
  | fuel + 1, held, c :: rest =>
      if c = '"' then some (held.map fun held => String.ofList held.reverse, rest)
      else if c = '\\' then
        match rest with
        | [] => none
        | 'u' :: rest =>
            match unicodeEscape? rest with
            | some (shown, rest) =>
                string? fuel (held.bind fun held => shown.map (· :: held)) rest
            | none => none
        | d :: rest =>
            match simpleEscape? d with
            | some shown => string? fuel (held.map (shown :: ·)) rest
            | none => none
      else if c.toNat < 32 then none
      else string? fuel (held.map (c :: ·)) rest

def stringAfterQuote? (cs : List Char) : Option (Option String × List Char) :=
  string? (cs.length + 1) (some []) cs

def isNumberChar (c : Char) : Bool :=
  ('0' ≤ c && c ≤ '9') || c == '-' || c == '+' || c == '.' || c == 'e' || c == 'E'

/-- A numeral in its parts; an absent fraction or exponent is empty. -/
structure Numeral where
  minus : Bool
  whole : List Char
  fraction : List Char
  exponent : Option Int

def isDigit (c : Char) : Bool := '0' ≤ c && c ≤ '9'

def isWhole : List Char → Bool
  | [] => false
  | '0' :: _ :: _ => false
  | _ => true

def fraction? : List Char → Option (List Char × List Char)
  | '.' :: rest =>
      let digits := rest.takeWhile isDigit
      if digits.isEmpty then none else some (digits, rest.dropWhile isDigit)
  | rest => some ([], rest)

def exponent? : List Char → Option (Option Int)
  | [] => some none
  | rest => (Decimal.readExponent? rest).map some

/-- A numeral that keeps to the grammar: no leading plus, no needless leading zero, digits on both
sides of the point. -/
def numeral? (cs : List Char) : Option Numeral := do
  let (minus, body) := match cs with
    | '-' :: rest => (true, rest)
    | rest => (false, rest)
  let whole := body.takeWhile isDigit
  if !isWhole whole then none
  else
    let (fraction, rest) ← fraction? (body.dropWhile isDigit)
    return ⟨minus, whole, fraction, ← exponent? rest⟩

/-- Appends digits to a number as long as it fits in 64 bits; the rest is left over. -/
def absorb (significand : Nat) : List Char → Nat × List Char
  | [] => (significand, [])
  | c :: rest =>
      let next := 10 * significand + Decimal.digitValue c
      if next ≤ Decimal.maxNat64 then absorb next rest else (significand, c :: rest)

def powerOfTen (e : Nat) : Float := (Decimal.nearest 1 e).toFloat

/-- A float times a power of ten, in one or two rounded steps; none if it grows too large. -/
def scale? (x : Float) (e : Int) : Option Float :=
  if 308 < e then if x == 0.0 then some x else none
  else if 0 ≤ e then
    let y := x * powerOfTen e.toNat
    if y.isInf then none else some y
  else if -308 ≤ e then some (x / powerOfTen (-e).toNat)
  else if -616 ≤ e then some (x / powerOfTen 308 / powerOfTen (-e - 308).toNat)
  else some 0.0

/-- The floating point number that a numeral stands for: its leading digits, as far as they fit in
64 bits, scaled by a power of ten. The last place may differ from that of the nearest number. -/
def Numeral.float? (n : Numeral) : Option Binary64 :=
  let (significand, left) := absorb 0 n.whole
  let (significand, unused) := absorb significand n.fraction
  let e : Int := left.length - (n.fraction.length - unused.length : Nat) + n.exponent.getD 0
  (scale? (Decimal.nearest significand 0).toFloat e).map fun x =>
    if n.minus then (Binary64.ofFloat x).negate else .ofFloat x

def Numeral.int? (n : Numeral) : Option Int :=
  if n.fraction.isEmpty && n.exponent.isNone then
    let i := Decimal.ofDigits n.whole
    if !n.minus then if i ≤ Decimal.maxNat64 then some i else none
    else if 0 < i && -(i : Int) ≥ Decimal.minInt64 then some (-(i : Int)) else none
  else none

def Numeral.atom (n : Numeral) : Atom :=
  match n.int? with
  | some i => .int i
  | none => (n.float?.map Atom.float).getD .unreadable

def textAtom (s : Option String) : Node := .atom ((s.map Atom.text).getD .unreadable) none

mutual
def node? : (fuel : Nat) → List Char → Option (Node × List Char)
  | 0, _ => none
  | fuel + 1, cs =>
      match skipSpace cs with
      | 'n' :: 'u' :: 'l' :: 'l' :: rest => some (.atom .null none, rest)
      | 't' :: 'r' :: 'u' :: 'e' :: rest => some (.atom (.bool true) none, rest)
      | 'f' :: 'a' :: 'l' :: 's' :: 'e' :: rest => some (.atom (.bool false) none, rest)
      | '"' :: rest => (stringAfterQuote? rest).map fun (s, rest) => (textAtom s, rest)
      | '[' :: rest =>
          match skipSpace rest with
          | ']' :: rest => some (.seq true [], rest)
          | rest => (items? fuel rest).map fun (items, rest) => (.seq true items, rest)
      | '\x7b' :: rest =>
          match skipSpace rest with
          | '\x7d' :: rest => some (.map [], rest)
          | rest => (entries? fuel rest).map fun (entries, rest) => (.map entries, rest)
      | cs =>
          (numeral? (cs.takeWhile isNumberChar)).map fun n =>
            (.atom n.atom none, cs.dropWhile isNumberChar)

def items? : (fuel : Nat) → List Char → Option (List Node × List Char)
  | 0, _ => none
  | fuel + 1, cs =>
      match node? fuel cs with
      | none => none
      | some (n, rest) =>
          match skipSpace rest with
          | ']' :: rest => some ([n], rest)
          | ',' :: rest => (items? fuel rest).map fun (ns, rest) => (n :: ns, rest)
          | _ => none

def entries? : (fuel : Nat) → List Char → Option (List (Option String × Node) × List Char)
  | 0, _ => none
  | fuel + 1, cs =>
      match skipSpace cs with
      | '"' :: rest =>
          match stringAfterQuote? rest with
          | none => none
          | some (key, rest) =>
              match skipSpace rest with
              | ':' :: rest =>
                  match node? fuel rest with
                  | none => none
                  | some (n, rest) =>
                      match skipSpace rest with
                      | '\x7d' :: rest => some ([(key, n)], rest)
                      | ',' :: rest =>
                          (entries? fuel rest).map fun (es, rest) => ((key, n) :: es, rest)
                      | _ => none
              | _ => none
      | _ => none
end

def parse? (text : String) : Option Node :=
  match node? (2 * text.length + 2) text.toList with
  | some (n, rest) => if (skipSpace rest).isEmpty then some n else none
  | none => none

end Json

def parseValue? (text : String) : Option Value := (Json.parse? text).bind (value? maxLevels)

end Journey.Node
