import Journey.Decimal.Shortest
import Journey.Value

/-!
Values as text. The compact form has no blanks; the wide form puts every item on a line of its own,
two columns further in than its parent. Text is quoted in both, with a backslash before quotes,
backslashes and control characters only.
-/

namespace Journey.Value

def hexDigit (n : Nat) : Char := ("0123456789abcdef".toList).getD n '0'

def escape (c : Char) : List Char :=
  if c = '"' then ['\\', '"']
  else if c = '\\' then ['\\', '\\']
  else if c = '\n' then ['\\', 'n']
  else if c = '\t' then ['\\', 't']
  else if c = '\r' then ['\\', 'r']
  else if c.toNat = 8 then ['\\', 'b']
  else if c.toNat = 12 then ['\\', 'f']
  else if c.toNat < 32 then ['\\', 'u', '0', '0', hexDigit (c.toNat / 16), hexDigit (c.toNat % 16)]
  else [c]

def quote (s : String) : List Char := '"' :: s.toList.flatMap escape ++ ['"']

def printInt (i : Int) : List Char := (toString i).toList

/-- A number that is not finite has no notation and is written as `null`. -/
def printFloat (x : Binary64) : List Char :=
  if x.isFinite then Decimal.print x else "null".toList

mutual
def print : Value → List Char
  | .null => "null".toList
  | .bool b => if b then "true".toList else "false".toList
  | .int i => printInt i
  | .float x => printFloat x
  | .str s => quote s
  | .arr [] => "[]".toList
  | .arr (item :: items) => '[' :: print item ++ printItems items ++ [']']
  | .obj [] => ['\x7b', '\x7d']
  | .obj ((key, item) :: fields) =>
      '\x7b' :: quote key ++ ':' :: print item ++ printFields fields ++ ['\x7d']

def printItems : List Value → List Char
  | [] => []
  | item :: items => ',' :: print item ++ printItems items

def printFields : List (String × Value) → List Char
  | [] => []
  | (key, item) :: fields => ',' :: quote key ++ ':' :: print item ++ printFields fields
end

def text (v : Value) : String := String.ofList v.print

/-- A value inside a sentence or a field: text stands for itself and nothing for null. -/
def render : Value → String
  | .str s => s
  | .null => ""
  | v => v.text

def newLine (depth : Nat) : List Char := '\n' :: List.replicate (2 * depth) ' '

mutual
def printWide (depth : Nat) : Value → List Char
  | .arr (item :: items) =>
      '[' :: newLine (depth + 1) ++ printWide (depth + 1) item ++
        printWideItems (depth + 1) items ++ newLine depth ++ [']']
  | .obj ((key, item) :: fields) =>
      '\x7b' :: newLine (depth + 1) ++ quote key ++ ':' :: ' ' :: printWide (depth + 1) item ++
        printWideFields (depth + 1) fields ++ newLine depth ++ ['\x7d']
  | v => v.print

def printWideItems (depth : Nat) : List Value → List Char
  | [] => []
  | item :: items => ',' :: newLine depth ++ printWide depth item ++ printWideItems depth items

def printWideFields (depth : Nat) : List (String × Value) → List Char
  | [] => []
  | (key, item) :: fields =>
      ',' :: newLine depth ++ quote key ++ ':' :: ' ' :: printWide depth item ++
        printWideFields depth fields
end

def wideText (v : Value) : String := String.ofList (printWide 0 v)

end Journey.Value
