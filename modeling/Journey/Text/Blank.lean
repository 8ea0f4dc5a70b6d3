/-!
Blanks and lines. A blank is a character of the Unicode property White_Space; a line ends at a
line feed, which may have one carriage return before it.
-/

namespace Journey.Text

def isBlank (c : Char) : Bool :=
  let n := c.toNat
  (0x09 ≤ n && n ≤ 0x0D) || n == 0x20 || n == 0x85 || n == 0xA0 || n == 0x1680 ||
    (0x2000 ≤ n && n ≤ 0x200A) || n == 0x2028 || n == 0x2029 || n == 0x202F || n == 0x205F ||
    n == 0x3000

def trimLeft (cs : List Char) : List Char := cs.dropWhile isBlank

def trimRight (cs : List Char) : List Char := (cs.reverse.dropWhile isBlank).reverse

def trim (cs : List Char) : List Char := trimRight (trimLeft cs)

def trimString (s : String) : String := String.ofList (trim s.toList)

/-- Closes a line held backwards, dropping one carriage return before its line feed. -/
def closeLine : List Char → List Char
  | '\r' :: held => held.reverse
  | held => held.reverse

def linesFrom (held : List Char) : List Char → List (List Char)
  | [] => if held.isEmpty then [] else [held.reverse]
  | '\n' :: rest => closeLine held :: linesFrom [] rest
  | c :: rest => linesFrom (c :: held) rest

/-- The lines of a text without their endings. What follows the last line feed is a line of its
own unless it is empty, and keeps a carriage return at its end. -/
def lines (cs : List Char) : List (List Char) := linesFrom [] cs

def splitAtBlank : List Char → Option (List Char × List Char)
  | [] => none
  | c :: rest =>
      if isBlank c then some ([], rest)
      else (splitAtBlank rest).map fun (before, after) => (c :: before, after)

def after? : (lead : List Char) → List Char → Option (List Char)
  | [], rest => some rest
  | _ :: _, [] => none
  | l :: lead, c :: rest => if l = c then after? lead rest else none

def startsWith (lead cs : List Char) : Bool := (after? lead cs).isSome

def contains (part : List Char) : List Char → Bool
  | [] => part.isEmpty
  | c :: rest => startsWith part (c :: rest) || contains part rest

def containsString (part whole : String) : Bool := contains part.toList whole.toList

/-- The pieces between the separators; one more than there are separators. -/
def splitOn (separator : Char) : List Char → List (List Char)
  | [] => [[]]
  | c :: rest =>
      if c = separator then [] :: splitOn separator rest
      else
        match splitOn separator rest with
        | [] => [[c]]
        | piece :: pieces => (c :: piece) :: pieces

end Journey.Text
