import Journey.Text.Blank
import Journey.Text.WordTable

/-!
Word characters, decimal digits, and the two shapes of name built from them: identifiers and
dotted names.
-/

namespace Journey.Text

def isAsciiLetter (c : Char) : Bool := ('a' ≤ c && c ≤ 'z') || ('A' ≤ c && c ≤ 'Z')

def isAsciiDigit (c : Char) : Bool := '0' ≤ c && c ≤ '9'

/-- Letters, marks, digits, connecting punctuation and joiners. -/
def isWord (c : Char) : Bool :=
  if c.toNat < 0x80 then isAsciiLetter c || isAsciiDigit c || c == '_'
  else wordRanges.any fun (low, high) => low ≤ c.toNat && c.toNat ≤ high

def isDigit (c : Char) : Bool :=
  if c.toNat < 0x80 then isAsciiDigit c
  else digitZeros.any fun first => first ≤ c.toNat && c.toNat ≤ first + 9

def isNameStart (c : Char) : Bool := isAsciiLetter c || c == '_'

def isIdentifier : List Char → Bool
  | [] => false
  | c :: rest => isNameStart c && rest.all isWord

def isKeyChar (c : Char) : Bool := isWord c || c == '-'

end Journey.Text
