import Journey.Text.Word

/-!
The shapes of text that the lint looks for: element queries, durations and logical keys, and the
word lists of selector parameters, duration parameters and sleeping keywords.
-/

namespace Journey.Lint

open Text

def keyChars (cs : List Char) : List Char × List Char :=
  (cs.takeWhile isKeyChar, cs.dropWhile isKeyChar)

def isIdQuery : List Char → Bool
  | '#' :: c :: rest => isAsciiLetter c && rest.all isKeyChar
  | _ => false

/-- `.` and a name that ends at a blank, a combinator, a further condition or the end. -/
def isClassQuery : List Char → Bool
  | '.' :: c :: rest =>
      isAsciiLetter c &&
        match (keyChars rest).2 with
        | [] => true
        | d :: _ => isBlank d || d == '>' || d == '.' || d == '#' || d == '[' || d == ':'
  | _ => false

def closesBracket (cs : List Char) : Bool := (cs.takeWhile (· != '\n')).contains ']'

/-- An equals sign, perhaps after an operator mark, with a closing bracket further on. -/
def isComparison : List Char → Bool
  | '=' :: rest => closesBracket rest
  | op :: '=' :: rest =>
      (op == '~' || op == '|' || op == '^' || op == '$' || op == '*') && closesBracket rest
  | _ => false

def isAttributeQuery : List Char → Bool
  | '[' :: rest =>
      let (name, after) := keyChars rest
      !name.isEmpty &&
        match after with
        | ']' :: _ => true
        | after => isComparison after
  | _ => false

def isElementQuery (cs : List Char) : Bool :=
  let isLower (c : Char) : Bool := 'a' ≤ c && c ≤ 'z'
  !(cs.takeWhile isLower).isEmpty &&
    match cs.dropWhile isLower with
    | '[' :: c :: _ => isKeyChar c
    | _ => false

/-- Text that addresses an element by a query: an engine mark in front, a CSS shape in front, or
two angles anywhere. -/
def looksLikeQuery (cs : List Char) : Bool :=
  ["css=", "xpath=", "text=", "id=", "//"].any (fun lead => startsWith lead.toList cs) ||
    isIdQuery cs || isClassQuery cs || isAttributeQuery cs || isElementQuery cs ||
    Text.contains ['>', '>'] cs

def units : List String := ["ms", "s", "sec", "secs", "seconds", "m", "min"]

def quantity? (cs : List Char) : Option (List Char) :=
  if (cs.takeWhile isDigit).isEmpty then none
  else
    match cs.dropWhile isDigit with
    | '.' :: rest =>
        if (rest.takeWhile isDigit).isEmpty then none else some (rest.dropWhile isDigit)
    | rest => some rest

def isUnitDuration (cs : List Char) : Bool :=
  match quantity? cs with
  | some rest => units.any fun unit => trimLeft rest = unit.toList
  | none => false

def isDuration (cs : List Char) : Bool :=
  match quantity? cs with
  | some rest => (trimLeft rest).isEmpty || isUnitDuration cs
  | none => false

def isKeyTail : (segments : List (List Char)) → Bool
  | [] => true
  | segment :: rest => !segment.isEmpty && segment.all isKeyChar && isKeyTail rest

def isLogicalKey (s : String) : Bool :=
  match splitOn '.' s.toList with
  | (c :: rest) :: segments => isNameStart c && rest.all isKeyChar && isKeyTail segments
  | _ => false

def selectorKeys : List String := ["selector", "css", "xpath", "locator", "query"]

def durationKeys : List String :=
  ["timeout", "timeout_ms", "wait", "wait_ms", "sleep", "delay", "duration", "ms"]

/-- Keywords that would be nothing but a literal sleep. -/
def sleepKeywords : List String := ["sleep", "pause", "wait.ms", "wait.timeout", "wait.sleep"]

/-- Lower case as far as it decides equality with the words above: none of them has a `k`, the one
ASCII letter that is also the lower case of a character outside ASCII. -/
def lowered (s : String) : String := String.ofList (s.toList.map Char.toLower)

def isSelectorKey (key : String) : Bool := selectorKeys.contains (lowered key)

def isDurationKey (key : String) : Bool := durationKeys.contains (lowered key)

end Journey.Lint
