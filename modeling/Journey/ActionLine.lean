import Journey.Decimal.Nearest
import Journey.Text.Word
import Journey.Value

/-!
Action lines: a verb, a keyword, then parameters `key=value` and flags in any order. A value in
double quotes is text; a bare one is a truth value, an integer, a floating point number, or else
text. Also here: the line that declares a variable.
-/

namespace Journey

open Text

inductive TokenError where
  | unterminatedEscape
  | unterminatedQuote
  | verbAlone (verb : String)
  | keywordIsParameter (key : String)
  | missingKeyword
  | notOneValue (raw : String)
  deriving DecidableEq

def TokenError.message : TokenError → String
  | .unterminatedEscape => "unterminated escape"
  | .unterminatedQuote => "unterminated quoted string"
  | .verbAlone verb => s!"'{verb}' requires an action keyword"
  | .keywordIsParameter key => s!"expected an action keyword, found parameter '{key}'"
  | .missingKeyword => "missing action keyword"
  | .notOneValue raw => s!"variable value must be a single token or a quoted string, got '{raw}'"

inductive Token where
  | word (text : String)
  | pair (key : String) (value : Value)
  deriving DecidableEq

namespace Token

def bareValue (raw : List Char) : Value :=
  if raw = "true".toList then .bool true
  else if raw = "false".toList then .bool false
  else
    match Decimal.readInt? Decimal.minInt64 Decimal.maxInt64 raw with
    | some i => .int i
    | none =>
        match Decimal.readFinite? raw with
        | some x => .float x
        | none => .str (String.ofList raw)

def unescape (c : Char) : Char :=
  if c = 'n' then '\n' else if c = 't' then '\t' else c

/-- The text after an opening quote, and what follows the closing one. -/
def quoted : List Char → Except TokenError (List Char × List Char)
  | [] => .error .unterminatedQuote
  | ['\\'] => .error .unterminatedEscape
  | '\\' :: c :: rest => (quoted rest).map fun (text, after) => (unescape c :: text, after)
  | c :: rest =>
      if c = '"' then .ok ([], rest)
      else (quoted rest).map fun (text, after) => (c :: text, after)

def untilBlank (cs : List Char) : List Char × List Char :=
  (cs.takeWhile fun c => !isBlank c, cs.dropWhile fun c => !isBlank c)

def key? (cs : List Char) : Option (List Char × List Char) :=
  let key := cs.takeWhile fun c => isWord c
  match cs.drop key.length with
  | '=' :: rest => if isIdentifier key then some (key, rest) else none
  | _ => none

def next (cs : List Char) : Except TokenError (Token × List Char) :=
  match cs with
  | '"' :: rest => (quoted rest).map fun (text, after) => (.word (String.ofList text), after)
  | cs =>
      match key? cs with
      | some (key, '"' :: rest) =>
          (quoted rest).map fun (text, after) =>
            (.pair (String.ofList key) (.str (String.ofList text)), after)
      | some (key, rest) =>
          let (bare, after) := untilBlank rest
          .ok (.pair (String.ofList key) (bareValue bare), after)
      | none =>
          let (bare, after) := untilBlank cs
          .ok (.word (String.ofList bare), after)

/-- The tokens of a text; each takes at least one character, so that `fuel` above the length is
enough. -/
def listFrom : (fuel : Nat) → List Char → Except TokenError (List Token)
  | 0, _ => .ok []
  | fuel + 1, cs =>
      match trimLeft cs with
      | [] => .ok []
      | rest =>
          match next rest with
          | .error e => .error e
          | .ok (token, after) => (listFrom fuel after).map (token :: ·)

def list (cs : List Char) : Except TokenError (List Token) := listFrom (cs.length + 1) cs

def pair? : Token → Option (String × Value)
  | .pair key value => some (key, value)
  | .word _ => none

def word? : Token → Option String
  | .word text => some text
  | .pair _ _ => none

end Token

inductive Verb where
  | step
  | assert
  | do_
  deriving DecidableEq, Inhabited

def Verb.name : Verb → String
  | .step => "step"
  | .assert => "assert"
  | .do_ => "do"

def Verb.ofName? (name : List Char) : Option Verb :=
  if name = "step".toList then some .step
  else if name = "assert".toList then some .assert
  else if name = "do".toList then some .do_
  else none

/-- An action line in its parts, parameters and flags each in the order of the text. -/
structure ActionLine where
  verb : Verb
  keyword : String
  params : List (String × Value)
  flags : List String
  deriving DecidableEq

namespace ActionLine

def ofTokens (verb : Verb) : List Token → Except TokenError ActionLine
  | [] => .error .missingKeyword
  | .pair key _ :: _ => .error (.keywordIsParameter key)
  | .word keyword :: rest =>
      .ok ⟨verb, keyword, rest.filterMap Token.pair?, rest.filterMap Token.word?⟩

/-- Reads an action line; other lines give nothing. -/
def parse (raw : List Char) : Except TokenError (Option ActionLine) :=
  let line := trim raw
  match splitAtBlank line with
  | none =>
      match Verb.ofName? line with
      | some verb => .error (.verbAlone verb.name)
      | none => .ok none
  | some (first, rest) =>
      match Verb.ofName? first with
      | none => .ok none
      | some verb =>
          match Token.list rest with
          | .error e => .error e
          | .ok tokens => (ofTokens verb tokens).map some

end ActionLine

namespace Variable

/-- The value of a variable: one bare word, or one quoted text. -/
def parseValue (raw : List Char) : Except TokenError Value :=
  let text := trim raw
  match Token.list text with
  | .error e => .error e
  | .ok [.word word] =>
      .ok (if startsWith ['"'] text then .str word else Token.bareValue word.toList)
  | .ok _ => .error (.notOneValue (String.ofList text))

/-- The name and the value of a line `var name = value`; other lines give nothing. -/
def parseLine (raw : List Char) : Option (String × Except TokenError Value) :=
  match after? "var".toList (trim raw) with
  | none => none
  | some afterVar =>
      let atName := trimLeft afterVar
      let name := atName.takeWhile isWord
      match trimLeft (atName.drop name.length) with
      | '=' :: rest =>
          let value := trimLeft rest
          if afterVar.length = atName.length || !isIdentifier name || value.isEmpty ||
              value.contains '\n' then none
          else some (String.ofList name, parseValue value)
      | _ => none

end Variable
end Journey
