/-!
Places in indented text: the gaps between tokens, with their comments and line ends, the columns
that tell collections apart, and the marks around a document. A line ends at a line feed; a lone
carriage return breaks text like one, but no new line begins there and the columns go on.
-/

namespace Journey.Node.Yaml

/-- A place in the text: what follows, its column, and whether it is the first token after a line
end. -/
structure Cursor where
  rest : List Char
  col : Nat
  fresh : Bool

def isSpace (c : Char) : Bool := c == ' ' || c == '\t'

def isBreak (c : Char) : Bool := c == '\n' || c == '\r'

def isFlowMark (c : Char) : Bool := c == ',' || c == '[' || c == ']' || c == '\x7b' || c == '\x7d'

def columnAfter (col : Nat) (c : Char) : Nat := if c = '\n' then 0 else col + 1

def atGap : List Char → Bool
  | [] => true
  | c :: _ => isSpace c || isBreak c

/-- Moves over blanks, comments and line ends. Outside brackets a tab is no blank where a key may
begin: so after every line end, and before the first one if `keys` says it. -/
def skipGap (flow keys comment : Bool) (col : Nat) (fresh : Bool) : List Char → Cursor
  | [] => ⟨[], col, fresh⟩
  | c :: rest =>
      if isBreak c then skipGap flow true false (columnAfter col c) true rest
      else if comment || c = ' ' || (c = '\t' && (flow || !keys)) then
        skipGap flow keys comment (col + 1) fresh rest
      else if c = '#' then skipGap flow keys true (col + 1) fresh rest
      else ⟨c :: rest, col, fresh⟩

namespace Cursor

def moveTo (cur : Cursor) (rest : List Char) : Cursor :=
  ⟨rest, (cur.rest.take (cur.rest.length - rest.length)).foldl columnAfter cur.col, false⟩

def next (cur : Cursor) : Cursor := skipGap true false false cur.col cur.fresh cur.rest

/-- The next token outside brackets; `keys` tells whether a key may begin before a line end. -/
def nextBlock (cur : Cursor) (keys : Bool) : Cursor :=
  skipGap false keys false cur.col cur.fresh cur.rest

/-- A line that begins with three hyphens or three points marks the bounds of a document. -/
def atMark (cur : Cursor) : Bool :=
  cur.fresh && cur.col == 0 &&
    match cur.rest with
    | '-' :: '-' :: '-' :: rest => atGap rest
    | '.' :: '.' :: '.' :: rest => atGap rest
    | _ => false

def atEnd (cur : Cursor) : Bool := cur.rest.isEmpty || cur.atMark

def atIndicator (indicator : Char) (cur : Cursor) : Bool :=
  match cur.rest with
  | c :: rest => c == indicator && atGap rest
  | [] => false

def atDash (cur : Cursor) : Bool := cur.atIndicator '-'

def atColon (cur : Cursor) : Bool := cur.atIndicator ':'

def atQuestion (cur : Cursor) : Bool := cur.atIndicator '?'

def advance (cur : Cursor) : Cursor := ⟨cur.rest.drop 1, cur.col + 1, false⟩

end Cursor

def endsKey (flow : Bool) (rest : List Char) : Bool :=
  atGap rest || (flow && match rest with
    | c :: _ => isFlowMark c
    | [] => true)

def dropTrailingSpace (cs : List Char) : List Char := (cs.reverse.dropWhile isSpace).reverse

def foldBreaks (breaks : Nat) : List Char :=
  if breaks ≤ 1 then [' '] else List.replicate (breaks - 1) '\n'

def skipBreaks (breaks col : Nat) : List Char → Nat × Nat × List Char
  | [] => (breaks, col, [])
  | c :: rest =>
      if isBreak c then skipBreaks (breaks + 1) (columnAfter col c) rest
      else if isSpace c then skipBreaks breaks (col + 1) rest
      else (breaks, col, c :: rest)

end Journey.Node.Yaml
