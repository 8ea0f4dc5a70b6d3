import Journey.Node.Yaml.Cursor

/-!
Unquoted scalars: what ends one on its line, and the further lines that continue it.
-/

namespace Journey.Node.Yaml

def plainLine (flow afterSpace : Bool) : List Char → List Char × List Char
  | [] => ([], [])
  | c :: rest =>
      if isBreak c || (c = ':' && endsKey flow rest) || (c = '#' && afterSpace) ||
          (flow && isFlowMark c) then ([], c :: rest)
      else
        let (text, stop) := plainLine flow (isSpace c) rest
        (c :: text, stop)

def hasEarlyTab (least : Int) (col : Nat) : List Char → Bool
  | [] => false
  | c :: rest =>
      if isBreak c then hasEarlyTab least (columnAfter col c) rest
      else if c = '\t' && decide ((col : Int) < least) then true
      else isSpace c && hasEarlyTab least (col + 1) rest

def endsPlain (flow : Bool) (parent : Int) (col : Nat) : List Char → Bool
  | [] => true
  | c :: rest =>
      c == '#' || (flow && isFlowMark c) || (!flow && decide ((col : Int) ≤ parent)) ||
        Cursor.atMark ⟨c :: rest, col, true⟩

/-- The further lines of an unquoted scalar: those indented deeper than `parent`, or any within
brackets. -/
def plainRest (flow : Bool) (parent : Int) : (fuel : Nat) → Cursor → List Char × Cursor
  | 0, cur => ([], cur)
  | fuel + 1, cur =>
      let (breaks, col, next) := skipBreaks 0 cur.col cur.rest
      if breaks = 0 || hasEarlyTab (parent + 1) cur.col cur.rest ||
          endsPlain flow parent col next then
        ([], cur)
      else
        let (line, stop) := plainLine flow false next
        if line.isEmpty then ([], cur)
        else
          let (more, last) := plainRest flow parent fuel (Cursor.moveTo ⟨next, col, true⟩ stop)
          (foldBreaks breaks ++ dropTrailingSpace line ++ more, last)

/-- The unquoted scalar at the cursor and the place of the text after it. After a line end no tab
may stand in the columns up to that of the collection around the scalar. -/
def plainScalar? (flow : Bool) (parent : Int) (cur : Cursor) : Option (List Char × Cursor) :=
  let (line, stop) := plainLine flow false cur.rest
  let (more, last) := plainRest flow parent (cur.rest.length + 1) (cur.moveTo stop)
  let (breaks, col, next) := skipBreaks 0 last.col last.rest
  if hasEarlyTab (parent + 1) last.col last.rest then none
  else some (dropTrailingSpace line ++ more, ⟨next, col, breaks != 0⟩)

end Journey.Node.Yaml
