import Journey.Node.Yaml.Block
import Journey.Node.Yaml.Flow

/-!
Documents from indented text: block lists and maps told apart by their columns, whose leaves are
scalars, block scalars and values in brackets. Anchors, aliases, tags and directives are refused.
-/

namespace Journey.Node.Yaml

def inlineNode? (parent : Int) (cur : Cursor) : Option (Node × Cursor) :=
  match cur.rest with
  | [] => none
  | c :: _ =>
      if c = '"' || c = '\'' then quoted? cur
      else if c = '[' || c = '\x7b' then bracketed? parent cur
      else if isRefused c || c = '|' || c = '>' || cur.atDash || cur.atQuestion || cur.atColon then
        none
      else (plainScalar? false parent cur).map fun (text, after) => (plainAtom text, after)

/-- A key of a block map and the place after its colon. A lone colon follows an absent key. -/
def blockKey? (parent : Int) (cur : Cursor) : Option (Option String × Cursor) :=
  if cur.atColon then some (some absentKey, cur.advance)
  else
    match inlineNode? parent cur with
    | none => none
    | some (n, after) =>
        let colon := after.nextBlock after.fresh
        if isKeySpan cur.rest colon.rest then
          (keyColon? false false colon).map fun place => (keyText? n, place)
        else none

def blockLeaf? (parent : Int) (cur : Cursor) : Option (Node × Cursor) :=
  match cur.rest with
  | '|' :: _ => (blockScalar? true parent cur.advance).map blockText
  | '>' :: _ => (blockScalar? false parent cur.advance).map blockText
  | _ =>
      match inlineNode? parent cur with
      | none => none
      | some (n, after) =>
          let next := after.nextBlock after.fresh
          if next.fresh || next.rest.isEmpty then some (n, next) else none
where
  blockText (read : List Char × Cursor) : Node × Cursor := (textAtom read.1, read.2.nextBlock true)

def atEntry (parent : Int) (cur : Cursor) : Bool :=
  cur.atQuestion || (blockKey? parent cur).isSome

mutual
/-- A value outside brackets, inside a collection at column `parent`. Collections cannot begin on
the line of the key they belong to, which `inline` says. -/
def blockNode? : (fuel : Nat) → (parent : Int) → (inline : Bool) → Cursor → Option (Node × Cursor)
  | 0, _, _, _ => none
  | fuel + 1, parent, inline, cur =>
      if cur.atDash then
        if inline then none
        else (blockItems? fuel cur.col cur).map fun (items, after) => (.seq true items, after)
      else if atEntry parent cur then
        if inline then none
        else (blockEntries? fuel cur.col cur).map fun (entries, after) => (.map entries, after)
      else blockLeaf? parent cur

/-- What stands after a dash, a key or the mark of one. A collection may begin on the same line if
`keys` says it; on a new line it stands deeper than column `col`, a list in a map, which `lists`
says, also at that column, and so does any value that is neither a collection nor the next entry. -/
def blockValue? : (fuel : Nat) → (col : Nat) → (lists keys : Bool) → Cursor → Option (Node × Cursor)
  | 0, _, _, _, _ => none
  | fuel + 1, col, lists, keys, place =>
      let cur := place.nextBlock keys
      if cur.atEnd then some (absent, cur)
      else if !cur.fresh then blockNode? fuel col (!keys) cur
      else if col < cur.col || (lists && cur.col == col && cur.atDash) then
        blockNode? fuel col false cur
      else if cur.col == col && !cur.atDash && !atEntry col cur then blockLeaf? col cur
      else some (absent, cur)

def blockItems? : (fuel : Nat) → (col : Nat) → Cursor → Option (List Node × Cursor)
  | 0, _, _ => none
  | fuel + 1, col, cur =>
      match blockValue? fuel col false true cur.advance with
      | none => none
      | some (n, after) =>
          if after.atEnd || after.col < col || (after.col == col && !after.atDash) then
            some ([n], after)
          else if after.fresh && after.col == col then
            (blockItems? fuel col after).map fun (items, last) => (n :: items, last)
          else none

/-- One entry of a map at column `col`: a key with its value, or a key after a question mark, of any
kind, whose value is on a line of its own behind a colon, if there is one. -/
def blockEntry? :
    (fuel : Nat) → (col : Nat) → Cursor → Option ((Option String × Node) × Cursor)
  | 0, _, _ => none
  | fuel + 1, col, cur =>
      if cur.atQuestion then
        match blockValue? fuel col true true cur.advance with
        | none => none
        | some (key, after) =>
            if after.fresh && after.col == col && after.atColon then
              (blockValue? fuel col true true after.advance).map fun (n, last) =>
                ((keyText? key, n), last)
            else some ((keyText? key, absent), after)
      else
        match blockKey? col cur with
        | none => none
        | some (key, place) =>
            (blockValue? fuel col true cur.atColon place).map fun (n, after) => ((key, n), after)

def blockEntries? :
    (fuel : Nat) → (col : Nat) → Cursor → Option (List (Option String × Node) × Cursor)
  | 0, _, _ => none
  | fuel + 1, col, cur =>
      match blockEntry? fuel col cur with
      | none => none
      | some (entry, after) =>
          if after.atEnd || after.col < col then some ([entry], after)
          else if after.fresh && after.col == col then
            (blockEntries? fuel col after).map fun (entries, last) => (entry :: entries, last)
          else none
end

/-- A carriage return and a line feed after it are one line end. -/
def joinBreaks : List Char → List Char
  | '\r' :: '\n' :: rest => '\n' :: joinBreaks rest
  | c :: rest => c :: joinBreaks rest
  | [] => []

def skipEndMarks : (fuel : Nat) → Cursor → Cursor
  | 0, cur => cur
  | fuel + 1, cur =>
      match cur.rest with
      | '.' :: '.' :: '.' :: rest =>
          if cur.atMark then skipEndMarks fuel (Cursor.nextBlock ⟨rest, 3, false⟩ false) else cur
      | _ => cur

def document? (fuel : Nat) (inline : Bool) (cur : Cursor) : Option Node :=
  match blockNode? fuel (-1) inline cur with
  | some (n, after) => if (skipEndMarks fuel after).rest.isEmpty then some n else none
  | none => none

/-- The one document of a text, which a NUL ends; a text without a document has none. -/
def parse? (text : String) : Option Node :=
  let cs := joinBreaks (text.toList.takeWhile (· != '\x00'))
  let fuel := 8 * cs.length + 16
  let cur := skipGap false true false 0 true cs
  match cur.rest with
  | [] => none
  | '-' :: '-' :: '-' :: rest =>
      if cur.atMark then
        let cur := Cursor.nextBlock ⟨rest, 3, false⟩ false
        if cur.atEnd then if (skipEndMarks fuel cur).rest.isEmpty then some absent else none
        else document? fuel (!cur.fresh) cur
      else document? fuel false cur
  | _ => if cur.atMark then none else document? fuel false cur

end Journey.Node.Yaml
