import Journey.Node.Yaml.Plain
import Journey.Node.Yaml.Quoted

/-!
Lists and maps in brackets, and the atoms that scalars are read as. Brackets nest at most 255 deep.
A value in brackets that begins a line at the column of the collection around the brackets can only
be a key.
-/

namespace Journey.Node.Yaml

def textAtom (cs : List Char) : Node := .atom (.text (String.ofList cs)) none

def plainAtom (cs : List Char) : Node :=
  let s := String.ofList cs
  .atom (Scalar.resolve s) (some s)

def absentKey : String := "~"

def absent : Node := .atom .null (some absentKey)

/-- The text that a scalar stands for as a key; a collection has none. -/
def keyText? : Node → Option String
  | .atom (.text s) none => some s
  | .atom _ (some s) => some s
  | _ => none

def quoted? (cur : Cursor) : Option (Node × Cursor) :=
  let fuel := cur.rest.length + 1
  let read? :=
    match cur.rest with
    | '"' :: rest => doubleQuoted? fuel rest
    | '\'' :: rest => singleQuoted? fuel rest
    | _ => none
  read?.map fun (text, rest) => (textAtom text, cur.moveTo rest)

def keyColon? (flow adjacent : Bool) (cur : Cursor) : Option Cursor :=
  match cur.rest with
  | ':' :: rest => if adjacent || endsKey flow rest then some cur.advance else none
  | _ => none

/-- Whether the text from `start` to `stop` can be a key: it keeps to one line and is not long. -/
def isKeySpan (start stop : List Char) : Bool :=
  let length := start.length - stop.length
  length ≤ 1024 && !(start.take length).contains '\n'

/-- A value within brackets, the place after it, and whether it ends with a quote or a bracket, so
that a colon right after it need not be followed by a blank. -/
structure FlowItem where
  node : Node
  after : Cursor
  closed : Bool

def FlowItem.announcedColon? (item : FlowItem) : Option Cursor :=
  let colon := item.after.next
  keyColon? true (item.closed && colon.rest.length == item.after.rest.length) colon

def FlowItem.colon? (start : Cursor) (item : FlowItem) : Option Cursor :=
  if isKeySpan start.rest item.after.next.rest then item.announcedColon? else none

def Cursor.nextAfter (cur : Cursor) : Cursor := cur.advance.next

def isRefused (c : Char) : Bool :=
  c == '&' || c == '*' || c == '!' || c == '%' || c == '@' || c == '\x60' || c == ']' ||
    c == '\x7d' || c == ','

def endsFlowValue (cur : Cursor) : Bool :=
  match cur.rest with
  | ',' :: _ | ']' :: _ | '\x7d' :: _ => true
  | _ => false

mutual
/-- A value within brackets inside a collection at column `parent`; `levels` more brackets may
open. -/
def flowNode? (parent : Int) : (fuel levels : Nat) → Cursor → Option FlowItem
  | 0, _, _ => none
  | fuel + 1, levels, cur =>
      match cur.rest with
      | [] => none
      | '[' :: _ =>
          if levels = 0 then none
          else (flowItems? parent fuel (levels - 1) cur.nextAfter).map fun (items, after) =>
            ⟨.seq true items, after, true⟩
      | '\x7b' :: _ =>
          if levels = 0 then none
          else (flowEntries? parent fuel (levels - 1) cur.nextAfter).map fun (entries, after) =>
            ⟨.map entries, after, true⟩
      | c :: _ =>
          if c = '"' || c = '\'' then
            (quoted? cur).map fun (n, after) => ⟨n, after, true⟩
          else if isRefused c || cur.atDash || cur.atQuestion || cur.atMark ||
              (keyColon? true false cur).isSome then none
          else
            (plainScalar? true parent cur).map fun (text, after) => ⟨plainAtom text, after, false⟩

def flowItems? (parent : Int) : (fuel levels : Nat) → Cursor → Option (List Node × Cursor)
  | 0, _, _ => none
  | fuel + 1, levels, cur =>
      match cur.rest with
      | ']' :: _ => some ([], cur.advance)
      | _ =>
          match flowItem? parent fuel levels cur with
          | none => none
          | some (item, after) =>
              match after.rest with
              | ',' :: _ =>
                  (flowItems? parent fuel levels after.nextAfter).map fun (items, last) =>
                    (item :: items, last)
              | ']' :: _ => some ([item], after.advance)
              | _ => none

/-- One item of a bracketed list: a value, or a map of one entry without braces. -/
def flowItem? (parent : Int) : (fuel levels : Nat) → Cursor → Option (Node × Cursor)
  | 0, _, _ => none
  | fuel + 1, levels, cur =>
      if cur.atQuestion then
        match flowNode? parent fuel levels cur.nextAfter with
        | none => none
        | some key =>
            match key.announcedColon? with
            | none => some (.map [(keyText? key.node, absent)], key.after.next)
            | some colon => (flowValue? parent fuel levels colon.next).map fun (v, after) =>
                (.map [(keyText? key.node, v)], after)
      else
        match flowNode? parent fuel levels cur with
        | none => none
        | some item =>
            match item.colon? cur with
            | none => if (cur.col : Int) = parent then none else some (item.node, item.after.next)
            | some colon => (flowValue? parent fuel levels colon.next).map fun (v, after) =>
                (.map [(keyText? item.node, v)], after)

def flowValue? (parent : Int) : (fuel levels : Nat) → Cursor → Option (Node × Cursor)
  | 0, _, _ => none
  | fuel + 1, levels, cur =>
      if endsFlowValue cur then some (absent, cur)
      else (flowNode? parent fuel levels cur).map fun item => (item.node, item.after.next)

def flowEntries? (parent : Int) :
    (fuel levels : Nat) → Cursor → Option (List (Option String × Node) × Cursor)
  | 0, _, _ => none
  | fuel + 1, levels, cur =>
      match cur.rest with
      | '\x7d' :: _ => some ([], cur.advance)
      | _ =>
          match flowEntry? parent fuel levels cur with
          | none => none
          | some (entry, after) =>
              match after.rest with
              | ',' :: _ =>
                  (flowEntries? parent fuel levels after.nextAfter).map fun (entries, last) =>
                    (entry :: entries, last)
              | '\x7d' :: _ => some ([entry], after.advance)
              | _ => none

/-- One entry of a braced map. Its key may be absent, and so may its value. -/
def flowEntry? (parent : Int) :
    (fuel levels : Nat) → Cursor → Option ((Option String × Node) × Cursor)
  | 0, _, _ => none
  | fuel + 1, levels, cur =>
      let announced := cur.atQuestion
      let start := if announced then cur.nextAfter else cur
      match keyColon? true false start with
      | some colon => (flowValue? parent fuel levels colon.next).map fun (v, after) =>
          ((some absentKey, v), after)
      | none =>
          if announced && endsFlowValue start then some ((some absentKey, absent), start)
          else
            match flowNode? parent fuel levels start with
            | none => none
            | some key =>
                match if announced then key.announcedColon? else key.colon? start with
                | none =>
                    if !announced && (start.col : Int) = parent then none
                    else some ((keyText? key.node, absent), key.after.next)
                | some colon => (flowValue? parent fuel levels colon.next).map fun (v, after) =>
                    ((keyText? key.node, v), after)
end

def bracketed? (parent : Int) (cur : Cursor) : Option (Node × Cursor) :=
  (flowNode? parent (8 * cur.rest.length + 8) 255 cur).map fun item => (item.node, item.after)

end Journey.Node.Yaml
