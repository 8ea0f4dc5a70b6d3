import Journey.Node.Yaml.Cursor

/-!
Literal and folded block scalars: their header, their indentation, and how their lines are joined.
-/

namespace Journey.Node.Yaml

inductive Chomp where
  | strip
  | clip
  | keep
  deriving DecidableEq

def chompMark : List Char → Chomp × List Char
  | '-' :: rest => (.strip, rest)
  | '+' :: rest => (.keep, rest)
  | rest => (.clip, rest)

/-- The digit that gives an indentation; zero stands for none. -/
def indentMark : List Char → Nat × List Char
  | [] => (0, [])
  | c :: rest => if '1' ≤ c && c ≤ '9' then (c.toNat - 48, rest) else (0, c :: rest)

def blockMarks (cs : List Char) : Nat × Chomp × List Char :=
  match chompMark cs with
  | (.clip, rest) =>
      let (indent, rest) := indentMark rest
      let (chomp, rest) := chompMark rest
      (indent, chomp, rest)
  | (chomp, rest) =>
      let (indent, rest) := indentMark rest
      (indent, chomp, rest)

def afterHeader? (cs : List Char) : Option (List Char) :=
  let rest := match cs.dropWhile isSpace with
    | '#' :: rest => rest.dropWhile fun c => !isBreak c
    | rest => rest
  match rest with
  | [] => some []
  | c :: rest => if isBreak c then some rest else none

structure BlockGap where
  breaks : Nat
  widest : Nat
  cursor : Cursor

/-- Moves over empty lines and the indentation of the next line, which is at most `indent` wide if
that is known; no tab may stand in it. -/
def blockGap? (indent : Option Nat) (breaks widest col : Nat) : List Char → Option BlockGap
  | [] => some ⟨breaks, max widest col, ⟨[], col, true⟩⟩
  | c :: rest =>
      let inside := indent.all fun indent => col < indent
      if c = ' ' && inside then blockGap? indent breaks widest (col + 1) rest
      else if c = '\t' && inside then none
      else if isBreak c then
        blockGap? indent (breaks + 1) (max widest col) (columnAfter col c) rest
      else some ⟨breaks, max widest col, ⟨c :: rest, col, true⟩⟩

/-- What stands between two lines of text: the line end of the first, which a folded scalar turns
into a blank or nothing unless one of the lines is indented further, and those of empty lines. -/
def lineJoint (literal plainLines : Bool) (breaks : Nat) : List Char :=
  if literal || !plainLines then List.replicate (breaks + 1) '\n'
  else if breaks = 0 then [' ']
  else List.replicate breaks '\n'

def lastJoint (breaks : Nat) : Chomp → List Char
  | .strip => []
  | .clip => ['\n']
  | .keep => List.replicate (breaks + 1) '\n'

def blockLines? (literal : Bool) (chomp : Chomp) (indent : Nat) :
    (fuel : Nat) → Cursor → Option (List Char × Cursor)
  | 0, _ => none
  | fuel + 1, cur =>
      let line := cur.rest.takeWhile fun c => !isBreak c
      match cur.rest.drop line.length with
      | [] => some (line, cur.moveTo [])
      | c :: rest =>
          match blockGap? (some indent) 0 0 (columnAfter (cur.col + line.length) c) rest with
          | none => none
          | some gap =>
              if gap.cursor.col = indent && !gap.cursor.rest.isEmpty then
                let isPlain (text : List Char) : Bool := !(text.head?.any isSpace)
                let joint :=
                  lineJoint literal (isPlain line && isPlain gap.cursor.rest) gap.breaks
                (blockLines? literal chomp indent fuel gap.cursor).map fun (text, last) =>
                  (line ++ joint ++ text, last)
              else some (line ++ lastJoint gap.breaks chomp, gap.cursor)

/-- A literal or folded scalar from the place after its opening mark. Its indentation is the widest
of the empty lines in front of its text and of the first line of the text itself. -/
def blockScalar? (literal : Bool) (parent : Int) (cur : Cursor) : Option (List Char × Cursor) := do
  let (given, chomp, rest) := blockMarks cur.rest
  let body ← afterHeader? rest
  let known :=
    if given = 0 then none else some (if 0 ≤ parent then parent.toNat + given else given)
  let gap ← blockGap? known 0 0 (cur.moveTo body).col body
  let indent := known.getD (max (max gap.widest (parent + 1).toNat) 1)
  if gap.cursor.col = indent && !gap.cursor.rest.isEmpty then
    let (text, last) ← blockLines? literal chomp indent (body.length + 1) gap.cursor
    return (List.replicate gap.breaks '\n' ++ text, { last with fresh := true })
  else
    return (if chomp = .keep then List.replicate gap.breaks '\n' else [], gap.cursor)

end Journey.Node.Yaml
