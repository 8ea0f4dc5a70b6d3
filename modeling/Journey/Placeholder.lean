import Journey.Text.Word
import Journey.Value

/-!
Placeholders in text: `$name`, `${name}` and `{{ name }}`, where a name is an identifier with
further words after points. A text is a row of pieces, each a character or a placeholder; the
leftmost placeholder wins and none overlaps another.
-/

namespace Journey.Placeholder

open Text

def furtherWords : (fuel : Nat) → List Char → List Char
  | 0, _ => []
  | fuel + 1, cs =>
      match cs with
      | '.' :: rest =>
          let word := rest.takeWhile isWord
          if word.isEmpty then []
          else '.' :: word ++ furtherWords fuel (rest.drop word.length)
      | _ => []

/-- The longest dotted name at the start of a text; empty when there is none. -/
def leadingName (cs : List Char) : List Char :=
  match cs with
  | [] => []
  | c :: rest =>
      if isNameStart c then
        let first := c :: rest.takeWhile isWord
        first ++ furtherWords rest.length (cs.drop first.length)
      else []

def enclosed? (opening closing : List Char) (cs : List Char) : Option (List Char × Nat) :=
  match after? opening cs with
  | none => none
  | some inner =>
      let body := trimLeft inner
      let name := leadingName body
      if name.isEmpty then none
      else
        match after? closing (trimLeft (body.drop name.length)) with
        | some rest => some (name, cs.length - rest.length)
        | none => none

def bare? : List Char → Option (List Char × Nat)
  | '$' :: rest =>
      let name := leadingName rest
      if name.isEmpty then none else some (name, name.length + 1)
  | _ => none

def at? (cs : List Char) : Option (List Char × Nat) :=
  match enclosed? ['\x7b', '\x7b'] ['\x7d', '\x7d'] cs with
  | some found => some found
  | none =>
      match enclosed? ['$', '\x7b'] ['\x7d'] cs with
      | some found => some found
      | none => bare? cs

inductive Piece where
  | char (c : Char)
  | hole (name : String)
  deriving DecidableEq

/-- The pieces of a text of which the first `skip` characters belong to a placeholder already. -/
def piecesFrom (skip : Nat) : List Char → List Piece
  | [] => []
  | c :: rest =>
      match skip with
      | skip + 1 => piecesFrom skip rest
      | 0 =>
          match at? (c :: rest) with
          | some (name, length) => .hole (String.ofList name) :: piecesFrom (length - 1) rest
          | none => .char c :: piecesFrom 0 rest

def pieces (cs : List Char) : List Piece := piecesFrom 0 cs

def Piece.hole? : Piece → Option String
  | .char _ => none
  | .hole name => some name

def names (s : String) : List String := (pieces s.toList).filterMap Piece.hole?

/-- The name of the placeholder that a text consists of, blanks around it aside. -/
def sole? (s : String) : Option String :=
  match pieces (trim s.toList) with
  | [.hole name] => some name
  | _ => none

mutual
def valueNames : Value → List String
  | .str s => names s
  | .arr items => itemNames items
  | .obj fields => fieldNames fields
  | .null | .bool _ | .int _ | .float _ => []

def itemNames : List Value → List String
  | [] => []
  | v :: vs => valueNames v ++ itemNames vs

def fieldNames : List (String × Value) → List String
  | [] => []
  | (_, v) :: vs => valueNames v ++ fieldNames vs
end

end Journey.Placeholder
