import Journey.Node.Scalar
import Journey.Node.Yaml.Cursor

/-!
Quoted scalars over one or more lines: a quote written twice inside single quotes, and backslashes
inside double ones.
-/

namespace Journey.Node.Yaml

def singleQuoted? : (fuel : Nat) → List Char → Option (List Char × List Char)
  | 0, _ => none
  | _ + 1, [] => none
  | fuel + 1, c :: rest =>
      if c = '\'' then
        match rest with
        | '\'' :: rest => (singleQuoted? fuel rest).map fun (t, r) => ('\'' :: t, r)
        | rest => some ([], rest)
      else if isSpace c || isBreak c then
        let gap := (c :: rest).takeWhile fun d => isSpace d || isBreak d
        let (breaks, col, next) := skipBreaks 0 0 (c :: rest)
        let shown := if breaks = 0 then gap else foldBreaks breaks
        if Cursor.atMark ⟨next, col, true⟩ then none
        else (singleQuoted? fuel next).map fun (t, r) => (shown ++ t, r)
      else (singleQuoted? fuel rest).map fun (t, r) => (c :: t, r)

def hexValue? (digits : Nat) (cs : List Char) : Option (Char × List Char) :=
  let written := cs.take digits
  if written.length < digits then none
  else
    (Scalar.radixValue? 16 written).bind fun n =>
      if n < 0x110000 && !(0xD800 ≤ n && n < 0xE000) then some (Char.ofNat n, cs.drop digits)
      else none

def escaped? : List Char → Option (Char × List Char)
  | '0' :: r => some ('\x00', r)
  | 'a' :: r => some ('\x07', r)
  | 'b' :: r => some ('\x08', r)
  | 't' :: r => some ('\t', r)
  | '\t' :: r => some ('\t', r)
  | 'n' :: r => some ('\n', r)
  | 'v' :: r => some ('\x0b', r)
  | 'f' :: r => some ('\x0c', r)
  | 'r' :: r => some ('\r', r)
  | 'e' :: r => some ('\x1b', r)
  | ' ' :: r => some (' ', r)
  | '"' :: r => some ('"', r)
  | '\'' :: r => some ('\'', r)
  | '\\' :: r => some ('\\', r)
  | 'N' :: r => some (Char.ofNat 0x85, r)
  | '_' :: r => some (Char.ofNat 0xA0, r)
  | 'L' :: r => some (Char.ofNat 0x2028, r)
  | 'P' :: r => some (Char.ofNat 0x2029, r)
  | 'x' :: r => hexValue? 2 r
  | 'u' :: r => hexValue? 4 r
  | 'U' :: r => hexValue? 8 r
  | _ => none

def doubleQuoted? : (fuel : Nat) → List Char → Option (List Char × List Char)
  | 0, _ => none
  | _ + 1, [] => none
  | fuel + 1, c :: rest =>
      if c = '"' then some ([], rest)
      else if c = '\\' then
        match rest with
        | [] => none
        | d :: rest =>
            if isBreak d then
              let (breaks, col, next) := skipBreaks 0 (columnAfter 0 d) rest
              if Cursor.atMark ⟨next, col, true⟩ then none
              else (doubleQuoted? fuel next).map fun (t, r) => (List.replicate breaks '\n' ++ t, r)
            else
              (escaped? (d :: rest)).bind fun (shown, rest) =>
                (doubleQuoted? fuel rest).map fun (t, r) => (shown :: t, r)
      else if isSpace c || isBreak c then
        let gap := (c :: rest).takeWhile fun d => isSpace d || isBreak d
        let (breaks, col, next) := skipBreaks 0 0 (c :: rest)
        let shown := if breaks = 0 then gap else foldBreaks breaks
        if Cursor.atMark ⟨next, col, true⟩ then none
        else (doubleQuoted? fuel next).map fun (t, r) => (shown ++ t, r)
      else (doubleQuoted? fuel rest).map fun (t, r) => (c :: t, r)

end Journey.Node.Yaml
