import Journey.Decimal.Nearest
import Journey.Value

/-!
Documents as read, before they become records: atoms, lists and maps in the order of the text, with
repeated keys still there. Records are taken out of them field by field; a record may be written as
a map or as the list of its fields in order. What no record asks for is passed over, whatever it
holds, so a document may contain scalars and keys that cannot be read.
-/

namespace Journey

/-- A scalar with its type. An unreadable one is well written but denotes nothing. -/
inductive Atom where
  | null
  | bool (b : Bool)
  | int (i : Int)
  | float (x : Binary64)
  | text (s : String)
  | unreadable
  deriving DecidableEq, Inhabited

/-- A document. An atom may keep the characters it was written with, which then serve wherever text
is expected; a list is `spread` when it may also stand for the fields of a variant. A key of a map
is its text, if it has one. -/
inductive Node where
  | atom (a : Atom) (written : Option String)
  | seq (spread : Bool) (items : List Node)
  | map (entries : List (Option String × Node))
  deriving Inhabited

/-- How the text of a document is read, in whatever format. A text that is none gives nothing. -/
abbrev Node.Reader := String → Option Node

namespace Node

def isNull : Node → Bool
  | .atom .null _ => true
  | _ => false

def text? : Node → Option String
  | .atom (.text s) _ => some s
  | .atom _ (some s) => some s
  | _ => none

def bool? : Node → Option Bool
  | .atom (.bool b) _ => some b
  | _ => none

def int? (low high : Int) : Node → Option Int
  | .atom (.int i) _ => if low ≤ i && i ≤ high then some i else none
  | _ => none

def nat64? (n : Node) : Option Nat := (n.int? 0 Decimal.maxNat64).map Int.toNat

def nat32? (n : Node) : Option Nat := (n.int? 0 4294967295).map Int.toNat

def number? : Node → Option Binary64
  | .atom (.float x) _ => some x
  | .atom (.int i) _ =>
      if Decimal.minInt64 ≤ i && i ≤ Decimal.maxNat64 then some (Decimal.ofInt i) else none
  | _ => none

def list? {α : Type} (item? : Node → Option α) : Node → Option (List α)
  | .seq _ items => items.mapM item?
  | _ => none

def keyed? (entries : List (Option String × Node)) : Option (List (String × Node)) :=
  entries.mapM fun entry => entry.1.map fun key => (key, entry.2)

/-- A dictionary; the last entry of a repeated key stays. -/
def dict? {α : Type} (item? : Node → Option α) : Node → Option (Dict α)
  | .map entries => do
      let items ← (← keyed? entries).mapM fun entry => (item? entry.2).map fun x => (entry.1, x)
      return Dict.ofList items
  | _ => none

def nullable? {α : Type} (item? : Node → Option α) (n : Node) : Option (Option α) :=
  if n.isNull then some none else (item? n).map some

mutual
/-- Plain data of at most `levels` lists and maps within one another. Numbers that are not finite
become null, integers must fit in 64 bits. -/
def value? (levels : Nat) : Node → Option Value
  | .atom .null _ => some .null
  | .atom (.bool b) _ => some (.bool b)
  | .atom (.int i) _ =>
      if Decimal.minInt64 ≤ i && i ≤ Decimal.maxNat64 then some (.int i) else none
  | .atom (.float x) _ => some (if x.isFinite then .float x else .null)
  | .atom (.text s) _ => some (.str s)
  | .atom .unreadable _ => none
  | .seq _ items => if levels = 0 then none else (values? (levels - 1) items).map .arr
  | .map entries =>
      if levels = 0 then none
      else (fields? (levels - 1) entries).map fun fields => .obj (Dict.ofList fields)

def values? (levels : Nat) : List Node → Option (List Value)
  | [] => some []
  | n :: rest =>
      match value? levels n, values? levels rest with
      | some v, some vs => some (v :: vs)
      | _, _ => none

def fields? (levels : Nat) : List (Option String × Node) → Option (List (String × Value))
  | [] => some []
  | (k, n) :: rest =>
      match k, value? levels n, fields? levels rest with
      | some k, some v, some vs => some ((k, v) :: vs)
      | _, _, _ => none
end

def maxLevels : Nat := 127

mutual
def ofValue : Value → Node
  | .null => .atom .null none
  | .bool b => .atom (.bool b) none
  | .int i => .atom (.int i) none
  | .float x => .atom (.float x) none
  | .str s => .atom (.text s) none
  | .arr items => .seq false (ofValues items)
  | .obj fields => .map (ofFields fields)

def ofValues : List Value → List Node
  | [] => []
  | v :: vs => ofValue v :: ofValues vs

def ofFields : List (String × Value) → List (Option String × Node)
  | [] => []
  | (k, v) :: vs => (some k, ofValue v) :: ofFields vs
end

structure Fields where
  entries : List (String × Node)
  byPosition : Bool

/-- The fields of a record whose field names in order are `names`. Names outside the list are
passed over; a key without a text, a name given twice, or a list longer than `names`, is refused. -/
def fieldsOf? (names : List String) : Node → Option Fields
  | .map entries =>
      match keyed? entries with
      | none => none
      | some entries =>
          if names.all fun name => (entries.filter fun entry => entry.1 == name).length ≤ 1 then
            some ⟨entries, false⟩
          else none
  | .seq _ items =>
      if items.length ≤ names.length then some ⟨names.zip items, true⟩ else none
  | .atom _ _ => none

namespace Fields

variable {α : Type}

def required (r : Fields) (name : String) (item? : Node → Option α) : Option α :=
  (Dict.find? r.entries name).bind item?

def defaulted (r : Fields) (name : String) (default : α) (item? : Node → Option α) : Option α :=
  match Dict.find? r.entries name with
  | none => some default
  | some n => item? n

/-- A field that may be null, and in a map may be left out. -/
def nullable (r : Fields) (name : String) (item? : Node → Option α) : Option (Option α) :=
  match Dict.find? r.entries name with
  | none => if r.byPosition then none else some none
  | some n => n.nullable? item?

/-- A field that may be null or left out. -/
def optional (r : Fields) (name : String) (item? : Node → Option α) : Option (Option α) :=
  r.defaulted name none fun n => n.nullable? item?

end Fields

def tagged? : Node → Option (String × Node)
  | .map [(some tag, body)] => some (tag, body)
  | _ => none

/-- The name of a unit variant: a text, or the tag of null. -/
def variantName? (n : Node) : Option String :=
  match n.tagged? with
  | some (tag, body) => if body.isNull then some tag else none
  | none => n.text?

def variant? {α : Type} (names : List (String × α)) (n : Node) : Option α :=
  n.variantName?.bind (Dict.find? names)

end Node
end Journey
