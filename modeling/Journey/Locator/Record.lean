import Journey.Locator
import Journey.Node

/-!
Locators as records: how strategies, specs and packs are written as data and read from a document.
-/

namespace Journey

def Strategy.toValue : Strategy → Value
  | .testId id => .ofFields [("test_id", .str id)]
  | .css query => .ofFields [("css", .str query)]
  | .role r n => .ofFields [("role", .ofFields [("role", .str r), ("name", .ofOption .str n)])]
  | .label t => .ofFields [("label", .str t)]
  | .name n => .ofFields [("name", .str n)]
  | .placeholder t => .ofFields [("placeholder", .str t)]
  | .attribute n v => .ofFields [("attribute", .ofFields [("name", .str n), ("value", .str v)])]
  | .text t => .ofFields [("text", .str t)]

/-- The fields of a variant, which only a spread list may give by position. -/
def Node.variantFields? (names : List String) : Node → Option Node.Fields
  | .seq false _ => none
  | n => n.fieldsOf? names

def Strategy.ofNode? (n : Node) : Option Strategy := do
  let (tag, body) ← n.tagged?
  match tag with
  | "test_id" => body.text?.map .testId
  | "css" => body.text?.map .css
  | "role" => do
      let r ← body.variantFields? ["role", "name"]
      return .role (← r.required "role" Node.text?) (← r.optional "name" Node.text?)
  | "label" => body.text?.map .label
  | "name" => body.text?.map .name
  | "placeholder" => body.text?.map .placeholder
  | "attribute" => do
      let r ← body.variantFields? ["name", "value"]
      return .attribute (← r.required "name" Node.text?) (← r.required "value" Node.text?)
  | "text" => body.text?.map .text
  | _ => none

def Tier.ofNode? (n : Node) : Option Tier :=
  n.variant? [("primary", .primary), ("secondary", .secondary), ("tertiary", .tertiary)]

def LocatorSpec.toValue (s : LocatorSpec) : Value :=
  .ofFields [
    ("primary", .ofOption Strategy.toValue s.primary),
    ("secondary", .arr (s.secondary.map Strategy.toValue)),
    ("tertiary", .ofOption Strategy.toValue s.tertiary)]

def LocatorSpec.ofNode? (n : Node) : Option LocatorSpec := do
  let r ← n.fieldsOf? ["primary", "secondary", "tertiary"]
  return {
    primary := ← r.optional "primary" Strategy.ofNode?
    secondary := ← r.defaulted "secondary" [] (Node.list? Strategy.ofNode?)
    tertiary := ← r.optional "tertiary" Strategy.ofNode? }

def LocatorPack.toValue (p : LocatorPack) : Value :=
  .ofFields [
    ("id", .str p.id), ("elements", .obj (p.elements.map fun (k, s) => (k, s.toValue)))]

def LocatorPack.ofNode? (n : Node) : Option LocatorPack := do
  let r ← n.fieldsOf? ["id", "elements"]
  return {
    id := ← r.required "id" Node.text?
    elements := ← r.defaulted "elements" [] (Node.dict? LocatorSpec.ofNode?) }

end Journey
