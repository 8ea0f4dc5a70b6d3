import Journey.Dict

/-!
Locators: how one logical element is found on a page. A spec names a preferred strategy, second
choices in order, and a last resort; a pack collects the specs of an application by key.
-/

namespace Journey

inductive Strategy where
  | testId (id : String)
  | css (query : String)
  | role (role : String) (name : Option String)
  | label (text : String)
  | name (name : String)
  | placeholder (text : String)
  | attribute (name value : String)
  | text (text : String)
  deriving DecidableEq, Inhabited

def Strategy.describe : Strategy → String
  | .testId id => s!"test_id={id}"
  | .css query => s!"css={query}"
  | .role r (some n) => s!"role={r}[name={n}]"
  | .role r none => s!"role={r}"
  | .label t => s!"label={t}"
  | .name n => s!"name={n}"
  | .placeholder t => s!"placeholder={t}"
  | .attribute n v => s!"[{n}={v}]"
  | .text t => s!"text={t}"

/-- The stages of a resolution, from the most stable to the least. -/
inductive Tier where
  | primary
  | secondary
  | tertiary
  deriving DecidableEq, Inhabited

def Tier.name : Tier → String
  | .primary => "primary"
  | .secondary => "secondary"
  | .tertiary => "tertiary"

def Tier.rank : Tier → Nat
  | .primary => 0
  | .secondary => 1
  | .tertiary => 2

/-- The less stable of two tiers, where no tier at all is the most stable. -/
def Tier.worst : Option Tier → Option Tier → Option Tier
  | none, b => b
  | a, none => a
  | some a, some b => if a.rank ≤ b.rank then some b else some a

structure LocatorSpec where
  primary : Option Strategy
  secondary : List Strategy
  tertiary : Option Strategy
  deriving DecidableEq, Inhabited

namespace LocatorSpec

def empty : LocatorSpec := ⟨none, [], none⟩

def isEmpty (s : LocatorSpec) : Bool :=
  s.primary.isNone && s.secondary.isEmpty && s.tertiary.isNone

def declaredTiers (s : LocatorSpec) : List Tier :=
  (if s.primary.isSome then [.primary] else []) ++
    (if s.secondary.isEmpty then [] else [.secondary]) ++
    (if s.tertiary.isSome then [.tertiary] else [])

def strategies (s : LocatorSpec) : List (Tier × Strategy) :=
  s.primary.toList.map (Tier.primary, ·) ++ s.secondary.map (Tier.secondary, ·) ++
    s.tertiary.toList.map (Tier.tertiary, ·)

end LocatorSpec

structure LocatorPack where
  id : String
  elements : Dict LocatorSpec
  deriving DecidableEq, Inhabited

namespace LocatorPack

def empty (id : String) : LocatorPack := ⟨id, []⟩

def withElement (p : LocatorPack) (key : String) (spec : LocatorSpec) : LocatorPack :=
  { p with elements := Dict.insert key spec p.elements }

def find? (p : LocatorPack) (key : String) : Option LocatorSpec := Dict.find? p.elements key

/-- Takes over the elements of another pack, which win over its own. -/
def merge (p other : LocatorPack) : LocatorPack :=
  { p with elements := Dict.insertAll p.elements other.elements }

end LocatorPack

abbrev PackShelf := Dict LocatorPack

def PackShelf.add (shelf : List (String × LocatorPack)) (pack : LocatorPack) : PackShelf :=
  match Dict.find? shelf pack.id with
  | some present => Dict.insert pack.id (present.merge pack) shelf
  | none => Dict.insert pack.id pack shelf

end Journey
