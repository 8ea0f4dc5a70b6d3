import Journey.Poll

/-!
Resolution of a logical key to one element. The strategies of its spec are tried in order, each for
the time of its tier: the first two tiers accept a unique match that can be interacted with, the
last one any unique match, and gives up at once on several. A success after the first tier comes
with a diagnostic; a failure tells whether it still means that the element is not on the page.
-/

namespace Journey

structure LocatorMetrics where
  primary : Nat
  secondary : Nat
  tertiary : Nat
  failures : Nat
  attempts : Nat
  deriving DecidableEq, Inhabited

namespace LocatorMetrics

def zero : LocatorMetrics := ⟨0, 0, 0, 0, 0⟩

def hits (m : LocatorMetrics) : Tier → Nat
  | .primary => m.primary
  | .secondary => m.secondary
  | .tertiary => m.tertiary

def begun (m : LocatorMetrics) : LocatorMetrics := { m with attempts := m.attempts + 1 }

def hit (m : LocatorMetrics) : Tier → LocatorMetrics
  | .primary => { m with primary := m.primary + 1 }
  | .secondary => { m with secondary := m.secondary + 1 }
  | .tertiary => { m with tertiary := m.tertiary + 1 }

def missed (m : LocatorMetrics) : LocatorMetrics := { m with failures := m.failures + 1 }

end LocatorMetrics

inductive Severity where
  | info
  | low
  | high
  deriving DecidableEq

def Severity.name : Severity → String
  | .info => "info"
  | .low => "low"
  | .high => "high"

structure Diagnostic where
  severity : Severity
  message : String
  deriving DecidableEq

structure Resolved where
  handle : Handle
  tier : Tier
  strategy : Strategy
  diagnostic : Option Diagnostic
  deriving DecidableEq

/-- No strategy gave a usable element. `absent` says that every one found nothing, or one element
that cannot be interacted with, the first of which is `inert`. -/
structure ResolutionFailure where
  key : String
  attempted : List Tier
  lastError : String
  absent : Bool
  inert : Option Handle
  deriving DecidableEq

namespace ResolutionFailure

def message (f : ResolutionFailure) : String :=
  let tiers := ", ".intercalate (f.attempted.map Tier.name)
  s!"Could not resolve '{f.key}' (tiers tried: [{tiers}]): {f.lastError}"

def unattempted (key reason : String) : ResolutionFailure := ⟨key, [], reason, false, none⟩

end ResolutionFailure

inductive Miss where
  | noMatch
  | inert (handle : Handle)
  | ambiguous (count : Nat)
  | browser (error : BrowserError)
  deriving DecidableEq

def Miss.describe : Miss → String
  | .noMatch => "no match"
  | .inert _ => "element is not interactable"
  | .ambiguous count => s!"ambiguous: {count} matches, expected exactly one"
  | .browser error => error.message

structure ResolverPolicy where
  primary : Nat
  secondary : Nat
  tertiary : Nat
  poll : PollPolicy
  deriving DecidableEq

def TimeoutPolicy.resolverPolicy (p : TimeoutPolicy) : ResolverPolicy :=
  ⟨p.primary, p.secondary, p.tertiary, p.pollPolicy .whole⟩

def ResolverPolicy.window (p : ResolverPolicy) : Tier → Nat
  | .primary => p.primary
  | .secondary => p.secondary
  | .tertiary => p.tertiary

structure Resolver where
  packs : PackShelf
  policy : ResolverPolicy

namespace Resolver

variable {σ : Type}

def empty (policy : ResolverPolicy) : Resolver := ⟨[], policy⟩

def addPack (r : Resolver) (pack : LocatorPack) : Resolver :=
  { r with packs := PackShelf.add r.packs pack }

def hasPack (r : Resolver) (id : String) : Bool := Dict.contains r.packs id

def packIds (r : Resolver) : List String := Dict.keys r.packs

/-- One query that accepts a unique match if it can be interacted with. -/
def probeUsable (strategy : Strategy) : Dialogue σ (Probe Handle Miss) :=
  .ask (.query strategy) fun
    | .ok (.one handle) => .ask (.interactable handle) fun
        | .ok true => .done (.settled (.ok handle))
        | .ok false => .done (.pending (.inert handle))
        | .error e => .done (.pending (.browser e))
    | .ok .none => .done (.pending .noMatch)
    | .ok (.many count) => .done (.pending (.ambiguous count))
    | .error e => .done (.pending (.browser e))

/-- One query that accepts a unique match and refuses several for good. -/
def probeUnique (strategy : Strategy) : Dialogue σ (Probe Handle Miss) :=
  .ask (.query strategy) fun
    | .ok (.one handle) => .done (.settled (.ok handle))
    | .ok .none => .done (.pending .noMatch)
    | .ok (.many count) => .done (.settled (.error (.ambiguous count)))
    | .error e => .done (.pending (.browser e))

def probeFor : Tier → Strategy → Dialogue σ (Probe Handle Miss)
  | .primary, strategy | .secondary, strategy => probeUsable strategy
  | .tertiary, strategy => probeUnique strategy

def tryStrategyBy {π : Type} (c : Clockwork π) (policy : ResolverPolicy) (tier : Tier)
    (strategy : Strategy) : Dialogue σ (Except π (Except Miss Handle)) :=
  Probe.pollBy c (probeFor tier strategy) (policy.window tier) policy.poll

def tryStrategy (policy : ResolverPolicy) (tier : Tier) (strategy : Strategy) :
    Dialogue σ (Except Miss Handle) :=
  (tryStrategyBy .whole policy tier strategy).sure

/-- What the strategies given up so far have shown, and the tiers they were of. -/
structure Search where
  attempted : List Tier
  lastError : String
  absent : Bool
  inert : Option Handle
  deriving DecidableEq

def Search.begin : Search := ⟨[], "", true, none⟩

def Search.enter (s : Search) (tier : Tier) : Search :=
  if s.attempted.contains tier then s else { s with attempted := s.attempted ++ [tier] }

def Search.observe (s : Search) (tier : Tier) (strategy : Strategy) (miss : Miss) : Search :=
  let lastError := s!"{tier.name} {strategy.describe}: {miss.describe}"
  match miss with
  | .noMatch => { s with lastError }
  | .inert handle => { s with lastError, inert := s.inert <|> some handle }
  | .ambiguous _ | .browser _ => { s with lastError, absent := false }

def Search.failure (s : Search) (key : String) : ResolutionFailure :=
  ⟨key, s.attempted, s.lastError, s.absent && !s.attempted.isEmpty, s.inert⟩

def remark (key lastError : String) (tier : Tier) (strategy : Strategy) : Option Diagnostic :=
  match tier with
  | .primary => none
  | .secondary => some ⟨.low,
      s!"'{key}' resolved via secondary strategy {strategy.describe} ({lastError}); " ++
        "harden the primary locator"⟩
  | .tertiary => some ⟨.high,
      s!"'{key}' resolved via tertiary text strategy {strategy.describe} ({lastError}); " ++
        "locator needs remediation"⟩

def resolveFrom (policy : ResolverPolicy) (key : String) :
    List (Tier × Strategy) → Search → Dialogue σ (Except Search Resolved)
  | [], search => .done (.error search)
  | (tier, strategy) :: rest, search =>
      (tryStrategy policy tier strategy).bind fun
        | .ok handle =>
            .done (.ok ⟨handle, tier, strategy, remark key search.lastError tier strategy⟩)
        | .error miss =>
            resolveFrom policy key rest ((search.enter tier).observe tier strategy miss)

def spec (r : Resolver) (packId key : String) : Except ResolutionFailure LocatorSpec :=
  match Dict.find? r.packs packId with
  | none => .error (.unattempted key s!"locator pack '{packId}' is not loaded")
  | some pack =>
      match pack.find? key with
      | none => .error (.unattempted key s!"no locator for '{key}' in pack '{packId}'")
      | some spec =>
          if spec.isEmpty then
            .error (.unattempted key s!"locator '{key}' declares no strategies")
          else .ok spec

def resolveSpec (r : Resolver) (packId key : String) :
    Dialogue σ (Except ResolutionFailure Resolved) :=
  match r.spec packId key with
  | .error failure => .done (.error failure)
  | .ok spec => (resolveFrom r.policy key spec.strategies .begin).bind fun
      | .ok resolved => .done (.ok resolved)
      | .error search => .done (.error (search.failure key))

def resolve (r : Resolver) (packId key : String) :
    Dialogue LocatorMetrics (Except ResolutionFailure Resolved) :=
  .note .begun <| (r.resolveSpec packId key).bind fun
    | .ok resolved => .note (·.hit resolved.tier) (.done (.ok resolved))
    | .error failure => .note .missed (.done (.error failure))

end Resolver
end Journey
