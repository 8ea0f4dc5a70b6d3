import Journey.Arithmetic
import Journey.Browser
import Journey.Workflow

/-!
Policies of the engine: how long things may take, how often they are tried again and after which
pause, how phases are judged, and where packs, adapters and the browser come from.
-/

namespace Journey

/-- Times in milliseconds. Workflow text names a profile and never a time. -/
structure TimeoutPolicy where
  step : Nat
  primary : Nat
  secondary : Nat
  tertiary : Nat
  poll : Nat
  maxPoll : Nat
  profiles : Dict Nat
  deriving DecidableEq

namespace TimeoutPolicy

def default : TimeoutPolicy := ⟨15000, 2000, 1000, 1000, 50, 500, []⟩

def stepTimeout? (p : TimeoutPolicy) : Option String → Option Nat
  | none => some p.step
  | some profile => Dict.find? p.profiles profile

end TimeoutPolicy

structure RetryPolicy where
  maxAttempts : Nat
  initialBackoff : Nat
  multiplier : Binary64
  maxBackoff : Nat
  retryOptional : Bool
  transient : List BrowserErrorKind
  deriving DecidableEq

namespace RetryPolicy

def defaultMultiplier : Binary64 := ⟨0x4000000000000000⟩

def default : RetryPolicy :=
  ⟨3, 250, defaultMultiplier, 2000, false, [.timeout, .blocked, .stale, .notInteractable]⟩

/-- The exponent of the multiplier after an attempt: one less than its number, held in 32 bits with
a sign. -/
def backoffExponent (attempt : Nat) : Int := ((attempt - 1 : Nat) : Int).bmod 0x100000000

/-- The pause after a failed attempt, in milliseconds: the initial one times a power of the
multiplier, cut at the greatest one. -/
def pause {α : Type} (p : RetryPolicy) (A : Arithmetic α) (attempt : Nat) : Nat :=
  let factor := A.power (A.larger (A.ofBinary64 p.multiplier) A.one) (backoffExponent attempt)
  A.toNat (A.lesser (A.mul (A.ofNat p.initialBackoff) factor) (A.ofNat p.maxBackoff))

/-- The pause that the engine keeps. -/
def backoff (p : RetryPolicy) (attempt : Nat) : Nat := p.pause .rounded attempt

def isTransient (p : RetryPolicy) (kind : BrowserErrorKind) : Bool := p.transient.contains kind

end RetryPolicy

structure PhasePolicy where
  defaultMode : PhaseMode
  recoverTolerance : Nat
  continuePastFailure : Bool
  deriving DecidableEq

def PhasePolicy.default : PhasePolicy := ⟨.strict, 0, false⟩

inductive BrowserType where
  | chromium
  | firefox
  | webkit
  deriving DecidableEq, Inhabited

def BrowserType.name : BrowserType → String
  | .chromium => "chromium"
  | .firefox => "firefox"
  | .webkit => "webkit"

structure BridgeSettings where
  browser : BrowserType
  headless : Bool
  serverScript : String
  screenshotDir : String
  deriving DecidableEq

def BridgeSettings.default : BridgeSettings :=
  ⟨.chromium, true, "playwright-server/index.js", ".journey-actions/evidence"⟩

structure Settings where
  timeouts : TimeoutPolicy
  retry : RetryPolicy
  phases : PhasePolicy
  vars : Dict Value
  locatorPacks : List String
  adapters : List String
  bridge : BridgeSettings
  deriving DecidableEq

def Settings.default : Settings := ⟨.default, .default, .default, [], [], [], .default⟩

end Journey
