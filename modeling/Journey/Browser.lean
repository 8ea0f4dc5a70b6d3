import Journey.Locator
import Journey.Text.Blank

/-!
What the engine can ask of a browser and what it can hear back. Every call has its own type of
answer, and any call may end in an error instead; the kinds of error are what retry policies
speak about.
-/

namespace Journey

abbrev Handle := String

inductive Matches where
  | none
  | one (handle : Handle)
  | many (count : Nat)
  deriving DecidableEq, Inhabited

inductive Condition where
  | visible (handle : Handle)
  | hidden (handle : Handle)
  | navigated
  | urlContains (part : String)
  deriving DecidableEq, Inhabited

def Condition.describe : Condition → String
  | .visible handle => s!"element {handle} to be visible"
  | .hidden handle => s!"element {handle} to be hidden"
  | .navigated => "navigation to complete"
  | .urlContains part => s!"URL to contain '{part}'"

inductive BrowserErrorKind where
  | timeout
  | blocked
  | stale
  | notInteractable
  | navigation
  | disconnected
  | protocol
  | startup
  | unsupported
  deriving DecidableEq, Inhabited

def BrowserErrorKind.name : BrowserErrorKind → String
  | .timeout => "timeout"
  | .blocked => "blocked"
  | .stale => "stale"
  | .notInteractable => "not_interactable"
  | .navigation => "navigation"
  | .disconnected => "disconnected"
  | .protocol => "protocol"
  | .startup => "startup"
  | .unsupported => "unsupported"

def BrowserErrorKind.all : List BrowserErrorKind :=
  [.timeout, .blocked, .stale, .notInteractable, .navigation, .disconnected, .protocol, .startup,
    .unsupported]

inductive BrowserError where
  | startupFailed (detail : String)
  | disconnected
  | timeout (detail : String)
  | blocked (detail : String)
  | stale (detail : String)
  | notInteractable (detail : String)
  | navigation (detail : String)
  | server (detail : String)
  | serialization (detail : String)
  | io (detail : String)
  | unsupported (detail : String)
  deriving DecidableEq, Inhabited

namespace BrowserError

def kind : BrowserError → BrowserErrorKind
  | startupFailed _ => .startup
  | disconnected | io _ => .disconnected
  | timeout _ => .timeout
  | blocked _ => .blocked
  | stale _ => .stale
  | notInteractable _ => .notInteractable
  | navigation _ => .navigation
  | server _ | serialization _ => .protocol
  | unsupported _ => .unsupported

def message : BrowserError → String
  | startupFailed detail => s!"Failed to start backend: {detail}"
  | disconnected => "Backend disconnected"
  | timeout detail => s!"Backend operation timed out: {detail}"
  | blocked detail => s!"Action blocked: {detail}"
  | stale detail => s!"Element handle is stale: {detail}"
  | notInteractable detail => s!"Element not interactable: {detail}"
  | navigation detail => s!"Navigation failed: {detail}"
  | server detail => s!"Backend error: {detail}"
  | serialization detail => s!"Serialization error: {detail}"
  | io detail => s!"IO error: {detail}"
  | unsupported detail => s!"Unsupported operation: {detail}"

end BrowserError

inductive Call where
  | navigate (url : String)
  | query (strategy : Strategy)
  | interactable (handle : Handle)
  | click (handle : Handle)
  | fill (handle : Handle) (text : String)
  | text (handle : Handle)
  | currentUrl
  | probe (condition : Condition)
  | screenshot
  | close
  deriving DecidableEq, Inhabited

def Condition.probeName : Condition → String
  | .visible handle => s!"visible {handle}"
  | .hidden handle => s!"hidden {handle}"
  | .navigated => "loaded"
  | .urlContains part => s!"url_contains {part}"

def Call.describe : Call → String
  | .navigate url => s!"navigate {url}"
  | .query strategy => s!"query {strategy.describe}"
  | .interactable handle => s!"interactable {handle}"
  | .click handle => s!"click {handle}"
  | .fill handle _ => s!"fill {handle}"
  | .text handle => s!"text {handle}"
  | .currentUrl => "url"
  | .probe condition => condition.probeName
  | .screenshot => "screenshot"
  | .close => "close"

@[reducible] def Call.Answer : Call → Type
  | .query _ => Matches
  | .interactable _ | .probe _ => Bool
  | .text _ | .currentUrl | .screenshot => String
  | .navigate _ | .click _ | .fill _ _ | .close => Unit

abbrev Call.Outcome (call : Call) : Type := Except BrowserError call.Answer

/-- How a browser in some state takes a call: how long it works on it, whether the run is cancelled
when it is done, what it answers, and its states while at work and afterwards. -/
structure Reaction (β : Type) (call : Call) where
  delay : Nat
  working : β
  cancels : Bool
  outcome : call.Outcome
  settled : β

/-- A browser is known by its reactions, which may depend on the time. -/
structure Browser (β : Type) where
  react : (now : Nat) → β → (call : Call) → Reaction β call

end Journey
