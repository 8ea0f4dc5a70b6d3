import Journey.Policy
import Journey.Workflow.Record

/-!
Policies as records: how they are written as data and read from a document.
-/

namespace Journey

def TimeoutPolicy.toValue (p : TimeoutPolicy) : Value :=
  .ofFields [
    ("step_ms", .int p.step), ("primary_ms", .int p.primary), ("secondary_ms", .int p.secondary),
    ("tertiary_ms", .int p.tertiary), ("poll_ms", .int p.poll), ("max_poll_ms", .int p.maxPoll),
    ("profiles", .obj (p.profiles.map fun (k, ms) => (k, .int ms)))]

def TimeoutPolicy.ofNode? (n : Node) : Option TimeoutPolicy := do
  let r ← n.fieldsOf? ["step_ms", "primary_ms", "secondary_ms", "tertiary_ms", "poll_ms",
    "max_poll_ms", "profiles"]
  let d := TimeoutPolicy.default
  return {
    step := ← r.defaulted "step_ms" d.step Node.nat64?
    primary := ← r.defaulted "primary_ms" d.primary Node.nat64?
    secondary := ← r.defaulted "secondary_ms" d.secondary Node.nat64?
    tertiary := ← r.defaulted "tertiary_ms" d.tertiary Node.nat64?
    poll := ← r.defaulted "poll_ms" d.poll Node.nat64?
    maxPoll := ← r.defaulted "max_poll_ms" d.maxPoll Node.nat64?
    profiles := ← r.defaulted "profiles" d.profiles (Node.dict? Node.nat64?) }

def BrowserErrorKind.ofNode? (n : Node) : Option BrowserErrorKind :=
  n.variant? (BrowserErrorKind.all.map fun kind => (kind.name, kind))

def RetryPolicy.toValue (p : RetryPolicy) : Value :=
  .ofFields [
    ("max_attempts", .int p.maxAttempts), ("initial_backoff_ms", .int p.initialBackoff),
    ("multiplier", if p.multiplier.isFinite then .float p.multiplier else .null),
    ("max_backoff_ms", .int p.maxBackoff), ("retry_optional_steps", .bool p.retryOptional),
    ("transient_errors", .ofStrings (p.transient.map BrowserErrorKind.name))]

def RetryPolicy.ofNode? (n : Node) : Option RetryPolicy := do
  let r ← n.fieldsOf? ["max_attempts", "initial_backoff_ms", "multiplier", "max_backoff_ms",
    "retry_optional_steps", "transient_errors"]
  let d := RetryPolicy.default
  return {
    maxAttempts := ← r.defaulted "max_attempts" d.maxAttempts Node.nat32?
    initialBackoff := ← r.defaulted "initial_backoff_ms" d.initialBackoff Node.nat64?
    multiplier := ← r.defaulted "multiplier" d.multiplier Node.number?
    maxBackoff := ← r.defaulted "max_backoff_ms" d.maxBackoff Node.nat64?
    retryOptional := ← r.defaulted "retry_optional_steps" d.retryOptional Node.bool?
    transient := ← r.defaulted "transient_errors" d.transient
      (Node.list? BrowserErrorKind.ofNode?) }

def PhasePolicy.toValue (p : PhasePolicy) : Value :=
  .ofFields [
    ("default_mode", .str p.defaultMode.name), ("recover_tolerance", .int p.recoverTolerance),
    ("continue_past_phase_failure", .bool p.continuePastFailure)]

def PhasePolicy.ofNode? (n : Node) : Option PhasePolicy := do
  let r ← n.fieldsOf? ["default_mode", "recover_tolerance", "continue_past_phase_failure"]
  let d := PhasePolicy.default
  return {
    defaultMode := ← r.defaulted "default_mode" d.defaultMode PhaseMode.ofNode?
    recoverTolerance := ← r.defaulted "recover_tolerance" d.recoverTolerance Node.nat64?
    continuePastFailure := ←
      r.defaulted "continue_past_phase_failure" d.continuePastFailure Node.bool? }

def BrowserType.ofNode? (n : Node) : Option BrowserType :=
  n.variant? [("chromium", .chromium), ("firefox", .firefox), ("webkit", .webkit)]

def BridgeSettings.toValue (p : BridgeSettings) : Value :=
  .ofFields [
    ("browser", .str p.browser.name), ("headless", .bool p.headless),
    ("server_script", .str p.serverScript), ("screenshot_dir", .str p.screenshotDir)]

def BridgeSettings.ofNode? (n : Node) : Option BridgeSettings := do
  let r ← n.fieldsOf? ["browser", "headless", "server_script", "screenshot_dir"]
  let d := BridgeSettings.default
  return {
    browser := ← r.defaulted "browser" d.browser BrowserType.ofNode?
    headless := ← r.defaulted "headless" d.headless Node.bool?
    serverScript := ← r.defaulted "server_script" d.serverScript Node.text?
    screenshotDir := ← r.defaulted "screenshot_dir" d.screenshotDir Node.text? }

def Settings.toValue (s : Settings) : Value :=
  .ofFields [
    ("timeouts", s.timeouts.toValue), ("retry", s.retry.toValue), ("phases", s.phases.toValue),
    ("variables", .obj s.vars), ("locator_packs", .ofStrings s.locatorPacks),
    ("adapters", .ofStrings s.adapters), ("playwright", s.bridge.toValue)]

def Settings.ofNode? (n : Node) : Option Settings := do
  let r ← n.fieldsOf? ["timeouts", "retry", "phases", "variables", "locator_packs", "adapters",
    "playwright"]
  let d := Settings.default
  return {
    timeouts := ← r.defaulted "timeouts" d.timeouts TimeoutPolicy.ofNode?
    retry := ← r.defaulted "retry" d.retry RetryPolicy.ofNode?
    phases := ← r.defaulted "phases" d.phases PhasePolicy.ofNode?
    vars := ← r.defaulted "variables" d.vars (Node.dict? (Node.value? (Node.maxLevels - 1)))
    locatorPacks := ← r.defaulted "locator_packs" d.locatorPacks (Node.list? Node.text?)
    adapters := ← r.defaulted "adapters" d.adapters (Node.list? Node.text?)
    bridge := ← r.defaulted "playwright" d.bridge BridgeSettings.ofNode? }

end Journey
