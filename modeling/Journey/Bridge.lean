import Journey.Locator.Record
import Journey.Policy
import Journey.Rpc.Link

/-!
The bridge: a browser reached through a browser server. Every call is one request, and a field that
is missing from its result is either an error or the cautious answer.
-/

namespace Journey

structure Rpc.Served (ς : Type) where
  output : String
  ends : Bool
  next : ς

structure Rpc.Server (ς : Type) where
  serve : ς → Rpc.Request → Rpc.Served ς

/-- A connection with one caller: the server, the link to it, the id of the next request, and the
requests that have reached the server, latest first. -/
structure Rpc.Session (ς : Type) where
  server : ς
  link : Rpc.Link
  nextId : UInt64
  received : List Rpc.Request

namespace Rpc.Session

variable {ς : Type}

def start (server : ς) : Session ς := ⟨server, .start, 1, []⟩

def events (id : Nat) (served : Served ς) : List Event :=
  let output := bytesOf served.output
  [.submit id true, .output output] ++ (if served.ends then [.stop] else []) ++
    List.replicate (output.count newline + 2) .read

variable (json : Node.Reader)

/-- Sends a request and waits for the answer to it. A request that is never answered counts as one
that the server did not live to answer. -/
def request (server : Server ς) (s : Session ς) (method : String) (params : Value) :
    Except BrowserError Value × Session ς :=
  if s.link.isOpen then
    let r : Request := ⟨s.nextId.toNat, method, params⟩
    let served := server.serve s.server r
    let (link, told) := s.link.run json (events r.id served)
    let outcome :=
      match told.find? fun delivery => delivery.id == r.id with
      | some delivery => delivery.outcome
      | none => .error .disconnected
    (outcome, ⟨served.next, link, s.nextId + 1, r :: s.received⟩)
  else (.error .disconnected, { s with nextId := s.nextId + 1 })

def requests (s : Session ς) : List Request := s.received.reverse

end Rpc.Session

def Value.expectText (v : Value) (field : String) : Except BrowserError String :=
  match (v.field? field).bind Value.text? with
  | some s => .ok s
  | none => .error (.server s!"No {field} returned")

def Value.flag (v : Value) (field : String) : Bool :=
  ((v.field? field).bind Value.bool?).getD false

structure Bridge (ς : Type) where
  session : Rpc.Session ς
  browserId : String
  pageId : String
  screenshotDir : String
  shots : Nat

namespace Bridge

variable {ς : Type} (json : Node.Reader)

def start (server : Rpc.Server ς) (state : ς) (settings : BridgeSettings) :
    Except BrowserError (Bridge ς) × Rpc.Session ς :=
  let (launched, session) := (Rpc.Session.start state).request json server "browser.launch" <|
    .ofFields [("browserType", .str settings.browser.name), ("headless", .bool settings.headless)]
  match launched.bind fun result => result.expectText "browserId" with
  | .error e => (.error e, session)
  | .ok browserId =>
      let (opened, session) :=
        session.request json server "page.new" (.ofFields [("browserId", .str browserId)])
      match opened.bind fun result => result.expectText "pageId" with
      | .error e => (.error e, session)
      | .ok pageId => (.ok ⟨session, browserId, pageId, settings.screenshotDir, 0⟩, session)

def requestFor (b : Bridge ς) (call : Call) : String × List (String × Value) :=
  let page := ("pageId", Value.str b.pageId)
  let element (handle : Handle) := [("handle", Value.str handle), page]
  match call with
  | .navigate url => ("page.goto", [("url", .str url), page])
  | .query strategy => ("element.query", [("strategy", strategy.toValue), page])
  | .interactable handle => ("element.isInteractable", element handle)
  | .click handle => ("element.click", element handle)
  | .fill handle text => ("element.fill", ("value", .str text) :: element handle)
  | .text handle => ("element.textContent", element handle)
  | .currentUrl | .probe (.urlContains _) => ("page.url", [page])
  | .probe (.visible handle) | .probe (.hidden handle) => ("element.isVisible", element handle)
  | .probe .navigated => ("page.loadState", [page])
  | .screenshot =>
      ("page.screenshot", [
        ("path", .str s!"{b.screenshotDir}/{b.pageId}-{b.shots}.png"), ("fullPage", .bool true),
        page])
  | .close => ("browser.close", [("browserId", .str b.browserId)])

def matchesIn (result : Value) : Except BrowserError Matches :=
  match ((result.field? "count").bind Value.nat?).getD 0 with
  | 0 => .ok .none
  | 1 => (result.expectText "handle").map .one
  | count => .ok (.many count)

def answerIn (b : Bridge ς) (result : Value) : (call : Call) → call.Outcome
  | .navigate _ | .click _ | .fill _ _ | .close => .ok ()
  | .query _ => matchesIn result
  | .interactable _ => .ok (result.flag "interactable")
  | .text _ => result.expectText "text"
  | .currentUrl => result.expectText "url"
  | .probe (.visible _) => .ok (result.flag "visible")
  | .probe (.hidden _) =>
      .ok (((result.field? "visible").bind Value.bool?).elim false fun visible => !visible)
  | .probe .navigated => .ok (result.flag "complete")
  | .probe (.urlContains part) => (result.expectText "url").map (Text.containsString part)
  | .screenshot => .ok s!"{b.screenshotDir}/{b.pageId}-{b.shots}.png"

def numbered (b : Bridge ς) : Call → Bridge ς
  | .screenshot => { b with shots := b.shots + 1 }
  | _ => b

def react (server : Rpc.Server ς) (_ : Nat) (b : Bridge ς) (call : Call) :
    Reaction (Bridge ς) call :=
  let b := b.numbered call
  let (method, params) := b.requestFor call
  let (told, session) := b.session.request json server method (.ofFields params)
  let b := { b with session := session }
  let outcome :=
    match told with
    | .ok result => b.answerIn result call
    | .error e => .error e
  ⟨0, b, false, outcome, b⟩

/-- The browser behind a server. It answers without taking time. -/
def browser (server : Rpc.Server ς) : Browser (Bridge ς) := ⟨react json server⟩

end Bridge
end Journey
