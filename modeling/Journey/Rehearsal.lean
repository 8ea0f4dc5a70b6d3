import Journey.Browser
import Journey.Value

/-!
Rehearsals: a browser that answers from a script. The script holds, for every call by its
description, the replies in the order in which they are given; the last one is given again and
again, and a call without replies is answered as an uneventful page would.
-/

namespace Journey

/-- Takes the first of a list of replies; the last one stays, and without any the usual one
serves. -/
def nextReply {α : Type} (usual : α) : List α → α × List α
  | [] => (usual, [])
  | [reply] => (reply, [reply])
  | reply :: rest => (reply, rest)

/-- A reply in a script. What its value means depends on the call; a value that means nothing there
stands for the usual answer. -/
structure Reply where
  delay : Nat
  cancels : Bool
  outcome : Except BrowserError Value

def Reply.usual : Reply := ⟨0, false, .ok .null⟩

/-- A browser that follows a script: the page it shows, the replies left, and the number of
screenshots taken. -/
structure Rehearsal where
  url : String
  script : Dict (List Reply)
  shots : Nat

namespace Rehearsal

/-- The matches that a value stands for: text is the handle of the only one, a number counts. -/
def matchesOf : Value → Matches
  | .str handle => .one handle
  | value =>
      match value.nat? with
      | some count => .many count
      | none => .none

def probeAnswer (s : Rehearsal) (condition : Condition) (value : Value) : Bool :=
  value.bool?.getD <|
    match condition with
    | .visible _ | .navigated => true
    | .hidden _ => false
    | .urlContains part => Text.containsString part s.url

def answer (s : Rehearsal) : (call : Call) → Value → call.Answer
  | .navigate _, _ | .click _, _ | .fill _ _, _ | .close, _ => ()
  | .query _, value => matchesOf value
  | .interactable _, value => value.bool?.getD true
  | .text _, value => value.text?.getD ""
  | .currentUrl, value => value.text?.getD s.url
  | .probe condition, value => s.probeAnswer condition value
  | .screenshot, value => value.text?.getD s!"shot-{s.shots + 1}"

def after (s : Rehearsal) : Call → Rehearsal
  | .navigate url => { s with url := url }
  | .screenshot => { s with shots := s.shots + 1 }
  | _ => s

def take (s : Rehearsal) (call : Call) : Reply × Rehearsal :=
  let (reply, rest) := nextReply .usual ((Dict.find? s.script call.describe).getD [])
  (reply, { s with script := Dict.insert call.describe rest s.script })

def react (_ : Nat) (s : Rehearsal) (call : Call) : Reaction Rehearsal call :=
  let (reply, working) := s.take call
  match reply.outcome with
  | .ok value => ⟨reply.delay, working, reply.cancels, .ok (working.answer call value),
      working.after call⟩
  | .error e => ⟨reply.delay, working, reply.cancels, .error e, working⟩

def browser : Browser Rehearsal := ⟨react⟩

end Rehearsal
end Journey
