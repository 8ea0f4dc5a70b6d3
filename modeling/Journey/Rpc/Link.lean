import Journey.Rpc

/-!
The link to a browser server that several callers share. It writes requests and reads lines, and
gives each response to the request of its id, which is a number of its own. Reading may stop in the
middle of a line; if a request comes up then, the part of the line that was read already is lost. When
the server stops or cannot be written to, or a line is no text, the link closes and every request still
waiting is told so.
-/

namespace Journey.Rpc

/-- The ids that wait for a response, what the server has written and is not read yet, the part of a
line that is, whether the server has stopped, and whether the link is still open. -/
structure Link where
  waiting : List Nat
  ahead : List UInt8
  held : List UInt8
  stopped : Bool
  isOpen : Bool
  deriving DecidableEq

/-- A request comes up, with or without success in writing it; a caller gives up on one; the server
writes or stops; the link gets to read; there are no callers any more. -/
inductive Event where
  | submit (id : Nat) (written : Bool)
  | abandon (id : Nat)
  | output (bytes : List UInt8)
  | stop
  | read
  | hangUp
  deriving DecidableEq

/-- What a request is told, whether its caller still listens or not. -/
structure Delivery where
  id : Nat
  outcome : Except BrowserError Value

def newline : UInt8 := 10

def splitLine : List UInt8 → Option (List UInt8 × List UInt8)
  | [] => none
  | b :: rest =>
      if b = newline then some ([], rest)
      else (splitLine rest).map fun (line, after) => (b :: line, after)

def textOf? (line : List UInt8) : Option String := String.fromUTF8? ⟨line.toArray⟩

def bytesOf (text : String) : List UInt8 := text.toUTF8.data.toList

namespace Link

variable (json : Node.Reader)

def start : Link := ⟨[], [], [], false, true⟩

def close (l : Link) : Link × List Delivery :=
  ({ l with waiting := [], isOpen := false }, l.waiting.map fun id => ⟨id, .error .disconnected⟩)

/-- Takes in a whole line. A response to nobody who waits, or no response at all, is passed over. -/
def receive (l : Link) (line : List UInt8) : Link × List Delivery :=
  match textOf? line with
  | none => l.close
  | some text =>
      match Response.parse? json text with
      | none => (l, [])
      | some response =>
          if l.waiting.contains response.id then
            ({ l with waiting := l.waiting.filter (· != response.id) },
              [⟨response.id, response.outcome⟩])
          else (l, [])

/-- Reads up to the end of a line, or what there is. After the server has stopped, the rest is a
line of its own, and with nothing left the link closes. -/
def read (l : Link) : Link × List Delivery :=
  match splitLine l.ahead with
  | some (line, rest) => receive json { l with ahead := rest, held := [] } (l.held ++ line)
  | none =>
      let line := l.held ++ l.ahead
      if !l.stopped then ({ l with ahead := [], held := line }, [])
      else if line.isEmpty then l.close
      else receive json { l with ahead := [], held := [] } line

def submit (l : Link) (id : Nat) (written : Bool) : Link × List Delivery :=
  if written then
    ({ l with waiting := id :: l.waiting.filter (· != id), held := [] }, [])
  else
    let (l, told) := { l with held := [] : Link }.close
    (l, ⟨id, .error .disconnected⟩ :: told)

/-- One event. Once the link is closed a request is refused at once and nothing else matters. -/
def step (l : Link) (event : Event) : Link × List Delivery :=
  if l.isOpen then
    match event with
    | .submit id written => l.submit id written
    | .abandon _ => (l, [])
    | .output bytes => (if l.stopped then l else { l with ahead := l.ahead ++ bytes }, [])
    | .stop => ({ l with stopped := true }, [])
    | .read => l.read json
    | .hangUp => l.close
  else
    match event with
    | .submit id _ => (l, [⟨id, .error .disconnected⟩])
    | .abandon _ | .output _ | .stop | .read | .hangUp => (l, [])

def run (l : Link) : List Event → Link × List Delivery
  | [] => (l, [])
  | event :: rest =>
      let (l, told) := l.step json event
      let (l, more) := l.run rest
      (l, told ++ more)

end Link

/-- The callers of a link: the number that the next request is given, and the numbers of the requests
that are made and have not come up at the link yet. Other links may have taken numbers before. -/
structure Callers where
  counter : UInt64
  made : List Nat
  deriving DecidableEq

/-- A request is made; one of those that are made, whichever, comes up at the link; or something else
happens there. -/
inductive Move where
  | make
  | submit (place : Nat) (written : Bool)
  | other (event : Event)
  deriving DecidableEq

namespace Callers

/-- Numbers are given out one after the other, and from zero on when there are no more. -/
def step (c : Callers) : Move → Callers × List Event
  | .make => (⟨c.counter + 1, c.made ++ [c.counter.toNat]⟩, [])
  | .submit place written =>
      match c.made[place]? with
      | some id => (⟨c.counter, c.made.eraseIdx place⟩, [.submit id written])
      | none => (c, [])
  | .other (.submit _ _) => (c, [])
  | .other event => (c, [event])

/-- What comes up at the link. -/
def events (c : Callers) : List Move → List Event
  | [] => []
  | move :: rest =>
      let (c, now) := c.step move
      now ++ c.events rest

end Callers
end Journey.Rpc
