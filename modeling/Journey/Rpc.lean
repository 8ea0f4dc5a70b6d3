import Journey.Browser
import Journey.Node
import Journey.Value.Printer

/-!
Remote calls to a browser server: a request is written as one line of JSON, and a response is a line
that carries the id of its request and either a result or a fault. The code of a fault tells its
kind. Lines that are no response mean nothing.
-/

namespace Journey.Rpc

structure Fault where
  code : Int
  message : String
  deriving DecidableEq

def Fault.browserError (f : Fault) : BrowserError :=
  match f.code with
  | -32001 => .timeout f.message
  | -32002 => .blocked f.message
  | -32003 => .stale f.message
  | -32004 => .notInteractable f.message
  | -32005 => .navigation f.message
  | -32601 => .unsupported f.message
  | code => .server s!"[{code}] {f.message}"

structure Request where
  id : Nat
  method : String
  params : Value
  deriving DecidableEq

structure Response where
  id : Nat
  result : Option Value
  fault : Option Fault
  deriving DecidableEq

/-- What the caller is told; a fault wins over a result. -/
def Response.outcome (r : Response) : Except BrowserError Value :=
  match r.fault with
  | some fault => .error fault.browserError
  | none => .ok (r.result.getD .null)

def Fault.ofNode? (n : Node) : Option Fault := do
  let r ← n.fieldsOf? ["code", "message"]
  return ⟨← r.required "code" (Node.int? (-2147483648) 2147483647),
    ← r.required "message" Node.text?⟩

def Response.ofNode? (n : Node) : Option Response := do
  let r ← n.fieldsOf? ["jsonrpc", "id", "result", "error"]
  let _ ← r.required "jsonrpc" Node.text?
  return {
    id := ← r.required "id" Node.nat64?
    result := ← r.nullable "result" (Node.value? (Node.maxLevels - 1))
    fault := ← r.nullable "error" Fault.ofNode? }

def Response.parse? (json : Node.Reader) (line : String) : Option Response :=
  (json line).bind Response.ofNode?

def Request.toValue (r : Request) : Value :=
  .ofFields [
    ("jsonrpc", .str "2.0"), ("id", .int r.id), ("method", .str r.method), ("params", r.params)]

def Request.line (r : Request) : String := r.toValue.text ++ "\n"

end Journey.Rpc
