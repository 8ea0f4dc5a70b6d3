import Journey.Bridge
import Journey.Rehearsal

/-!
A browser server that answers from a script: for every method the replies in the order in which they
are given. A reply may have lines written before it that mean nothing, or end the server.
-/

namespace Journey

/-- A reply of a server: lines before it, whether the server ends instead, and its fields apart from
the id. -/
structure ServerReply where
  noise : List String
  exits : Bool
  body : List (String × Value)

abbrev ServerScript := Dict (List ServerReply)

namespace ServerScript

def usual (method : String) : ServerReply :=
  let result :=
    match method with
    | "browser.launch" => [("browserId", Value.str "b1")]
    | "page.new" => [("pageId", Value.str "p1")]
    | _ => []
  ⟨[], false, [("result", .ofFields result)]⟩

def output (id : Nat) (reply : ServerReply) : String :=
  let response := Value.ofFields (reply.body ++ [("jsonrpc", .str "2.0"), ("id", .int id)])
  String.join ((reply.noise ++ [response.text]).map (· ++ "\n"))

def serve (script : List (String × List ServerReply)) (r : Rpc.Request) :
    Rpc.Served ServerScript :=
  let (reply, rest) := nextReply (usual r.method) ((Dict.find? script r.method).getD [])
  let next := Dict.insert r.method rest script
  if reply.exits then ⟨"", true, next⟩ else ⟨output r.id reply, false, next⟩

def server : Rpc.Server ServerScript := ⟨serve⟩

end ServerScript
end Journey
