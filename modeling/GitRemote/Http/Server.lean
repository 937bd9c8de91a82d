import GitRemote.Http.Message
import GitRemote.Remote.Error

/-!
# Servers

A server as it looks from outside: the responses that it will give, in order, and the requests that
reached it. A request whose body cannot be read to its end does not reach it.
-/

namespace GitRemote.Http

/-- A request as the server has it. -/
structure Received where
  method : Method
  url : String
  headers : List (String × String)
  /-- The content of the body, whatever form it travelled in. -/
  body : Bytes
  streamed : Bool
  auth : Option BasicAuth
  deriving DecidableEq, Repr

/-- What a server will answer and what it was sent. -/
structure Server where
  responses : List Response := []
  requests : List Received := []
  deriving DecidableEq, Repr

/-- The content of a body and whether it was read while it was sent. -/
def Body.content : Body → Except String (Bytes × Bool)
  | .empty => .ok ([], false)
  | .whole b => .ok (b, false)
  | .compressed b => .ok (b, false)
  | .streamed (.ok b) => .ok (b, true)
  | .streamed (.error e) => .error e

/-- A request as the server has it when its body has the given content. -/
def Request.received (r : Request) (content : Bytes × Bool) : Received :=
  { method := r.method, url := r.url, headers := r.headers, body := content.1,
    streamed := content.2, auth := r.auth }

/-- Sends a request to a server. -/
def Server.answer (s : Server) (r : Request) : Except RemoteError Response × Server :=
  match r.body.content with
  | .error e => (.error (.io e), s)
  | .ok content =>
    let requests := s.requests ++ [r.received content]
    match s.responses with
    | [] => (.error (.transport r.url "no scripted response left"), { s with requests })
    | response :: responses => (.ok response, { responses, requests })

end GitRemote.Http
