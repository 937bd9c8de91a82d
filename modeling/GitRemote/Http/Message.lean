import GitRemote.Text.Blank

/-!
# Requests and responses

What is sent to a server and what comes back. A body of known content can be sent again; one that is
read while it is sent cannot.
-/

namespace GitRemote.Http

/-- The method of a request. -/
inductive Method where
  | get
  | post
  deriving DecidableEq, Repr

/-- The body of a request. -/
inductive Body where
  | empty
  | whole (content : Bytes)
  /-- Known content that travels compressed. -/
  | compressed (content : Bytes)
  /-- Content that is read while it is sent, or the reason why reading it failed. -/
  | streamed (content : Except String Bytes)

/-- User name and password as they go with a request. -/
structure BasicAuth where
  username : String
  password : Option String := none
  deriving DecidableEq, Repr

/-- A request. -/
structure Request where
  method : Method
  url : String
  headers : List (String × String) := []
  body : Body := .empty
  auth : Option BasicAuth := none

/-- Whether two names of headers are the same. -/
def sameName (a b : String) : Bool := Text.lowerAscii a == Text.lowerAscii b

namespace Request

/-- A request for what is at a URL. -/
def get (url : String) : Request := { method := .get, url }

/-- A request that brings a body to a URL. -/
def post (url : String) (body : Body) : Request := { method := .post, url, body }

/-- The request with one more header. -/
def withHeader (r : Request) (name value : String) : Request :=
  { r with headers := r.headers ++ [(name, value)] }

/-- The value of the first header of a name. -/
def header? (r : Request) (name : String) : Option String :=
  (r.headers.find? fun h => sameName h.1 name).map (·.2)

/-- Whether a request can be sent again. -/
def isRepeatable (r : Request) : Bool :=
  match r.body with
  | .streamed _ => false
  | _ => true

end Request

/-- A response. -/
structure Response where
  status : Nat
  contentType : Option String := none
  body : Bytes := []
  deriving DecidableEq, Repr

namespace Response

/-- Whether a status means success. -/
def isSuccess (r : Response) : Bool := 200 ≤ r.status && r.status < 300

/-- The media type without parameters. -/
def mediaType? (r : Response) : Option String :=
  r.contentType.bind fun t => ((Text.fields ';' t).head?).map Text.trim

/-- The body if it is meant for people, that is, plain text with something in it. -/
def remark? (r : Response) : Option String :=
  match r.mediaType? with
  | some t =>
    if sameName t "text/plain" then
      let text := Text.trimEnd (Utf8.decodeLossy r.body)
      if text.isEmpty then none else some text
    else none
  | none => none

end Response

end GitRemote.Http
