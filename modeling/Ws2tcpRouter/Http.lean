import Ws2tcpRouter.Lib.Text

/-!
# Requests and responses

The values of the `http` crate the router works on, and what it calls in
`httparse`, `http` and `tungstenite`, whose parsers are parameters.
-/

namespace Ws2tcpRouter

/-- A request head. Header names are in lower case, as `HeaderName` keeps them. -/
structure Request where
  method : Str
  path : Str
  headers : List (Str × Bytes)
  deriving DecidableEq, Repr

/-- `HeaderMap::get`: the first value of that name. -/
def Request.get (request : Request) (name : Str) : Option Bytes := request.headers.lookup name

def Request.containsKey (request : Request) (name : Str) : Bool := (request.get name).isSome

/-- `HeaderMap::get` and `HeaderValue::to_str` -/
def Request.getStr (request : Request) (name : Str) : Option Str :=
  (request.get name).bind Text.visibleAscii

structure Response where
  status : Nat
  headers : List (Str × Str)
  body : Option Str
  deriving DecidableEq, Repr

/-- `Response::new`: `200 OK` without headers. -/
def Response.new (body : Option Str) : Response := ⟨200, [], body⟩

/-- `HeaderMap::insert` -/
def Response.insert (response : Response) (name value : Str) : Response :=
  { response with headers := response.headers.filter (·.1 ≠ name) ++ [(name, value)] }

/-- `HeaderMap::append` -/
def Response.append (response : Response) (name value : Str) : Response :=
  { response with headers := response.headers ++ [(name, value)] }

/-- What `httparse` reads out of a complete head. -/
structure Parsed where
  method : Str
  path : Str
  headers : List (Str × Bytes)
  deriving DecidableEq, Repr

structure Parsers where
  /-- `httparse::Request::parse` with that many header slots, where it is
  `Complete`. -/
  parse : Nat → Bytes → Option Parsed
  /-- `Method::from_bytes` -/
  method : Str → Option Str
  /-- `HeaderValue::from_bytes` -/
  headerValue : Bytes → Option Bytes
  /-- `Request::builder`, given the method, the target and the headers. -/
  build : Str → Str → List (Str × Bytes) → Option Request
  /-- The upgrade request `accept_hdr_async` reads from a stream and calls its
  callback with. -/
  handshake : Bytes → Option Request

end Ws2tcpRouter
