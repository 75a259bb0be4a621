import Ws2tcpRouter.Http

/-!
# Requests answered without a handshake

`http_probe.rs`: reading a request head, and telling the plain requests the
router answers itself from those left to the websocket handshake.
-/

namespace Ws2tcpRouter

def maxRequestHead : Nat := 16 * 1024
def maxHeaders : Nat := 64

def endOfHead : Bytes := [13, 10, 13, 10]

def headComplete (head : Bytes) : Bool := head.tails.any fun tail => endOfHead.isPrefixOf tail

/-- A stream by the reads it answers. After them it is at its end, or fails. -/
structure Stream where
  reads : List Bytes
  fails : Bool

/-- The head, after `head`, and the reads left over. -/
def readRequestHead (fails : Bool) (head : Bytes) : List Bytes → Option (Bytes × List Bytes)
  | [] => if headComplete head || maxRequestHead ≤ head.length then some (head, [])
    else if fails then none else some (head, [])
  | chunk :: rest =>
    if headComplete head || maxRequestHead ≤ head.length then some (head, chunk :: rest)
    else if chunk = [] then some (head, rest)
    else readRequestHead fails (head ++ chunk) rest

def parsePlainRequest (parsers : Parsers) (head : Bytes) : Option Request := do
  let parsed ← parsers.parse maxHeaders head
  let method ← parsers.method parsed.method
  let target := parsed.path
  let path := target.takeWhile fun c => c ≠ '?' && c ≠ '#'
  let isHealthCheck := path = "/".toList && (method = "GET".toList || method = "HEAD".toList)
  if !isHealthCheck && !"/auth/".toList.isPrefixOf path then none
  let headers ← parsed.headers.mapM fun (name, value) => do
    let value ← parsers.headerValue value
    some (name, value)
  let request ← parsers.build method target headers
  let isUpgrade := (request.getStr "upgrade".toList).any fun value =>
    Text.eqIgnoreAsciiCase value "websocket".toList
  if isUpgrade then none else some request

def healthCheckResponse (message : Str) : Response :=
  (Response.new (some message)).insert "content-type".toList "text/plain; charset=utf-8".toList

end Ws2tcpRouter
