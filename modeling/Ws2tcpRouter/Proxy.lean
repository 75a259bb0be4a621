import Ws2tcpRouter.HttpProbe
import Ws2tcpRouter.TokenApi

/-!
# Connections

`proxy.rs`: what a connection leads to, up to the point where an upstream is
connected or an answer is sent.
-/

namespace Ws2tcpRouter

def healthCheckPath : Str := "/".toList

def healthCheckMessage : Str :=
  "ok: ws2tcp-router 0.2.2 is available; health check only, no upstream connected".toList

inductive Route
  | healthCheck
  | proxy (target : Target)
  deriving DecidableEq, Repr

/-- What a connection makes the router do to the outside. -/
inductive Effect
  | respond (response : Response) (includeBody : Bool)
  | refuse (response : Response)
  | healthCheck
  | connectTcp (addr : Str)
  | connectUdp (addr : Str)
  deriving DecidableEq, Repr

structure Slots where
  requestedTarget : Option Route
  authenticatedUser : Option Str
  deriving DecidableEq, Repr

/-- What a connection ends in, by the context of its error. -/
inductive ConnectionError
  | readFailed
  | handshakeFailed
  | targetNotCaptured
  | userNotCaptured
  deriving DecidableEq, Repr

structure Outcome where
  state : Token.State
  effects : List Effect
  result : Except ConnectionError Unit

def badPathResponse : Response :=
  ⟨400, [], some ("path must be /tcp:<host>:<port> or /udp:<host>:<port>, with IPv6 hosts " ++
    "formatted as [host]:port").toList⟩

def captureRequestedTarget (request : Request) (slots : Slots) : Slots × Except Response Unit :=
  if request.path = healthCheckPath then
    ({ slots with requestedTarget := some .healthCheck }, .ok ())
  else
    match parseTarget request.path with
    | .ok target => ({ slots with requestedTarget := some (.proxy target) }, .ok ())
    | .error _ => (slots, .error badPathResponse)

/-- The callback `handle_connection` hands to the handshake. -/
def onUpgrade (p : Platform) (auth : Option AuthConfig) (s : Token.State) (now : Instant)
    (request : Request) (slots : Slots) : Slots × Except Response Unit :=
  match authorizeRequest p auth s now request with
  | .error response => (slots, .error response)
  | .ok user => captureRequestedTarget request { slots with authenticatedUser := some user }

/-- What follows a handshake that was completed. -/
def serveRoute (s : Token.State) (slots : Slots) : Outcome :=
  match slots.requestedTarget, slots.authenticatedUser with
  | none, _ => ⟨s, [], .error .targetNotCaptured⟩
  | some _, none => ⟨s, [], .error .userNotCaptured⟩
  | some .healthCheck, some _ => ⟨s, [.healthCheck], .ok ()⟩
  | some (.proxy target), some _ =>
    match target.protocol with
    | .tcp => ⟨s, [.connectTcp target.addr], .ok ()⟩
    | .udp => ⟨s, [.connectUdp target.addr], .ok ()⟩

inductive Received
  | plain (request : Request)
  | upgrade (request : Request)

def receive (parsers : Parsers) (stream : Stream) : Except ConnectionError Received :=
  match readRequestHead stream.fails [] stream.reads with
  | none => .error .readFailed
  | some (head, rest) =>
    match parsePlainRequest parsers head with
    | some request => .ok (.plain request)
    | none =>
      -- the handshake sees the head again, and the reads after it
      match parsers.handshake (head ++ rest.flatten) with
      | none => .error .handshakeFailed
      | some request => .ok (.upgrade request)

/-- `answered` says whether the handshake's own answer can be written. -/
def handleConnection (p : Platform) (parsers : Parsers) (auth : Option AuthConfig)
    (s : Token.State) (now : Instant) (draws : Draws) (stream : Stream) (answered : Bool) :
    Outcome :=
  match receive parsers stream with
  | .error e => ⟨s, [], .error e⟩
  | .ok (.plain request) =>
    let (s, response) :=
      if request.path = healthCheckPath then
        match authorizeRequest p auth s now request with
        | .ok _ => (s, healthCheckResponse healthCheckMessage)
        | .error response => (s, response)
      else handleAuthRequest p auth s now draws request
    ⟨s, [.respond response (request.method ≠ "HEAD".toList)], .ok ()⟩
  | .ok (.upgrade request) =>
    match onUpgrade p auth s now request ⟨none, none⟩ with
    | (_, .error response) => ⟨s, [.refuse response], .error .handshakeFailed⟩
    | (slots, .ok ()) =>
      if answered then serveRoute s slots else ⟨s, [], .error .handshakeFailed⟩

end Ws2tcpRouter
