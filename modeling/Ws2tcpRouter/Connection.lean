import Ws2tcpRouter.Net
import Ws2tcpRouter.Proxy
import Ws2tcpRouter.Relay
import Ws2tcpRouter.Replay

/-!
# One connection, wait by wait

`handle_accepted_stream`, `handle_connection` and `connect_udp` as they run: a
connection stops at every `await` and goes on with what it was given there.
Between two waits it runs alone, so each step sees one state of the
credentials and the token store. The address a connection is reported under,
its user agent and the log are left out.
-/

namespace Ws2tcpRouter

/-- What a connection does. The effects are those of `handleConnection`. -/
inductive Act
  | effect (e : Effect)
  | output (output : Output)
  | bindUdp (addr : Str)
  | connectUdp (addr : SocketAddr)
  deriving DecidableEq, Repr

/-- Where a connection waits. -/
inductive ConnPhase
  | acceptingTls
  | readingHead (head : Bytes)
  | upgrading (bytes : Bytes)
  /-- The answer to the handshake is being written. -/
  | answering (slots : Slots)
  | connectingTcp (addr : Str)
  | resolving (addr : Str)
  | binding (addr : Str) (resolved : SocketAddr)
  | connectingUdp (addr : Str)
  | tcp (relay : Relay)
  | udp (relay : Relay)
  /-- An error is its contexts, the outermost first. -/
  | closed (result : Except (List Str) Unit)

/-- What a wait ends with. -/
inductive Input (bufferSize : Nat)
  | tls (done : Bool)
  /-- The chunk read, empty at the end of the stream, and absent where the read
  fails. -/
  | read (chunk : Option Bytes) (draws : Draws)
  | answered (done : Bool)
  | connected (done : Bool)
  | resolved (addrs : Option (List SocketAddr))
  | bound (done : Bool)
  | tcp (event : TcpEvent bufferSize) (done : Bool)
  | udp (event : UdpEvent) (done : Bool)

/-- What a connection runs with. -/
structure Setup where
  platform : Platform
  parsers : Parsers
  /-- The handshake gives up on these bytes. -/
  handshakeFails : Bytes → Bool
  bufferSize : Nat

/-- What one step comes to. -/
structure Turn where
  tokens : Token.State
  phase : ConnPhase
  acts : List Act

def ConnPhase.awaits : ConnPhase → Input bufferSize → Bool
  | .acceptingTls, .tls _ => true
  | .readingHead _, .read _ _ => true
  | .upgrading _, .read _ _ => true
  | .answering _, .answered _ => true
  | .connectingTcp _, .connected _ => true
  | .resolving _, .resolved _ => true
  | .binding _ _, .bound _ => true
  | .connectingUdp _, .connected _ => true
  | .tcp _, .tcp _ _ => true
  | .udp _, .udp _ _ => true
  | _, _ => false

def ConnectionError.context : ConnectionError → Str
  | .readFailed => "read http request failed".toList
  | .handshakeFailed => "websocket handshake failed".toList
  | .targetNotCaptured => "websocket request target was not captured".toList
  | .userNotCaptured => "websocket auth user was not captured".toList

def ConnPhase.fail (contexts : List Str) : ConnPhase := .closed (.error contexts)

def upstreamContext (addr : Str) : Str := "failed to connect upstream ".toList ++ addr

/-- The two messages of a websocket health check. -/
def healthCheckMessages : List Message :=
  [.text healthCheckMessage, .close (some (1000, "health check".toList))]

/-- A relay after a turn of its loop: over, or going on, with what it put out. -/
def relayed (before after : Relay) (again : Relay → ConnPhase) : ConnPhase × List Act :=
  (match after.result with
    | none => again after
    | some result => .closed (result.mapError fun context => [context]),
    (after.outputs.drop before.outputs.length).map .output)

/-- `connect_udp`, once its target is resolved. -/
def bindFor (addr : Str) : Option (List SocketAddr) → ConnPhase × List Act
  | none => (.fail [upstreamContext addr, "failed to resolve udp target ".toList ++ addr], [])
  | some [] =>
    (.fail [upstreamContext addr, "udp target ".toList ++ addr ++ " did not resolve".toList], [])
  | some (resolved :: _) =>
    let localBind := match resolved.ip with
      | .v6 _ => "[::]:0".toList
      | .v4 _ => "0.0.0.0:0".toList
    (.binding addr resolved, [.bindUdp localBind])

/-- What follows a handshake that was completed. -/
def Slots.serve (slots : Slots) : ConnPhase × List Act :=
  match slots.requestedTarget, slots.authenticatedUser with
  | none, _ => (.fail [ConnectionError.targetNotCaptured.context], [])
  | some _, none => (.fail [ConnectionError.userNotCaptured.context], [])
  | some .healthCheck, some _ =>
    (.closed (.ok ()), .effect .healthCheck :: healthCheckMessages.map fun m => .output (.client m))
  | some (.proxy target), some _ =>
    match target.protocol with
    | .tcp => (.connectingTcp target.addr, [.effect (.connectTcp target.addr)])
    | .udp => (.resolving target.addr, [.effect (.connectUdp target.addr)])

namespace Setup

variable (env : Setup) (auth : Option AuthConfig) (s : Token.State) (now : Instant)

def answerPlain (draws : Draws) (request : Request) : Token.State × Response :=
  if request.path = healthCheckPath then
    match authorizeRequest env.platform auth s now request with
    | .ok _ => (s, healthCheckResponse healthCheckMessage)
    | .error response => (s, response)
  else handleAuthRequest env.platform auth s now draws request

/-- The handshake, once it has read these bytes. -/
def upgrade (bytes : Bytes) : Turn :=
  match env.parsers.handshake bytes with
  | none =>
    if env.handshakeFails bytes then
      ⟨s, .fail [ConnectionError.handshakeFailed.context], []⟩
    else ⟨s, .upgrading bytes, []⟩
  | some request =>
    match onUpgrade env.platform auth s now request ⟨none, none⟩ with
    | (_, .error response) =>
      ⟨s, .fail [ConnectionError.handshakeFailed.context], [.effect (.refuse response)]⟩
    | (slots, .ok ()) => ⟨s, .answering slots, []⟩

/-- What follows the reading of the head. -/
def onHead (draws : Draws) (head : Bytes) : Turn :=
  match parsePlainRequest env.parsers head with
  | some request =>
    let (s, response) := env.answerPlain auth s now draws request
    ⟨s, .closed (.ok ()), [.effect (.respond response (request.method ≠ "HEAD".toList))]⟩
  | none => env.upgrade auth s now head

/-- A wait that is over where the credentials and tokens do not matter. -/
def advance (phase : ConnPhase) (input : Input env.bufferSize) : ConnPhase × List Act :=
  match phase, input with
  | .acceptingTls, .tls done =>
    (if done then .readingHead [] else .fail ["tls handshake failed".toList], [])
  | .readingHead _, .read none _ => (.fail [ConnectionError.readFailed.context], [])
  | .upgrading _, .read none _ => (.fail [ConnectionError.handshakeFailed.context], [])
  | .answering slots, .answered done =>
    if done then slots.serve else (.fail [ConnectionError.handshakeFailed.context], [])
  | .connectingTcp addr, .connected done =>
    (if done then .tcp (proxyTcp env.bufferSize).init else .fail [upstreamContext addr], [])
  | .resolving addr, .resolved addrs => bindFor addr addrs
  | .binding addr resolved, .bound done =>
    if done then (.connectingUdp addr, [.connectUdp resolved])
    else
      (.fail [upstreamContext addr, "failed to bind local udp socket for ".toList ++ addr], [])
  | .connectingUdp addr, .connected done =>
    (if done then .udp proxyUdp.init
      else .fail [upstreamContext addr, "failed to connect udp socket to ".toList ++ addr], [])
  | .tcp relay, .tcp event done =>
    relayed relay ((proxyTcp env.bufferSize).step relay (event, done)) .tcp
  | .udp relay, .udp event done => relayed relay (proxyUdp.step relay (event, done)) .udp
  | phase, _ => (phase, [])

/-- A wait that is over, and what the connection does until the next. -/
def turn (phase : ConnPhase) (input : Input env.bufferSize) : Turn :=
  match phase, input with
  | .readingHead head, .read (some chunk) draws =>
    if chunk = [] then env.onHead auth s now draws head
    else if stops (head ++ chunk) then env.onHead auth s now draws (head ++ chunk)
    else ⟨s, .readingHead (head ++ chunk), []⟩
  | .upgrading bytes, .read (some chunk) _ =>
    if chunk = [] then ⟨s, .fail [ConnectionError.handshakeFailed.context], []⟩
    else env.upgrade auth s now (bytes ++ chunk)
  | phase, input =>
    let (phase, acts) := env.advance phase input
    ⟨s, phase, acts⟩

end Setup

end Ws2tcpRouter
