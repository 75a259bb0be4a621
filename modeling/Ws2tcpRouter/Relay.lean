import Ws2tcpRouter.Lib.Text

/-!
# Relaying

`proxy_tcp` and `proxy_udp` of `proxy.rs`: the loops between a websocket and an
upstream. An event is what one branch of the `select!` was given, and whether
what the branch then writes goes through.
-/

namespace Ws2tcpRouter

inductive Message
  | text (text : Str)
  | binary (bytes : Bytes)
  | ping (payload : Bytes)
  | pong (payload : Bytes)
  | close (frame : Option (Nat × Str))
  | frame (raw : Bytes)
  deriving DecidableEq, Repr

/-- What `ws_reader.next()` gives. -/
inductive WsRead
  | message (message : Message)
  | error
  | ended
  deriving DecidableEq, Repr

/-- What a branch does before the next turn of the loop, with the context its
error is given. -/
inductive Task
  | upstream (bytes : Bytes) (context : Str)
  | client (message : Message) (context : Str)
  | next
  /-- The upstream is shut down and the loop left. -/
  | shutdown (context : Str)
  /-- A `Close` is sent, if it can be, and the loop left. -/
  | farewell
  | stop
  | fail (context : Str)
  deriving DecidableEq, Repr

inductive Output
  | upstream (bytes : Bytes)
  | client (message : Message)
  | shutdown
  deriving DecidableEq, Repr

structure Relay where
  outputs : List Output
  buffer : Bytes
  result : Option (Except Str Unit)

namespace Relay

def put (σ : Relay) (output : Output) : Relay := { σ with outputs := σ.outputs ++ [output] }

def finish (σ : Relay) (result : Except Str Unit) : Relay := { σ with result := some result }

/-- `done` says whether the write goes through. -/
def perform (σ : Relay) (done : Bool) : Task → Relay
  | .upstream bytes context => if done then σ.put (.upstream bytes) else σ.finish (.error context)
  | .client message context => if done then σ.put (.client message) else σ.finish (.error context)
  | .next => σ
  | .shutdown context =>
    if done then (σ.put .shutdown).finish (.ok ()) else σ.finish (.error context)
  | .farewell => (if done then σ.put (.client (.close none)) else σ).finish (.ok ())
  | .stop => σ.finish (.ok ())
  | .fail context => σ.finish (.error context)

end Relay

/-- A loop by what it does with an event, given the buffer. -/
structure RelayLoop (ε : Type) where
  size : Nat
  task : Bytes → ε → Bytes × Task

namespace RelayLoop

variable (loop : RelayLoop ε)

def init : Relay := ⟨[], List.replicate loop.size 0, none⟩

def step (σ : Relay) (event : ε × Bool) : Relay :=
  if σ.result.isSome then σ
  else
    let (buffer, task) := loop.task σ.buffer event.1
    { σ with buffer }.perform event.2 task

def run (events : List (ε × Bool)) : Relay := events.foldl loop.step loop.init

end RelayLoop

/-- A read of `bytes` into the front of the buffer. -/
def fill (buffer bytes : Bytes) : Bytes := bytes ++ buffer.drop bytes.length

/-- The bytes are at most as many as the buffer holds. -/
inductive TcpEvent (size : Nat)
  | websocket (read : WsRead)
  | tcp (read : Option { bytes : Bytes // bytes.length ≤ size })

def proxyTcp (bufferSize : Nat) : RelayLoop (TcpEvent bufferSize) where
  size := bufferSize
  task buffer
    | .websocket (.message (.binary bytes)) =>
      (buffer, .upstream bytes "write websocket binary frame to tcp failed".toList)
    | .websocket (.message (.text text)) =>
      (buffer, .upstream (Text.utf8 text) "write websocket text frame to tcp failed".toList)
    | .websocket (.message (.ping payload)) =>
      (buffer, .client (.pong payload) "send websocket pong failed".toList)
    | .websocket (.message (.pong _)) | .websocket (.message (.frame _)) => (buffer, .next)
    | .websocket (.message (.close _)) | .websocket .ended =>
      (buffer, .shutdown "shutdown tcp writer failed".toList)
    | .websocket .error => (buffer, .fail "read websocket frame failed".toList)
    | .tcp none => (buffer, .fail "read tcp failed".toList)
    | .tcp (some read) =>
      let buffer := fill buffer read.val
      let n := read.val.length
      if n = 0 then (buffer, .farewell)
      else
        (buffer, .client (.binary (buffer.take n)) "send tcp bytes to websocket failed".toList)

def udpDatagramBuffer : Nat := 65536

/-- A datagram has a length of sixteen bits, its header of eight bytes included. -/
abbrev Datagram := { bytes : Bytes // bytes.length ≤ 65527 }

inductive UdpEvent
  /-- The idle timeout of either branch has passed. -/
  | elapsed
  | websocket (read : WsRead)
  | udp (read : Option Datagram)

def proxyUdp : RelayLoop UdpEvent where
  size := udpDatagramBuffer
  task buffer
    | .elapsed => (buffer, .farewell)
    | .websocket (.message (.binary bytes)) =>
      (buffer, .upstream bytes "send websocket binary frame to udp failed".toList)
    | .websocket (.message (.text text)) =>
      (buffer, .upstream (Text.utf8 text) "send websocket text frame to udp failed".toList)
    | .websocket (.message (.ping payload)) =>
      (buffer, .client (.pong payload) "send websocket pong failed".toList)
    | .websocket (.message (.pong _)) | .websocket (.message (.frame _)) => (buffer, .next)
    | .websocket (.message (.close _)) | .websocket .ended => (buffer, .stop)
    | .websocket .error => (buffer, .fail "read websocket frame failed".toList)
    | .udp none => (buffer, .fail "read udp datagram failed".toList)
    | .udp (some datagram) =>
      -- what does not fit the buffer is cut off
      let read := datagram.val.take udpDatagramBuffer
      let buffer := fill buffer read
      (buffer, .client (.binary (buffer.take read.length))
        "send udp datagram to websocket failed".toList)

end Ws2tcpRouter
