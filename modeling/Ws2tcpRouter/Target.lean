import Ws2tcpRouter.Lib.Text

/-!
# Targets

`target.rs`: the upstream a request path names. The texts of the errors only
ever reach a log, so an error is its kind.
-/

namespace Ws2tcpRouter

inductive Protocol
  | tcp
  | udp
  deriving DecidableEq, Repr

structure Target where
  protocol : Protocol
  host : Str
  port : Nat
  deriving DecidableEq, Repr

inductive TargetError
  /-- path must start with /tcp: or /udp: -/
  | scheme
  /-- IPv6 target must be formatted as [host]:port -/
  | bracketed
  /-- target host is empty -/
  | emptyHost
  /-- target must be formatted as host:port -/
  | hostPort
  /-- IPv6 target must be enclosed in brackets -/
  | unbracketed
  /-- invalid target port -/
  | port (port : Str)
  deriving DecidableEq, Repr

def Target.addr (target : Target) : Str :=
  target.host ++ ':' :: (Nat.repr target.port).toList

/-- The greatest `u16`. -/
def maxPort : Nat := 65535

def splitHostPort (target : Str) : Except TargetError (Str × Str) :=
  match "[".toList.isPrefixOf? target with
  | some rest =>
    match Text.splitOnceStr "]:".toList rest with
    | none => .error .bracketed
    | some (host, port) =>
      if host = [] then .error .emptyHost else .ok ('[' :: host ++ [']'], port)
  | none =>
    match Text.rsplitOnce ':' target with
    | none => .error .hostPort
    | some (host, port) => if ':' ∈ host then .error .unbracketed else .ok (host, port)

def parseHostPort (target : Str) : Except TargetError (Str × Nat) := do
  let (host, port) ← splitHostPort target
  if host = [] then .error .emptyHost
  match Text.parseUnsigned maxPort port with
  | some port => .ok (host, port)
  | none => .error (.port port)

def parseTarget (path : Str) : Except TargetError Target := do
  let (protocol, target) ←
    match "/tcp:".toList.isPrefixOf? path, "/udp:".toList.isPrefixOf? path with
    | some rest, _ => .ok (Protocol.tcp, rest)
    | none, some rest => .ok (Protocol.udp, rest)
    | none, none => .error .scheme
  let (host, port) ← parseHostPort target
  .ok { protocol, host, port }

/-- The protocol is a placeholder: the allowlist is matched by `addr`. -/
def parseTargetAddr (target : Str) : Except TargetError Target := do
  let (host, port) ← parseHostPort target
  .ok { protocol := .tcp, host, port }

example : (parseTarget "/udp:[2001:db8::1]:443".toList).map Target.addr =
    .ok "[2001:db8::1]:443".toList := by decide +kernel

end Ws2tcpRouter
