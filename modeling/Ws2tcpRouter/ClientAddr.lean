import Ws2tcpRouter.Http
import Ws2tcpRouter.Net

/-!
# Client addresses

`client_addr.rs`: the ranges of trusted proxies, and the address a connection
is reported under.
-/

namespace Ws2tcpRouter

/-- `MAX_HEADERS` of this module. -/
def maxForwardedHeaders : Nat := 64

def forwardedFor : Str := "x-forwarded-for".toList

def IpAddr.bits : IpAddr → Nat
  | .v4 _ => 32
  | .v6 _ => 128

/-- A CIDR block. The source's `prefix` is the number of leading bits. -/
structure IpRange where
  addr : IpAddr
  prefixLength : Nat
  le_bits : prefixLength ≤ addr.bits
  deriving DecidableEq, Repr

def checkedShl (x : BitVec w) (n : Nat) : Option (BitVec w) := if n < w then some (x <<< n) else none

namespace IpRange

def contains (range : IpRange) (ip : IpAddr) : Bool :=
  match range.addr, ip.toCanonical with
  | .v4 network, .v4 ip =>
    let mask := (checkedShl (BitVec.allOnes 32) (32 - range.prefixLength)).getD 0
    network &&& mask == ip &&& mask
  | .v6 network, .v6 ip =>
    let mask := (checkedShl (BitVec.allOnes 128) (128 - range.prefixLength)).getD 0
    network &&& mask == ip &&& mask
  | _, _ => false

inductive ParseError
  /-- is not an IP address or a CIDR range -/
  | address
  /-- is an IPv4-mapped IPv6 address; write the IPv4 address instead -/
  | mapped
  /-- invalid prefix length, expected 0 to the number of bits -/
  | prefixLength (greatest : Nat)
  deriving DecidableEq, Repr

def fromStr (input : Str) : Except ParseError IpRange :=
  let (addr, length) :=
    match Text.splitOnce '/' input with
    | some (addr, length) => (addr, some length)
    | none => (input, none)
  match IpAddr.parse (Text.trim addr) with
  | none => .error .address
  | some addr =>
    if addr.toCanonical ≠ addr then .error .mapped
    else
      match length with
      | none => .ok ⟨addr, addr.bits, Nat.le_refl _⟩
      | some length =>
        match Text.parseUnsigned 255 (Text.trim length) with
        | none => .error (.prefixLength addr.bits)
        | some n => if h : n ≤ addr.bits then .ok ⟨addr, n, h⟩ else .error (.prefixLength addr.bits)

end IpRange

/-- An `X-Forwarded-For` entry: an address, possibly with a port or in brackets. -/
def parseForwardedAddress (entry : Str) : Option IpAddr :=
  let ip := (IpAddr.parse entry).or <| ((SocketAddr.parse entry).map SocketAddr.ip).or <|
    (("[".toList.isPrefixOf? entry).bind (Text.stripSuffix ']')).bind IpAddr.parse
  ip.map IpAddr.toCanonical

structure ClientAddr where
  peer : SocketAddr
  forwarded : Option IpAddr
  deriving DecidableEq, Repr

structure TrustedProxies where
  ranges : List IpRange

namespace TrustedProxies

variable (proxies : TrustedProxies)

def contains (ip : IpAddr) : Bool := proxies.ranges.any fun range => range.contains ip

/-- The loop of `select_client`, from the right: it returns, or all entries are
trusted proxies. -/
def scan : List Str → Option (Option IpAddr)
  | [] => some none
  | entry :: rest => do
    let ip ← parseForwardedAddress entry
    if !proxies.contains ip then some (some ip) else scan rest

def selectClient (entries : List Str) : Option IpAddr :=
  match proxies.scan entries.reverse with
  | none => none
  | some (some ip) => some ip
  | some none => entries.head?.bind parseForwardedAddress

/-- Several header lines count as one list, in order. -/
def forwardedEntries (headers : List (Str × Bytes)) : List Str :=
  let lines := headers.filter fun header => Text.eqIgnoreAsciiCase header.1 forwardedFor
  let values := lines.filterMap fun header => Text.fromUtf8 header.2
  ((values.flatMap fun value => value.splitOn ',').map Text.trim).filter (· ≠ [])

def forwardedClient (parsers : Parsers) (head : Bytes) : Option IpAddr :=
  match parsers.parse maxForwardedHeaders head with
  | none => none
  | some parsed => proxies.selectClient (forwardedEntries parsed.headers)

def clientAddr (parsers : Parsers) (peer : SocketAddr) (head : Bytes) : ClientAddr :=
  ⟨peer, if proxies.contains peer.ip then proxies.forwardedClient parsers head else none⟩

end TrustedProxies

end Ws2tcpRouter
