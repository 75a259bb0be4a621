import Ws2tcpRouter.Lib.Text

/-!
# Addresses

`std::net`: IP addresses and socket addresses, and how the standard library
parses them. A reader of a part returns what is left of the input; where it
fails the input is taken up again where it began.
-/

namespace Ws2tcpRouter

inductive IpAddr
  | v4 (addr : BitVec 32)
  | v6 (addr : BitVec 128)
  deriving DecidableEq, Repr

/-- An IPv4-mapped IPv6 address is turned into the IPv4 address. -/
def IpAddr.toCanonical : IpAddr → IpAddr
  | .v4 addr => .v4 addr
  | .v6 addr => if addr.extractLsb' 32 96 = 0xffff then .v4 (addr.setWidth 32) else .v6 addr

theorem IpAddr.toCanonical_v6 (h : addr.extractLsb' 32 96 ≠ 0xffff) :
    (IpAddr.v6 addr).toCanonical = .v6 addr := if_neg h

theorem IpAddr.toCanonical_mapped (h : addr.extractLsb' 32 96 = 0xffff) :
    (IpAddr.v6 addr).toCanonical = .v4 (addr.setWidth 32) := if_pos h

theorem IpAddr.toCanonical_toCanonical (ip : IpAddr) :
    ip.toCanonical.toCanonical = ip.toCanonical := by
  cases ip with
  | v4 addr => rfl
  | v6 addr =>
    by_cases h : addr.extractLsb' 32 96 = 0xffff
    · rw [toCanonical_mapped h]
      rfl
    · rw [toCanonical_v6 h, toCanonical_v6 h]

structure SocketAddr where
  ip : IpAddr
  port : Nat
  deriving DecidableEq, Repr

namespace Net

def toDigit (radix : Nat) (c : Char) : Option Nat :=
  let digit :=
    if '0' ≤ c ∧ c ≤ '9' then some (c.toNat - '0'.toNat)
    else if 'a' ≤ c ∧ c ≤ 'z' then some (c.toNat - 'a'.toNat + 10)
    else if 'A' ≤ c ∧ c ≤ 'Z' then some (c.toNat - 'A'.toNat + 10)
    else none
  digit.filter (· < radix)

def readGivenChar (target : Char) : Str → Option Str
  | c :: rest => if c = target then some rest else none
  | [] => none

/-- A part, behind a separator unless it is the first. -/
def readSeparator (sep : Char) (index : Nat) (inner : Str → Option (α × Str)) (s : Str) :
    Option (α × Str) :=
  if 0 < index then (readGivenChar sep s).bind inner else inner s

/-- The digits at the front, as a number of a type with that greatest value. -/
def readNumber (radix : Nat) (maxDigits : Option Nat) (allowZeroPrefix : Bool) (greatest : Nat)
    (s : Str) : Option (Nat × Str) :=
  let digits := s.takeWhile fun c => (toDigit radix c).isSome
  if digits = [] || maxDigits.any (· < digits.length) then none
  else if !allowZeroPrefix && digits.head? = some '0' && 1 < digits.length then none
  else
    let value := (digits.filterMap (toDigit radix)).foldl (fun n digit => n * radix + digit) 0
    if value ≤ greatest then some (value, s.drop digits.length) else none

def readIpv4Addr (s : Str) : Option (BitVec 32 × Str) := do
  let octet := readNumber 10 (some 3) false 255
  let (a, s) ← readSeparator '.' 0 octet s
  let (b, s) ← readSeparator '.' 1 octet s
  let (c, s) ← readSeparator '.' 2 octet s
  let (d, s) ← readSeparator '.' 3 octet s
  some (.ofNat 32 (((a * 256 + b) * 256 + c) * 256 + d), s)

/-- At most `left` further groups from the `i`th on, and whether they end in an
IPv4 address, which takes the place of two. -/
def readGroups (left i : Nat) (s : Str) : List Nat × Bool × Str :=
  match left with
  | 0 => ([], false, s)
  | left + 1 =>
    match if 0 < left then readSeparator ':' i readIpv4Addr s else none with
    | some (addr, s) => ([addr.toNat / 65536, addr.toNat % 65536], true, s)
    | none =>
      match readSeparator ':' i (readNumber 16 (some 4) true 65535) s with
      | none => ([], false, s)
      | some (group, s) =>
        let (groups, ipv4, s) := readGroups left (i + 1) s
        (group :: groups, ipv4, s)

def ofGroups (groups : List Nat) : BitVec 128 :=
  .ofNat 128 (groups.foldl (fun n group => n * 65536 + group) 0)

def readIpv6Addr (s : Str) : Option (BitVec 128 × Str) :=
  let (head, headIpv4, s) := readGroups 8 0 s
  if head.length = 8 then some (ofGroups head, s)
  else if headIpv4 then none
  else do
    let s ← readGivenChar ':' s
    let s ← readGivenChar ':' s
    -- `::` stands for one group of zeros at least
    let (tail, _, s) := readGroups (8 - (head.length + 1)) 0 s
    some (ofGroups (head ++ List.replicate (8 - head.length - tail.length) 0 ++ tail), s)

def readIpAddr (s : Str) : Option (IpAddr × Str) :=
  match readIpv4Addr s with
  | some (addr, s) => some (.v4 addr, s)
  | none => (readIpv6Addr s).map fun (addr, s) => (.v6 addr, s)

def readPort (s : Str) : Option (Nat × Str) :=
  (readGivenChar ':' s).bind (readNumber 10 none true 65535)

def readScopeId (s : Str) : Option (Nat × Str) :=
  (readGivenChar '%' s).bind (readNumber 10 none true (2 ^ 32 - 1))

def readSocketAddrV4 (s : Str) : Option (SocketAddr × Str) := do
  let (addr, s) ← readIpv4Addr s
  let (port, s) ← readPort s
  some (⟨.v4 addr, port⟩, s)

def readSocketAddrV6 (s : Str) : Option (SocketAddr × Str) := do
  let s ← readGivenChar '[' s
  let (addr, s) ← readIpv6Addr s
  let s := ((readScopeId s).map Prod.snd).getD s
  let s ← readGivenChar ']' s
  let (port, s) ← readPort s
  some (⟨.v6 addr, port⟩, s)

def readSocketAddr (s : Str) : Option (SocketAddr × Str) :=
  (readSocketAddrV4 s).or (readSocketAddrV6 s)

/-- `Parser::parse_with`: the reader must take the whole input. -/
def parseWith (inner : Str → Option (α × Str)) (s : Str) : Option α :=
  match inner s with
  | some (a, []) => some a
  | _ => none

end Net

def IpAddr.parse : Str → Option IpAddr := Net.parseWith Net.readIpAddr

def SocketAddr.parse : Str → Option SocketAddr := Net.parseWith Net.readSocketAddr

end Ws2tcpRouter
