import Ws2tcpRouter.Lib.Table
import Ws2tcpRouter.Platform

/-!
# Access and refresh tokens

`token.rs`, function by function. The content of the service's mutex is
passed in and handed back; the bytes a call draws from the system generator
are arguments, absent where the generator fails. Instants have no upper end
here, and the sum in `u64` wraps.
-/

namespace Ws2tcpRouter.Token

def tokenBytes : Nat := 32
def accessTokenVersion : UInt8 := 1
def maxFamilyLifetime : Duration := fromSecs (30 * 24 * 60 * 60)
def maxRecords : Nat := 100000
def sweepInterval : Duration := fromSecs 60

structure IssuedTokens where
  accessToken : Str
  accessExpiresIn : Nat
  refreshToken : Str
  refreshExpiresIn : Nat
  deriving DecidableEq, Repr

inductive TokenError
  | invalid
  | reused (user : Str)
  | full
  | random
  deriving DecidableEq, Repr

structure RefreshRecord where
  family : UInt64
  user : Str
  expires : Instant
  familyDeadline : Instant
  deriving DecidableEq, Repr

structure SpentRecord where
  family : UInt64
  user : Str
  expires : Instant
  deriving DecidableEq, Repr

structure State where
  refresh : Table Hash RefreshRecord
  spent : Table Hash SpentRecord
  revoked : Table UInt64 Instant
  nextSweep : Instant

/-- The condition `force_sweep` keeps a live record under. -/
def RefreshRecord.unexpired (now : Instant) (record : RefreshRecord) : Bool :=
  decide (now < record.expires) && decide (now < record.familyDeadline)

def SpentRecord.unexpired (now : Instant) (record : SpentRecord) : Bool :=
  decide (now < record.expires)

namespace State

def new (now : Instant) : State := ⟨∅, ∅, ∅, now + sweepInterval⟩

def forceSweep (s : State) (now : Instant) : State where
  refresh := s.refresh.retain fun _ record => record.unexpired now
  spent := s.spent.retain fun _ record => record.unexpired now
  revoked := s.revoked.retain fun _ till => decide (now < till)
  nextSweep := now + sweepInterval

def sweep (s : State) (now : Instant) : State :=
  if now < s.nextSweep then s else s.forceSweep now

def revokeFamily (s : State) (family : UInt64) (now : Instant) (accessTtl : Duration) : State :=
  { s with
    refresh := s.refresh.retain fun _ record => decide (record.family ≠ family)
    revoked := s.revoked.insert family (now + accessTtl) }

def familyOf (s : State) (hash : Hash) : Option UInt64 :=
  match s.refresh.lookup hash with
  | some record => some record.family
  | none => (s.spent.lookup hash).map SpentRecord.family

def records (s : State) : Nat := s.refresh.len + s.spent.len

def makeRoom (s : State) (now : Instant) : State × Except TokenError Unit :=
  if maxRecords ≤ s.records then
    let s := s.forceSweep now
    if maxRecords ≤ s.records then (s, .error .full) else (s, .ok ())
  else (s, .ok ())

end State

structure TokenService where
  key : Bytes
  accessTtl : Duration
  refreshTtl : Duration
  deriving DecidableEq

def TokenService.new (secret : Bytes) (accessTtl refreshTtl : Duration) : TokenService where
  key := secret
  accessTtl
  refreshTtl

variable (p : Platform)

def generateToken (draw : Option (Block tokenBytes)) : Option Str :=
  draw.map fun bytes => p.urlSafe.encode bytes.val

/-- The eight bytes drawn are given as the integer they are read as. -/
def randomFamily (draw : Option UInt64) : Except TokenError UInt64 :=
  match draw with
  | some family => .ok family
  | none => .error .random

def hashToken (token : Str) : Hash := p.sha256 (Text.utf8 token)

namespace TokenService

variable (svc : TokenService)

/-- `unix_now() + access_ttl` in `u64`. -/
def accessExpires (now : Instant) : UInt64 := .ofNat (p.unixNow now + asSecs svc.accessTtl)

def accessPayload (family expires : UInt64) (user : Str) : Bytes :=
  accessTokenVersion :: (Text.toBeBytes family ++ Text.toBeBytes expires ++ Text.utf8 user)

def signed (payload : Bytes) : Str :=
  p.urlSafe.encode payload ++ '.' :: p.urlSafe.encode (p.hmacSign svc.key payload)

def mintAccess (now : Instant) (family : UInt64) (user : Str) : Str :=
  svc.signed p (accessPayload family (svc.accessExpires p now) user)

def issue (s : State) (family : UInt64) (user : Str) (now familyDeadline : Instant)
    (draw : Option (Block tokenBytes)) : State × Except TokenError IssuedTokens :=
  match generateToken p draw with
  | none => (s, .error .random)
  | some refreshToken =>
    let refreshExpires := min (now + svc.refreshTtl) familyDeadline
    ({ s with
        refresh := s.refresh.insert (hashToken p refreshToken)
          { family, user, expires := refreshExpires, familyDeadline } },
      .ok
        { accessToken := svc.mintAccess p now family user
          accessExpiresIn := asSecs svc.accessTtl
          refreshToken
          refreshExpiresIn := asSecs (refreshExpires - now) })

def login (s : State) (now : Instant) (user : Str) (familyDraw : Option UInt64)
    (draw : Option (Block tokenBytes)) : State × Except TokenError IssuedTokens :=
  match randomFamily familyDraw with
  | .error e => (s, .error e)
  | .ok family =>
    match s.makeRoom now with
    | (s, .error e) => (s, .error e)
    | (s, .ok ()) => svc.issue p s family user now (now + maxFamilyLifetime) draw

def refresh (s : State) (now : Instant) (refreshToken : Str) (userExists : Str → Bool)
    (draw : Option (Block tokenBytes)) : State × Except TokenError (Str × IssuedTokens) :=
  let hash := hashToken p refreshToken
  let s := s.sweep now
  match s.makeRoom now with
  | (s, .error e) => (s, .error e)
  | (s, .ok ()) =>
    match s.refresh.lookup hash with
    | none =>
      match s.spent.lookup hash with
      | some spent =>
        if now < spent.expires then
          (s.revokeFamily spent.family now svc.accessTtl, .error (.reused spent.user))
        else (s, .error .invalid)
      | none => (s, .error .invalid)
    | some record =>
      let s := { s with refresh := s.refresh.erase hash }
      if now ≥ record.expires || now ≥ record.familyDeadline || !userExists record.user then
        (s, .error .invalid)
      else
        let s := { s with
          spent := s.spent.insert hash
            { family := record.family, user := record.user, expires := record.expires } }
        match svc.issue p s record.family record.user now record.familyDeadline draw with
        | (s, .error e) => (s, .error e)
        | (s, .ok issued) => (s, .ok (record.user, issued))

def revoke (s : State) (now : Instant) (refreshToken : Str) : State × Bool :=
  match s.familyOf (hashToken p refreshToken) with
  | some family => (s.revokeFamily family now svc.accessTtl, true)
  | none => (s, false)

def verifyAccess (s : State) (now : Instant) (token : Str) : Option Str := do
  let (payload, tag) ← Text.splitOnce '.' token
  let payload ← p.urlSafe.decode payload
  let tag ← p.urlSafe.decode tag
  if !p.hmacVerify svc.key payload tag then none
  let version :: rest := payload | none
  if version ≠ accessTokenVersion || rest.length < 16 then none
  let family := Text.fromBeBytes (rest.take 8)
  let expires := Text.fromBeBytes ((rest.drop 8).take 8)
  let user ← Text.fromUtf8 (rest.drop 16)
  if p.unixNow now ≥ expires.toNat then none
  if family ∈ s.revoked then none
  some user

end TokenService

end Ws2tcpRouter.Token
