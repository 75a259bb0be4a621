import Ws2tcpRouter.Auth

/-!
# Arguments

`args.rs`: the checks on the merged arguments, and the token service that is
built from them. Fields that neither reads are left out, and the texts of the
errors only ever reach the terminal, so an error is its kind.
-/

namespace Ws2tcpRouter

inductive ServiceMode
  | wsOnly
  | wssOnly
  | both
  deriving DecidableEq, Repr

def ServiceMode.includesWss : ServiceMode → Bool
  | .wsOnly => false
  | .wssOnly => true
  | .both => true

structure Args where
  serviceMode : ServiceMode
  port : Nat
  tlsPort : Nat
  bufferSize : Nat
  udpIdleTimeout : UInt64
  anonymousTarget : List Str
  tokenSecretFile : Option Str
  accessTokenTtl : UInt64
  refreshTokenTtl : UInt64
  tlsCert : Option Str
  tlsKey : Option Str
  autoSelfSignedCert : Bool

/-- What an empty command line gives. -/
def Args.defaults : Args where
  serviceMode := .wsOnly
  port := 80
  tlsPort := 443
  bufferSize := 16 * 1024
  udpIdleTimeout := 60
  anonymousTarget := []
  tokenSecretFile := none
  accessTokenTtl := 10 * 60
  refreshTokenTtl := 7 * 24 * 60 * 60
  tlsCert := none
  tlsKey := none
  autoSelfSignedCert := false

inductive ArgsError
  /-- `--buffer-size must be greater than 0` -/
  | bufferSize
  /-- `--udp-idle-timeout must be greater than 0` -/
  | udpIdleTimeout
  /-- `invalid anonymous target`, and why -/
  | anonymousTarget (target : Str) (e : TargetError)
  /-- `--access-token-ttl must be greater than 0` -/
  | accessTokenTtl
  /-- `--refresh-token-ttl must be greater than 0` -/
  | refreshTokenTtl
  /-- `--tls-cert and --tls-key must be configured together` -/
  | tlsPair
  /-- `--auto-self-signed-cert cannot be used with --tls-cert or --tls-key` -/
  | tlsConflict
  /-- `wss service mode requires --tls-cert and --tls-key, or --auto-self-signed-cert` -/
  | tlsMissing
  /-- `--port and --tls-port must be different when --service-mode both is used` -/
  | samePorts
  deriving DecidableEq, Repr

/-- `if condition { bail!(e) }` -/
def bailIf (condition : Prop) [Decidable condition] (e : ArgsError) : Except ArgsError Unit :=
  if condition then .error e else .ok ()

theorem bailIf_ok {condition : Prop} [Decidable condition] :
    bailIf condition e = .ok r ↔ ¬condition := by
  unfold bailIf
  split <;> simp_all

namespace Args

variable (args : Args)

def hasTlsConfig : Bool :=
  args.autoSelfSignedCert || (args.tlsCert.isSome && args.tlsKey.isSome)

def validate : Except ArgsError Unit := do
  bailIf (args.bufferSize = 0) .bufferSize
  bailIf (args.udpIdleTimeout = 0) .udpIdleTimeout
  let _ ← args.anonymousTarget.mapM fun target =>
    (parseTargetAddr target).mapError (.anonymousTarget target)
  bailIf (args.accessTokenTtl = 0) .accessTokenTtl
  bailIf (args.refreshTokenTtl = 0) .refreshTokenTtl
  bailIf (args.tlsCert.isSome ≠ args.tlsKey.isSome) .tlsPair
  bailIf (args.autoSelfSignedCert ∧ args.tlsCert.isSome) .tlsConflict
  bailIf (args.serviceMode.includesWss ∧ ¬args.hasTlsConfig) .tlsMissing
  bailIf (args.serviceMode = .both ∧ args.port = args.tlsPort) .samePorts

/-- What passes every check. -/
structure Accepted : Prop where
  bufferSize : args.bufferSize ≠ 0
  udpIdleTimeout : args.udpIdleTimeout ≠ 0
  anonymousTarget : ∀ target ∈ args.anonymousTarget, ∃ parsed, parseTargetAddr target = .ok parsed
  accessTokenTtl : args.accessTokenTtl ≠ 0
  refreshTokenTtl : args.refreshTokenTtl ≠ 0
  tlsPair : args.tlsCert.isSome = args.tlsKey.isSome
  tlsConflict : ¬(args.autoSelfSignedCert ∧ args.tlsCert.isSome)
  tlsMissing : args.serviceMode.includesWss → args.hasTlsConfig
  samePorts : ¬(args.serviceMode = .both ∧ args.port = args.tlsPort)

variable {args}

theorem validate_ok : args.validate = .ok () ↔ args.Accepted := by
  have htargets : (∃ parsed, (args.anonymousTarget.mapM fun target =>
      (parseTargetAddr target).mapError (ArgsError.anonymousTarget target)) = .ok parsed) ↔
      ∀ target ∈ args.anonymousTarget, ∃ parsed, parseTargetAddr target = .ok parsed := by
    simp only [Except.exists_mapM_eq_ok, Except.mapError_eq_ok]
  simp only [validate, Except.bind_eq_ok, bailIf_ok, exists_const, exists_and_right, htargets]
  constructor
  · rintro ⟨hbuffer, hidle, htarget, haccess, hrefresh, hpair, hconflict, hmissing, hports⟩
    exact ⟨hbuffer, hidle, htarget, haccess, hrefresh, not_not.mp hpair, hconflict,
      fun hwss => not_not.mp fun hnot => hmissing ⟨hwss, hnot⟩, hports⟩
  · intro h
    exact ⟨h.bufferSize, h.udpIdleTimeout, h.anonymousTarget, h.accessTokenTtl, h.refreshTokenTtl,
      not_not.mpr h.tlsPair, h.tlsConflict, fun ⟨hwss, hnot⟩ => hnot (h.tlsMissing hwss),
      h.samePorts⟩

/-- Of the lifetimes the checks ask no more than that neither is zero. -/
theorem validate_ttl (h : args.validate = .ok ()) (access refresh : UInt64) :
    { args with accessTokenTtl := access, refreshTokenTtl := refresh : Args }.validate = .ok () ↔
      access ≠ 0 ∧ refresh ≠ 0 := by
  have h := validate_ok.mp h
  rw [validate_ok]
  constructor
  · intro haccepted
    exact ⟨haccepted.accessTokenTtl, haccepted.refreshTokenTtl⟩
  · rintro ⟨haccess, hrefresh⟩
    exact { h with accessTokenTtl := haccess, refreshTokenTtl := hrefresh }

theorem validate_defaults : defaults.validate = .ok () := by decide +kernel

end Args

namespace Token

def minSecretBytes : Nat := 32

inductive SecretError
  /-- `failed to read token secret file` -/
  | unreadable
  /-- `token secret file must hold at least 32 bytes` -/
  | short (found : Nat)
  /-- `system random number generator failed` -/
  | random
  deriving DecidableEq, Repr

def isAsciiWhitespace (b : UInt8) : Bool := b = 32 || b = 9 || b = 10 || b = 12 || b = 13

def trimAscii (bytes : Bytes) : Bytes :=
  (bytes.dropWhile isAsciiWhitespace).rdropWhile isAsciiWhitespace

/-- The contents of the file are absent where it cannot be read. -/
def loadSecret (contents : Option Bytes) : Except SecretError Bytes :=
  match contents with
  | none => .error .unreadable
  | some contents =>
    let secret := trimAscii contents
    if secret.length < minSecretBytes then .error (.short secret.length) else .ok secret

/-- `from_args`, with what the files hold and what the generator draws. -/
def TokenService.fromArgs (args : Args) (read : Str → Option Bytes)
    (draw : Option (Block tokenBytes)) : Except SecretError TokenService := do
  let secret ← (match args.tokenSecretFile with
    | some path => loadSecret (read path)
    | none =>
      match draw with
      | some secret => .ok secret.val
      | none => .error .random)
  .ok (.new secret (fromSecs args.accessTokenTtl.toNat) (fromSecs args.refreshTokenTtl.toNat))

end Token

end Ws2tcpRouter
