import Ws2tcpRouter.Args
import Ws2tcpRouter.ClientAddr

/-!
# Options

`args.rs`: the command line, the configuration file, and the arguments they
are merged into. An option of the command line goes before that of the file,
and where a certificate comes from is one option. Which options exclude each
other is for the command line's parser to see to, so a command line that was
parsed carries it.
-/

namespace Ws2tcpRouter

/-- The loopback addresses. -/
def IpRange.loopback : List IpRange :=
  ["127.0.0.0/8", "::1/128"].filterMap fun range => (IpRange.fromStr range.toList).toOption

/-- Both built-in ranges are valid, so that none is dropped. -/
theorem IpRange.loopback_parse :
    (["127.0.0.0/8", "::1/128"].map fun range => (IpRange.fromStr range.toList).toOption) =
      IpRange.loopback.map some := by decide +kernel

/-- What is merged, besides what is checked. -/
structure Options extends Args where
  bind : Str
  ipv6Only : Bool
  basicAuth : List Str
  basicAuthFile : Option Str
  anonymousTargetFile : Option Str
  trustedProxy : List IpRange
  logFile : Option Str
  logLevel : Option Str

structure CliArgs where
  config : Option Str
  bind : Option Str
  serviceMode : Option ServiceMode
  port : Option Nat
  tlsPort : Option Nat
  ipv6Only : Bool
  noIpv6Only : Bool
  bufferSize : Option Nat
  udpIdleTimeout : Option UInt64
  basicAuth : List Str
  basicAuthFile : Option Str
  anonymousTarget : List Str
  anonymousTargetFile : Option Str
  trustedProxy : List IpRange
  tokenSecretFile : Option Str
  accessTokenTtl : Option UInt64
  refreshTokenTtl : Option UInt64
  tlsCert : Option Str
  tlsKey : Option Str
  autoSelfSignedCert : Bool
  noAutoSelfSignedCert : Bool
  logFile : Option Str
  logLevel : Option Str
  /-- `--ipv6-only` conflicts with `--no-ipv6-only`. -/
  ipv6Conflict : ¬(ipv6Only = true ∧ noIpv6Only = true)
  /-- `--auto-self-signed-cert` conflicts with `--no-auto-self-signed-cert`,
  `--tls-cert` and `--tls-key`. -/
  certConflict : autoSelfSignedCert = true →
    noAutoSelfSignedCert = false ∧ tlsCert = none ∧ tlsKey = none

/-- A command line without options. -/
def CliArgs.empty : CliArgs where
  config := none
  bind := none
  serviceMode := none
  port := none
  tlsPort := none
  ipv6Only := false
  noIpv6Only := false
  bufferSize := none
  udpIdleTimeout := none
  basicAuth := []
  basicAuthFile := none
  anonymousTarget := []
  anonymousTargetFile := none
  trustedProxy := []
  tokenSecretFile := none
  accessTokenTtl := none
  refreshTokenTtl := none
  tlsCert := none
  tlsKey := none
  autoSelfSignedCert := false
  noAutoSelfSignedCert := false
  logFile := none
  logLevel := none
  ipv6Conflict := by decide
  certConflict := by decide

/-- `Default` -/
structure ConfigArgs where
  bind : Option Str := none
  serviceMode : Option ServiceMode := none
  port : Option Nat := none
  tlsPort : Option Nat := none
  ipv6Only : Option Bool := none
  bufferSize : Option Nat := none
  udpIdleTimeout : Option UInt64 := none
  basicAuth : Option (List Str) := none
  basicAuthFile : Option Str := none
  anonymousTarget : Option (List Str) := none
  anonymousTargetFile : Option Str := none
  trustedProxy : Option (List IpRange) := none
  tokenSecretFile : Option Str := none
  accessTokenTtl : Option UInt64 := none
  refreshTokenTtl : Option UInt64 := none
  tlsCert : Option Str := none
  tlsKey : Option Str := none
  autoSelfSignedCert : Option Bool := none
  logFile : Option Str := none
  logLevel : Option Str := none

inductive OptionsError
  /-- `failed to read config file` -/
  | configUnread (path : Str)
  /-- `failed to parse config file` -/
  | configUnparsed (path : Str)
  | args (e : ArgsError)
  deriving DecidableEq, Repr

/-- The content of the file, and the parser of its format, are handed in. -/
def ConfigArgs.read (readToString : Str → Option Str) (fromToml : Str → Option ConfigArgs)
    (path : Str) : Except OptionsError ConfigArgs :=
  match readToString path with
  | none => .error (.configUnread path)
  | some contents =>
    match fromToml contents with
    | none => .error (.configUnparsed path)
    | some config => .ok config

namespace CliArgs

variable (cli : CliArgs) (config : ConfigArgs)

/-- The certificate, its key, and whether they are generated instead. -/
def mergeTls : Option Str × Option Str × Bool :=
  let cliFileTls := cli.tlsCert.isSome || cli.tlsKey.isSome
  if cli.autoSelfSignedCert then (none, none, true)
  else if cli.noAutoSelfSignedCert || cliFileTls then
    (cli.tlsCert.or config.tlsCert, cli.tlsKey.or config.tlsKey, false)
  else (config.tlsCert, config.tlsKey, config.autoSelfSignedCert.getD false)

/-- The arguments of `from_cli`, before they are checked. -/
def merge : Options where
  bind := (cli.bind.or config.bind).getD "::".toList
  serviceMode := (cli.serviceMode.or config.serviceMode).getD .wsOnly
  port := (cli.port.or config.port).getD 80
  tlsPort := (cli.tlsPort.or config.tlsPort).getD 443
  ipv6Only := if cli.ipv6Only then true else if cli.noIpv6Only then false
    else config.ipv6Only.getD false
  bufferSize := (cli.bufferSize.or config.bufferSize).getD (16 * 1024)
  udpIdleTimeout := (cli.udpIdleTimeout.or config.udpIdleTimeout).getD 60
  basicAuth := if cli.basicAuth.isEmpty then config.basicAuth.getD [] else cli.basicAuth
  basicAuthFile := cli.basicAuthFile.or config.basicAuthFile
  anonymousTarget := if cli.anonymousTarget.isEmpty then config.anonymousTarget.getD []
    else cli.anonymousTarget
  anonymousTargetFile := cli.anonymousTargetFile.or config.anonymousTargetFile
  trustedProxy := if cli.trustedProxy.isEmpty then config.trustedProxy.getD IpRange.loopback
    else cli.trustedProxy
  tokenSecretFile := cli.tokenSecretFile.or config.tokenSecretFile
  accessTokenTtl := (cli.accessTokenTtl.or config.accessTokenTtl).getD (10 * 60)
  refreshTokenTtl := (cli.refreshTokenTtl.or config.refreshTokenTtl).getD (7 * 24 * 60 * 60)
  tlsCert := (cli.mergeTls config).1
  tlsKey := (cli.mergeTls config).2.1
  autoSelfSignedCert := (cli.mergeTls config).2.2
  logFile := cli.logFile.or config.logFile
  logLevel := cli.logLevel.or config.logLevel

/-- With neither a command line nor a file the arguments are the defaults. -/
example : (empty.merge {}).toArgs = Args.defaults := rfl

end CliArgs

/-- `Args::from_cli` -/
def fromCli (readToString : Str → Option Str) (fromToml : Str → Option ConfigArgs)
    (cli : CliArgs) : Except OptionsError Options := do
  let config ← (match cli.config with
    | some path => ConfigArgs.read readToString fromToml path
    | none => .ok {})
  let args := cli.merge config
  (args.toArgs.validate).mapError .args
  .ok args

variable {readToString : Str → Option Str} {fromToml : Str → Option ConfigArgs} {cli : CliArgs}

theorem fromCli_ok (h : fromCli readToString fromToml cli = .ok options) :
    options.toArgs.Accepted ∧ ∃ config, options = cli.merge config := by
  obtain ⟨config, -, h⟩ := Except.bind_eq_ok.mp h
  obtain ⟨⟨⟩, hvalid, h⟩ := Except.bind_eq_ok.mp h
  cases h
  exact ⟨Args.validate_ok.mp (Except.mapError_eq_ok.mp hvalid), config, rfl⟩

/-- No file changes what the command line says of the certificate: one that is
generated stays so, and one it names is kept. -/
theorem merge_tls (cli : CliArgs) (config : ConfigArgs) :
    (cli.autoSelfSignedCert = true → (cli.merge config).autoSelfSignedCert = true) ∧
    (∀ path, cli.tlsCert = some path →
      (cli.merge config).autoSelfSignedCert = false ∧ (cli.merge config).tlsCert = some path) ∧
    ∀ path, cli.tlsKey = some path →
      (cli.merge config).autoSelfSignedCert = false ∧ (cli.merge config).tlsKey = some path := by
  refine ⟨?_, ?_, ?_⟩
  · intro hauto
    simp [CliArgs.merge, CliArgs.mergeTls, hauto]
  · intro path hcert
    have hauto : cli.autoSelfSignedCert = false := by
      rw [← Bool.not_eq_true]
      intro hauto
      simp [(cli.certConflict hauto).2.1] at hcert
    simp [CliArgs.merge, CliArgs.mergeTls, hauto, hcert]
  · intro path hkey
    have hauto : cli.autoSelfSignedCert = false := by
      rw [← Bool.not_eq_true]
      intro hauto
      simp [(cli.certConflict hauto).2.2] at hkey
    simp [CliArgs.merge, CliArgs.mergeTls, hauto, hkey]

end Ws2tcpRouter
