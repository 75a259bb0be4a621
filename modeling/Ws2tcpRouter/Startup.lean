import Ws2tcpRouter.Crates
import Ws2tcpRouter.Options
import Ws2tcpRouter.Server

/-!
# Starting

`main` of `main.rs`, with `tls.rs` and `listener.rs`: from the command line to
the listeners that are served. What lies outside the source is the host's.
-/

namespace Ws2tcpRouter

open Token (TokenService tokenBytes)

-- ---------------------------------------------------------------------------
-- What the router is started on
-- ---------------------------------------------------------------------------

/-- The files, the random numbers, and what the libraries make of them. -/
structure Host (Certificate PrivateKey ServerConfig : Type) where
  platform : Platform
  read : Str → Option Bytes
  fromToml : Str → Option ConfigArgs
  /-- By the filter and the file of the log. -/
  initLogging : Option Str → Option Str → Bool
  draw : Option (Block tokenBytes)
  generateSelfSignedCert : Option (List Certificate × PrivateKey)
  certs : Bytes → Option (List Certificate)
  privateKey : Bytes → Option (Option PrivateKey)
  withSingleCert : List Certificate → PrivateKey → Option ServerConfig
  toSocketAddrs : Str → Nat → Option (List SocketAddr)
  bind : SocketAddr → Bool → Bool

inductive TlsError
  | selfSigned
  /-- `failed to open` or `failed to read TLS certificate` -/
  | certificate (path : Str)
  /-- `does not contain any certificates` -/
  | noCertificates (path : Str)
  /-- `failed to open` or `failed to read TLS private key` -/
  | privateKey (path : Str)
  /-- `does not contain a private key` -/
  | noPrivateKey (path : Str)
  /-- `failed to build TLS server config` -/
  | serverConfig
  deriving DecidableEq, Repr

inductive ListenError
  /-- `failed to resolve bind address` -/
  | resolve (host : Str) (port : Nat)
  /-- `bind address did not resolve` -/
  | unresolved (host : Str) (port : Nat)
  /-- `--ipv6-only requires an IPv6 bind address` -/
  | ipv6Only
  /-- `failed to bind` -/
  | bind (addr : SocketAddr)
  deriving DecidableEq, Repr

inductive StartError
  | options (e : OptionsError)
  | logging
  | auth (e : AuthConfigError)
  | tls (e : TlsError)
  | listen (e : ListenError)
  deriving DecidableEq, Repr

/-- How `main` ends. -/
inductive Stop
  | failed (e : StartError)
  /-- `validated wss service mode requires tls config` -/
  | panicked
  deriving DecidableEq, Repr

structure Bound (ServerConfig : Type) where
  addr : SocketAddr
  tls : Option ServerConfig
  deriving DecidableEq, Repr

def Bound.listener (l : Bound ServerConfig) : Listener := ⟨l.tls.isSome, true⟩

deriving instance DecidableEq for TrustedProxies

/-- What is served, and with what. -/
structure Started (ServerConfig : Type) where
  auth : Option AuthConfig
  bufferSize : Nat
  udpIdleTimeout : Duration
  trustedProxies : TrustedProxies
  listeners : List (Bound ServerConfig)
  deriving DecidableEq

/-- Whether any credentials are asked for. -/
def Options.authEnabled (options : Options) : Bool :=
  !options.basicAuth.isEmpty || options.basicAuthFile.isSome

namespace Host

variable {Certificate PrivateKey ServerConfig : Type}
  (host : Host Certificate PrivateKey ServerConfig)

/-- `fs::read_to_string` -/
def readToString (path : Str) : Option Str := (host.read path).bind Text.fromUtf8

/-- What `build_auth_config` reads of the arguments. -/
def authArgs (args : Options) : AuthArgs where
  basicAuth := args.basicAuth
  basicAuthFile := args.basicAuthFile.map host.readToString
  anonymousTarget := args.anonymousTarget
  anonymousTargetFile := args.anonymousTargetFile.map host.readToString
  tokens := (TokenService.fromArgs args.toArgs host.read host.draw).toOption

def loadCerts (path : Str) : Except TlsError (List Certificate) :=
  match (host.read path).bind host.certs with
  | none => .error (.certificate path)
  | some certs => if certs.isEmpty then .error (.noCertificates path) else .ok certs

def loadPrivateKey (path : Str) : Except TlsError PrivateKey :=
  match (host.read path).bind host.privateKey with
  | none => .error (.privateKey path)
  | some none => .error (.noPrivateKey path)
  | some (some key) => .ok key

def buildServerConfig (certs : List Certificate) (key : PrivateKey) :
    Except TlsError ServerConfig :=
  match host.withSingleCert certs key with
  | none => .error .serverConfig
  | some config => .ok config

def buildTlsConfig (args : Args) : Except TlsError (Option ServerConfig) :=
  if args.autoSelfSignedCert then
    match host.generateSelfSignedCert with
    | none => .error .selfSigned
    | some (certs, key) => (host.buildServerConfig certs key).map some
  else
    match args.tlsCert, args.tlsKey with
    | some certPath, some keyPath => do
      let certs ← host.loadCerts certPath
      let key ← host.loadPrivateKey keyPath
      (host.buildServerConfig certs key).map some
    | _, _ => .ok none

def resolveBindAddr (name : Str) (port : Nat) : Except ListenError SocketAddr :=
  match host.toSocketAddrs name port with
  | none => .error (.resolve name port)
  | some [] => .error (.unresolved name port)
  | some (addr :: _) => .ok addr

def bindListener (bindAddr : SocketAddr) (ipv6Only : Bool) : Except ListenError Unit :=
  match bindAddr.ip with
  | .v4 _ =>
    if ipv6Only then .error .ipv6Only
    else if host.bind bindAddr ipv6Only then .ok () else .error (.bind bindAddr)
  | .v6 _ => if host.bind bindAddr ipv6Only then .ok () else .error (.bind bindAddr)

def listen (args : Options) (port : Nat) : Except Stop SocketAddr := do
  let bindAddr ← (host.resolveBindAddr args.bind port).mapError (.failed ∘ .listen)
  (host.bindListener bindAddr args.ipv6Only).mapError (.failed ∘ .listen)
  .ok bindAddr

def serveWs (args : Options) : Except Stop (List (Bound ServerConfig)) :=
  if args.serviceMode.includesWs then do
    let bindAddr ← host.listen args args.port
    .ok [⟨bindAddr, none⟩]
  else .ok []

def serveWss (args : Options) (tlsConfig : Option ServerConfig) :
    Except Stop (List (Bound ServerConfig)) :=
  if args.serviceMode.includesWss then do
    let bindAddr ← host.listen args args.tlsPort
    match tlsConfig with
    | none => .error .panicked
    | some config => .ok [⟨bindAddr, some config⟩]
  else .ok []

def main (cli : CliArgs) : Except Stop (Started ServerConfig) := do
  let args ← (fromCli host.readToString host.fromToml cli).mapError (.failed ∘ .options)
  (if host.initLogging args.logLevel args.logFile then .ok () else .error (.failed .logging))
  let auth ← (buildAuthConfig host.platform (host.authArgs args)).mapError (.failed ∘ .auth)
  let tlsConfig ← (if args.serviceMode.includesWss then
      (host.buildTlsConfig args.toArgs).mapError (.failed ∘ .tls)
    else .ok none)
  let ws ← host.serveWs args
  let wss ← host.serveWss args tlsConfig
  .ok
    { auth
      bufferSize := args.bufferSize
      udpIdleTimeout := fromSecs args.udpIdleTimeout.toNat
      trustedProxies := ⟨args.trustedProxy⟩
      listeners := ws ++ wss }

-- ---------------------------------------------------------------------------
-- What is served
-- ---------------------------------------------------------------------------

/-- The certificates and the key the arguments stand for. -/
inductive TlsSource (args : Args) : List Certificate → PrivateKey → Prop
  | generated (hauto : args.autoSelfSignedCert = true)
      (hpair : host.generateSelfSignedCert = some (chain, key)) : TlsSource args chain key
  | files (hauto : args.autoSelfSignedCert = false) (hcert : args.tlsCert = some certPath)
      (hkey : args.tlsKey = some keyPath) (hcerts : host.loadCerts certPath = .ok chain)
      (hload : host.loadPrivateKey keyPath = .ok key) : TlsSource args chain key

variable {host} {args : Args}

theorem buildServerConfig_ok (h : host.buildServerConfig chain key = .ok config) :
    host.withSingleCert chain key = some config := by
  unfold buildServerConfig at h
  split at h
  next => cases h
  next config' hconfig =>
    cases h
    exact hconfig

theorem buildTlsConfig_some (h : host.buildTlsConfig args = .ok (some config)) :
    ∃ chain key, host.TlsSource args chain key ∧ host.withSingleCert chain key = some config := by
  unfold buildTlsConfig at h
  split at h
  next hauto =>
    split at h
    next => cases h
    next chain key hpair =>
      obtain ⟨config', hbuilt, hconfig⟩ := Except.map_eq_ok.mp h
      cases hconfig
      exact ⟨chain, key, .generated hauto hpair, buildServerConfig_ok hbuilt⟩
  next hauto =>
    rw [Bool.not_eq_true] at hauto
    split at h
    next certPath keyPath hcert hkey =>
      obtain ⟨chain, hcerts, h⟩ := Except.bind_eq_ok.mp h
      obtain ⟨key, hload, h⟩ := Except.bind_eq_ok.mp h
      obtain ⟨config', hbuilt, hconfig⟩ := Except.map_eq_ok.mp h
      cases hconfig
      exact ⟨chain, key, .files hauto hcert hkey hcerts hload, buildServerConfig_ok hbuilt⟩
    next => cases h

theorem buildTlsConfig_none (h : host.buildTlsConfig args = .ok none) :
    args.hasTlsConfig = false := by
  unfold buildTlsConfig at h
  split at h
  next hauto =>
    split at h
    next => cases h
    next chain key hpair =>
      obtain ⟨config, -, hconfig⟩ := Except.map_eq_ok.mp h
      cases hconfig
  next hauto =>
    split at h
    next certPath keyPath hcert hkey =>
      obtain ⟨chain, -, h⟩ := Except.bind_eq_ok.mp h
      obtain ⟨key, -, h⟩ := Except.bind_eq_ok.mp h
      obtain ⟨config, -, hconfig⟩ := Except.map_eq_ok.mp h
      cases hconfig
    next hmissing =>
      rw [Bool.not_eq_true] at hauto
      simp only [Args.hasTlsConfig, hauto, Bool.false_or, Bool.and_eq_false_iff]
      cases hcert : args.tlsCert with
      | none => exact .inl rfl
      | some certPath =>
        cases hkey : args.tlsKey with
        | none => exact .inr rfl
        | some keyPath => exact (hmissing _ _ hcert hkey).elim

theorem mapError_panicked (x : Except ε α) (f : ε → StartError) :
    x.mapError (Stop.failed ∘ f) ≠ .error .panicked := by
  intro h
  obtain ⟨e, -, he⟩ := Except.mapError_eq_error.mp h
  cases he

theorem listen_panicked (options : Options) (port : Nat) :
    host.listen options port ≠ .error .panicked := by
  intro h
  obtain h | ⟨addr, -, h⟩ := Except.bind_eq_error.mp h
  · exact mapError_panicked _ _ h
  · obtain h | ⟨⟨⟩, -, h⟩ := Except.bind_eq_error.mp h
    · exact mapError_panicked _ _ h
    · cases h

/-- The arguments, the credentials, the certificate and the listeners `main`
went through to serve. -/
structure Serves (host : Host Certificate PrivateKey ServerConfig) (cli : CliArgs)
    (options : Options) (started : Started ServerConfig) : Prop where
  merged : fromCli host.readToString host.fromToml cli = .ok options
  auth : buildAuthConfig host.platform (host.authArgs options) = .ok started.auth
  bufferSize : started.bufferSize = options.bufferSize
  listeners : started.listeners.map Bound.listener = options.serviceMode.listeners
  certificate : ∀ l ∈ started.listeners, ∀ config, l.tls = some config →
    host.buildTlsConfig options.toArgs = .ok (some config)

theorem serveWs_ok {options : Options} (h : host.serveWs options = .ok ws) :
    ws.map Bound.listener = (if options.serviceMode.includesWs then [⟨false, true⟩] else []) ∧
      ∀ l ∈ ws, l.tls = none := by
  unfold serveWs at h
  split at h
  next hmode =>
    obtain ⟨addr, -, h⟩ := Except.bind_eq_ok.mp h
    cases h
    simp [Bound.listener, hmode]
  next hmode =>
    cases h
    simp [hmode]

theorem serveWss_ok {options : Options} (h : host.serveWss options tls = .ok wss) :
    wss.map Bound.listener = (if options.serviceMode.includesWss then [⟨true, true⟩] else []) ∧
      ∀ l ∈ wss, l.tls = tls ∧ options.serviceMode.includesWss = true := by
  unfold serveWss at h
  split at h
  next hmode =>
    obtain ⟨addr, -, h⟩ := Except.bind_eq_ok.mp h
    split at h
    next => cases h
    next config =>
      cases h
      simp [Bound.listener, hmode]
  next hmode =>
    cases h
    simp [hmode]

theorem serveWss_panicked {options : Options} (h : host.serveWss options tls = .error .panicked) :
    options.serviceMode.includesWss = true ∧ tls = none := by
  unfold serveWss at h
  split at h
  next hmode =>
    obtain h | ⟨addr, -, h⟩ := Except.bind_eq_error.mp h
    · exact absurd h (listen_panicked options options.tlsPort)
    · split at h
      next => exact ⟨hmode, rfl⟩
      next => cases h
  next => cases h

theorem main_ok (h : host.main cli = .ok started) : ∃ options, host.Serves cli options started := by
  obtain ⟨options, hmerged, h⟩ := Except.bind_eq_ok.mp h
  obtain ⟨⟨⟩, -, h⟩ := Except.bind_eq_ok.mp h
  obtain ⟨auth, hauth, h⟩ := Except.bind_eq_ok.mp h
  obtain ⟨tls, htls, h⟩ := Except.bind_eq_ok.mp h
  obtain ⟨ws, hws, h⟩ := Except.bind_eq_ok.mp h
  obtain ⟨wss, hwss, h⟩ := Except.bind_eq_ok.mp h
  cases h
  obtain ⟨hplain, hnone⟩ := serveWs_ok hws
  obtain ⟨hsecure, hsame⟩ := serveWss_ok hwss
  refine ⟨options, Except.mapError_eq_ok.mp hmerged, Except.mapError_eq_ok.mp hauth, rfl, ?_, ?_⟩
  · rw [List.map_append, hplain, hsecure]
    rfl
  · intro l hl config hconfig
    obtain hl | hl := List.mem_append.mp hl
    · simp [hnone l hl] at hconfig
    · obtain ⟨hl, hmode⟩ := hsame l hl
      rw [if_pos hmode] at htls
      rw [← hconfig, hl]
      exact Except.mapError_eq_ok.mp htls

/-- The checks on the arguments leave `main` nothing to panic about. -/
theorem main_panicked (host : Host Certificate PrivateKey ServerConfig) (cli : CliArgs) :
    host.main cli ≠ .error .panicked := by
  intro h
  obtain h | ⟨options, hmerged, h⟩ := Except.bind_eq_error.mp h
  · exact mapError_panicked _ _ h
  obtain h | ⟨⟨⟩, -, h⟩ := Except.bind_eq_error.mp h
  · split at h <;> cases h
  obtain h | ⟨auth, -, h⟩ := Except.bind_eq_error.mp h
  · exact mapError_panicked _ _ h
  obtain h | ⟨tls, htls, h⟩ := Except.bind_eq_error.mp h
  · split at h
    next => exact mapError_panicked _ _ h
    next => cases h
  obtain h | ⟨ws, -, h⟩ := Except.bind_eq_error.mp h
  · unfold serveWs at h
    split at h
    next =>
      obtain h | ⟨addr, -, h⟩ := Except.bind_eq_error.mp h
      · exact listen_panicked _ _ h
      · cases h
    next => cases h
  obtain h | ⟨wss, -, h⟩ := Except.bind_eq_error.mp h
  · obtain ⟨hmode, rfl⟩ := serveWss_panicked h
    rw [if_pos hmode] at htls
    obtain ⟨haccepted, -⟩ := fromCli_ok (Except.mapError_eq_ok.mp hmerged)
    have hmissing := buildTlsConfig_none (Except.mapError_eq_ok.mp htls)
    simp [haccepted.tlsMissing hmode] at hmissing
  · cases h

/-- `main` never panics, and where it serves it serves the listeners of its
mode, with the certificate the command line asks for: what it names, or one
that is generated, whatever a file says. -/
theorem main_serves (host : Host Certificate PrivateKey ServerConfig) (cli : CliArgs) :
    host.main cli ≠ .error .panicked ∧
    ∀ started, host.main cli = .ok started → ∃ options, host.Serves cli options started ∧
      ∀ l ∈ started.listeners, ∀ config, l.tls = some config →
        ∃ chain key, host.withSingleCert chain key = some config ∧
          host.TlsSource options.toArgs chain key ∧
          (cli.autoSelfSignedCert = true → host.generateSelfSignedCert = some (chain, key)) ∧
          (∀ path, cli.tlsCert = some path → host.loadCerts path = .ok chain) ∧
          ∀ path, cli.tlsKey = some path → host.loadPrivateKey path = .ok key := by
  refine ⟨main_panicked host cli, ?_⟩
  intro started h
  obtain ⟨options, hserves⟩ := main_ok h
  refine ⟨options, hserves, ?_⟩
  intro l hl config hconfig
  obtain ⟨chain, key, hsource, hbuilt⟩ :=
    buildTlsConfig_some (hserves.certificate l hl config hconfig)
  obtain ⟨-, file, rfl⟩ := fromCli_ok hserves.merged
  obtain ⟨hauto, hcert, hkey⟩ := merge_tls cli file
  refine ⟨chain, key, hbuilt, hsource, ?_, ?_, ?_⟩
  · intro hcli
    cases hsource with
    | generated _ hpair => exact hpair
    | files hnot => cases (hauto hcli).symm.trans hnot
  · intro path hcli
    obtain ⟨hnot, hpath⟩ := hcert path hcli
    cases hsource with
    | generated hauto => cases hauto.symm.trans hnot
    | files _ hfile _ hcerts =>
      cases hfile.symm.trans hpath
      exact hcerts
  · intro path hcli
    obtain ⟨hnot, hpath⟩ := hkey path hcli
    cases hsource with
    | generated hauto => cases hauto.symm.trans hnot
    | files _ _ hfile _ hload =>
      cases hfile.symm.trans hpath
      exact hload

end Host

/-- A host with these files, where a file counts as the certificate or key it
is to hold, and every configuration file asks for a certificate of its own. -/
def hostWith (files : List (Str × Bytes)) : Host Bytes Bytes (List Bytes × Bytes) where
  platform := .crates 0
  read path := files.lookup path
  fromToml _ := some { autoSelfSignedCert := some true }
  initLogging _ _ := true
  draw := some ⟨List.replicate 32 0, rfl⟩
  generateSelfSignedCert := some ([[0]], [0])
  certs file := some [file]
  privateKey file := some (some file)
  withSingleCert chain key := some (chain, key)
  toSocketAddrs _ port := some [⟨.v6 0, port⟩]
  bind _ _ := true

def namedCert : CliArgs where
  __ := CliArgs.empty
  config := some "router.toml".toList
  serviceMode := some .wssOnly
  tlsCert := some "cert.pem".toList
  tlsKey := some "key.pem".toList
  certConflict := by decide

def namedFiles : List (Str × Bytes) :=
  [("router.toml".toList, []), ("cert.pem".toList, [1]), ("key.pem".toList, [2])]

/-- The file asks for a certificate that is generated, the command line names one. -/
theorem main_serves_named :
    ∃ chain key, (hostWith namedFiles).withSingleCert chain key = some ([[1]], [2]) ∧
      (hostWith namedFiles).loadCerts "cert.pem".toList = .ok chain ∧
      (hostWith namedFiles).loadPrivateKey "key.pem".toList = .ok key := by
  have hmain : (hostWith namedFiles).main namedCert = .ok ⟨none, 16 * 1024, fromSecs 60,
      ⟨IpRange.loopback⟩, [⟨⟨.v6 0, 443⟩, some ([[1]], [2])⟩]⟩ := by decide +kernel
  obtain ⟨-, hserves⟩ := Host.main_serves (hostWith namedFiles) namedCert
  obtain ⟨options, -, hcert⟩ := hserves _ hmain
  obtain ⟨chain, key, hconfig, -, -, hchain, hkey⟩ := hcert _ List.mem_cons_self _ rfl
  exact ⟨chain, key, hconfig, hchain _ rfl, hkey _ rfl⟩

end Ws2tcpRouter
