import Ws2tcpRouter.Http
import Ws2tcpRouter.Lib.Except
import Ws2tcpRouter.Target
import Ws2tcpRouter.Token.Service

/-!
# Authorization

`auth.rs`: the configured credentials and anonymous targets, their files, and
the decision on a request. A file is its content, absent where it could not be
read; errors, which only a log shows, are their kinds. The token store is
handed in next to the configuration.
-/

namespace Ws2tcpRouter

open Token (TokenService)

structure AuthConfig where
  expectedAuthorizations : List Str
  fixedAuthorizations : List Str
  anonymousTargets : List Str
  fixedAnonymousTargets : List Str
  tokens : Option TokenService
  deriving DecidableEq

inductive CredentialError
  /-- basic auth credential must be formatted as USER:PASS -/
  | format
  /-- basic auth username must not be empty -/
  | username
  /-- basic auth password must not be empty -/
  | password
  deriving DecidableEq, Repr

inductive AuthFileError
  | unreadable
  | credential (line : Nat) (e : CredentialError)
  | target (line : Nat) (e : TargetError)
  /-- basic auth is enabled, but no credentials were configured -/
  | noCredentials
  deriving DecidableEq, Repr

def basicChallenge : Str := "Basic realm=\"ws2tcp-router\", charset=\"UTF-8\"".toList
def bearerChallenge : Str := "Bearer realm=\"ws2tcp-router\"".toList
def bearerInvalidChallenge : Str :=
  "Bearer realm=\"ws2tcp-router\", error=\"invalid_token\"".toList

def anonymousAuthUser : Str := "anonymous".toList

def authorization : Str := "authorization".toList

/-- The lines of a file that are neither blank nor comments, trimmed and
numbered from one. -/
def fileEntries (file : Str) : List (Nat × Str) :=
  ((Text.lines file).zipIdx 1).filterMap fun (line, number) =>
    let entry := Text.trim line
    if entry = [] || entry.head? = some '#' then none else some (number, entry)

def validateBasicAuthCredential (credential : Str) : Except CredentialError Unit :=
  match Text.splitOnce ':' credential with
  | none => .error .format
  | some (username, password) =>
    if username = [] then .error .username
    else if password = [] then .error .password
    else .ok ()

variable (p : Platform)

/-- The `Authorization` value of a credential. -/
def encodeCredential (credential : Str) : Str :=
  "Basic ".toList ++ p.standard.encode (Text.utf8 credential)

def encodeCredentials (credentials : List Str) : Except CredentialError (List Str) :=
  credentials.mapM fun credential => do
    validateBasicAuthCredential credential
    .ok (encodeCredential p credential)

def loadAuthFile (file : Option Str) : Except AuthFileError (List Str) := do
  let some file := file | .error .unreadable
  (fileEntries file).mapM fun (line, credential) => do
    (validateBasicAuthCredential credential).mapError (.credential line)
    .ok (encodeCredential p credential)

def loadAnonymousTargetFile (file : Option Str) : Except AuthFileError (List Str) := do
  let some file := file | .error .unreadable
  (fileEntries file).mapM fun (line, target) =>
    ((parseTargetAddr target).map Target.addr).mapError (.target line)

def normalizeAnonymousTargets (targets : List Str) : Except (Str × TargetError) (List Str) :=
  targets.mapM fun target => ((parseTargetAddr target).map Target.addr).mapError (target, ·)

/-- What the configuration is built from. A file is the content found where
its path was given. -/
structure AuthArgs where
  basicAuth : List Str
  basicAuthFile : Option (Option Str)
  anonymousTarget : List Str
  anonymousTargetFile : Option (Option Str)
  /-- `TokenService::from_args`, where it succeeds. -/
  tokens : Option TokenService

inductive AuthConfigError
  | credential (e : CredentialError)
  | target (target : Str) (e : TargetError)
  | file (e : AuthFileError)
  | noCredentials
  | tokens
  deriving DecidableEq, Repr

def fromFile (load : Option Str → Except AuthFileError (List Str)) (file : Option (Option Str)) :
    Except AuthConfigError (List Str) :=
  match file with
  | none => .ok []
  | some file => (load file).mapError .file

def buildAuthConfig (args : AuthArgs) : Except AuthConfigError (Option AuthConfig) :=
  let authEnabled := !args.basicAuth.isEmpty || args.basicAuthFile.isSome
  if !authEnabled then .ok none
  else do
    let fixedAuthorizations ← (encodeCredentials p args.basicAuth).mapError .credential
    let fileAuthorizations ← fromFile (loadAuthFile p) args.basicAuthFile
    let expectedAuthorizations := fixedAuthorizations ++ fileAuthorizations
    if expectedAuthorizations = [] then .error .noCredentials
    else
      let fixedAnonymousTargets ← (normalizeAnonymousTargets args.anonymousTarget).mapError
        fun (target, e) => .target target e
      let fileAnonymousTargets ← fromFile loadAnonymousTargetFile args.anonymousTargetFile
      match args.tokens with
      | none => .error .tokens
      | some tokens =>
        .ok <| some
          { expectedAuthorizations, fixedAuthorizations
            anonymousTargets := fixedAnonymousTargets ++ fileAnonymousTargets
            fixedAnonymousTargets, tokens := some tokens }

def basicAuthUsername (authorization : Str) : Option Str := do
  let encoded ← "Basic ".toList.isPrefixOf? authorization
  let decoded ← p.standard.decode encoded
  let credential ← Text.fromUtf8 decoded
  let (username, _) ← Text.splitOnce ':' credential
  if username = [] then none else some username

/-- The scheme is matched in either case. -/
def bearerToken (authorization : Str) : Option Str := do
  let (scheme, token) ← Text.splitOnce ' ' authorization
  if Text.eqIgnoreAsciiCase scheme "bearer".toList then
    let token := Text.trim token
    if token = [] then none else some token
  else none

def unauthorizedResponse (basic : Bool) (bearer : Option Str) : Response :=
  let challenges := (if basic then [basicChallenge] else []) ++ bearer.toList
  challenges.foldl (fun response challenge => response.append "www-authenticate".toList challenge)
    ⟨401, [], some "authentication required".toList⟩

namespace AuthConfig

variable (auth : AuthConfig)

def basicUser (authorization : Str) : Option Str :=
  let matched := auth.expectedAuthorizations.foldl
    (fun matched expected => matched || Text.utf8 authorization == Text.utf8 expected) false
  if matched then basicAuthUsername p authorization else none

def hasUser (user : Str) : Bool :=
  auth.expectedAuthorizations.any fun expected => basicAuthUsername p expected == some user

def verifyAccessToken (s : Token.State) (now : Instant) (token : Str) : Option Str := do
  let tokens ← auth.tokens
  (tokens.verifyAccess p s now token).filter fun user => auth.hasUser p user

def allowsAnonymousTarget (path : Str) : Bool :=
  match parseTarget path with
  | .error _ => false
  | .ok target => auth.anonymousTargets.any fun allowed => allowed == target.addr

/-- Whether the credentials changed, and the configuration afterwards. -/
def reloadAuthFile (file : Option Str) : AuthConfig × Except AuthFileError Bool :=
  match loadAuthFile p file with
  | .error e => (auth, .error e)
  | .ok fileAuthorizations =>
    let next := auth.fixedAuthorizations ++ fileAuthorizations
    if next = [] then (auth, .error .noCredentials)
    else if auth.expectedAuthorizations = next then (auth, .ok false)
    else ({ auth with expectedAuthorizations := next }, .ok true)

def reloadAnonymousTargetFile (file : Option Str) : AuthConfig × Except AuthFileError Bool :=
  match loadAnonymousTargetFile file with
  | .error e => (auth, .error e)
  | .ok fileTargets =>
    let next := auth.fixedAnonymousTargets ++ fileTargets
    if auth.anonymousTargets = next then (auth, .ok false)
    else ({ auth with anonymousTargets := next }, .ok true)

end AuthConfig

/-- A reload that goes through replaces the list, also where that is no change. -/
theorem reloadAuthFile_cases (auth : AuthConfig) (file : Option Str) :
    (∃ e, auth.reloadAuthFile p file = (auth, .error e)) ∨
      ∃ entries changed, loadAuthFile p file = .ok entries ∧
        auth.fixedAuthorizations ++ entries ≠ [] ∧ auth.reloadAuthFile p file =
          ({ auth with expectedAuthorizations := auth.fixedAuthorizations ++ entries },
            .ok changed) := by
  unfold AuthConfig.reloadAuthFile
  cases hload : loadAuthFile p file with
  | error e => exact .inl ⟨e, rfl⟩
  | ok entries =>
    dsimp only
    split
    next => exact .inl ⟨_, rfl⟩
    next hne =>
      split
      next heq => exact .inr ⟨entries, false, rfl, hne, by rw [← heq]⟩
      next => exact .inr ⟨entries, true, rfl, hne, rfl⟩

theorem reloadAnonymousTargetFile_cases (auth : AuthConfig) (file : Option Str) :
    (∃ e, auth.reloadAnonymousTargetFile file = (auth, .error e)) ∨
      ∃ targets changed, loadAnonymousTargetFile file = .ok targets ∧
        auth.reloadAnonymousTargetFile file =
          ({ auth with anonymousTargets := auth.fixedAnonymousTargets ++ targets },
            .ok changed) := by
  unfold AuthConfig.reloadAnonymousTargetFile
  cases hload : loadAnonymousTargetFile file with
  | error e => exact .inl ⟨e, rfl⟩
  | ok targets =>
    dsimp only
    split
    next heq => exact .inr ⟨targets, false, rfl, by rw [← heq]⟩
    next => exact .inr ⟨targets, true, rfl, rfl⟩

def authorizeRequest (auth : Option AuthConfig) (s : Token.State) (now : Instant)
    (request : Request) : Except Response Str :=
  match auth with
  | none => .ok anonymousAuthUser
  | some auth =>
    if auth.allowsAnonymousTarget request.path then .ok anonymousAuthUser
    else
      let (bearerPresented, authorizedUser) :=
        match request.getStr authorization with
        | none => (false, none)
        | some authorization =>
          match bearerToken authorization with
          | some token => (true, auth.verifyAccessToken p s now token)
          | none => (false, auth.basicUser p authorization)
      match authorizedUser with
      | some user => .ok user
      | none =>
        let bearer := auth.tokens.map fun _ =>
          if bearerPresented then bearerInvalidChallenge else bearerChallenge
        .error (unauthorizedResponse true bearer)

end Ws2tcpRouter
