import Ws2tcpRouter.Reload
import Ws2tcpRouter.Serving
import Ws2tcpRouter.Startup

/-!
# A router that was started

However a router runs that `main` started, it keeps to the options it was
started with: its listeners, its token service, and the credentials and targets
of its command line are there in every state. The credentials of any state are
those a restart would begin with, had the files the content accepted last.
-/

namespace Ws2tcpRouter

open Sessions (State Call)
open Timed (Run)
open Token (TokenService minSecretBytes)

variable {env : Setup} {auth : Option AuthConfig} {mode : ServiceMode}

-- ---------------------------------------------------------------------------
-- What a run leaves of the shared state
-- ---------------------------------------------------------------------------

/-- The reload a call stands for. -/
def attempt? : Call Occurrence ι → Option Attempt
  | .world (.reloadAuthFile file) => some (.authFile file)
  | .world (.reloadAnonymousTargetFile file) => some (.anonymousTargetFile file)
  | _ => none

/-- The reloads of a run, oldest first. -/
def reloads : List (ServerEvent env) → List Attempt
  | [] => []
  | e :: log => reloads log ++ (attempt? e.call).toList

theorem attempts_append (p : Platform) (config : AuthConfig) (l : List Attempt)
    (a : Option Attempt) : attempts p config (l ++ a.toList) =
      a.elim (attempts p config l) fun a => (attempt p (attempts p config l) a).1 := by
  cases a with
  | none => simp
  | some a => simp [attempts, List.foldl_append]

/-- What a connection is given changes nothing that is shared but the tokens. -/
theorem step_input_shared (now : Instant) (σ : State Shared ConnPhase) (n : Nat)
    (input : Input env.bufferSize) :
    ∃ tokens, ((env.server auth mode).step now σ (.input n input)).1.shared =
      { σ.shared with tokens } := by
  have htaken : (∃ phase, σ.sessions[n]? = some phase ∧ phase.awaits input = true) ∨
      ((σ.sessions[n]?).any (ConnPhase.awaits · input) = false ∧
        (env.server auth mode).step now σ (.input n input) = (σ, [])) :=
    Sessions.step_input (env.server auth mode) now σ n input
  obtain ⟨phase, hphase, hawaits⟩ | ⟨-, hstep⟩ := htaken
  · rw [Sessions.step_taken hphase hawaits]
    exact ⟨_, rfl⟩
  · rw [hstep]
    exact ⟨_, rfl⟩

/-- A step does to the credentials what its reload does, if it is one. -/
theorem step_attempt (now : Instant) (σ : State Shared ConnPhase)
    (call : Call Occurrence (Input env.bufferSize)) :
    ((env.server auth mode).step now σ call).1.shared.auth =
      σ.shared.auth.map fun config =>
        (attempt? call).elim config fun a => (attempt env.platform config a).1 := by
  cases call with
  | world occurrence =>
    cases occurrence with
    | accept listener done =>
      exact (accept_auth σ.shared listener done).trans Option.map_id'.symm
    | reloadAuthFile file => rfl
    | reloadAnonymousTargetFile file => rfl
  | input n input =>
    obtain ⟨tokens, hshared⟩ := @step_input_shared env auth mode now σ n input
    rw [hshared]
    exact Option.map_id'.symm

theorem run_attempts (h : Run (env.server auth mode).machine log σ t) :
    σ.shared.auth = auth.map fun config => attempts env.platform config (reloads log) := by
  refine h.invariant (fun log σ _ => σ.shared.auth =
    auth.map fun config => attempts env.platform config (reloads log)) ?_ ?_
  · rintro t σ ⟨hshared, -⟩
    rw [show σ.shared.auth = auth from congrArg Shared.auth hshared]
    exact Option.map_id'.symm
  · rintro log σ last now call - ih -
    refine (step_attempt now σ call).trans ?_
    rw [ih, Option.map_map]
    simp only [Function.comp_def, reloads, attempts_append]

theorem accept_listeners (s : Shared) (listener : Nat) (done : Bool) :
    (s.accept listener done).1.listeners.map Listener.tls = s.listeners.map Listener.tls := by
  obtain heq | ⟨l, hl, -, ⟨-, heq⟩ | ⟨-, heq⟩⟩ := s.accept_cases listener done
  · rw [heq]
  · rw [heq]
  · obtain ⟨hlt, hget⟩ := List.getElem?_eq_some_iff.mp hl
    rw [heq, List.map_set]
    refine List.ext_getElem? fun i => ?_
    by_cases hi : listener = i
    · subst hi
      simp [hlt, hget]
    · simp [List.getElem?_set_ne hi]

/-- A listener may end, and is otherwise what it was. -/
theorem run_listeners (h : Run (env.server auth mode).machine log σ t) :
    σ.shared.listeners.map Listener.tls = mode.listeners.map Listener.tls := by
  refine h.invariant (fun _ σ _ => σ.shared.listeners.map Listener.tls =
    mode.listeners.map Listener.tls) ?_ ?_
  · rintro t σ ⟨hshared, -⟩
    rw [show σ.shared.listeners = mode.listeners from congrArg Shared.listeners hshared]
  · rintro log σ last now call - ih -
    refine Eq.trans ?_ ih
    cases call with
    | world occurrence =>
      cases occurrence with
      | accept listener done => exact accept_listeners σ.shared listener done
      | reloadAuthFile file => rfl
      | reloadAnonymousTargetFile file => rfl
    | input n input =>
      obtain ⟨tokens, hinput⟩ := @step_input_shared env auth mode now σ n input
      exact congrArg (fun shared => shared.listeners.map Listener.tls) hinput

-- ---------------------------------------------------------------------------
-- What the options promise
-- ---------------------------------------------------------------------------

variable {p : Platform}

theorem lastAccepted_kept (config : AuthConfig) (args : AuthArgs) (l : List Attempt) :
    (lastAccepted p config args l).basicAuth = args.basicAuth ∧
      (lastAccepted p config args l).anonymousTarget = args.anonymousTarget ∧
      (lastAccepted p config args l).tokens = args.tokens := by
  induction l generalizing config args with
  | nil => exact ⟨rfl, rfl, rfl⟩
  | cons a l ih =>
    rw [lastAccepted]
    split
    next =>
      obtain ⟨hbasic, htarget, htokens⟩ := ih (attempt p config a).1 (args.withFile a)
      rw [hbasic, htarget, htokens]
      cases a <;> exact ⟨rfl, rfl, rfl⟩
    next => exact ih _ _

theorem Rendered.exists_addr (h : Rendered entries targets) (hmem : entry ∈ entries) :
    ∃ target, parseTargetAddr entry = .ok target ∧ target.addr ∈ targets := by
  induction h with
  | nil => cases hmem
  | cons hfirst _ ih =>
    obtain rfl | hmem := List.mem_cons.mp hmem
    · obtain ⟨target, hparsed, rfl⟩ := hfirst
      exact ⟨target, hparsed, List.mem_cons_self⟩
    · obtain ⟨target, hparsed, haddr⟩ := ih hmem
      exact ⟨target, hparsed, List.mem_cons_of_mem _ haddr⟩

theorem buildAuthConfig_enabled {args : AuthArgs} (h : buildAuthConfig p args = .ok auth) :
    auth.isSome = (!args.basicAuth.isEmpty || args.basicAuthFile.isSome) := by
  cases auth with
  | some config =>
    obtain ⟨_, _, hb⟩ := buildAuthConfig_ok.mp h
    exact hb.enabled.symm
  | none =>
    unfold buildAuthConfig at h
    dsimp only at h
    split at h
    next hdisabled => simpa using hdisabled
    next =>
      obtain ⟨_, -, h⟩ := Except.bind_eq_ok.mp h
      obtain ⟨_, -, h⟩ := Except.bind_eq_ok.mp h
      split at h
      next => cases h
      next =>
        obtain ⟨_, -, h⟩ := Except.bind_eq_ok.mp h
        obtain ⟨_, -, h⟩ := Except.bind_eq_ok.mp h
        split at h <;> cases h

/-- With a token service a request that is refused is offered both challenges. -/
theorem refused_challenges (hservice : config.tokens.isSome = true)
    (h : authorizeRequest p (some config) s now request = .error response) :
    ∃ challenge ∈ [bearerChallenge, bearerInvalidChallenge],
      response = unauthorizedResponse true (some challenge) := by
  obtain ⟨svc, hsvc⟩ := Option.isSome_iff_exists.mp hservice
  unfold authorizeRequest at h
  split at h
  next => contradiction
  next config' hconfig =>
    cases hconfig
    split at h
    next => cases h
    next =>
      dsimp only at h
      split at h
      next => cases h
      next =>
        rw [hsvc] at h
        refine ⟨_, ?_, (Except.error.inj h).symm⟩
        rw [List.mem_pair]
        exact (ite_eq_or_eq _ _ _).symm

theorem loadSecret_ok (h : Token.loadSecret contents = .ok secret) :
    minSecretBytes ≤ secret.length := by
  unfold Token.loadSecret at h
  split at h
  next => cases h
  next =>
    dsimp only at h
    split at h
    next => cases h
    next hlong =>
      cases h
      exact Nat.le_of_not_lt hlong

/-- The service signs with a secret of sufficient length. -/
theorem fromArgs_secret {args : Args} {read : Str → Option Bytes}
    (h : TokenService.fromArgs args read draw = .ok svc) :
    ∃ secret, minSecretBytes ≤ secret.length ∧ svc =
      .new secret (fromSecs args.accessTokenTtl.toNat) (fromSecs args.refreshTokenTtl.toNat) := by
  obtain ⟨secret, hsecret, h⟩ := Except.bind_eq_ok.mp h
  cases h
  refine ⟨secret, ?_, rfl⟩
  split at hsecret
  next => exact loadSecret_ok hsecret
  next =>
    split at hsecret
    next drawn =>
      cases hsecret
      exact drawn.property.ge
    next => cases hsecret

/-- What credentials and targets a router of these options holds at least. -/
structure HoldsTo (p : Platform) (options : Options) (config : AuthConfig) : Prop where
  /-- The lifetimes are those of the options. -/
  service : ∃ secret, minSecretBytes ≤ secret.length ∧ config.tokens = some (.new secret
    (fromSecs options.accessTokenTtl.toNat) (fromSecs options.refreshTokenTtl.toNat))
  credentials : ∀ credential ∈ options.basicAuth, ∃ user, Credential credential user ∧
    config.basicUser p (encodeCredential p credential) = some user
  targets : ∀ entry ∈ options.anonymousTarget, ∃ target, parseTargetAddr entry = .ok target ∧
    target.addr ∈ config.anonymousTargets ∧
    ∀ path requested, parseTarget path = .ok requested → requested.addr = target.addr →
      config.allowsAnonymousTarget path = true

variable {Certificate PrivateKey ServerConfig : Type}
  {host : Host Certificate PrivateKey ServerConfig}

theorem holdsTo_of_build (hl : host.platform.standard.Lawful) {args : AuthArgs}
    (hbasic : args.basicAuth = options.basicAuth)
    (htarget : args.anonymousTarget = options.anonymousTarget)
    (htokens : args.tokens = (host.authArgs options).tokens)
    (h : buildAuthConfig host.platform args = .ok (some config)) :
    HoldsTo host.platform options config := by
  obtain ⟨fileAuthorizations, fileTargets, hb⟩ := buildAuthConfig_ok.mp h
  refine ⟨?_, ?_, ?_⟩
  · obtain ⟨svc, hsvc⟩ := Option.isSome_iff_exists.mp hb.service
    have hfrom : (TokenService.fromArgs options.toArgs host.read host.draw).toOption = some svc :=
      htokens.symm.trans (hb.tokens.trans hsvc)
    cases hargs : TokenService.fromArgs options.toArgs host.read host.draw with
    | error e => simp [hargs, Except.toOption] at hfrom
    | ok svc' =>
      obtain ⟨secret, hlong, rfl⟩ := fromArgs_secret hargs
      simp only [hargs, Except.toOption, Option.some.injEq] at hfrom
      exact ⟨secret, hlong, hfrom ▸ hsvc⟩
  · intro credential hmem
    obtain ⟨hfixed, hvalid⟩ := encodeCredentials_ok hb.fixed
    rw [hbasic] at hfixed hvalid
    obtain ⟨user, hcredential⟩ := hvalid credential hmem
    refine ⟨user, hcredential, basicUser_eq_some.mpr
      ⟨?_, basicAuthUsername_encodeCredential hl hcredential⟩⟩
    rw [hb.expected, hfixed]
    exact List.mem_append_left _ (List.mem_map_of_mem hmem)
  · intro entry hmem
    have hrendered := normalizeAnonymousTargets_ok hb.fixedTargets
    rw [htarget] at hrendered
    obtain ⟨target, hparsed, haddr⟩ := hrendered.exists_addr hmem
    have hallowed : target.addr ∈ config.anonymousTargets := by
      rw [hb.anonymous]
      exact List.mem_append_left _ haddr
    refine ⟨target, hparsed, hallowed, ?_⟩
    intro path requested hpath hsame
    exact allowsAnonymousTarget_eq_true.mpr ⟨requested, hpath, hsame ▸ hallowed⟩

-- ---------------------------------------------------------------------------
-- Every state of a router that was started
-- ---------------------------------------------------------------------------

def Started.setup (started : Started ServerConfig) (platform : Platform) (parsers : Parsers)
    (handshakeFails : Bytes → Bool) : Setup :=
  ⟨platform, parsers, handshakeFails, started.bufferSize⟩

/-- Whatever a router goes through that `main` started, it serves the listeners
it was started with and asks for credentials or not as its options say. Where it
does, it holds to its options, `authorize_request` offers both challenges to whom
it refuses, and its credentials are those it would be started with, had the files
the content accepted last. -/
theorem started_keeps (hl : host.platform.standard.Lawful) (h : host.main cli = .ok started)
    (hmerged : fromCli host.readToString host.fromToml cli = .ok options)
    (hrun : Run ((started.setup host.platform parsers handshakeFails).server started.auth
      options.serviceMode).machine log σ t) :
    σ.shared.listeners.map Listener.tls = started.listeners.map (·.tls.isSome) ∧
    σ.shared.auth.isSome = options.authEnabled ∧
    ∀ config, σ.shared.auth = some config → HoldsTo host.platform options config ∧
      (∃ config₀, started.auth = some config₀ ∧
        buildAuthConfig host.platform (lastAccepted host.platform config₀ (host.authArgs options)
          (reloads log)) = .ok (some config)) ∧
      ∀ now request response,
        authorizeRequest host.platform (some config) σ.shared.tokens now request =
          .error response →
        ∃ challenge ∈ [bearerChallenge, bearerInvalidChallenge],
          response = unauthorizedResponse true (some challenge) := by
  obtain ⟨options', hserves⟩ := Host.main_ok h
  cases hmerged.symm.trans hserves.merged
  have hauth : σ.shared.auth =
      started.auth.map fun config => attempts host.platform config (reloads log) :=
    run_attempts hrun
  refine ⟨?_, ?_, ?_⟩
  · rw [run_listeners hrun, ← hserves.listeners, List.map_map]
    rfl
  · rw [hauth, Option.isSome_map, buildAuthConfig_enabled hserves.auth]
    simp [Host.authArgs, Options.authEnabled]
  · intro config hconfig
    obtain ⟨config₀, hstart, hnow⟩ := Option.map_eq_some_iff.mp (hauth.symm.trans hconfig)
    have hbuilt : buildAuthConfig host.platform (host.authArgs options) = .ok (some config₀) :=
      hstart ▸ hserves.auth
    have hlast := attempts_build hbuilt (reloads log)
    rw [hnow] at hlast
    obtain ⟨hbasic, htarget, htokens⟩ :=
      @lastAccepted_kept host.platform config₀ (host.authArgs options) (reloads log)
    have hholds := holdsTo_of_build hl hbasic htarget htokens hlast
    refine ⟨hholds, ⟨config₀, hstart, hlast⟩, ?_⟩
    intro now request response hrefused
    obtain ⟨secret, -, hservice⟩ := hholds.service
    exact refused_challenges (by rw [hservice]; rfl) hrefused

def aliceArgs : CliArgs where
  __ := CliArgs.empty
  basicAuth := ["alice:secret".toList]
  basicAuthFile := some "users".toList
  certConflict := by decide

def usersFile : List (Str × Bytes) := [("users".toList, Text.utf8 "bob:hunter2\n".toList)]

def aliceStarted : Started (List Bytes × Bytes) where
  auth := some
    { expectedAuthorizations :=
        ["alice:secret", "bob:hunter2"].map fun s => encodeCredential (.crates 0) s.toList
      fixedAuthorizations := [encodeCredential (.crates 0) "alice:secret".toList]
      anonymousTargets := []
      fixedAnonymousTargets := []
      tokens := some ⟨List.replicate 32 0, fromSecs 600, fromSecs 604800⟩ }
  bufferSize := 16 * 1024
  udpIdleTimeout := fromSecs 60
  trustedProxies := ⟨IpRange.loopback⟩
  listeners := [⟨⟨.v6 0, 80⟩, none⟩]

def aliceSetup : Setup := aliceStarted.setup (.crates 0) (parsersFor []) fun _ => false

/-- Newest first: the file loses bob, then cannot be read. -/
def usersReloaded : List (Instant × Call Occurrence (Input aliceSetup.bufferSize)) :=
  [(2, .world (.reloadAuthFile none)), (1, .world (.reloadAuthFile (some "# nobody".toList)))]

def aliceServing : Sessions.Program Instant Shared ConnPhase Occurrence
    (Input aliceSetup.bufferSize) Act :=
  aliceSetup.server aliceStarted.auth .wsOnly

/-- The user of the command line stays. -/
theorem started_keeps_alice :
    ∃ config user, (aliceServing.machine.exec
        ⟨⟨aliceStarted.auth, .new 0, ServiceMode.wsOnly.listeners⟩, []⟩
        usersReloaded).2.shared.auth = some config ∧
      config.basicUser (.crates 0) (encodeCredential (.crates 0) "alice:secret".toList) =
        some user := by
  have hmain : (hostWith usersFile).main aliceArgs = .ok aliceStarted := by decide +kernel
  have hvalid : (aliceArgs.merge {}).toArgs.validate = .ok () := by decide +kernel
  have hmerged : fromCli (hostWith usersFile).readToString (hostWith usersFile).fromToml aliceArgs =
      .ok (aliceArgs.merge {}) :=
    Except.bind_eq_ok.mpr ⟨{}, rfl,
      Except.bind_eq_ok.mpr ⟨(), Except.mapError_eq_ok.mpr hvalid, rfl⟩⟩
  have hrun : Run aliceServing.machine
      (aliceServing.machine.exec ⟨⟨aliceStarted.auth, .new 0, ServiceMode.wsOnly.listeners⟩, []⟩
        usersReloaded).1
      (aliceServing.machine.exec ⟨⟨aliceStarted.auth, .new 0, ServiceMode.wsOnly.listeners⟩, []⟩
        usersReloaded).2 2 :=
    .exec ⟨rfl, rfl⟩ (by decide)
  obtain ⟨-, henabled, hkeeps⟩ := @started_keeps _ _ _ (hostWith usersFile) aliceArgs aliceStarted
    (aliceArgs.merge {}) (parsersFor []) (fun _ => false) _ _ _ (Platform.crates_standard 0) hmain
    hmerged hrun
  obtain ⟨config, hconfig⟩ := Option.isSome_iff_exists.mp (henabled.trans rfl)
  obtain ⟨user, -, huser⟩ := (hkeeps config hconfig).1.credentials _ List.mem_cons_self
  exact ⟨config, user, hconfig, huser⟩

end Ws2tcpRouter
