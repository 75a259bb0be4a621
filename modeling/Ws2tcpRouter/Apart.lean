import Ws2tcpRouter.Serving
import Ws2tcpRouter.Token.Revocation

/-!
# Before and after the decision

Whoever is connected to an upstream was accepted at one moment of the run, in
the state the server then had. From there on nothing but its own traffic
touches a tunnel, and a revoked login opens no other.
-/

namespace Ws2tcpRouter

open Sessions (State Call outputs)
open Timed (Run)
open Token (TokenService)

variable {env : Setup} {config : AuthConfig} {auth auth' : Option AuthConfig}
  {mode mode' : ServiceMode}

-- ---------------------------------------------------------------------------
-- Open tunnels
-- ---------------------------------------------------------------------------

/-- The connection looks at nothing it shares any more. -/
def ConnPhase.Apart (phase : ConnPhase) : Prop :=
  phase.outward = true ∨ ∃ result, phase = .closed result

theorem turn_apart {phase : ConnPhase} (h : phase.Apart) (input : Input env.bufferSize) :
    (∀ auth s now, env.turn auth s now phase input =
      ⟨s, (env.advance phase input).1, (env.advance phase input).2⟩) ∧
    effects (env.advance phase input).2 = [] ∧ (env.advance phase input).1.Apart := by
  obtain hout | ⟨result, rfl⟩ := h
  · exact turn_outward hout input
  · cases input <;> exact ⟨fun _ _ _ => rfl, rfl, .inr ⟨result, rfl⟩⟩

theorem local_quiet {own : List (Moment env.bufferSize)}
    (h : (env.server auth mode).Local phase own after acts) (h₀ : phase.Apart) :
    after.Apart ∧ effects acts = [] := by
  induction h with
  | start => exact ⟨h₀, rfl⟩
  | input m _ _ ih =>
    obtain ⟨hapart, hquiet⟩ := ih
    obtain ⟨hturn, heffects, hstays⟩ := turn_apart hapart m.input
    simp only [Setup.server, hturn]
    exact ⟨hstays, by rw [effects_append, hquiet, heffects]; rfl⟩

theorem local_other {own own' : List (Moment env.bufferSize)}
    (h : (env.server auth mode).Local phase own after acts) (h₀ : phase.Apart)
    (hsame : own'.map Sessions.Moment.input = own.map Sessions.Moment.input) :
    (env.server auth' mode').Local phase own' after acts := by
  have hlocal := (h.apart ConnPhase.Apart ?_ h₀).2 own' hsame
  · clear hsame h h₀
    induction hlocal with
    | start => exact .start
    | input m _ hawaits ih => exact .input m ih hawaits
  · intro k input hk _ t σ t' σ'
    obtain ⟨hturn, -, hstays⟩ := turn_apart hk input
    simp only [Setup.server, hturn]
    exact ⟨trivial, trivial, hstays⟩

/-- A local run is determined by its moments. -/
theorem local_unique {own : List (Moment env.bufferSize)}
    (h : (env.server auth mode).Local phase own after acts)
    (h' : (env.server auth mode).Local phase own after' acts') : after = after' ∧ acts = acts' := by
  induction h generalizing after' acts' with
  | start =>
    cases h'
    exact ⟨rfl, rfl⟩
  | input m _ _ ih =>
    cases h' with
    | input _ hlocal' _ =>
      obtain ⟨rfl, rfl⟩ := ih hlocal'
      exact ⟨rfl, rfl⟩

/-- An open tunnel is touched by nothing but what its two ends do: whatever else
happens, to whatever credentials and tokens, with whatever connections next to
it, the same inputs bring it to the same place with the same traffic. It dials
nothing else, and leaves what is shared as it finds it. -/
theorem tunnels_apart {s s' : State Shared ConnPhase} (hk : s.sessions[n]? = some phase)
    (hk' : s'.sessions[n']? = some phase) (hapart : phase.Apart)
    (calls calls' : List (Instant × Call Occurrence (Input env.bufferSize)))
    (hsame : ((env.server auth mode).own n
        ((env.server auth mode).machine.exec s calls).1).map Sessions.Moment.input =
      ((env.server auth' mode').own n'
        ((env.server auth' mode').machine.exec s' calls').1).map Sessions.Moment.input) :
    ∃ after, ((env.server auth mode).machine.exec s calls).2.sessions[n]? = some after ∧
      ((env.server auth' mode').machine.exec s' calls').2.sessions[n']? = some after ∧
      outputs n ((env.server auth mode).machine.exec s calls).1 =
        outputs n' ((env.server auth' mode').machine.exec s' calls').1 ∧
      effects (outputs n ((env.server auth mode).machine.exec s calls).1) = [] ∧
      ∀ now input,
        ((env.server auth mode).step now ((env.server auth mode).machine.exec s calls).2
            (.input n input)).1.shared =
          ((env.server auth mode).machine.exec s calls).2.shared := by
  obtain ⟨after, hafter, hlocal⟩ := Sessions.exec_stands (env.server auth mode) hk calls
  obtain ⟨after', hafter', hlocal'⟩ := Sessions.exec_stands (env.server auth' mode') hk' calls'
  obtain ⟨rfl, hout⟩ := local_unique (local_other hlocal hapart hsame.symm) hlocal'
  obtain ⟨hstill, hquiet⟩ := local_quiet hlocal hapart
  refine ⟨after, hafter, hafter', hout, hquiet, ?_⟩
  intro now input
  obtain ⟨k, hk, hawaits⟩ | ⟨-, hstep⟩ := Sessions.step_input (env.server auth mode) now
    ((env.server auth mode).machine.exec s calls).2 n input
  · obtain rfl : k = after := Option.some.inj (hk.symm.trans hafter)
    rw [Sessions.step_taken hk hawaits]
    simp only [Setup.server, (turn_apart hstill input).1]
  · rw [hstep]

/-- A tunnel that takes one message. -/
def oneMessage (n : Nat) : Call Occurrence (Input 4) :=
  .input n (.tcp (.websocket (.message (.binary [1, 2]))) true)

/-- A reload next to a tunnel, and a tunnel of a server without credentials. -/
theorem tunnels_apart_reload :
    outputs 0 (((setupFor []).server (some aliceOnly) .wsOnly).machine.exec
        ⟨(serverStart aliceOnly).shared, [.tcp (proxyTcp 4).init]⟩
        [(2, oneMessage 0), (1, .world (.reloadAuthFile (some "alice:other".toList)))]).1 =
      outputs 1 (((setupFor []).server none .both).machine.exec
        ⟨⟨none, .new 0, []⟩, [.acceptingTls, .tcp (proxyTcp 4).init]⟩ [(9, oneMessage 1)]).1 := by
  obtain ⟨after, -, -, hout, -⟩ := @tunnels_apart (setupFor []) (some aliceOnly) none .wsOnly .both
    0 (.tcp (proxyTcp 4).init) 1 ⟨(serverStart aliceOnly).shared, [.tcp (proxyTcp 4).init]⟩
    ⟨⟨none, .new 0, []⟩, [.acceptingTls, .tcp (proxyTcp 4).init]⟩ rfl rfl (.inl rfl)
    [(2, oneMessage 0), (1, .world (.reloadAuthFile (some "alice:other".toList)))]
    [(9, oneMessage 1)] rfl
  exact hout

-- ---------------------------------------------------------------------------
-- Served connections
-- ---------------------------------------------------------------------------

theorem mem_of_lastRead {own : List (Moment bufferSize)} (h : lastRead own = some (m, draws)) :
    m ∈ own := by
  induction own with
  | nil => cases h
  | cons m' own ih =>
    rw [lastRead] at h
    split at h
    next =>
      cases h
      exact List.mem_cons_self
    next => exact List.mem_cons_of_mem _ (ih h)

/-- What `handle_connection` needs of a request that is served, it found at one
event of the run, in the state the server then had. -/
theorem served_at (h : Run (env.server auth mode).machine log σ t)
    (hk : σ.sessions[n]? = some phase) (he : effect ∈ effects (outputs n log))
    (hg : effect.Guarded) :
    ∃ d ∈ log, (∃ input, d.call = .input n input) ∧
      Mediated env.platform d.before.shared.auth d.before.shared.tokens d.time
        (receive env.parsers ⟨reads ((env.server auth mode).own n log), true⟩) effect := by
  have heffects := stage_effects (run_stage h hk)
  rw [heffects, Setup.batch] at he
  cases hlast : lastRead ((env.server auth mode).own n log) with
  | none =>
    rw [hlast] at he
    cases he
  | some r =>
    obtain ⟨m, draws⟩ := r
    rw [hlast] at he
    have hmediated := connection_mediated he hg
    obtain ⟨d, hd, hmoment⟩ := List.mem_filterMap.mp (mem_of_lastRead hlast)
    obtain ⟨k, hcall, -, -, hm⟩ := Sessions.moment_eq_some hmoment
    rw [hm] at hmediated
    exact ⟨d, hd, ⟨_, hcall⟩, hmediated⟩

-- ---------------------------------------------------------------------------
-- The token service of a server
-- ---------------------------------------------------------------------------

variable {svc : TokenService}

/-- What the token service did in an event of the server. -/
def serverTokenEvent (env : Setup) (svc : TokenService) (config : AuthConfig)
    (e : ServerEvent env) : Option Token.Event :=
  (Timed.Event.within (Router.machine env.platform svc) (routerOf config) env.action e).bind
    (Router.tokenEvent env.platform svc)

def serverTokenLog (env : Setup) (svc : TokenService) (config : AuthConfig)
    (log : List (ServerEvent env)) : List Token.Event :=
  log.filterMap (serverTokenEvent env svc config)

theorem serverTokenLog_eq (log : List (ServerEvent env)) :
    serverTokenLog env svc config log =
      Router.tokenLog env.platform svc (routerLog env svc config log) :=
  List.filterMap_filterMap.symm

theorem server_tokens (htokens : config.tokens = some svc)
    (h : Run (env.server (some config) mode).machine log σ t) :
    ∃ t', t' ≤ t ∧ Run (Token.machine env.platform svc)
      (serverTokenLog env svc config log) σ.shared.tokens t' := by
  obtain ⟨t', hle, hrouter⟩ := run_router htokens h
  obtain ⟨t'', hle', hrun⟩ := Router.run_tokens hrouter
  rw [serverTokenLog_eq]
  exact ⟨t'', hle'.trans hle, hrun⟩

/-- An event is a call of the token service, or leaves the store alone. -/
theorem step_tokenEvent (hauth : σ.shared.auth = some config') (htokens : config'.tokens = some svc)
    (auth : Option AuthConfig) (mode : ServiceMode) (now : Instant)
    (c : Call Occurrence (Input env.bufferSize)) (reply : List Act) :
    (∃ call, serverTokenEvent env svc config ⟨now, σ, c, reply⟩ =
        some ⟨now, σ.shared.tokens, call,
          (Token.step env.platform svc now σ.shared.tokens call).2⟩ ∧
      ((env.server auth mode).step now σ c).1.shared.tokens =
        (Token.step env.platform svc now σ.shared.tokens call).1) ∨
      serverTokenEvent env svc config ⟨now, σ, c, reply⟩ = none ∧
        ((env.server auth mode).step now σ c).1.shared.tokens = σ.shared.tokens := by
  have hstep := congrArg Router.tokens (step_router hauth htokens config auth mode now c).1
  change ((env.server auth mode).step now σ c).1.shared.tokens = _ at hstep
  rw [hstep]
  unfold serverTokenEvent Timed.Event.within
  dsimp only
  cases env.action σ c with
  | none => exact .inr ⟨rfl, rfl⟩
  | some action =>
    rw [Option.map_some, Option.bind_some, Option.elim_some, Router.step_tokens]
    unfold Router.tokenEvent Timed.Event.within
    dsimp only
    cases Router.tokenCall env.platform (routerOf config σ) action with
    | none => exact .inr ⟨rfl, rfl⟩
    | some call => exact .inl ⟨call, rfl, rfl⟩

theorem serverTokenLog_split {later earlier : List (ServerEvent env)} {e : ServerEvent env}
    (h : serverTokenEvent env svc config e = some te) :
    serverTokenLog env svc config (later ++ e :: earlier) =
      serverTokenLog env svc config later ++ te :: serverTokenLog env svc config earlier := by
  unfold serverTokenLog
  rw [List.filterMap_append, List.filterMap_cons_some h]

/-- From its revocation on, a family is dead in every state of the server. -/
theorem server_dead (htokens : config.tokens = some svc)
    (h : Run (env.server (some config) mode).machine (later ++ e :: earlier) σ t)
    (hdistinct : (Token.families (serverTokenLog env svc config (later ++ e :: earlier))).Nodup)
    (hevent : serverTokenEvent env svc config e = some te)
    (hrevokes : Token.Revokes env.platform family te) :
    ∀ d ∈ later, Token.Dead svc family te.time d.before.shared.tokens d.time := by
  obtain ⟨s₀, t₀, h₀, -⟩ := h.older
  obtain ⟨last₀, hbefore, -, -, -, -⟩ := h₀.cons_inv
  obtain ⟨config₀, hauth₀, htokens₀⟩ := run_auth htokens hbefore
  have hrevoked : Token.Dead svc family te.time
        ((env.server (some config) mode).step e.time e.before e.call).1.shared.tokens e.time ∧
      te.before = e.before.shared.tokens := by
    obtain ⟨call, hcall, hstep⟩ | ⟨hnone, -⟩ :=
      step_tokenEvent hauth₀ htokens₀ (some config) mode e.time e.call e.reply
    · cases hcall.symm.trans hevent
      rw [hstep]
      exact ⟨(Token.step_transition _ _ _ _ call).dead_of_revokes hrevokes, rfl⟩
    · cases hnone.symm.trans hevent
  -- the family was started before, so no later login draws it again
  have hnew : ∀ d ∈ later, ∀ td, serverTokenEvent env svc config d = some td →
      Token.started td ≠ some family := by
    intro d hd td htd
    rw [serverTokenLog_split hevent] at hdistinct
    refine Token.not_started_again hdistinct ?_ td (List.mem_filterMap.mpr ⟨d, hd, htd⟩)
    obtain ⟨t', -, hrun⟩ := server_tokens htokens hbefore
    rw [← hrevoked.2] at hrun
    rw [Token.families_cons]
    exact List.mem_append_right _ ((Token.known hrun).of_revokes hrevokes)
  have hafter := (h.after (fun σ t => Token.Dead svc family te.time σ.shared.tokens t)
    (fun d => ∀ td, serverTokenEvent env svc config d = some td → Token.started td ≠ some family)
    ?_ ?_ hnew).2
  · intro d hd
    obtain ⟨last, hle, hdead, -⟩ := hafter d hd
    exact hdead.later hle
  · rintro log last d hrun hdead hle hok -
    obtain ⟨config', hauth, htokens'⟩ := run_auth htokens hrun
    obtain ⟨call, hcall, hstep⟩ | ⟨-, hsame⟩ :=
      step_tokenEvent hauth htokens' (some config) mode d.time d.call d.reply
    · change Token.Dead _ _ _ ((env.server (some config) mode).step _ _ _).1.shared.tokens _
      rw [hstep]
      exact (Token.step_transition _ _ _ _ call).dead (hdead.later hle) (hok _ hcall)
    · change Token.Dead _ _ _ ((env.server (some config) mode).step _ _ _).1.shared.tokens _
      rw [hsame]
      exact hdead.later hle
  · intro s₁ t₁ h₁
    obtain ⟨-, -, -, rfl, -, rfl⟩ := h₁.cons_inv
    exact hrevoked.1

/-- No access token of a family is accepted in a state that comes after its
revocation, whenever in the run the token was minted. -/
theorem server_refuses (hl : env.platform.urlSafe.Lawful) (hc : env.platform.ClocksTogether)
    (htokens : config.tokens = some svc)
    (h : Run (env.server (some config) mode).machine (later ++ e :: earlier) σ t)
    (hdistinct : (Token.families (serverTokenLog env svc config (later ++ e :: earlier))).Nodup)
    (hevent : serverTokenEvent env svc config e = some te)
    (hrevokes : Token.Revokes env.platform family te)
    (hm : m ∈ serverTokenLog env svc config (later ++ e :: earlier))
    (hmint : Token.mints env.platform svc family token m) :
    ∀ d ∈ later, svc.verifyAccess env.platform d.before.shared.tokens d.time token = none := by
  have hdead := server_dead htokens h hdistinct hevent hrevokes
  obtain ⟨s₀, t₀, h₀, -⟩ := h.older
  obtain ⟨last₀, hbefore, -⟩ := h₀.cons_inv
  have hmle : m.time ≤ te.time := by
    rw [serverTokenLog_split hevent] at hm hdistinct
    obtain ⟨ttoken, -, hrun⟩ := server_tokens htokens h
    rw [serverTokenLog_split hevent] at hrun
    rcases List.mem_append.mp hm with hm | hm
    · -- nothing was minted for it later
      refine absurd hmint ?_
      obtain ⟨d, hd, hmd⟩ := List.mem_filterMap.mp hm
      obtain ⟨_, _, _, rfl, hrund, -, -⟩ := h.split hd
      obtain ⟨config', hauth, htokens'⟩ := run_auth htokens hrund
      obtain ⟨call, hcall, -⟩ | ⟨hnone, -⟩ :=
        step_tokenEvent hauth htokens' (some config) mode d.time d.call d.reply
      · cases hcall.symm.trans hmd
        refine (Token.step_transition _ _ _ _ call).not_mints hl (hdead d hd) ?_
        obtain ⟨_, _, hrevoked, -⟩ := hrun.older
        obtain ⟨_, hrevoked', -⟩ := hrevoked.cons_inv
        refine Token.not_started_again hdistinct ?_ _ hm
        rw [Token.families_cons]
        exact List.mem_append_right _ ((Token.known hrevoked').of_revokes hrevokes)
      · cases hnone.symm.trans hmd
    · obtain ⟨_, _, hrevoked, -⟩ := hrun.older
      obtain ⟨_, -, -, rfl, -, -⟩ := hrevoked.cons_inv
      exact hrevoked.time_le m hm
  obtain ⟨pair, user, -, -, rfl⟩ := hmint
  intro d hd
  refine Token.TokenService.verifyAccess_mint_none hl ?_ user
  obtain ⟨till, hentry, -⟩ | hpast := (hdead d hd).forgotten
  · exact .inr (AList.mem_iff_lookup.mpr ⟨till, hentry⟩)
  · exact .inl (Token.TokenService.accessExpires_le_unixNow hc
      ((Nat.add_le_add_right hmle _).trans hpast))

/-- A logout reaches every connection. One that was served, a tunnel or a health
check, was accepted at one event of the run; and if it presented an access token
of a family that was revoked in that run, on a path that is not open to all, it
was accepted before. -/
theorem logout_reaches_connections (hl : env.platform.urlSafe.Lawful)
    (hc : env.platform.ClocksTogether) (htokens : config.tokens = some svc)
    (h : Run (env.server (some config) mode).machine (later ++ e :: earlier) σ t)
    (hdistinct : (Token.families (serverTokenLog env svc config (later ++ e :: earlier))).Nodup)
    (hevent : serverTokenEvent env svc config e = some te)
    (hrevokes : Token.Revokes env.platform family te)
    (hk : σ.sessions[n]? = some phase)
    (he : effect ∈ effects (outputs n (later ++ e :: earlier))) (hg : effect.Guarded) :
    ∃ d ∈ later ++ e :: earlier, (∃ input, d.call = .input n input) ∧
      ∃ received user,
        receive env.parsers
          ⟨reads ((env.server (some config) mode).own n (later ++ e :: earlier)), true⟩ =
            .ok received ∧
        authorizeRequest env.platform d.before.shared.auth d.before.shared.tokens d.time
          received.request = .ok user ∧
        (∀ protocol addr, effect.upstream = some (protocol, addr) →
          ∃ target, parseTarget received.request.path = .ok target ∧
            target.protocol = protocol ∧ target.addr = addr) ∧
        ∀ m ∈ serverTokenLog env svc config (later ++ e :: earlier), ∀ token config',
          Token.mints env.platform svc family token m → received.request.Bearer token →
            d.before.shared.auth = some config' → ¬config'.AnonymousTo received.request.path →
              d ∉ later := by
  obtain ⟨d, hd, hinput, received, user, hreceived, huser, htarget⟩ := served_at h hk he hg
  refine ⟨d, hd, hinput, received, user, hreceived, huser, htarget, ?_⟩
  intro m hm token config' hmint hbearer hauth hclosed hlater
  have hnone := server_refuses hl hc htokens h hdistinct hevent hrevokes hm hmint d hlater
  rw [hauth] at huser
  obtain hanonymous | hverify := authorizeRequest_bearer huser hbearer
  · exact hclosed hanonymous
  · obtain ⟨svc', hsvc, hverify, -⟩ := verifyAccessToken_eq_some.mp hverify
    obtain ⟨_, _, _, rfl, hrun, -, -⟩ := h.split hlater
    obtain ⟨config'', hauth', htokens'⟩ := run_auth htokens hrun
    cases hauth.symm.trans hauth'
    cases hsvc.symm.trans htokens'
    rw [hnone] at hverify
    cases hverify

def bearer (token : Str) : Str := "Bearer ".toList ++ token

/-- The access token of alice's login at 1. -/
def aliceAccess : Str :=
  "AQAAAAAAAAABAAAAAAAAAlhhbGljZQ.FKvOIkYSGKcEHct_0wLR9QuHPsBUZQd1NunvOo_A__c".toList

def aliceRefresh : Str := "AAAAAAAAAAEAAAAAAAAAAAAAAAAAAAAAAAAAAAAAAAA".toList

def logoutRequest : Request :=
  ⟨"POST".toList, "/auth/revoke".toList, [(authorization, Text.utf8 (bearer aliceRefresh))]⟩

def logoutSetup : Setup :=
  setupFor [loginRequest, logoutRequest, tunnelRequest (bearer aliceAccess)]

def logoutServer : Sessions.Program Instant Shared ConnPhase Occurrence (Input 4) Act :=
  logoutSetup.server (some aliceTokens) .wsOnly

def readOnce (n : Nat) (request : Request) : Call Occurrence (Input 4) :=
  .input n (.read (some request.head) ⟨some 1, some (Token.nthDraw 1)⟩)

/-- A login, and a tunnel with its access token. -/
def tunnelCalls : List (Instant × Call Occurrence (Input 4)) :=
  [(4, .world (.accept 0 true)),
    (3, .input 1 (.answered true)),
    (3, readOnce 1 (tunnelRequest (bearer aliceAccess))),
    (2, .world (.accept 0 true)),
    (1, readOnce 0 loginRequest),
    (0, .world (.accept 0 true))]

def logoutEvent : ServerEvent logoutSetup :=
  let found := (logoutServer.machine.exec (serverStart aliceTokens) tunnelCalls).2
  ⟨5, found, readOnce 2 logoutRequest, (logoutServer.step 5 found (readOnce 2 logoutRequest)).2⟩

/-- The same request after the logout. -/
def logoutCalls : List (Instant × Call Occurrence (Input 4)) :=
  [(7, readOnce 3 (tunnelRequest (bearer aliceAccess))), (6, .world (.accept 0 true)),
    (5, readOnce 2 logoutRequest)] ++ tunnelCalls

def logoutLog : List (ServerEvent logoutSetup) :=
  (logoutServer.machine.exec (serverStart aliceTokens) logoutCalls).1

def isLogout (e : Token.Event) : Bool :=
  match e.call with
  | .revoke token =>
    e.reply = .revoke true && e.before.familyOf (Token.hashToken (.crates 0) token) = some 1
  | _ => false

def isLogin (e : Token.Event) : Bool :=
  e.reply.pair.any fun pair => pair.accessToken = aliceAccess &&
    aliceAccess = Token.service.mintAccess (.crates 0) e.time 1 "alice".toList

theorem revokes_of_isLogout (h : isLogout e = true) : Token.Revokes (.crates 0) 1 e := by
  unfold isLogout at h
  split at h
  next token hcall =>
    simp only [Bool.and_eq_true, decide_eq_true_eq] at h
    exact .logout hcall h.1 h.2
  next => cases h

theorem mints_of_isLogin (h : isLogin e = true) :
    Token.mints (.crates 0) Token.service 1 aliceAccess e := by
  obtain ⟨pair, hpair, htoken⟩ := (Option.any_eq_true _ _).mp h
  simp only [Bool.and_eq_true, decide_eq_true_eq] at htoken
  exact ⟨pair, "alice".toList, hpair, htoken.1, htoken.2⟩

/-- The tunnel that was there stays, and was accepted before the logout; the one
asked for afterwards is refused. -/
theorem logout_reaches_connections_alice :
    effects (outputs 1 logoutLog) = [.connectTcp "db:5432".toList] ∧
      (effects (outputs 3 logoutLog)).all (fun e => !e.upstream.isSome) = true ∧
      ∃ d ∈ logoutLog, (∃ input, d.call = .input 1 input) ∧ d ∉ logoutLog.take 2 := by
  have hrun : Run (logoutSetup.server (some aliceTokens) .wsOnly).machine logoutLog
      (logoutServer.machine.exec (serverStart aliceTokens) logoutCalls).2 7 :=
    .exec ⟨rfl, rfl⟩ (by decide)
  have hsplit : logoutLog.take 2 ++ logoutEvent ::
      (logoutServer.machine.exec (serverStart aliceTokens) tunnelCalls).1 = logoutLog := rfl
  obtain ⟨hserved, hrefused, hauth, hreceive, hlogout, hlogin, hopen, hdistinct, hvalue, htoken⟩ :
      effects (outputs 1 logoutLog) = [.connectTcp "db:5432".toList] ∧
      (effects (outputs 3 logoutLog)).all (fun e => !e.upstream.isSome) = true ∧
      (∀ e ∈ logoutLog, e.before.shared.auth = some aliceTokens) ∧
      (receive logoutSetup.parsers ⟨reads
        ((logoutSetup.server (some aliceTokens) .wsOnly).own 1 logoutLog), true⟩).toOption.map
          Received.request = some (tunnelRequest (bearer aliceAccess)) ∧
      (serverTokenEvent logoutSetup Token.service aliceTokens logoutEvent).any isLogout = true ∧
      (serverTokenLog logoutSetup Token.service aliceTokens logoutLog).any isLogin = true ∧
      (logoutServer.machine.exec (serverStart aliceTokens) logoutCalls).2.sessions[1]?.isSome ∧
      (Token.families (serverTokenLog logoutSetup Token.service aliceTokens logoutLog)).Nodup ∧
      (tunnelRequest (bearer aliceAccess)).getStr authorization = some (bearer aliceAccess) ∧
      bearerToken (bearer aliceAccess) = some aliceAccess := by decide +kernel
  refine ⟨hserved, hrefused, ?_⟩
  obtain ⟨te, hevent, hrevokes⟩ := (Option.any_eq_true _ _).mp hlogout
  obtain ⟨m, hm, hmint⟩ := List.any_eq_true.mp hlogin
  obtain ⟨phase, hphase⟩ := Option.isSome_iff_exists.mp hopen
  have hmem : .connectTcp "db:5432".toList ∈ effects (outputs 1 logoutLog) := by
    rw [hserved]
    exact List.mem_singleton_self _
  rw [← hsplit] at hrun hmem hdistinct
  obtain ⟨d, hd, hinput, received, user, hreceived, -, -, hbefore⟩ :=
    @logout_reaches_connections logoutSetup aliceTokens .wsOnly Token.service _ _ _ _ _ _ _ _ _ _
      (Platform.crates_urlSafe 0) (Platform.crates_clocksTogether 0) rfl hrun hdistinct
      hevent (revokes_of_isLogout hrevokes) hphase hmem trivial
  rw [hsplit] at hd hreceived hbefore
  rw [hreceived] at hreceive
  have hrequest : received.request = tunnelRequest (bearer aliceAccess) := Option.some.inj hreceive
  rw [hrequest] at hbefore
  refine ⟨d, hd, hinput, hbefore m hm aliceAccess aliceTokens (mints_of_isLogin hmint) ?_
    (hauth d hd) ?_⟩
  · exact ⟨bearer aliceAccess, hvalue, bearerToken_eq_some.mp htoken⟩
  · rintro ⟨target, -, hmem⟩
    cases hmem

end Ws2tcpRouter
