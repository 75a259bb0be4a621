import Ws2tcpRouter.Router
import Ws2tcpRouter.Atomicity

/-!
# The server does what the router does

Every run of the server is a run of the router: each connection asks for at
most one action, in the read that completes its request, and the tokens the
server hands out are those the token service issues.
-/

namespace Ws2tcpRouter

open Sessions (State Call outputs)
open Timed (Run)
open Token (IssuedTokens TokenService)

namespace Setup

variable (env : Setup)

/-- The action a request the router answers itself asks for. -/
def plainAction (draws : Draws) (request : Request) : Option Action :=
  if request.path = healthCheckPath then some (.authorize request)
  else Router.asks draws request

def upgradeAction (bytes : Bytes) : Option Action :=
  (env.parsers.handshake bytes).map .authorize

def headAction (draws : Draws) (head : Bytes) : Option Action :=
  match parsePlainRequest env.parsers head with
  | some request => plainAction draws request
  | none => env.upgradeAction head

/-- The action a connection asks for with an input. -/
def inputAction (phase : ConnPhase) (input : Input env.bufferSize) : Option Action :=
  match phase, input with
  | .readingHead head, .read (some chunk) draws =>
    if chunk = [] then env.headAction draws head
    else if stops (head ++ chunk) then env.headAction draws (head ++ chunk)
    else none
  | .upgrading bytes, .read (some chunk) _ =>
    if chunk = [] then none else env.upgradeAction (bytes ++ chunk)
  | _, _ => none

def action (s : State Shared ConnPhase) : Call Occurrence (Input env.bufferSize) → Option Action
  | .world (.accept _ _) => none
  | .world (.reloadAuthFile file) => some (.reloadAuthFile file)
  | .world (.reloadAnonymousTargetFile file) => some (.reloadAnonymousTargetFile file)
  | .input n input => (s.sessions[n]?).bind fun phase => env.inputAction phase input

end Setup

def Answer.pair : Answer → Option IssuedTokens
  | .token reply => reply.pair
  | _ => none

/-- Only a call of the token service gets tokens. -/
theorem Router.tokenCall_of_pair {σ : Router}
    (h : (Router.step p svc now σ action).2.pair = some pair) :
    ∃ call, Router.tokenCall p σ action = some call := by
  cases action with
  | login authorization familyDraw draw =>
    cases huser : σ.auth.basicUser p authorization with
    | none =>
      simp only [Router.step, huser] at h
      cases h
    | some user => exact ⟨_, by rw [Router.tokenCall, huser]; rfl⟩
  | refresh | revoke => exact ⟨_, rfl⟩
  | _ => cases h

/-- Only an answer with tokens is one of these. -/
def Response.carriesTokens (response : Response) : Bool :=
  response.status = 200 && response.headers.contains (contentType, "application/json".toList)

def Effect.response : Effect → Option Response
  | .respond response _ | .refuse response => some response
  | _ => none

/-- The answers with tokens among what was done. -/
def tokenAnswers (acts : List Act) : List Response :=
  ((effects acts).filterMap Effect.response).filter Response.carriesTokens

-- ---------------------------------------------------------------------------
-- One step
-- ---------------------------------------------------------------------------

theorem not_carriesTokens (h : response.status ≠ 200) :
    Response.carriesTokens response = false := by
  simp [Response.carriesTokens, h]

/-- A step comes to what the router does for the action asked for. -/
structure Comes (p : Platform) (svc : TokenService) (config : AuthConfig) (s : Token.State)
    (now : Instant) (action : Option Action) (turn : Turn) : Prop where
  tokens : turn.tokens = action.elim s fun action =>
    (Router.step p svc now ⟨config, s⟩ action).1.tokens
  auth : ∀ a, action = some a → (Router.step p svc now ⟨config, s⟩ a).1.auth = config
  answers : tokenAnswers turn.acts =
    ((action.bind fun action => (Router.step p svc now ⟨config, s⟩ action).2.pair).map
      tokensResponse).toList

variable {env : Setup} {config : AuthConfig} {svc : TokenService} {s : Token.State} {now : Instant}

theorem asks_auth (h : Router.asks draws request = some action) :
    (Router.step p svc now σ action).1.auth = σ.auth := by
  obtain ⟨endpoint, -, -, -, haction⟩ := Router.asks_eq_some.mp h
  cases endpoint with
  | login =>
    obtain ⟨value, -, rfl⟩ := Option.map_eq_some_iff.mp haction
    simp only [Router.step]
    cases σ.auth.basicUser p value <;> rfl
  | refresh =>
    obtain ⟨token, -, rfl⟩ := Option.map_eq_some_iff.mp haction
    rfl
  | revoke =>
    obtain ⟨token, -, rfl⟩ := Option.map_eq_some_iff.mp haction
    rfl

/-- Nothing is asked for, and nothing with tokens is answered. -/
theorem comes_none (h : tokenAnswers acts = []) (phase : ConnPhase) :
    Comes p svc config s now none ⟨s, phase, acts⟩ :=
  ⟨rfl, by rintro a ⟨⟩, h⟩

theorem comes_authorize (h : tokenAnswers acts = []) (request : Request) (phase : ConnPhase) :
    Comes p svc config s now (some (.authorize request)) ⟨s, phase, acts⟩ := by
  refine ⟨rfl, ?_, h⟩
  rintro a ⟨⟩
  rfl

theorem tokenAnswers_respond (h : Response.carriesTokens response = false) :
    tokenAnswers [.effect (.respond response includeBody)] = [] := by
  simp [tokenAnswers, effects, Act.effect?, Effect.response, h]

theorem tokenAnswers_refuse (h : Response.carriesTokens response = false) :
    tokenAnswers [.effect (.refuse response)] = [] := by
  simp [tokenAnswers, effects, Act.effect?, Effect.response, h]

theorem healthCheck_not_carriesTokens :
    (healthCheckResponse healthCheckMessage).carriesTokens = false := by decide

theorem comes_upgrade (config : AuthConfig) (s : Token.State) (now : Instant) (bytes : Bytes) :
    Comes env.platform svc config s now (env.upgradeAction bytes)
      (env.upgrade (some config) s now bytes) := by
  unfold Setup.upgrade Setup.upgradeAction
  cases env.parsers.handshake bytes with
  | none =>
    dsimp only
    split <;> exact comes_none rfl _
  | some request =>
    dsimp only
    split
    next response hupgrade =>
      refine comes_authorize (tokenAnswers_refuse ?_) request _
      unfold onUpgrade captureRequestedTarget at hupgrade
      split at hupgrade
      next herror =>
        cases hupgrade
        refine not_carriesTokens ?_
        rw [authorizeRequest_error herror]
        decide
      next =>
        split at hupgrade
        next => cases hupgrade
        next =>
          split at hupgrade
          next => cases hupgrade
          next =>
            cases hupgrade
            rfl
    next => exact comes_authorize rfl request _

theorem comes_plain (htokens : config.tokens = some svc) (s : Token.State) (now : Instant)
    (draws : Draws) (request : Request) (phase : ConnPhase) (includeBody : Bool) :
    Comes env.platform svc config s now (Setup.plainAction draws request)
      ⟨(env.answerPlain (some config) s now draws request).1, phase,
        [.effect
          (.respond (env.answerPlain (some config) s now draws request).2 includeBody)]⟩ := by
  unfold Setup.answerPlain Setup.plainAction
  split
  next =>
    split
    next => exact comes_authorize (tokenAnswers_respond healthCheck_not_carriesTokens) request phase
    next herror =>
      refine comes_authorize (tokenAnswers_respond (not_carriesTokens ?_)) request phase
      rw [authorizeRequest_error herror]
      decide
  next =>
    obtain ⟨hdoes, hturns⟩ :=
      @Router.handleAuthRequest_step env.platform svc now config s htokens draws request
    cases hasks : Router.asks draws request with
    | none =>
      obtain ⟨response, hstatus, heq⟩ := hturns hasks
      rw [heq]
      exact comes_none (tokenAnswers_respond (not_carriesTokens hstatus)) phase
    | some action =>
      rw [hdoes action hasks]
      refine ⟨rfl, ?_, ?_⟩
      · rintro a ⟨⟩
        exact asks_auth hasks
      · obtain ⟨endpoint, -, -, -, haction⟩ := Router.asks_eq_some.mp hasks
        rw [Option.bind_some]
        obtain hrefused | ⟨reply, hreply⟩ :=
          @Router.answer_of_action env.platform svc ⟨config, s⟩ draws _ endpoint action now haction
        · rw [hrefused]
          rfl
        · rw [hreply]
          obtain ⟨pair, hpair, htokens⟩ | ⟨hpair, hstatus⟩ := Router.responseOf_token reply
          · rw [htokens, Answer.pair, hpair]
            rfl
          · rw [Answer.pair, hpair]
            exact tokenAnswers_respond (not_carriesTokens hstatus)

theorem comes_onHead (htokens : config.tokens = some svc) (s : Token.State) (now : Instant)
    (draws : Draws) (head : Bytes) :
    Comes env.platform svc config s now (env.headAction draws head)
      (env.onHead (some config) s now draws head) := by
  unfold Setup.onHead Setup.headAction
  cases parsePlainRequest env.parsers head with
  | none => exact comes_upgrade config s now head
  | some request => exact comes_plain htokens s now draws request _ _

theorem serve_tokenAnswers (slots : Slots) : tokenAnswers slots.serve.2 = [] := by
  obtain ⟨route, user⟩ := slots
  cases route with
  | none => rfl
  | some route =>
    cases user with
    | none => cases route <;> rfl
    | some user =>
      cases route with
      | healthCheck => rfl
      | proxy target =>
        simp only [Slots.serve]
        cases target.protocol <;> rfl

/-- The step lemma: a step is the router's for the action its input asks for. -/
theorem comes_turn (htokens : config.tokens = some svc) (s : Token.State) (now : Instant)
    (phase : ConnPhase) (input : Input env.bufferSize) :
    Comes env.platform svc config s now (env.inputAction phase input)
      (env.turn (some config) s now phase input) := by
  have hquiet : ∀ phase, phase.outward = true → env.inputAction phase input = none →
      Comes env.platform svc config s now (env.inputAction phase input)
        (env.turn (some config) s now phase input) := by
    intro phase hout hnone
    obtain ⟨hturn, heffects, -⟩ := turn_outward hout input
    rw [hnone, hturn]
    exact comes_none (by simp [tokenAnswers, heffects]) _
  cases phase with
  | readingHead head =>
    cases input with
    | read chunk draws =>
      cases chunk with
      | none => exact comes_none rfl _
      | some chunk =>
        simp only [Setup.turn, Setup.inputAction]
        split
        next => exact comes_onHead htokens s now draws head
        next =>
          split
          next => exact comes_onHead htokens s now draws (head ++ chunk)
          next => exact comes_none rfl _
    | _ => exact comes_none rfl _
  | upgrading bytes =>
    cases input with
    | read chunk draws =>
      cases chunk with
      | none => exact comes_none rfl _
      | some chunk =>
        simp only [Setup.turn, Setup.inputAction]
        split
        next => exact comes_none rfl _
        next => exact comes_upgrade config s now (bytes ++ chunk)
    | _ => exact comes_none rfl _
  | answering slots =>
    cases input with
    | answered done =>
      cases done with
      | true => exact comes_none (serve_tokenAnswers slots) _
      | false => exact comes_none rfl _
    | _ => exact comes_none rfl _
  | acceptingTls => cases input <;> exact comes_none rfl _
  | closed result => cases input <;> exact comes_none rfl _
  | _ => exact hquiet _ rfl rfl

-- ---------------------------------------------------------------------------
-- Every run
-- ---------------------------------------------------------------------------

/-- The state of the server as the router has it. The credentials are there
whenever they were at the start. -/
def routerOf (config : AuthConfig) (s : State Shared ConnPhase) : Router :=
  ⟨s.shared.auth.getD config, s.shared.tokens⟩

theorem routerOf_of_auth {σ : State Shared ConnPhase} (h : σ.shared.auth = some config') :
    routerOf config σ = ⟨config', σ.shared.tokens⟩ := by
  rw [routerOf, h]
  rfl

/-- What the router did in a run of the server. -/
def routerLog (env : Setup) (svc : TokenService) (config : AuthConfig)
    (log : List (ServerEvent env)) : List Router.Event :=
  log.filterMap (Timed.Event.within (Router.machine env.platform svc) (routerOf config) env.action)

theorem routerLog_none {e : ServerEvent env} (h : env.action e.before e.call = none) :
    routerLog env svc config (e :: log) = routerLog env svc config log := by
  refine List.filterMap_cons_none ?_
  simp only [Timed.Event.within, h]
  rfl

theorem routerLog_some {e : ServerEvent env} (h : env.action e.before e.call = some action) :
    routerLog env svc config (e :: log) =
      ⟨e.time, routerOf config e.before, action,
        (Router.step env.platform svc e.time (routerOf config e.before) action).2⟩ ::
          routerLog env svc config log := by
  refine List.filterMap_cons_some ?_
  simp only [Timed.Event.within, h]
  rfl

variable {mode : ServiceMode}

theorem reload_tokens (auth : AuthConfig) (file : Option Str) :
    (auth.reloadAuthFile p file).1.tokens = auth.tokens ∧
      (auth.reloadAnonymousTargetFile file).1.tokens = auth.tokens := by
  refine ⟨?_, ?_⟩
  · obtain ⟨e, heq⟩ | ⟨entries, changed, -, -, heq⟩ := reloadAuthFile_cases p auth file <;> rw [heq]
  · obtain ⟨e, heq⟩ | ⟨targets, changed, -, heq⟩ := reloadAnonymousTargetFile_cases auth file <;>
      rw [heq]

theorem accept_auth (s : Shared) (listener : Nat) (done : Bool) :
    (s.accept listener done).1.auth = s.auth := by
  obtain heq | ⟨l, -, -, ⟨-, heq⟩ | ⟨-, heq⟩⟩ := s.accept_cases listener done <;> rw [heq]

theorem inputAction_not_awaited {phase : ConnPhase} {input : Input env.bufferSize}
    (h : phase.awaits input = false) : env.inputAction phase input = none := by
  cases phase with
  | readingHead head =>
    cases input with
    | read => cases h
    | _ => rfl
  | upgrading bytes =>
    cases input with
    | read => cases h
    | _ => rfl
  | _ => rfl

/-- The step of the server, seen as the router's. -/
theorem step_router {σ : State Shared ConnPhase} (hauth : σ.shared.auth = some config')
    (htokens : config'.tokens = some svc) (config : AuthConfig) (auth : Option AuthConfig)
    (mode : ServiceMode) (now : Instant) (call : Call Occurrence (Input env.bufferSize)) :
    routerOf config ((env.server auth mode).step now σ call).1 =
        (env.action σ call).elim (routerOf config σ)
          (fun action => (Router.step env.platform svc now (routerOf config σ) action).1) ∧
      (∃ after, ((env.server auth mode).step now σ call).1.shared.auth = some after ∧
        after.tokens = some svc) ∧
      tokenAnswers ((env.server auth mode).step now σ call).2 =
        (((env.action σ call).bind fun action =>
          (Router.step env.platform svc now (routerOf config σ) action).2.pair).map
            tokensResponse).toList := by
  have hview : routerOf config σ = ⟨config', σ.shared.tokens⟩ := routerOf_of_auth hauth
  rw [hview]
  cases call with
  | world occurrence =>
    cases occurrence with
    | accept listener done =>
      have hsame := accept_auth σ.shared listener done
      refine ⟨?_, ⟨config', hsame.trans hauth, htokens⟩, rfl⟩
      have htok := Shared.occur_tokens env.platform σ.shared (.accept listener done)
      exact (congrArg₂ Router.mk (congrArg (Option.getD · config) (hsame.trans hauth)) htok)
    | reloadAuthFile file =>
      have hnew :
          ((env.server auth mode).step now σ (.world (.reloadAuthFile file))).1.shared.auth =
            some (config'.reloadAuthFile env.platform file).1 := by
        change σ.shared.auth.map _ = _
        rw [hauth]
        rfl
      refine ⟨?_, ⟨_, hnew, (reload_tokens config' file).1.trans htokens⟩, rfl⟩
      rw [routerOf, hnew]
      rfl
    | reloadAnonymousTargetFile file =>
      have hnew : ((env.server auth mode).step now σ
          (.world (.reloadAnonymousTargetFile file))).1.shared.auth =
            some (config'.reloadAnonymousTargetFile file).1 := by
        change σ.shared.auth.map _ = _
        rw [hauth]
        rfl
      refine ⟨?_, ⟨_, hnew, (@reload_tokens env.platform config' file).2.trans htokens⟩, rfl⟩
      rw [routerOf, hnew]
      rfl
  | input n input =>
    have htaken : (∃ phase, σ.sessions[n]? = some phase ∧ phase.awaits input = true) ∨
        ((σ.sessions[n]?).any (ConnPhase.awaits · input) = false ∧
          (env.server auth mode).step now σ (.input n input) = (σ, [])) :=
      Sessions.step_input (env.server auth mode) now σ n input
    obtain ⟨phase, hphase, hawaits⟩ | ⟨hnot, hstep⟩ := htaken
    · rw [Sessions.step_taken hphase hawaits, Setup.action, hphase, Option.bind_some]
      have hcomes : Comes env.platform svc config' σ.shared.tokens now (env.inputAction phase input)
        (env.turn (some config') σ.shared.tokens now phase input) := comes_turn htokens _ now _ _
      simp only [Setup.server, hauth]
      refine ⟨?_, ⟨config', rfl, htokens⟩, hcomes.answers⟩
      rw [routerOf, Option.getD_some, hcomes.tokens]
      cases haction : env.inputAction phase input with
      | none => rfl
      | some action =>
        have hmk : ∀ ρ : Router, ρ.auth = config' → ⟨config', ρ.tokens⟩ = ρ := by
          rintro ⟨auth, tokens⟩ rfl
          rfl
        exact hmk _ (hcomes.auth action haction)
    · have hnone : env.action σ (.input n input) = none := by
        rw [Setup.action]
        cases hphase : σ.sessions[n]? with
        | none => rfl
        | some phase =>
          rw [hphase] at hnot
          exact inputAction_not_awaited hnot
      rw [hnone, hstep]
      exact ⟨hview, ⟨config', hauth, htokens⟩, rfl⟩

theorem run_auth (htokens : config.tokens = some svc)
    (h : Run (env.server (some config) mode).machine log σ t) :
    ∃ config', σ.shared.auth = some config' ∧ config'.tokens = some svc := by
  refine h.invariant (fun _ σ _ => ∃ config', σ.shared.auth = some config' ∧
    config'.tokens = some svc) ?_ ?_
  · rintro t σ ⟨hshared, -⟩
    exact ⟨config, congrArg Shared.auth hshared, htokens⟩
  · rintro log σ last now call - ⟨config', hauth, htokens'⟩ -
    exact (step_router hauth htokens' config (some config) mode now call).2.1

theorem run_router (htokens : config.tokens = some svc)
    (h : Run (env.server (some config) mode).machine log σ t) :
    ∃ t', t' ≤ t ∧ Run (Router.machine env.platform svc) (routerLog env svc config log)
      (routerOf config σ) t' := by
  refine h.within_run ?_ ?_
  · rintro t σ ⟨hshared, -⟩
    have hshared : σ.shared = ⟨some config, .new t, mode.listeners⟩ := hshared
    rw [routerOf, hshared]
    exact ⟨htokens, rfl⟩
  · intro log σ last hrun now call
    obtain ⟨config', hauth, htokens'⟩ := run_auth htokens hrun
    exact (step_router hauth htokens' config (some config) mode now call).1

/-- The answers with tokens are, in order, the pairs the router issued. -/
theorem run_answers (htokens : config.tokens = some svc)
    (h : Run (env.server (some config) mode).machine log σ t) :
    log.flatMap (fun e => tokenAnswers e.reply) =
      ((routerLog env svc config log).filterMap fun e => e.reply.pair).map tokensResponse := by
  induction h with
  | start _ => rfl
  | @call log σ last now call hrun _ ih =>
    obtain ⟨config', hauth, htokens'⟩ := run_auth htokens hrun
    have hanswers := (step_router hauth htokens' config (some config) mode now call).2.2
    rw [List.flatMap_cons, ih]
    change tokenAnswers ((env.server (some config) mode).step now σ call).2 ++ _ = _
    rw [hanswers]
    cases haction : env.action σ call with
    | none =>
      rw [routerLog_none haction]
      rfl
    | some action =>
      rw [routerLog_some haction, List.filterMap_cons, Option.bind_some]
      dsimp only
      cases (Router.step env.platform svc now (routerOf config σ) action).2.pair <;> rfl

/-- Every run of the server is a run of the router, reloads included: the
credentials and the token store are the router's, and the answers with tokens
are, in order, the pairs the router issued. -/
theorem server_refines_router (htokens : config.tokens = some svc)
    (h : Run (env.server (some config) mode).machine log σ t) :
    (∃ t', t' ≤ t ∧
      Run (Router.machine env.platform svc) (routerLog env svc config log) (routerOf config σ) t') ∧
    σ.shared.auth = some (routerOf config σ).auth ∧
    σ.shared.tokens = (routerOf config σ).tokens ∧
    log.flatMap (fun e => tokenAnswers e.reply) =
      ((routerLog env svc config log).filterMap fun e => e.reply.pair).map tokensResponse := by
  refine ⟨run_router htokens h, ?_, rfl, run_answers htokens h⟩
  obtain ⟨config', hauth, -⟩ := run_auth htokens h
  rw [routerOf, hauth]
  rfl

def aliceTokens : AuthConfig := { aliceOnly with tokens := some Token.service }

def loginRequest : Request :=
  ⟨"POST".toList, "/auth/token".toList,
    [(authorization, Text.utf8 "Basic YWxpY2U6c2VjcmV0".toList)]⟩

def loginServed : List (Instant × Call Occurrence (Input 4)) :=
  [(1, .input 0 (.read (some loginRequest.head) ⟨some 1, some (Token.nthDraw 1)⟩)),
    (0, .world (.accept 0 true))]

def loginLog : List (ServerEvent (setupFor [loginRequest])) :=
  (((setupFor [loginRequest]).server (some aliceTokens) .wsOnly).machine.exec
    (serverStart aliceTokens) loginServed).1

/-- What one login is answered is what the router issued. -/
theorem server_refines_router_login :
    loginLog.flatMap (fun e => tokenAnswers e.reply) =
      [tokensResponse (Token.service.pairOf (.crates 0) 1 1 "alice".toList Token.maxFamilyLifetime
        (Token.nthDraw 1))] := by
  have hrun : Run ((setupFor [loginRequest]).server (some aliceTokens) .wsOnly).machine loginLog
      (((setupFor [loginRequest]).server (some aliceTokens) .wsOnly).machine.exec
        (serverStart aliceTokens) loginServed).2 1 :=
    .exec ⟨rfl, rfl⟩ (by decide)
  have hsame := (@server_refines_router (setupFor [loginRequest]) aliceTokens Token.service .wsOnly
    _ _ _ rfl hrun).2.2.2
  rw [hsame]
  decide +kernel

end Ws2tcpRouter
