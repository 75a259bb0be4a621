import Ws2tcpRouter.Proxy
import Ws2tcpRouter.Token.Step

/-!
# The router as a machine

The credentials and the token store as one machine: the token endpoints, the
authorization of requests, and the reloading of the two files. The handler of
the token endpoints does what the machine does for the action a request asks
for, and turns every other request away.
-/

namespace Ws2tcpRouter

open Timed (Run)
open Token (tokenBytes IssuedTokens TokenService)

structure Router where
  auth : AuthConfig
  tokens : Token.State

inductive Action
  | login (authorization : Str) (familyDraw : Option UInt64) (draw : Option (Block tokenBytes))
  | refresh (token : Str) (draw : Option (Block tokenBytes))
  | revoke (token : Str)
  | authorize (request : Request)
  | reloadAuthFile (file : Option Str)
  | reloadAnonymousTargetFile (file : Option Str)

inductive Answer
  /-- A login whose credential does not match. -/
  | refused
  | token (reply : Token.Reply)
  | authorize (r : Except Response Str)
  | reload (r : Except AuthFileError Bool)
  deriving DecidableEq

namespace Router

section
variable (p : Platform) (svc : TokenService)

def ask (now : Instant) (σ : Router) (call : Token.Call) : Router × Answer :=
  let r := Token.step p svc now σ.tokens call
  ({ σ with tokens := r.1 }, .token r.2)

def step (now : Instant) (σ : Router) : Action → Router × Answer
  | .login authorization familyDraw draw =>
    match σ.auth.basicUser p authorization with
    | none => (σ, .refused)
    | some user => ask p svc now σ (.login user familyDraw draw)
  | .refresh token draw => ask p svc now σ (.refresh token (σ.auth.hasUser p) draw)
  | .revoke token => ask p svc now σ (.revoke token)
  | .authorize request =>
    (σ, .authorize (authorizeRequest p (some σ.auth) σ.tokens now request))
  | .reloadAuthFile file =>
    let r := σ.auth.reloadAuthFile p file
    ({ σ with auth := r.1 }, .reload r.2)
  | .reloadAnonymousTargetFile file =>
    let r := σ.auth.reloadAnonymousTargetFile file
    ({ σ with auth := r.1 }, .reload r.2)

def machine : Timed.Machine Instant Router Action Answer where
  start t σ := σ.auth.tokens = some svc ∧ σ.tokens = Token.State.new t
  step := step p svc

def tokenCall (σ : Router) : Action → Option Token.Call
  | .login authorization familyDraw draw =>
    (σ.auth.basicUser p authorization).map fun user => .login user familyDraw draw
  | .refresh token draw => some (.refresh token (σ.auth.hasUser p) draw)
  | .revoke token => some (.revoke token)
  | _ => none

end

abbrev Event := Timed.Event Instant Router Action Answer

variable {p : Platform} {svc : TokenService} {σ : Router} {user : Str} {pair : IssuedTokens}

theorem step_token (h : tokenCall p σ action = some call) :
    step p svc now σ action = ask p svc now σ call := by
  cases action with
  | login authorization familyDraw draw =>
    obtain ⟨user, huser, rfl⟩ := Option.map_eq_some_iff.mp h
    simp only [step, huser]
  | refresh token draw =>
    cases h
    rfl
  | revoke token =>
    cases h
    rfl
  | _ => cases h

theorem step_tokens (now : Instant) (σ : Router) (action : Action) :
    (step p svc now σ action).1.tokens =
      (tokenCall p σ action).elim σ.tokens fun call => (Token.step p svc now σ.tokens call).1 := by
  cases h : tokenCall p σ action with
  | some call => rw [step_token h]; rfl
  | none =>
    cases action with
    | login authorization familyDraw draw =>
      simp only [step, Option.map_eq_none_iff.mp h]
      rfl
    | refresh => cases h
    | revoke => cases h
    | _ => rfl

/-- What the token service did in an event. -/
def tokenEvent (p : Platform) (svc : TokenService) : Event → Option Token.Event :=
  Timed.Event.within (Token.machine p svc) Router.tokens (tokenCall p)

def tokenLog (p : Platform) (svc : TokenService) (log : List Event) : List Token.Event :=
  log.filterMap (tokenEvent p svc)

theorem run_tokens (h : Run (machine p svc) log σ t) :
    ∃ t', t' ≤ t ∧ Run (Token.machine p svc) (tokenLog p svc log) σ.tokens t' := by
  have hstart : ∀ t σ, (machine p svc).start t σ → (Token.machine p svc).start t σ.tokens :=
    fun _ _ hs => hs.2
  exact h.within hstart step_tokens

-- ---------------------------------------------------------------------------
-- The token endpoints
-- ---------------------------------------------------------------------------

def Endpoint.action (draws : Draws) (value : Option Str) : Endpoint → Option Action
  | .login => value.map fun value => .login value draws.family draws.token
  | .refresh => (value.bind bearerToken).map fun token => .refresh token draws.token
  | .revoke => (value.bind bearerToken).map .revoke

/-- The action a request to a token endpoint asks for, if it is in form. -/
def asks (draws : Draws) (request : Request) : Option Action :=
  match endpointOf request.path with
  | none => none
  | some endpoint =>
    if request.method ≠ "POST".toList then none
    else if declaresBody request then none
    else Endpoint.action draws (request.getStr authorization) endpoint

theorem asks_eq_some : asks draws request = some action ↔
    ∃ endpoint, endpointOf request.path = some endpoint ∧ request.method = "POST".toList ∧
      declaresBody request = false ∧
      Endpoint.action draws (request.getStr authorization) endpoint = some action := by
  unfold asks
  cases endpointOf request.path with
  | none => simp
  | some endpoint => cases declaresBody request <;> simp

def responseOf : Answer → Response
  | .refused => unauthorizedResponse true none
  | .token (.login (.ok issued)) | .token (.refresh (.ok (_, issued))) => tokensResponse issued
  | .token (.refresh (.error .invalid)) | .token (.refresh (.error (.reused _))) =>
    unauthorizedResponse false (some bearerInvalidChallenge)
  | .token (.login (.error e)) | .token (.refresh (.error e)) => tokenErrorResponse e
  | .authorize (.error response) => response
  | _ => noStore (textResponse 204 [])

theorem turned_away {holds : α → Prop} (h : response.status ≠ 200) (s : Token.State) :
    (∀ action, none = some action → holds action) ∧
      (none = (none : Option α) → ∃ r : Response, r.status ≠ 200 ∧ (s, response) = (s, r)) := by
  refine ⟨?_, fun _ => ⟨response, h, rfl⟩⟩
  rintro action ⟨⟩

/-- A token endpoint does what the machine does for the action asked for, and
turns every other request away. -/
theorem handleAuthRequest_step {auth : AuthConfig} {s : Token.State}
    (htokens : auth.tokens = some svc) (draws : Draws) (request : Request) :
    (∀ action, asks draws request = some action →
      handleAuthRequest p (some auth) s now draws request =
        ((step p svc now ⟨auth, s⟩ action).1.tokens,
          responseOf (step p svc now ⟨auth, s⟩ action).2)) ∧
    (asks draws request = none → ∃ response, response.status ≠ 200 ∧
      handleAuthRequest p (some auth) s now draws request = (s, response)) := by
  simp only [handleAuthRequest, asks, htokens, Option.bind_some, Option.map_some]
  cases endpointOf request.path with
  | none => exact turned_away (by decide) s
  | some endpoint =>
    dsimp only
    split
    next => exact turned_away (by decide) s
    next =>
      split
      next => exact turned_away (by decide) s
      next =>
        cases endpoint with
        | login =>
          cases request.getStr authorization with
          | none => exact turned_away (by decide) s
          | some value =>
            refine ⟨?_, by rintro ⟨⟩⟩
            rintro action ⟨⟩
            simp only [step, Option.bind_some]
            cases auth.basicUser p value with
            | none => rfl
            | some user =>
              simp only [ask, Token.step]
              rcases svc.login p s now user draws.family draws.token with ⟨s', e | issued⟩ <;> rfl
        | refresh =>
          simp only [Endpoint.action]
          cases (request.getStr authorization).bind bearerToken with
          | none => exact turned_away (by decide) s
          | some token =>
            refine ⟨?_, by rintro ⟨⟩⟩
            rintro action ⟨⟩
            simp only [step, ask, Token.step]
            rcases svc.refresh p s now token (auth.hasUser p) draws.token with
              ⟨s', e | ⟨user, issued⟩⟩
            · cases e <;> rfl
            · rfl
        | revoke =>
          simp only [Endpoint.action]
          cases (request.getStr authorization).bind bearerToken with
          | none => exact turned_away (by decide) s
          | some token =>
            refine ⟨?_, by rintro ⟨⟩⟩
            rintro action ⟨⟩
            rfl

theorem responseOf_token (reply : Token.Reply) :
    (∃ pair, reply.pair = some pair ∧ responseOf (.token reply) = tokensResponse pair) ∨
      (reply.pair = none ∧ (responseOf (.token reply)).status ≠ 200) := by
  cases reply with
  | login r =>
    cases r with
    | ok pair => exact .inl ⟨pair, rfl, rfl⟩
    | error e => cases e <;> exact .inr ⟨rfl, nofun⟩
  | refresh r =>
    cases r with
    | ok r => exact .inl ⟨r.2, rfl, rfl⟩
    | error e => cases e <;> exact .inr ⟨rfl, nofun⟩
  | revoke known => exact .inr ⟨rfl, nofun⟩
  | verifyAccess user => exact .inr ⟨rfl, nofun⟩

theorem answer_of_action (h : Endpoint.action draws value endpoint = some action) :
    (step p svc now σ action).2 = .refused ∨
      ∃ reply, (step p svc now σ action).2 = .token reply := by
  cases endpoint with
  | login =>
    obtain ⟨value, -, rfl⟩ := Option.map_eq_some_iff.mp h
    simp only [step]
    cases σ.auth.basicUser p value with
    | none => exact .inl rfl
    | some user => exact .inr ⟨_, rfl⟩
  | refresh =>
    obtain ⟨token, -, rfl⟩ := Option.map_eq_some_iff.mp h
    exact .inr ⟨_, rfl⟩
  | revoke =>
    obtain ⟨token, -, rfl⟩ := Option.map_eq_some_iff.mp h
    exact .inr ⟨_, rfl⟩

/-- The handler turns a request away, or does the action it asks for. -/
theorem handleAuthRequest_cases (p : Platform) (auth : Option AuthConfig) (s : Token.State)
    (now : Instant) (draws : Draws) (request : Request) :
    (∃ response, response.status ≠ 200 ∧
      handleAuthRequest p auth s now draws request = (s, response)) ∨
    ∃ config svc action, auth = some config ∧ config.tokens = some svc ∧
      asks draws request = some action ∧
      handleAuthRequest p auth s now draws request =
        ((step p svc now ⟨config, s⟩ action).1.tokens,
          responseOf (step p svc now ⟨config, s⟩ action).2) := by
  cases auth with
  | none => exact .inl ⟨_, by decide, rfl⟩
  | some config =>
    cases htokens : config.tokens with
    | none =>
      refine .inl ⟨textResponse 404 "not found".toList, by decide, ?_⟩
      simp only [handleAuthRequest, htokens, Option.bind_some, Option.map_none]
    | some svc =>
      obtain ⟨hdoes, hturns⟩ := @handleAuthRequest_step p svc now config s htokens draws request
      cases hasks : asks draws request with
      | none => exact .inl (hturns hasks)
      | some action => exact .inr ⟨config, svc, action, rfl, htokens, rfl, hdoes action hasks⟩

end Router

end Ws2tcpRouter
