import Ws2tcpRouter.Exchange

/-!
# Behind every connection a password

Whoever is served on a path that is not open to all shows the credentials of a
user, or a token; and a token that this server sent goes back, over however
many refreshes and connections, to a login with the credentials of that user.
-/

namespace Ws2tcpRouter

open Sessions (State Call outputs)
open Timed (Run)
open Token (IssuedTokens TokenService)

-- ---------------------------------------------------------------------------
-- Who logged in
-- ---------------------------------------------------------------------------

namespace Token

variable {p : Platform} {svc : TokenService}

/-- A login of the user that was given tokens. -/
def LoginOf (user : Str) (e : Event) : Prop :=
  ∃ familyDraw draw pair, e.call = .login user familyDraw draw ∧ e.reply.pair = some pair

/-- Every live record is of a user who logged in. -/
def OfLogins (log : List Event) (s : State) : Prop :=
  ∀ hash record, s.refresh.lookup hash = some record → ∃ e ∈ log, LoginOf record.user e

/-- A pair that is issued is for a user who logs in, or has. -/
theorem OfLogins.issues (h : OfLogins log s) (htrans : Transition p svc now s call s' reply)
    (hpair : reply.pair = some pair) :
    ∃ family user deadline, pair.accessToken = svc.mintAccess p now family user ∧
      s'.refresh.lookup (hashToken p pair.refreshToken) =
        some (svc.recordOf now family user deadline) ∧
      issued ⟨now, s, call, reply⟩ = some pair.refreshToken ∧
      ∃ e ∈ ⟨now, s, call, reply⟩ :: log, LoginOf user e := by
  obtain ⟨family, user, deadline, bytes, rfl, hfiled, hissued, huser⟩ := htrans.issues hpair
  refine ⟨family, user, deadline, rfl, hfiled, hissued, ?_⟩
  obtain ⟨familyDraw, draw, rfl⟩ | rfl := huser
  · exact ⟨_, List.mem_cons_self, familyDraw, draw, _, rfl, hpair⟩
  · cases call with
    | refresh token userExists draw =>
      obtain ⟨record, hlive, -, rfl, -⟩ := htrans.redeemed
      obtain ⟨e, he, hlogin⟩ := h _ record hlive
      exact ⟨e, List.mem_cons_of_mem _ he, hlogin⟩
    | _ => cases htrans

theorem OfLogins.step (h : OfLogins log s) (htrans : Transition p svc now s call s' reply) :
    OfLogins (⟨now, s, call, reply⟩ :: log) s' := by
  intro hash record hr
  by_cases hnew : ∀ token, issued ⟨now, s, call, reply⟩ = some token → hashToken p token ≠ hash
  · obtain ⟨e, he, hlogin⟩ := h hash record (htrans.lookup_back hnew hr)
    exact ⟨e, List.mem_cons_of_mem _ he, hlogin⟩
  · push Not at hnew
    obtain ⟨token, hissued, rfl⟩ := hnew
    obtain ⟨pair, hpair, rfl⟩ := pair_of_issued hissued
    obtain ⟨family, user, deadline, -, hfiled, -, hlogin⟩ := h.issues htrans hpair
    cases hfiled.symm.trans hr
    exact hlogin

theorem ofLogins (h : Run (machine p svc) log s t) : OfLogins log s := by
  refine h.invariant (fun log s _ => OfLogins log s) ?_ ?_
  · rintro t s rfl hash record hr
    cases hr
  · intro log s last now call _ hs _
    exact hs.step (step_transition p svc now s call)

/-- The access token of a pair was minted for a user who logged in. -/
theorem pair_ofLogins (h : Run (machine p svc) (e :: log) s t) (hpair : e.reply.pair = some pair) :
    ∃ family user, pair.accessToken = svc.mintAccess p e.time family user ∧
      ∃ e' ∈ e :: log, LoginOf user e' := by
  obtain ⟨last, hrun, -, -, hreply, -⟩ := h.cons_inv
  have htrans := step_transition p svc e.time e.before e.call
  rw [show (step p svc e.time e.before e.call).2 = e.reply from hreply.symm] at htrans
  obtain ⟨family, user, -, haccess, -, -, hlogin⟩ := (ofLogins hrun).issues htrans hpair
  exact ⟨family, user, haccess, hlogin⟩

end Token

-- ---------------------------------------------------------------------------
-- The logins of a server
-- ---------------------------------------------------------------------------

variable {env : Setup} {config : AuthConfig} {svc : TokenService} {mode : ServiceMode}

/-- The pair that the service issued at an event of the server. -/
def Sent (env : Setup) (svc : TokenService) (config : AuthConfig) (pair : IssuedTokens)
    (e : ServerEvent env) : Prop :=
  ∃ te, serverTokenEvent env svc config e = some te ∧ te.reply.pair = some pair

/-- The responses with tokens are those of the pairs that were sent. -/
theorem sent_iff (htokens : config.tokens = some svc)
    (h : Run (env.server (some config) mode).machine log σ t) (he : e ∈ log) :
    response ∈ tokenAnswers e.reply ↔
      ∃ pair, Sent env svc config pair e ∧ response = tokensResponse pair := by
  constructor
  · intro hresponse
    obtain ⟨te, pair, hevent, hpair, heq⟩ := answers_issued htokens h he hresponse
    exact ⟨pair, ⟨te, hevent, hpair⟩, heq⟩
  · rintro ⟨pair, ⟨te, hevent, hpair⟩, rfl⟩
    rw [pair_sent htokens h he hevent hpair]
    exact List.mem_singleton_self _

/-- A login of the service is one of a request with the credentials of the user. -/
theorem login_loggedIn (htokens : config.tokens = some svc)
    (h : Run (env.server (some config) mode).machine log σ t) (he : e ∈ log)
    (hevent : serverTokenEvent env svc config e = some te) (hlogin : Token.LoginOf user te) :
    LoggedIn user e := by
  obtain ⟨familyDraw, draw, pair, hcall, hpair⟩ := hlogin
  have hsent := pair_sent htokens h he hevent hpair
  obtain ⟨config', request, draws, action, -, hauth, hanswered, hasks, haction, -⟩ :=
    answered_event htokens h he (by rw [hsent]; exact List.cons_ne_nil _ _)
  obtain ⟨action', call, haction', hcall', rfl⟩ := serverTokenEvent_inv hevent
  obtain rfl : action' = action := Option.some.inj (haction'.symm.trans haction)
  rw [show call = _ from hcall, routerOf_of_auth hauth] at hcall'
  obtain ⟨endpoint, hendpoint, -, -, hdoes⟩ := Router.asks_eq_some.mp hasks
  have hpath : request.path = endpoint.path := endpointOf_eq_some.mp hendpoint
  cases endpoint with
  | login =>
    obtain ⟨value, hvalue, rfl⟩ := Option.map_eq_some_iff.mp hdoes
    obtain ⟨user', huser, heq⟩ := Option.map_eq_some_iff.mp hcall'
    cases heq
    exact ⟨request, config', value, hanswered, hpath, hauth, hvalue, huser⟩
  | refresh =>
    obtain ⟨token, -, rfl⟩ := Option.map_eq_some_iff.mp hdoes
    cases hcall'
  | revoke =>
    obtain ⟨token, -, rfl⟩ := Option.map_eq_some_iff.mp hdoes
    cases hcall'

/-- The access token of a pair that was sent is accepted only as a user who
logged in, then or before. -/
theorem sent_loggedIn (hl : env.platform.urlSafe.Lawful) (htokens : config.tokens = some svc)
    (h : Run (env.server (some config) mode).machine (newer ++ m :: older) σ t)
    (hsent : Sent env svc config pair m)
    (hverify : svc.verifyAccess env.platform s now pair.accessToken = some user) :
    ∃ e ∈ m :: older, LoggedIn user e := by
  obtain ⟨te, hevent, hpair⟩ := hsent
  obtain ⟨_, _, holder, -⟩ := h.older
  obtain ⟨_, -, hrun⟩ := server_tokens htokens holder
  have hlog : serverTokenLog env svc config (m :: older) =
      te :: serverTokenLog env svc config older := List.filterMap_cons_some hevent
  rw [hlog] at hrun
  obtain ⟨family, user', haccess, te', hte', hlogin⟩ := Token.pair_ofLogins hrun hpair
  rw [haccess, Token.TokenService.verifyAccess_mintAccess hl,
    Option.ite_none_right_eq_some] at hverify
  obtain rfl : user' = user := Option.some.inj hverify.2
  rw [← hlog] at hte'
  obtain ⟨e, he, hevent'⟩ := List.mem_filterMap.mp hte'
  exact ⟨e, he, login_loggedIn htokens holder he hevent' hlogin⟩

-- ---------------------------------------------------------------------------
-- What is shown for a connection
-- ---------------------------------------------------------------------------

/-- Wherever in the run the token was sent, the user had logged in by then. -/
def Backed (env : Setup) (svc : TokenService) (config : AuthConfig) (log : List (ServerEvent env))
    (user token : Str) : Prop :=
  ∀ newer m older pair, log = newer ++ m :: older → Sent env svc config pair m →
    pair.accessToken = token → ∃ e ∈ m :: older, LoggedIn user e

/-- A request that is let in on a closed path shows the credentials of the user
it is let in as, or a token. -/
theorem authorizeRequest_shows (h : authorizeRequest p (some auth) s now request = .ok user)
    (hclosed : ¬auth.AnonymousTo request.path) :
    ∃ value, request.getStr authorization = some value ∧
      (auth.basicUser p value = some user ∨
        ∃ token, BearerForm value token ∧ auth.verifyAccessToken p s now token = some user) := by
  simp only [authorizeRequest, mt allowsAnonymousTarget_eq_true.mp hclosed] at h
  cases hvalue : request.getStr authorization with
  | none =>
    rw [hvalue] at h
    cases h
  | some value =>
    refine ⟨value, rfl, ?_⟩
    rw [hvalue] at h
    cases hbearer : bearerToken value with
    | some token =>
      refine .inr ⟨token, bearerToken_eq_some.mp hbearer, ?_⟩
      cases hverify : auth.verifyAccessToken p s now token with
      | none => simp [hbearer, hverify] at h
      | some user' =>
        simp only [hbearer, hverify, Bool.false_eq_true, if_false, Except.ok.injEq] at h
        rw [h]
    | none =>
      refine .inl ?_
      cases hbasic : auth.basicUser p value with
      | none => simp [hbearer, hbasic] at h
      | some user' =>
        simp only [hbearer, hbasic, Bool.false_eq_true, if_false, Except.ok.injEq] at h
        rw [h]

/-- Behind every connection that is served on a closed path stands a password:
it shows the credentials of a user who is configured when it is let in, or an
access token that is accepted as such a user; and wherever in the run the server
sent that token, in answer to whichever login or refresh, the user had logged in
with their credentials by then. -/
theorem served_logged_in (hl : env.platform.urlSafe.Lawful) (htokens : config.tokens = some svc)
    (h : Run (env.server (some config) mode).machine log σ t)
    (hk : σ.sessions[n]? = some phase) (he : effect ∈ effects (outputs n log))
    (hg : effect.Guarded) :
    ∃ d ∈ log, (∃ input, d.call = .input n input) ∧ ∃ received config' user,
      receive env.parsers ⟨reads ((env.server (some config) mode).own n log), true⟩ = .ok received ∧
      d.before.shared.auth = some config' ∧
      authorizeRequest env.platform (some config') d.before.shared.tokens d.time
        received.request = .ok user ∧
      (config'.AnonymousTo received.request.path ∨
        ∃ value, received.request.getStr authorization = some value ∧
          (config'.basicUser env.platform value = some user ∨
            ∃ token, BearerForm value token ∧ config'.hasUser env.platform user = true ∧
              Backed env svc config log user token)) := by
  obtain ⟨d, hd, hinput, received, user, hreceived, huser, -⟩ := served_at h hk he hg
  obtain ⟨_, _, hrun, -, -⟩ := h.event hd
  obtain ⟨config', hauth, htokens'⟩ := run_auth htokens hrun
  rw [hauth] at huser
  refine ⟨d, hd, hinput, received, config', user, hreceived, hauth, huser, ?_⟩
  refine or_iff_not_imp_left.mpr fun hclosed => ?_
  obtain ⟨value, hvalue, hbasic | ⟨token, hform, hverify⟩⟩ := authorizeRequest_shows huser hclosed
  · exact ⟨value, hvalue, .inl hbasic⟩
  · obtain ⟨svc', hsvc, hverify, hexists⟩ := verifyAccessToken_eq_some.mp hverify
    cases hsvc.symm.trans htokens'
    refine ⟨value, hvalue, .inr ⟨token, hform, hexists, ?_⟩⟩
    rintro newer m older pair rfl hsent rfl
    exact sent_loggedIn hl htokens h hsent hverify

def tunnelLog : List (ServerEvent logoutSetup) :=
  (logoutServer.machine.exec (serverStart aliceTokens) tunnelCalls).1

/-- The token of the tunnel was sent at 1, and by then alice had logged in. -/
theorem served_logged_in_alice :
    effects (outputs 1 tunnelLog) = [.connectTcp "db:5432".toList] ∧
      ∃ e ∈ tunnelLog.drop 4, LoggedIn "alice".toList e := by
  have hrun : Run (logoutSetup.server (some aliceTokens) .wsOnly).machine tunnelLog
      (logoutServer.machine.exec (serverStart aliceTokens) tunnelCalls).2 4 :=
    .exec ⟨rfl, rfl⟩ (by decide)
  obtain ⟨hserved, hauth, huser, hreceive, hsent, hopen, hvalue, htoken, hbasic⟩ :
      effects (outputs 1 tunnelLog) = [.connectTcp "db:5432".toList] ∧
      (∀ e ∈ tunnelLog, e.before.shared.auth = some aliceTokens) ∧
      (∀ e ∈ tunnelLog, (authorizeRequest (.crates 0) (some aliceTokens) e.before.shared.tokens
        e.time (tunnelRequest (bearer aliceAccess))).toOption.all (· = "alice".toList) = true) ∧
      (receive logoutSetup.parsers ⟨reads
        ((logoutSetup.server (some aliceTokens) .wsOnly).own 1 tunnelLog), true⟩).toOption.map
          Received.request = some (tunnelRequest (bearer aliceAccess)) ∧
      ((tunnelLog[4]?.bind (serverTokenEvent logoutSetup Token.service aliceTokens)).bind
        (·.reply.pair)).map IssuedTokens.accessToken = some aliceAccess ∧
      (logoutServer.machine.exec (serverStart aliceTokens) tunnelCalls).2.sessions[1]?.isSome ∧
      (tunnelRequest (bearer aliceAccess)).getStr authorization = some (bearer aliceAccess) ∧
      bearerToken (bearer aliceAccess) = some aliceAccess ∧
      aliceTokens.basicUser (.crates 0) (bearer aliceAccess) = none := by decide +kernel
  refine ⟨hserved, ?_⟩
  obtain ⟨phase, hphase⟩ := Option.isSome_iff_exists.mp hopen
  have hmem : .connectTcp "db:5432".toList ∈ effects (outputs 1 tunnelLog) := by
    rw [hserved]
    exact List.mem_singleton_self _
  obtain ⟨d, hd, -, received, config', user, hreceived, hconfig, hlet, hshown⟩ :=
    @served_logged_in logoutSetup aliceTokens Token.service .wsOnly _ _ _ _ _ _
      (Platform.crates_urlSafe 0) rfl hrun hphase hmem trivial
  rw [hreceived] at hreceive
  have hrequest : received.request = tunnelRequest (bearer aliceAccess) := Option.some.inj hreceive
  cases hconfig.symm.trans (hauth d hd)
  rw [hrequest] at hlet hshown
  obtain rfl : user = "alice".toList := by
    have halice := huser d hd
    rw [show authorizeRequest (.crates 0) _ _ _ _ = _ from hlet] at halice
    exact of_decide_eq_true halice
  obtain ⟨target, -, hanonymous⟩ | ⟨value, hvalue', hshown⟩ := hshown
  · cases hanonymous
  cases hvalue.symm.trans hvalue'
  obtain hbasic' | ⟨token, hform, -, hbacked⟩ := hshown
  · cases hbasic.symm.trans hbasic'
  cases htoken.symm.trans (bearerToken_eq_some.mpr hform)
  obtain ⟨pair, hpair, haccess⟩ := Option.map_eq_some_iff.mp hsent
  obtain ⟨te, hevent, hpair⟩ := Option.bind_eq_some_iff.mp hpair
  exact hbacked [_, _, _, _] _ _ pair rfl ⟨te, hevent, hpair⟩ haccess

end Ws2tcpRouter
