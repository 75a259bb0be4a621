import Ws2tcpRouter.Apart
import Ws2tcpRouter.Gate
import Ws2tcpRouter.Token.Redemption
import Ws2tcpRouter.Token.Refusal

/-!
# What tokens are sent for

A server sends tokens in answer to a login with credentials in force, or for a
refresh token; and however its connections are interleaved, no refresh token is
exchanged twice.
-/

namespace Ws2tcpRouter

open Sessions (State Call)
open Timed (Run)
open Token (Fresh TokenService)

-- ---------------------------------------------------------------------------
-- The tokens a service redeems
-- ---------------------------------------------------------------------------

namespace Token

variable {p : Platform} {svc : TokenService} {token : Str}

/-- The token a call exchanged for a pair. -/
def redeems (e : Event) : Option Str :=
  match e.call, e.reply with
  | .refresh token _ _, .refresh (.ok _) => some token
  | _, _ => none

theorem redeems_eq_some {e : Event} : redeems e = some token ↔
    ∃ userExists draw user pair, e.call = .refresh token userExists draw ∧
      e.reply = .refresh (.ok (user, pair)) := by
  unfold redeems
  split
  next token' userExists draw r hcall hreply =>
    obtain ⟨user, pair⟩ := r
    simp [hcall, hreply]
  next hnot =>
    refine iff_of_false (by simp) ?_
    rintro ⟨userExists, draw, user, pair, hcall, hreply⟩
    exact hnot _ _ _ _ hcall hreply

/-- A refresh that answers with a pair redeemed its token. -/
theorem redeems_of_pair {e : Event} (hcall : e.call = .refresh token userExists draw)
    (hreply : e.reply = .refresh r) (hpair : e.reply.pair = some pair) :
    redeems e = some token := by
  cases r with
  | ok issued => exact redeems_eq_some.mpr ⟨_, _, issued.1, issued.2, hcall, hreply⟩
  | error =>
    rw [hreply] at hpair
    cases hpair

theorem pair_of_issued {e : Event} (h : issued e = some token) :
    ∃ pair, e.reply.pair = some pair ∧ pair.refreshToken = token := by
  unfold issued at h
  split at h
  next pair _ hreply => exact ⟨pair, by rw [hreply]; rfl, Option.some.inj h⟩
  next user pair _ hreply => exact ⟨pair, by rw [hreply]; rfl, Option.some.inj h⟩
  next => cases h

/-- A token that is redeemed was issued, and not used since. -/
theorem redeems_unused (h : Run (machine p svc) (e :: log) s t) (hf : Fresh p (e :: log))
    (he : redeems e = some token) : token ∈ issuedTokens log ∧ token ∉ (ledger log).used := by
  obtain ⟨userExists, draw, user, pair, hcall, hreply⟩ := redeems_eq_some.mp he
  obtain ⟨g, hr, -⟩ := (redeems_iff h hf hcall).mp ⟨pair, hreply⟩
  exact ⟨(grant_known hr.granted).1, hr.unused⟩

theorem used_later (h : token ∈ (ledger log).used) (hnew : ∀ e ∈ later, issued e ≠ some token) :
    token ∈ (ledger (later ++ log)).used := by
  induction later with
  | nil => exact h
  | cons e later ih =>
    obtain ⟨hne, hrest⟩ := List.forall_mem_cons.mp hnew
    exact (Ledger.mem_used_after hne).mpr (.inr (ih hrest))

/-- A token that was redeemed stays used: it is not issued again. -/
theorem redeems_used (h : Run (machine p svc) log s t) (hf : Fresh p log)
    (hmem : token ∈ log.filterMap redeems) : token ∈ (ledger log).used := by
  obtain ⟨e, he, hredeems⟩ := List.mem_filterMap.mp hmem
  obtain ⟨newer, older, rfl⟩ := List.append_of_mem he
  obtain ⟨s', t', hrun, -⟩ := h.older
  obtain ⟨hissued, -⟩ := redeems_unused hrun (Fresh.suffix hf) hredeems
  obtain ⟨m, hm, hm'⟩ := List.mem_filterMap.mp hissued
  rw [← List.singleton_append, ← List.append_assoc] at hf
  have hnew : ∀ e' ∈ newer ++ [e], issued e' ≠ some token :=
    fun e' he' heq => hf.not_reissued hm hm' e' he' token heq rfl
  have hspends : spends e = some token := by
    obtain ⟨userExists, draw, user, pair, hcall, hreply⟩ := redeems_eq_some.mp hredeems
    simp [spends, hcall, hreply]
  have hthen : token ∈ (ledger (e :: older)).used :=
    (Ledger.mem_used_after (hnew e (by simp))).mpr (.inl hspends)
  exact used_later hthen fun e' he' => hnew e' (List.mem_append_left _ he')

/-- Over a run no token is redeemed twice. -/
theorem redeemed_nodup (h : Run (machine p svc) log s t) (hf : Fresh p log) :
    (log.filterMap redeems).Nodup := by
  induction log generalizing s t with
  | nil => exact List.nodup_nil
  | cons e log ih =>
    obtain ⟨last, hrun, -⟩ := h.cons_inv
    have hrest := ih hrun hf.older
    cases he : redeems e with
    | none => rwa [List.filterMap_cons_none he]
    | some token =>
      rw [List.filterMap_cons_some he]
      refine List.nodup_cons.mpr ⟨?_, hrest⟩
      exact fun hmem => (redeems_unused h hf he).2 (redeems_used hrun hf.older hmem)

end Token

-- ---------------------------------------------------------------------------
-- The requests a server answers with tokens
-- ---------------------------------------------------------------------------

variable {env : Setup} {config : AuthConfig} {svc : TokenService} {mode : ServiceMode}

/-- The head of a connection is complete with this read, and the request in it
is answered with tokens. -/
def Answered (request : Request) (e : ServerEvent env) : Prop :=
  ∃ n head chunk draws, e.before.sessions[n]? = some (.readingHead head) ∧
    e.call = .input n (.read (some chunk) draws) ∧
    parsePlainRequest env.parsers (head ++ chunk) = some request ∧ tokenAnswers e.reply ≠ []

/-- Tokens are sent for the credentials of a user who is configured. -/
def LoggedIn (user : Str) (e : ServerEvent env) : Prop :=
  ∃ request config value, Answered request e ∧ request.path = "/auth/token".toList ∧
    e.before.shared.auth = some config ∧ request.getStr authorization = some value ∧
    config.basicUser env.platform value = some user

/-- Tokens are sent for a refresh token. -/
def Exchanged (token : Str) (e : ServerEvent env) : Prop :=
  ∃ request, Answered request e ∧ request.path = "/auth/refresh".toList ∧ request.Bearer token

/-- Only the request of a complete head gets tokens. -/
theorem action_answers (haction : env.action σ call = some action)
    (hpair : (Router.step p svc now ρ action).2.pair = some pair) :
    ∃ n head chunk draws request, σ.sessions[n]? = some (.readingHead head) ∧
      call = .input n (.read (some chunk) draws) ∧
      parsePlainRequest env.parsers (head ++ chunk) = some request ∧
      Router.asks draws request = some action := by
  have hupgrade : ∀ bytes, env.upgradeAction bytes ≠ some action := by
    intro bytes hbytes
    obtain ⟨request, -, rfl⟩ := Option.map_eq_some_iff.mp hbytes
    cases hpair
  cases call with
  | world occurrence =>
    cases occurrence with
    | accept => cases haction
    | reloadAuthFile | reloadAnonymousTargetFile =>
      cases haction
      cases hpair
  | input n input =>
    obtain ⟨phase, hphase, haction⟩ := Option.bind_eq_some_iff.mp haction
    cases phase with
    | readingHead head =>
      cases input with
      | read chunk draws =>
        cases chunk with
        | none => cases haction
        | some chunk =>
          have hhead : env.headAction draws (head ++ chunk) = some action := by
            simp only [Setup.inputAction] at haction
            split at haction
            next hempty => rwa [hempty, List.append_nil]
            next =>
              split at haction
              next => exact haction
              next => cases haction
          unfold Setup.headAction at hhead
          split at hhead
          next request hrequest =>
            unfold Setup.plainAction at hhead
            split at hhead
            next =>
              cases hhead
              cases hpair
            next => exact ⟨n, head, chunk, draws, request, hphase, rfl, hrequest, hhead⟩
          next => exact absurd hhead (hupgrade _)
      | _ => cases haction
    | upgrading bytes =>
      cases input with
      | read chunk draws =>
        cases chunk with
        | none => cases haction
        | some chunk =>
          simp only [Setup.inputAction] at haction
          split at haction
          next => cases haction
          next => exact absurd haction (hupgrade _)
      | _ => cases haction
    | _ => cases input <;> cases haction

/-- What an event of a run sends is what the router issued for its action. -/
theorem event_answers (htokens : config.tokens = some svc)
    (h : Run (env.server (some config) mode).machine log σ t) (he : e ∈ log) :
    ∃ config', e.before.shared.auth = some config' ∧
      tokenAnswers e.reply = (((env.action e.before e.call).bind fun action =>
        (Router.step env.platform svc e.time ⟨config', e.before.shared.tokens⟩ action).2.pair).map
          tokensResponse).toList := by
  obtain ⟨earlier, last, hrun, -, hreply⟩ := h.event he
  obtain ⟨config', hauth, htokens'⟩ := run_auth htokens hrun
  have hstep := (step_router hauth htokens' config (some config) mode e.time e.call).2.2
  rw [routerOf_of_auth hauth] at hstep
  rw [hreply]
  exact ⟨config', hauth, hstep⟩

/-- An event that sends tokens is one of a request in form, whose action got them. -/
theorem answered_event (htokens : config.tokens = some svc)
    (h : Run (env.server (some config) mode).machine log σ t) (he : e ∈ log)
    (hanswers : tokenAnswers e.reply ≠ []) :
    ∃ config' request draws action pair, e.before.shared.auth = some config' ∧
      Answered request e ∧ Router.asks draws request = some action ∧
      env.action e.before e.call = some action ∧
      (Router.step env.platform svc e.time ⟨config', e.before.shared.tokens⟩ action).2.pair =
        some pair := by
  obtain ⟨config', hauth, hsent⟩ := event_answers htokens h he
  cases hpair : (env.action e.before e.call).bind fun action =>
      (Router.step env.platform svc e.time ⟨config', e.before.shared.tokens⟩ action).2.pair with
  | none =>
    rw [hpair] at hsent
    exact absurd hsent hanswers
  | some pair =>
    obtain ⟨action, haction, hpair⟩ := Option.bind_eq_some_iff.mp hpair
    obtain ⟨n, head, chunk, draws, request, hphase, hcall, hrequest, hasks⟩ :=
      action_answers haction hpair
    exact ⟨config', request, draws, action, pair, hauth,
      ⟨n, head, chunk, draws, hphase, hcall, hrequest, hanswers⟩, hasks, haction, hpair⟩

theorem Answered.unique {e : ServerEvent env} (h : Answered request e) (h' : Answered request' e) :
    request = request' := by
  obtain ⟨n, head, chunk, draws, hphase, hcall, hrequest, -⟩ := h
  obtain ⟨n', head', chunk', draws', hphase', hcall', hrequest', -⟩ := h'
  cases hcall.symm.trans hcall'
  cases hphase.symm.trans hphase'
  exact Option.some.inj (hrequest.symm.trans hrequest')

theorem Answered.answers {e : ServerEvent env} (h : Answered request e) :
    tokenAnswers e.reply ≠ [] := by
  obtain ⟨_, _, _, _, -, -, -, hanswers⟩ := h
  exact hanswers

/-- What the service did at an event whose action is one of its calls. -/
theorem serverTokenEvent_of_call {e : ServerEvent env} (hauth : e.before.shared.auth = some config')
    (haction : env.action e.before e.call = some action)
    (hcall : Router.tokenCall env.platform ⟨config', e.before.shared.tokens⟩ action = some call) :
    serverTokenEvent env svc config e = some ⟨e.time, e.before.shared.tokens, call,
      (Token.step env.platform svc e.time e.before.shared.tokens call).2⟩ := by
  unfold serverTokenEvent Router.tokenEvent Timed.Event.within
  rw [haction, routerOf_of_auth hauth, Option.map_some, Option.bind_some, hcall]
  rfl

/-- A token that was exchanged at an event was redeemed there by the service. -/
theorem exchanged_redeems (htokens : config.tokens = some svc)
    (h : Run (env.server (some config) mode).machine log σ t) (he : e ∈ log)
    (hexchanged : Exchanged token e) :
    (serverTokenEvent env svc config e).bind Token.redeems = some token := by
  obtain ⟨request, hanswered, hpath, value, hvalue, hform⟩ := hexchanged
  obtain ⟨config', request', draws, action, pair, hauth, hanswered', hasks, haction, hpair⟩ :=
    answered_event htokens h he hanswered.answers
  obtain rfl := hanswered.unique hanswered'
  obtain ⟨endpoint, hendpoint, -, -, hdoes⟩ := Router.asks_eq_some.mp hasks
  obtain rfl : endpoint = .refresh := by
    rw [hpath] at hendpoint
    exact (Option.some.inj hendpoint).symm
  have hbearer : bearerToken value = some token := bearerToken_eq_some.mpr hform
  rw [hvalue] at hdoes
  simp only [Router.Endpoint.action, Option.bind_some, hbearer, Option.map_some,
    Option.some.injEq] at hdoes
  subst hdoes
  rw [serverTokenEvent_of_call hauth haction rfl]
  exact Token.redeems_of_pair rfl rfl hpair

/-- Tokens are sent for a login or for a refresh token. -/
theorem answered_kind (htokens : config.tokens = some svc)
    (h : Run (env.server (some config) mode).machine log σ t) (he : e ∈ log)
    (hanswers : tokenAnswers e.reply ≠ []) :
    (∃ user, LoggedIn user e) ∨ ∃ token, Exchanged token e := by
  obtain ⟨config', request, draws, action, pair, hauth, hanswered, hasks, -, hpair⟩ :=
    answered_event htokens h he hanswers
  obtain ⟨endpoint, hendpoint, -, -, hdoes⟩ := Router.asks_eq_some.mp hasks
  have hpath : request.path = endpoint.path := endpointOf_eq_some.mp hendpoint
  cases endpoint with
  | login =>
    obtain ⟨value, hvalue, rfl⟩ := Option.map_eq_some_iff.mp hdoes
    cases huser : config'.basicUser env.platform value with
    | none =>
      simp only [Router.step, huser] at hpair
      cases hpair
    | some user =>
      exact .inl ⟨user, request, config', value, hanswered, hpath, hauth, hvalue, huser⟩
  | refresh =>
    obtain ⟨token, htoken, rfl⟩ := Option.map_eq_some_iff.mp hdoes
    obtain ⟨value, hvalue, hbearer⟩ := Option.bind_eq_some_iff.mp htoken
    exact .inr ⟨token, request, hanswered, hpath, value, hvalue, bearerToken_eq_some.mp hbearer⟩
  | revoke =>
    obtain ⟨token, -, rfl⟩ := Option.map_eq_some_iff.mp hdoes
    cases hpair

/-- Where an event of the token service comes from. -/
theorem serverTokenEvent_inv (h : serverTokenEvent env svc config e = some te) :
    ∃ action call, env.action e.before e.call = some action ∧
      Router.tokenCall env.platform (routerOf config e.before) action = some call ∧
      te = ⟨e.time, e.before.shared.tokens, call,
        (Token.step env.platform svc e.time e.before.shared.tokens call).2⟩ := by
  obtain ⟨re, hre, hte⟩ := Option.bind_eq_some_iff.mp h
  obtain ⟨action, haction, rfl⟩ := Option.map_eq_some_iff.mp hre
  obtain ⟨call, hcall, rfl⟩ := Option.map_eq_some_iff.mp hte
  exact ⟨action, call, haction, hcall, rfl⟩

/-- A pair that the service issued at an event was sent there. -/
theorem pair_sent (htokens : config.tokens = some svc)
    (h : Run (env.server (some config) mode).machine log σ t) (he : e ∈ log)
    (hevent : serverTokenEvent env svc config e = some te) (hpair : te.reply.pair = some pair) :
    tokenAnswers e.reply = [tokensResponse pair] := by
  obtain ⟨config', hauth, hsent⟩ := event_answers htokens h he
  obtain ⟨action, call, haction, hcall, rfl⟩ := serverTokenEvent_inv hevent
  rw [routerOf_of_auth hauth] at hcall
  have hissued : (Router.step env.platform svc e.time ⟨config', e.before.shared.tokens⟩
      action).2.pair = some pair := by
    rw [Router.step_token hcall]
    exact hpair
  rwa [haction, Option.bind_some, hissued] at hsent

/-- Tokens that are sent at an event were issued there by the service. -/
theorem answers_issued (htokens : config.tokens = some svc)
    (h : Run (env.server (some config) mode).machine log σ t) (he : e ∈ log)
    (hresponse : response ∈ tokenAnswers e.reply) :
    ∃ te pair, serverTokenEvent env svc config e = some te ∧ te.reply.pair = some pair ∧
      response = tokensResponse pair := by
  obtain ⟨config', hauth, hsent⟩ := event_answers htokens h he
  rw [hsent, Option.mem_toList] at hresponse
  obtain ⟨pair, hpair, rfl⟩ := Option.map_eq_some_iff.mp hresponse
  obtain ⟨action, haction, hpair⟩ := Option.bind_eq_some_iff.mp hpair
  obtain ⟨call, hcall⟩ := Router.tokenCall_of_pair hpair
  rw [Router.step_token hcall] at hpair
  exact ⟨_, pair, serverTokenEvent_of_call hauth haction hcall, hpair, rfl⟩

/-- However its connections are interleaved, a server sends tokens only for a
login or for a refresh token that it sent before, and for no refresh token twice. -/
theorem tokens_exchanged (htokens : config.tokens = some svc)
    (h : Run (env.server (some config) mode).machine log σ t)
    (hf : Fresh env.platform (serverTokenLog env svc config log)) :
    (∀ e ∈ log, tokenAnswers e.reply ≠ [] →
        (∃ user, LoggedIn user e) ∨ ∃ token, Exchanged token e) ∧
      log.Pairwise (fun later earlier =>
        ∀ token, Exchanged token later → ¬Exchanged token earlier) ∧
      ∀ later e earlier token, log = later ++ e :: earlier → Exchanged token e →
        ∃ d ∈ earlier, ∃ pair, tokenAnswers d.reply = [tokensResponse pair] ∧
          pair.refreshToken = token := by
  refine ⟨fun e he => answered_kind htokens h he, ?_, ?_⟩
  · obtain ⟨_, -, hrun⟩ := server_tokens htokens h
    have hnodup := Token.redeemed_nodup hrun hf
    rw [serverTokenLog, List.filterMap_filterMap, List.Nodup, List.pairwise_filterMap] at hnodup
    refine hnodup.imp_of_mem ?_
    intro later earlier hlater hearlier hne token hexchanged hexchanged'
    exact hne token (exchanged_redeems htokens h hlater hexchanged) token
      (exchanged_redeems htokens h hearlier hexchanged') rfl
  · rintro later e earlier token rfl hexchanged
    obtain ⟨te, hevent, hredeems⟩ := Option.bind_eq_some_iff.mp
      (exchanged_redeems htokens h (by simp) hexchanged)
    obtain ⟨_, _, holder, -⟩ := h.older
    obtain ⟨_, _, hrun⟩ := server_tokens htokens holder
    rw [serverTokenLog_split hevent] at hf
    rw [serverTokenLog, List.filterMap_cons_some hevent] at hrun
    obtain ⟨hissued, -⟩ := Token.redeems_unused hrun (Token.Fresh.suffix hf) hredeems
    obtain ⟨td, htd, htoken⟩ := List.mem_filterMap.mp hissued
    obtain ⟨d, hd, hdevent⟩ := List.mem_filterMap.mp htd
    obtain ⟨pair, hpair, hrefresh⟩ := Token.pair_of_issued htoken
    have hsent := pair_sent htokens holder (List.mem_cons_of_mem _ hd) hdevent hpair
    exact ⟨d, hd, pair, hsent, hrefresh⟩

def refreshRequest : Request :=
  ⟨"POST".toList, "/auth/refresh".toList, [(authorization, Text.utf8 (bearer aliceRefresh))]⟩

def exchangeSetup : Setup := setupFor [loginRequest, refreshRequest]

def exchangeServer : Sessions.Program Instant Shared ConnPhase Occurrence (Input 4) Act :=
  exchangeSetup.server (some aliceTokens) .wsOnly

def readRefresh (n : Nat) : Call Occurrence (Input 4) :=
  .input n (.read (some refreshRequest.head) ⟨none, some (Token.nthDraw 2)⟩)

/-- A login, and a connection that is to refresh. -/
def loggedInCalls : List (Instant × Call Occurrence (Input 4)) :=
  [(2, .world (.accept 0 true)), (1, readOnce 0 loginRequest), (0, .world (.accept 0 true))]

/-- The refresh, and another connection that is to refresh with the same token. -/
def refreshedCalls : List (Instant × Call Occurrence (Input 4)) :=
  [(4, .world (.accept 0 true)), (3, readRefresh 1)] ++ loggedInCalls

/-- What the server does for a read after the calls. -/
def refreshEvent (now : Instant) (n : Nat) (calls : List (Instant × Call Occurrence (Input 4))) :
    ServerEvent exchangeSetup :=
  let found := (exchangeServer.machine.exec (serverStart aliceTokens) calls).2
  ⟨now, found, readRefresh n, (exchangeServer.step now found (readRefresh n)).2⟩

def exchangeLog (calls : List (Instant × Call Occurrence (Input 4))) :
    List (ServerEvent exchangeSetup) :=
  (exchangeServer.machine.exec (serverStart aliceTokens) calls).1

/-- The token of the login gets tokens once. -/
theorem tokens_exchanged_once :
    Exchanged aliceRefresh (refreshEvent 3 1 loggedInCalls) ∧
      ¬Exchanged aliceRefresh (refreshEvent 5 2 refreshedCalls) ∧
      ∃ d ∈ exchangeLog loggedInCalls, ∃ pair, tokenAnswers d.reply = [tokensResponse pair] ∧
        pair.refreshToken = aliceRefresh := by
  have hrun : Run (exchangeSetup.server (some aliceTokens) .wsOnly).machine
      (exchangeLog ((5, readRefresh 2) :: refreshedCalls))
      (exchangeServer.machine.exec (serverStart aliceTokens)
        ((5, readRefresh 2) :: refreshedCalls)).2 5 :=
    .exec ⟨rfl, rfl⟩ (by decide)
  obtain ⟨hfresh, hanswers, hparse, hvalue, htoken⟩ :
      Fresh (.crates 0) (serverTokenLog exchangeSetup Token.service aliceTokens
        (exchangeLog ((5, readRefresh 2) :: refreshedCalls))) ∧
      tokenAnswers (refreshEvent 3 1 loggedInCalls).reply ≠ [] ∧
      parsePlainRequest exchangeSetup.parsers refreshRequest.head = some refreshRequest ∧
      refreshRequest.getStr authorization = some (bearer aliceRefresh) ∧
      bearerToken (bearer aliceRefresh) = some aliceRefresh := by decide +kernel
  have hexchanged : Exchanged aliceRefresh (refreshEvent 3 1 loggedInCalls) :=
    ⟨refreshRequest, ⟨1, [], refreshRequest.head, _, rfl, rfl, hparse, hanswers⟩, rfl,
      bearer aliceRefresh, hvalue, bearerToken_eq_some.mp htoken⟩
  obtain ⟨-, hpairwise, hsent⟩ := @tokens_exchanged exchangeSetup aliceTokens Token.service .wsOnly
    _ _ _ rfl hrun hfresh
  refine ⟨hexchanged, ?_, ?_⟩
  · have hothers := (List.pairwise_cons.mp hpairwise).1
    exact fun hagain => hothers _ (.tail _ (.head _)) aliceRefresh hagain hexchanged
  · exact hsent [_, _] _ _ aliceRefresh rfl hexchanged

end Ws2tcpRouter
