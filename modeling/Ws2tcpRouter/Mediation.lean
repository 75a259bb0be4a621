import Ws2tcpRouter.Crates
import Ws2tcpRouter.Router

/-!
# Complete mediation

Nothing is connected and no health check is answered for a request that
`authorize_request` did not accept, on either of the two paths a request can
take, and the target connected is the one its path parses to. The decision
itself is restated by the three kinds of credentials.
-/

namespace Ws2tcpRouter

-- ---------------------------------------------------------------------------
-- What authorization decides
-- ---------------------------------------------------------------------------

def BearerForm (value token : Str) : Prop :=
  ∃ scheme rest, ' ' ∉ scheme ∧ value = scheme ++ ' ' :: rest ∧
    Text.eqIgnoreAsciiCase scheme "bearer".toList ∧ token = Text.trim rest ∧ token ≠ []

theorem bearerToken_eq_some : bearerToken value = some token ↔ BearerForm value token := by
  constructor
  · intro h
    obtain ⟨⟨scheme, rest⟩, hsplit, hform⟩ := Option.bind_eq_some_iff.mp h
    obtain ⟨hscheme, rfl⟩ := Text.splitOnce_eq_some.mp hsplit
    rw [Option.ite_none_right_eq_some, Option.ite_none_left_eq_some] at hform
    obtain ⟨hbearer, hne, heq⟩ := hform
    cases heq
    exact ⟨scheme, rest, hscheme, rfl, hbearer, rfl, hne⟩
  · rintro ⟨scheme, rest, hscheme, rfl, hbearer, rfl, hne⟩
    rw [bearerToken, Text.splitOnce_append hscheme, Option.bind_eq_bind, Option.bind_some]
    dsimp only
    rw [if_pos hbearer, if_neg hne]

def Request.Bearer (request : Request) (token : Str) : Prop :=
  ∃ value, request.getStr authorization = some value ∧ BearerForm value token

namespace AuthConfig

variable (p : Platform) (auth : AuthConfig) (s : Token.State) (now : Instant) (request : Request)
  (user : Str)

def AnonymousTo (path : Str) : Prop :=
  ∃ target, parseTarget path = .ok target ∧ target.addr ∈ auth.anonymousTargets

def BearerUser : Prop :=
  ∃ tokens token, auth.tokens = some tokens ∧ request.Bearer token ∧
    tokens.verifyAccess p s now token = some user ∧ auth.hasUser p user = true

def BasicUser : Prop :=
  (∀ token, ¬request.Bearer token) ∧
    ∃ entry ∈ auth.expectedAuthorizations,
      request.get authorization = some (Text.utf8 entry) ∧ basicAuthUsername p entry = some user

def Accepts : Prop :=
  (auth.AnonymousTo request.path ∧ user = anonymousAuthUser) ∨
    (¬auth.AnonymousTo request.path ∧
      (auth.BearerUser p s now request user ∨ auth.BasicUser p request user))

end AuthConfig

theorem allowsAnonymousTarget_eq_true :
    AuthConfig.allowsAnonymousTarget auth path = true ↔ auth.AnonymousTo path := by
  unfold AuthConfig.allowsAnonymousTarget AuthConfig.AnonymousTo
  cases parseTarget path with
  | error e => simp
  | ok target => simp

theorem verifyAccessToken_eq_some {auth : AuthConfig} :
    auth.verifyAccessToken p s now token = some user ↔
      ∃ tokens, auth.tokens = some tokens ∧ tokens.verifyAccess p s now token = some user ∧
        auth.hasUser p user = true := by
  unfold AuthConfig.verifyAccessToken
  cases auth.tokens with
  | none => simp
  | some tokens => simp [Option.filter_eq_some_iff]

theorem foldl_or_eq_any (f : α → Bool) (l : List α) (b : Bool) :
    l.foldl (fun matched x => matched || f x) b = (b || l.any f) := by
  induction l generalizing b with
  | nil => simp
  | cons x l ih => rw [List.foldl_cons, ih, List.any_cons, Bool.or_assoc]

theorem basicUser_eq_some {auth : AuthConfig} :
    auth.basicUser p value = some user ↔
      value ∈ auth.expectedAuthorizations ∧ basicAuthUsername p value = some user := by
  have hmem : auth.expectedAuthorizations.any
      (fun expected => Text.utf8 value == Text.utf8 expected) = true ↔
        value ∈ auth.expectedAuthorizations := by
    simp only [List.any_eq_true, beq_iff_eq]
    constructor
    · rintro ⟨entry, hentry, heq⟩
      rwa [Text.utf8_inj heq]
    · intro h
      exact ⟨value, h, rfl⟩
  unfold AuthConfig.basicUser
  rw [foldl_or_eq_any, Bool.false_or, Option.ite_none_right_eq_some, hmem]

theorem alphanum_visible {c : Char} (h : c.isAlphanum = true) : 32 < c.toNat ∧ c.toNat < 127 := by
  rcases (Bool.or_eq_true _ _).mp h with h | h
  · rcases (Bool.or_eq_true _ _).mp h with h | h
    · obtain ⟨low, high⟩ := of_decide_eq_true h
      exact ⟨Nat.lt_of_lt_of_le (by decide) (UInt32.le_iff_toNat_le.mp low),
        Nat.lt_of_le_of_lt (UInt32.le_iff_toNat_le.mp high) (by decide)⟩
    · obtain ⟨low, high⟩ := (Bool.and_eq_true _ _).mp h
      exact ⟨Nat.lt_of_lt_of_le (by decide) (UInt32.le_iff_toNat_le.mp (of_decide_eq_true low)),
        Nat.lt_of_le_of_lt (UInt32.le_iff_toNat_le.mp (of_decide_eq_true high)) (by decide)⟩
  · obtain ⟨low, high⟩ := Char.isDigit_iff_toNat.mp h
    exact ⟨Nat.lt_of_lt_of_le (by decide) low, Nat.lt_of_le_of_lt high (by decide)⟩

theorem base64Char_visible (h : base64Char c = true) : 32 < c.toNat ∧ c.toNat < 127 := by
  rw [base64Char, Bool.or_eq_true] at h
  rcases h with h | h
  · exact alphanum_visible h
  · have hrest : ∀ c ∈ "+/-_=".toList, 32 < c.toNat ∧ c.toNat < 127 := by simp
    exact hrest c (List.contains_iff_mem.mp h)

/-- A credential that has a username is visible text. -/
theorem visible_of_basicAuthUsername {p : Platform} (hp : p.standard.Lawful)
    (h : basicAuthUsername p value = some user) :
    ∀ c ∈ value, 32 ≤ c.toNat ∧ c.toNat < 127 := by
  obtain ⟨encoded, hstart, h⟩ := Option.bind_eq_some_iff.mp h
  obtain ⟨decoded, hdecoded, -⟩ := Option.bind_eq_some_iff.mp h
  rw [Text.isPrefixOf?_eq_some.mp hstart]
  have hscheme : ∀ c ∈ "Basic ".toList, 32 ≤ c.toNat ∧ c.toNat < 127 := by simp
  intro c hc
  rcases List.mem_append.mp hc with hc | hc
  · exact hscheme c hc
  · exact (base64Char_visible (hp.decode_alphabet encoded decoded hdecoded c hc)).imp_left
      Nat.le_of_lt

variable {p : Platform}

theorem basicUser_header (hp : p.standard.Lawful) :
    ((∃ value, request.getStr authorization = some value ∧ bearerToken value = none ∧
      AuthConfig.basicUser p auth value = some user) ↔ auth.BasicUser p request user) := by
  constructor
  · rintro ⟨value, hvalue, hbearer, huser⟩
    obtain ⟨hmem, huser⟩ := basicUser_eq_some.mp huser
    obtain ⟨bytes, hget, hbytes⟩ := Option.bind_eq_some_iff.mp hvalue
    rw [Text.utf8_of_visibleAscii hbytes] at hget
    refine ⟨?_, value, hmem, hget, huser⟩
    rintro token ⟨value', hvalue', hform⟩
    cases hvalue.symm.trans hvalue'
    rw [bearerToken_eq_some.mpr hform] at hbearer
    cases hbearer
  · rintro ⟨hform, value, hmem, hget, huser⟩
    have hvalue : request.getStr authorization = some value := by
      rw [Request.getStr, hget]
      exact Text.visibleAscii_utf8 (visible_of_basicAuthUsername hp huser)
    refine ⟨value, hvalue, ?_, basicUser_eq_some.mpr ⟨hmem, huser⟩⟩
    rw [Option.eq_none_iff_forall_ne_some]
    intro token htoken
    exact hform token ⟨value, hvalue, bearerToken_eq_some.mp htoken⟩

theorem authorizeRequest_eq_ok (hp : p.standard.Lawful) :
    authorizeRequest p (some auth) s now request = .ok user ↔
      auth.Accepts p s now request user := by
  unfold authorizeRequest AuthConfig.Accepts
  dsimp only
  by_cases hanon : auth.AnonymousTo request.path
  · rw [if_pos (allowsAnonymousTarget_eq_true.mpr hanon)]
    simp [hanon, eq_comm]
  · rw [if_neg (mt allowsAnonymousTarget_eq_true.mp hanon)]
    simp only [hanon, false_and, not_false_iff, true_and, false_or, ← basicUser_header hp,
      AuthConfig.BearerUser, Request.Bearer, ← bearerToken_eq_some]
    cases request.getStr authorization with
    | none => simp
    | some value =>
      cases hbearer : bearerToken value with
      | some token =>
        cases hverify : auth.verifyAccessToken p s now token with
        | none => simp [hbearer, ← verifyAccessToken_eq_some, hverify]
        | some user' => simp [hbearer, ← verifyAccessToken_eq_some, hverify]
      | none =>
        cases hbasic : auth.basicUser p value with
        | none => simp [hbearer, hbasic]
        | some user' => simp [hbearer, hbasic]

/-- A request with a bearer token is accepted for its path, or for that token. -/
theorem authorizeRequest_bearer (h : authorizeRequest p (some auth) s now request = .ok user)
    (hform : request.Bearer token) :
    auth.AnonymousTo request.path ∨ auth.verifyAccessToken p s now token = some user := by
  obtain ⟨value, hvalue, hbearer⟩ := hform
  by_cases hanon : auth.AnonymousTo request.path
  · exact .inl hanon
  · simp only [authorizeRequest, mt allowsAnonymousTarget_eq_true.mp hanon, hvalue,
      bearerToken_eq_some.mpr hbearer] at h
    cases hverify : auth.verifyAccessToken p s now token with
    | none => simp [hverify] at h
    | some user' =>
      simp only [hverify, Bool.false_eq_true, if_false, Except.ok.injEq] at h
      exact .inr (h ▸ rfl)

-- ---------------------------------------------------------------------------
-- What a connection leads to
-- ---------------------------------------------------------------------------

def Effect.Guarded : Effect → Prop
  | .respond response _ => response = healthCheckResponse healthCheckMessage
  | .refuse _ => False
  | .healthCheck | .connectTcp _ | .connectUdp _ => True

def Effect.upstream : Effect → Option (Protocol × Str)
  | .connectTcp addr => some (.tcp, addr)
  | .connectUdp addr => some (.udp, addr)
  | _ => none

def Received.request : Received → Request
  | .plain request | .upgrade request => request

theorem unauthorizedResponse_status (basic : Bool) (bearer : Option Str) :
    (unauthorizedResponse basic bearer).status = 401 := by
  unfold unauthorizedResponse
  cases basic <;> cases bearer <;> rfl

theorem authorizeRequest_error (h : authorizeRequest p auth s now request = .error response) :
    response.status = 401 := by
  unfold authorizeRequest at h
  split at h
  next => cases h
  next =>
    split at h
    next => cases h
    next =>
      dsimp only at h
      split at h
      next => cases h
      next =>
        cases h
        exact unauthorizedResponse_status _ _

theorem tokensResponse_ne (issued : Token.IssuedTokens) :
    tokensResponse issued ≠ healthCheckResponse healthCheckMessage := by
  intro h
  have hheaders : (tokensResponse issued).headers.length = 3 := rfl
  rw [h] at hheaders
  exact absurd hheaders (by decide)

theorem ne_healthCheck_of_status (status : Nat) (h : response.status = status)
    (hstatus : status ≠ 200) : response ≠ healthCheckResponse healthCheckMessage := by
  rintro rfl
  exact hstatus h.symm

/-- The token endpoints never answer what a health check does. -/
theorem handleAuthRequest_ne (auth : Option AuthConfig) (draws : Draws) (request : Request) :
    (handleAuthRequest p auth s now draws request).2 ≠ healthCheckResponse healthCheckMessage := by
  obtain ⟨response, hstatus, heq⟩ | ⟨config, svc, action, -, -, hasks, heq⟩ :=
    Router.handleAuthRequest_cases p auth s now draws request
  · rw [heq]
    exact ne_healthCheck_of_status _ rfl hstatus
  · rw [heq]
    obtain ⟨endpoint, -, -, -, haction⟩ := Router.asks_eq_some.mp hasks
    obtain hrefused | ⟨reply, hreply⟩ :=
      @Router.answer_of_action p svc ⟨config, s⟩ draws _ endpoint action now haction
    · rw [hrefused]
      exact ne_healthCheck_of_status 401 rfl (by decide)
    · rw [hreply]
      obtain ⟨pair, -, htokens⟩ | ⟨-, hstatus⟩ := Router.responseOf_token reply
      · rw [htokens]
        exact tokensResponse_ne pair
      · exact ne_healthCheck_of_status _ rfl hstatus

/-- The effect comes with an accepted request, and the upstream is its target. -/
def Mediated (p : Platform) (auth : Option AuthConfig) (s : Token.State) (now : Instant)
    (received : Except ConnectionError Received) (e : Effect) : Prop :=
  ∃ r user, received = .ok r ∧ authorizeRequest p auth s now r.request = .ok user ∧
    ∀ protocol addr, e.upstream = some (protocol, addr) →
      ∃ target, parseTarget r.request.path = .ok target ∧ target.protocol = protocol ∧
        target.addr = addr

theorem onUpgrade_ok
    (h : onUpgrade p auth s now request slots = (slots', .ok ())) :
    ∃ user route, authorizeRequest p auth s now request = .ok user ∧
      slots' = ⟨some route, some user⟩ ∧
      ∀ target, route = .proxy target → parseTarget request.path = .ok target := by
  unfold onUpgrade captureRequestedTarget at h
  split at h
  next => cases h
  next user huser =>
    split at h
    next =>
      cases h
      exact ⟨user, .healthCheck, huser, rfl, fun _ h => by cases h⟩
    next =>
      split at h
      next target htarget =>
        cases h
        exact ⟨user, .proxy target, huser, rfl, fun _ h => by cases h; exact htarget⟩
      next => cases h

theorem plain_mediated (h : receive parsers stream = .ok (.plain request))
    (he : e ∈ (handleConnection p parsers auth s now draws stream answered).effects)
    (hg : e.Guarded) : Mediated p auth s now (receive parsers stream) e := by
  rw [h]
  simp only [handleConnection, h, List.mem_singleton] at he
  subst he
  split at hg
  next =>
    split at hg
    next user huser => exact ⟨_, user, rfl, huser, fun _ _ h => by cases h⟩
    next response herror =>
      exact absurd hg (ne_healthCheck_of_status 401 (authorizeRequest_error herror) (by decide))
  next => exact absurd hg (handleAuthRequest_ne auth draws request)

theorem upgrade_mediated (h : receive parsers stream = .ok (.upgrade request))
    (he : e ∈ (handleConnection p parsers auth s now draws stream answered).effects)
    (hg : e.Guarded) : Mediated p auth s now (receive parsers stream) e := by
  rw [h]
  simp only [handleConnection, h] at he
  split at he
  next =>
    rw [List.mem_singleton] at he
    subst he
    exact hg.elim
  next slots hslots =>
    obtain ⟨user, route, huser, rfl, htarget⟩ := onUpgrade_ok hslots
    cases answered with
    | false => simp at he
    | true =>
      cases route with
      | healthCheck =>
        simp only [if_true, serveRoute, List.mem_singleton] at he
        subst he
        exact ⟨_, user, rfl, huser, fun _ _ h => by cases h⟩
      | proxy target =>
        refine ⟨_, user, rfl, huser, ?_⟩
        intro protocol addr hupstream
        refine ⟨target, htarget target rfl, ?_⟩
        cases hprotocol : target.protocol with
        | tcp =>
          simp only [if_true, serveRoute, hprotocol, List.mem_singleton] at he
          subst he
          cases hupstream
          exact ⟨rfl, rfl⟩
        | udp =>
          simp only [if_true, serveRoute, hprotocol, List.mem_singleton] at he
          subst he
          cases hupstream
          exact ⟨rfl, rfl⟩

theorem connection_mediated
    (he : e ∈ (handleConnection p parsers auth s now draws stream answered).effects)
    (hg : e.Guarded) : Mediated p auth s now (receive parsers stream) e := by
  cases h : receive parsers stream with
  | error _ => simp [handleConnection, h] at he
  | ok received =>
    rw [← h]
    cases received with
    | plain request => exact plain_mediated h he hg
    | upgrade request => exact upgrade_mediated h he hg

-- ---------------------------------------------------------------------------
-- Complete mediation
-- ---------------------------------------------------------------------------

theorem complete_mediation (hp : p.standard.Lawful) (parsers : Parsers) (s : Token.State)
    (now : Instant) (draws : Draws) (stream : Stream) (answered : Bool) :
    (∀ auth, ∀ e ∈ (handleConnection p parsers auth s now draws stream answered).effects,
      e.Guarded → Mediated p auth s now (receive parsers stream) e) ∧
    ∀ auth request user, authorizeRequest p (some auth) s now request = .ok user ↔
      auth.Accepts p s now request user :=
  ⟨fun _ _ he hg => connection_mediated he hg, fun _ _ _ => authorizeRequest_eq_ok hp⟩

def aliceOnly : AuthConfig :=
  ⟨["Basic YWxpY2U6c2VjcmV0".toList], [], [], [], none⟩

def databaseRequest : Request :=
  ⟨"GET".toList, "/tcp:db:5432".toList,
    [(authorization, Text.utf8 "Basic YWxpY2U6c2VjcmV0".toList)]⟩

def databaseParsers : Parsers :=
  ⟨fun _ _ => none, some, some, fun _ _ _ => none, fun _ => some databaseRequest⟩

theorem complete_mediation_database :
    authorizeRequest (.crates 0) (some aliceOnly) (.new 0) 0 databaseRequest =
        .ok "alice".toList ∧
      Mediated (.crates 0) (some aliceOnly) (.new 0) 0 (.ok (.upgrade databaseRequest))
        (.connectTcp "db:5432".toList) := by
  obtain ⟨heffects, haccepts⟩ := complete_mediation (Platform.crates_standard 0) databaseParsers
    (.new 0) 0 ⟨none, none⟩ ⟨[], false⟩ true
  refine ⟨(haccepts _ _ _).mpr (.inr ⟨?_, .inr ⟨?_, ?_⟩⟩), heffects _ _ ?_ trivial⟩
  · rintro ⟨_, _, htarget⟩
    cases htarget
  · rintro token ⟨value, hvalue, hform⟩
    have htext : databaseRequest.getStr authorization =
        some "Basic YWxpY2U6c2VjcmV0".toList := by decide
    have hnone : bearerToken "Basic YWxpY2U6c2VjcmV0".toList = none := by decide
    cases htext.symm.trans hvalue
    rw [bearerToken_eq_some.mpr hform] at hnone
    cases hnone
  · exact ⟨_, List.mem_singleton_self _, rfl, by decide +kernel⟩
  · decide +kernel

end Ws2tcpRouter
