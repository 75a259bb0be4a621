import Ws2tcpRouter.Removal
import Ws2tcpRouter.Token.Independence

/-!
# The gate of the token endpoints

What a request carries if an endpoint hands out tokens for it or touches the
store: the method, the path, no body, and a credential of the endpoint's kind.
A body is looked for in the first `Content-Length` line only, so one that is
declared behind a line of `0` gets past.
-/

namespace Ws2tcpRouter

open Token (TokenService Transition hashToken)
open Router (asks asks_eq_some step ask responseOf responseOf_token handleAuthRequest_step
  handleAuthRequest_cases)

variable {p : Platform} {svc : TokenService} {s s' : Token.State} {hash : Hash}
  {request : Request}

/-- No unexpired record differs, and nothing was added to `revoked`. -/
structure Token.State.Untouched (now : Instant) (s s' : State) : Prop where
  refresh : ∀ hash record, record.unexpired now = true →
    (s'.refresh.lookup hash = some record ↔ s.refresh.lookup hash = some record)
  spent : ∀ hash record, record.unexpired now = true →
    (s'.spent.lookup hash = some record ↔ s.spent.lookup hash = some record)
  revoked : ∀ family till, s'.revoked.lookup family = some till →
    s.revoked.lookup family = some till

theorem Token.State.Untouched.tidied (h : s.Tidied now s') : s.Untouched now s' := by
  refine ⟨?_, ?_, ?_⟩
  · intro hash record
    exact (State.SameFor.tidied h).refresh hash record rfl
  · intro hash record
    exact (State.SameFor.tidied h).spent hash record rfl
  · intro family till hr
    obtain rfl | rfl := h
    · exact hr
    · exact (AList.lookup_retain_some.mp hr).1

/-- The store changed, or the response hands out tokens. -/
def Acts (now : Instant) (s : Token.State) (outcome : Token.State × Response) : Prop :=
  (∃ issued, outcome.2 = tokensResponse issued) ∨ ¬s.Untouched now outcome.1

-- ---------------------------------------------------------------------------
-- What must be there
-- ---------------------------------------------------------------------------

def Endpoint.path : Endpoint → Str
  | .login => "/auth/token".toList
  | .refresh => "/auth/refresh".toList
  | .revoke => "/auth/revoke".toList

theorem endpointOf_eq_some : endpointOf path = some endpoint ↔ path = endpoint.path := by
  unfold endpointOf
  constructor
  · intro h
    split at h
    next heq => cases h; exact heq
    next =>
      split at h
      next heq => cases h; exact heq
      next =>
        split at h
        next heq => cases h; exact heq
        next => cases h
  · rintro rfl
    cases endpoint <;> rfl

/-- A length that says zero. -/
def saysZero (value : Bytes) : Bool := !value.isEmpty && value.all (· == 48)

def Request.LengthsZero (request : Request) : Prop :=
  ∀ value, ("content-length".toList, value) ∈ request.headers → saysZero value = true

/-- A credential of the endpoint's kind. -/
def Endpoint.Credential (p : Platform) (config : AuthConfig) (s : Token.State)
    (request : Request) : Endpoint → Prop
  | .login => ∃ entry ∈ config.expectedAuthorizations,
      (authorization, Text.utf8 entry) ∈ request.headers
  | .refresh | .revoke => ∃ value token family,
      (authorization, Text.utf8 value) ∈ request.headers ∧ bearerToken value = some token ∧
        s.familyOf (hashToken p token) = some family

structure Permitted (p : Platform) (auth : Option AuthConfig) (s : Token.State)
    (request : Request) : Prop where
  method : request.method = "POST".toList
  encoding : ∀ value, ("transfer-encoding".toList, value) ∉ request.headers
  lengths : request.LengthsZero
  credential : ∃ config, ∃ endpoint : Endpoint, auth = some config ∧
    request.path = endpoint.path ∧ endpoint.Credential p config s request

/-- The credential has the endpoint's form. -/
def Endpoint.takes (p : Platform) (config : AuthConfig) (value : Str) : Endpoint → Bool
  | .login => (config.basicUser p value).isSome
  | .refresh | .revoke => (bearerToken value).isSome

def Passes (p : Platform) (auth : Option AuthConfig) (request : Request) : Prop :=
  ∃ config svc endpoint value, auth = some config ∧ config.tokens = some svc ∧
    endpointOf request.path = some endpoint ∧ request.method = "POST".toList ∧
    declaresBody request = false ∧ request.getStr authorization = some value ∧
    endpoint.takes p config value = true

theorem mem_of_get (h : request.get name = some value) : (name, value) ∈ request.headers := by
  unfold Request.get at h
  obtain ⟨before, after, heq, -⟩ := List.lookup_eq_some_iff.mp h
  rw [heq]
  exact List.mem_append_right _ List.mem_cons_self

theorem mem_of_getStr (h : request.getStr name = some value) :
    (name, Text.utf8 value) ∈ request.headers := by
  obtain ⟨bytes, hget, hbytes⟩ := Option.bind_eq_some_iff.mp h
  rw [← Text.utf8_of_visibleAscii hbytes]
  exact mem_of_get hget

theorem not_mem_of_not_containsKey (h : request.containsKey name = false) :
    (name, value) ∉ request.headers := by
  intro hm
  unfold Request.containsKey Request.get at h
  rw [Option.isSome_eq_false_iff, Option.isNone_iff_eq_none, List.lookup_eq_none_iff] at h
  simpa using h _ hm

-- ---------------------------------------------------------------------------
-- What a call needs to act
-- ---------------------------------------------------------------------------

namespace Token

theorem State.known_of_live (h : s.refresh.lookup hash = some record) :
    ∃ family, s.familyOf hash = some family := by
  rw [State.familyOf, h]
  exact ⟨record.family, rfl⟩

theorem State.known_of_spent (h : s.spent.lookup hash = some record) :
    ∃ family, s.familyOf hash = some family := by
  cases hlive : s.refresh.lookup hash with
  | some record => exact known_of_live hlive
  | none =>
    rw [State.familyOf, hlive, h]
    exact ⟨record.family, rfl⟩

theorem Transition.refresh_known
    (h : Transition p svc now s (.refresh token userExists draw) s' reply)
    (hacts : (∃ pair, reply.pair = some pair) ∨ ¬s.Untouched now s') :
    ∃ family, s.familyOf (hashToken p token) = some family := by
  cases h with
  | refreshFull =>
    obtain ⟨_, hpair⟩ | htouched := hacts
    · cases hpair
    · exact (htouched (.tidied (.inr rfl))).elim
  | refreshUnknown htidy =>
    obtain ⟨_, hpair⟩ | htouched := hacts
    · cases hpair
    · exact (htouched (.tidied htidy)).elim
  | refreshReused htidy _ _ hspent => exact State.known_of_spent (htidy.spent_lookup hspent)
  | refreshRefused htidy _ hlive => exact State.known_of_live (htidy.refresh_lookup hlive)
  | refreshNoToken htidy _ hlive => exact State.known_of_live (htidy.refresh_lookup hlive)
  | refreshRotated htidy _ hlive => exact State.known_of_live (htidy.refresh_lookup hlive)

theorem Transition.revoke_known (h : Transition p svc now s (.revoke token) s' reply)
    (hacts : (∃ pair, reply.pair = some pair) ∨ ¬s.Untouched now s') :
    ∃ family, s.familyOf (hashToken p token) = some family := by
  cases h with
  | revokeUnknown =>
    obtain ⟨_, hpair⟩ | htouched := hacts
    · cases hpair
    · exact (htouched (.tidied (.refl now s))).elim
  | revoke hfamily => exact ⟨_, hfamily⟩

/-- A refresh of a live token takes its record or rotates it. -/
theorem Transition.refresh_live
    (h : Transition p svc now s (.refresh token userExists none) s' reply)
    (hroom : s.held now < maxRecords)
    (hlive : s.refresh.lookup (hashToken p token) = some record)
    (hu : record.unexpired now = true) : s'.refresh.lookup (hashToken p token) = none := by
  cases h with
  | refreshFull hfull => exact absurd hroom (Nat.not_lt.mpr hfull)
  | refreshUnknown htidy _ hnone =>
    rw [htidy.refresh_kept hlive hu] at hnone
    cases hnone
  | refreshReused htidy _ hnone =>
    rw [htidy.refresh_kept hlive hu] at hnone
    cases hnone
  | refreshRefused => exact AList.lookup_erase _ _
  | refreshNoToken => exact AList.lookup_erase _ _

end Token

theorem ne_tokensResponse (h : response.status ≠ 200) : response ≠ tokensResponse issued := by
  rintro rfl
  exact h rfl

theorem acts_token :
    Acts now s (s', responseOf (.token reply)) ↔
      (∃ pair, reply.pair = some pair) ∨ ¬s.Untouched now s' := by
  refine or_congr_left ?_
  obtain ⟨pair, hpair, hresponse⟩ | ⟨hpair, hstatus⟩ := responseOf_token reply
  · exact iff_of_true ⟨pair, hresponse⟩ ⟨pair, hpair⟩
  · refine iff_of_false ?_ (by simp [hpair])
    rintro ⟨issued, heq⟩
    exact ne_tokensResponse hstatus heq

theorem not_acts (h : response.status ≠ 200) : ¬Acts now s (s, response) := by
  rintro (⟨issued, heq⟩ | htouched)
  · exact ne_tokensResponse h heq
  · exact htouched (.tidied (.refl now s))

-- ---------------------------------------------------------------------------
-- The gate
-- ---------------------------------------------------------------------------

/-- The handler acts on what passes, and then only on the credential it asks for. -/
theorem acts_passes (auth : Option AuthConfig) (draws : Draws)
    (h : Acts now s (handleAuthRequest p auth s now draws request)) :
    Passes p auth request ∧ (request.LengthsZero → Permitted p auth s request) := by
  obtain ⟨response, hstatus, heq⟩ | ⟨config, svc, action, rfl, htokens, hasks, heq⟩ :=
    handleAuthRequest_cases p auth s now draws request
  · rw [heq] at h
    exact (not_acts hstatus h).elim
  · rw [heq] at h
    obtain ⟨endpoint, hendpoint, hmethod, hbody, haction⟩ := asks_eq_some.mp hasks
    have hencoding : ∀ value, ("transfer-encoding".toList, value) ∉ request.headers :=
      fun _ => not_mem_of_not_containsKey (Bool.or_eq_false_iff.mp hbody).1
    -- it is left to find the credential
    have hclose : ∀ value, request.getStr authorization = some value →
        endpoint.takes p config value = true → endpoint.Credential p config s request →
        Passes p (some config) request ∧
          (request.LengthsZero → Permitted p (some config) s request) :=
      fun value hvalue htakes hcredential =>
        ⟨⟨config, svc, endpoint, value, rfl, htokens, hendpoint, hmethod, hbody, hvalue, htakes⟩,
          fun hlengths => ⟨hmethod, hencoding, hlengths, config, endpoint, rfl,
            endpointOf_eq_some.mp hendpoint, hcredential⟩⟩
    cases endpoint with
    | login =>
      obtain ⟨value, hvalue, rfl⟩ := Option.map_eq_some_iff.mp haction
      simp only [step] at h
      cases huser : config.basicUser p value with
      | none =>
        simp only [huser] at h
        exact (not_acts (by decide) h).elim
      | some user =>
        exact hclose value hvalue (by simp [Endpoint.takes, huser])
          ⟨value, (basicUser_eq_some.mp huser).1, mem_of_getStr hvalue⟩
    | refresh =>
      obtain ⟨token, hbearer, rfl⟩ := Option.map_eq_some_iff.mp haction
      obtain ⟨value, hvalue, htoken⟩ := Option.bind_eq_some_iff.mp hbearer
      obtain ⟨family, hfamily⟩ := Transition.refresh_known
        (Token.step_transition p svc now s (.refresh token (config.hasUser p) draws.token))
        (acts_token.mp h)
      exact hclose value hvalue (by simp [Endpoint.takes, htoken])
        ⟨value, token, family, mem_of_getStr hvalue, htoken, hfamily⟩
    | revoke =>
      obtain ⟨token, hbearer, rfl⟩ := Option.map_eq_some_iff.mp haction
      obtain ⟨value, hvalue, htoken⟩ := Option.bind_eq_some_iff.mp hbearer
      obtain ⟨family, hfamily⟩ := Transition.revoke_known
        (Token.step_transition p svc now s (.revoke token)) (acts_token.mp h)
      exact hclose value hvalue (by simp [Endpoint.takes, htoken])
        ⟨value, token, family, mem_of_getStr hvalue, htoken, hfamily⟩

def onlyRecord (p : Platform) (token : Str) : Token.State :=
  { Token.State.new 0 with refresh := AList.insert (hashToken p token) ⟨0, [], 1, 1⟩ ∅ }

/-- For what passes there is a store it is acted on. -/
theorem passes_acts (h : Passes p auth request) :
    ∃ s draws, Acts 0 s (handleAuthRequest p auth s 0 draws request) := by
  obtain ⟨config, svc, endpoint, value, rfl, htokens, hendpoint, hmethod, hbody, hvalue, htakes⟩ := h
  have hasks : ∀ draws action,
      Router.Endpoint.action draws (some value) endpoint = some action →
      ∀ s : Token.State, Acts 0 s (handleAuthRequest p (some config) s 0 draws request) ↔
        Acts 0 s ((step p svc 0 ⟨config, s⟩ action).1.tokens,
          responseOf (step p svc 0 ⟨config, s⟩ action).2) := by
    intro draws action haction s
    have hasks : asks draws request = some action :=
      asks_eq_some.mpr ⟨endpoint, hendpoint, hmethod, hbody, by rw [hvalue]; exact haction⟩
    rw [(@handleAuthRequest_step p svc 0 config s htokens draws request).1 action hasks]
  have hroom : ∀ token, (onlyRecord p token).held 0 < Token.maxRecords :=
    fun token => (Token.State.held_le_records _ _).trans_lt (show 1 < Token.maxRecords by decide)
  have hlive : ∀ token, (onlyRecord p token).refresh.lookup (hashToken p token) =
      some ⟨0, [], 1, 1⟩ := fun token => AList.lookup_insert _
  cases endpoint with
  | login =>
    obtain ⟨user, huser⟩ := Option.isSome_iff_exists.mp htakes
    refine ⟨.new 0, ⟨some 0, some ⟨List.replicate 32 0, rfl⟩⟩, (hasks _ _ rfl _).mpr ?_⟩
    simp only [step, huser]
    exact .inl ⟨_, rfl⟩
  | refresh =>
    obtain ⟨token, htoken⟩ := Option.isSome_iff_exists.mp htakes
    refine ⟨onlyRecord p token, ⟨none, none⟩, (hasks _ (.refresh token none) ?_ _).mpr ?_⟩
    · simp [Router.Endpoint.action, htoken]
    refine acts_token.mpr (.inr fun hsame => ?_)
    have hgone := Transition.refresh_live (Token.step_transition p svc 0 (onlyRecord p token)
      (.refresh token (config.hasUser p) none)) (hroom token) (hlive token) (by decide)
    have hkept := (hsame.refresh _ _ (by decide)).mpr (hlive token)
    cases hgone.symm.trans hkept
  | revoke =>
    obtain ⟨token, htoken⟩ := Option.isSome_iff_exists.mp htakes
    refine ⟨onlyRecord p token, ⟨none, none⟩, (hasks _ (.revoke token) ?_ _).mpr ?_⟩
    · simp [Router.Endpoint.action, htoken]
    refine acts_token.mpr (.inr fun hsame => ?_)
    have hfamily : (onlyRecord p token).familyOf (hashToken p token) = some 0 := by
      rw [Token.State.familyOf, hlive]
    have hentry := hsame.revoked 0 (0 + svc.accessTtl) (by
      simp [step, ask, Token.step, TokenService.revoke, hfamily, Token.State.revokeFamily])
    cases hentry

/-- On every store, the handler acts on the request only if it is permitted. -/
def Gated (p : Platform) (auth : Option AuthConfig) (request : Request) : Prop :=
  ∀ s now draws, Acts now s (handleAuthRequest p auth s now draws request) →
    Permitted p auth s request

theorem gated_iff (p : Platform) (auth : Option AuthConfig) (request : Request) :
    Gated p auth request ↔ request.LengthsZero ∨ ¬Passes p auth request := by
  constructor
  · intro hgated
    by_cases hpasses : Passes p auth request
    · obtain ⟨s, draws, hacts⟩ := passes_acts hpasses
      exact .inl (hgated s 0 draws hacts).lengths
    · exact .inr hpasses
  · rintro h s now draws hacts
    obtain ⟨hpasses, hpermitted⟩ := acts_passes auth draws hacts
    exact hpermitted (h.resolve_right (not_not_intro hpasses))

def twoLengths : Request :=
  ⟨"POST".toList, "/auth/token".toList,
    [("content-length".toList, Text.utf8 "0".toList),
      ("content-length".toList, Text.utf8 "5".toList),
      (authorization, Text.utf8 (encodeCredential (.crates 0) "alice:secret".toList))]⟩

def twoLengthsHead : Bytes :=
  Text.utf8 ("POST /auth/token HTTP/1.1\r\nContent-Length: 0\r\nContent-Length: 5\r\n" ++
    "Authorization: Basic YWxpY2U6c2VjcmV0\r\n\r\n").toList

def twoLengthsParsers : Parsers where
  parse _ head := if head = twoLengthsHead then
    some ⟨"POST".toList, "/auth/token".toList, twoLengths.headers⟩ else none
  method := some
  headerValue := some
  build method path headers := some ⟨method, path, headers⟩
  handshake _ := none

theorem second_length_unseen :
    parsePlainRequest twoLengthsParsers twoLengthsHead = some twoLengths ∧
      ¬Gated (.crates 0) (some Router.staff) twoLengths := by
  refine ⟨by decide +kernel, ?_⟩
  intro hgated
  have hpermitted := hgated (.new 0) 0 ⟨some 1, some (Token.nthDraw 1)⟩
    (.inl ⟨Router.alicePair, by decide +kernel⟩)
  have hzero := hpermitted.lengths (Text.utf8 "5".toList) (by decide)
  exact absurd hzero (by decide)

end Ws2tcpRouter
