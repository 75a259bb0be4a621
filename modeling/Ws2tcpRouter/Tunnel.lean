import Ws2tcpRouter.Reload
import Ws2tcpRouter.Removal

/-!
# From a login to a tunnel

A configured credential logs its user in, and the access token handed out, or
handed out by a later refresh of the login, opens tunnels for that user: it is
written into a header, read back, opened and looked up, and every stage reads
what the one before it wrote.
-/

namespace Ws2tcpRouter

open Timed (Run)
open Token (TokenService IssuedTokens tokenBytes)
open Router (machine step issuedTo tokenEvent tokenLog handleAuthRequest_step)

variable {p : Platform} {svc : TokenService} {user : Str}

-- ---------------------------------------------------------------------------
-- The header
-- ---------------------------------------------------------------------------

theorem toLower_visible {c : Char} (h : c.toLower ∈ "bearer".toList) : 32 < c.toNat ∧ c.toNat < 127 := by
  unfold Char.toLower at h
  split at h
  next hupper =>
    simp only [Char.toNat]
    simp only [UInt32.le_iff_toNat_le, ge_iff_le] at hupper
    grind
  next =>
    have hall : ∀ c ∈ "bearer".toList, 32 < c.toNat ∧ c.toNat < 127 := by simp
    exact hall c h

/-- Every character of the scheme, in whatever case, is visible. -/
theorem scheme_visible (h : Text.eqIgnoreAsciiCase scheme "bearer".toList = true) :
    ∀ c ∈ scheme, 32 < c.toNat ∧ c.toNat < 127 := by
  intro c hc
  apply toLower_visible
  have hmap : scheme.map Char.toLower = "bearer".toList := of_decide_eq_true h
  rw [← hmap]
  exact List.mem_map_of_mem hc

def tokenChar (c : Char) : Bool := base64Char c || c = '.'

theorem mem_signed (hl : p.urlSafe.Lawful) (h : c ∈ svc.signed p payload) : tokenChar c = true := by
  unfold TokenService.signed at h
  rw [tokenChar, Bool.or_eq_true, decide_eq_true_eq]
  rcases List.mem_append.mp h with h | h
  · exact .inl (hl.encode_alphabet _ c h)
  · rcases List.mem_cons.mp h with h | h
    · exact .inr h
    · exact .inl (hl.encode_alphabet _ c h)

theorem tokenChar_visible (h : tokenChar c = true) : 32 < c.toNat ∧ c.toNat < 127 := by
  rcases Bool.or_eq_true _ _ ▸ h with h | h
  · exact base64Char_visible h
  · rw [of_decide_eq_true h]
    decide

def bearerValue (scheme token : Str) : Bytes := Text.utf8 (scheme ++ ' ' :: token)

theorem bearer_signed (hl : p.urlSafe.Lawful)
    (hscheme : Text.eqIgnoreAsciiCase scheme "bearer".toList = true)
    (hget : request.get authorization = some (bearerValue scheme (svc.signed p payload))) :
    Request.Bearer request (svc.signed p payload) := by
  have htoken : ∀ c ∈ svc.signed p payload, 32 < c.toNat ∧ c.toNat < 127 :=
    fun c hc => tokenChar_visible (mem_signed hl hc)
  refine ⟨scheme ++ ' ' :: svc.signed p payload, ?_, scheme, svc.signed p payload, ?_, rfl,
    hscheme, ?_, ?_⟩
  · rw [Request.getStr, hget]
    refine Text.visibleAscii_utf8 ?_
    intro c hc
    rcases List.mem_append.mp hc with hc | hc
    · exact (scheme_visible hscheme c hc).imp_left Nat.le_of_lt
    · rcases List.mem_cons.mp hc with rfl | hc
      · decide
      · exact (htoken c hc).imp_left Nat.le_of_lt
  · intro hspace
    exact absurd (scheme_visible hscheme _ hspace).1 (by decide)
  · exact (Text.trim_eq_self fun c hc => Text.isWhitespace_visible (htoken c hc)).symm
  · unfold TokenService.signed
    exact List.append_ne_nil_of_right_ne_nil _ (List.cons_ne_nil _ _)

-- ---------------------------------------------------------------------------
-- The decision
-- ---------------------------------------------------------------------------

/-- `hmac::verify` accepts what `hmac::sign` made. -/
def Platform.Verifies (p : Platform) : Prop :=
  ∀ key payload, p.hmacVerify key payload (p.hmacSign key payload) = true

/-- Sent as a bearer token at `t`, in any case of the scheme, the token is
accepted for the user on every path that is no anonymous target. -/
def Opens (p : Platform) (σ : Router) (t : Instant) (token user : Str) : Prop :=
  ∀ request scheme, Text.eqIgnoreAsciiCase scheme "bearer".toList = true →
    request.get authorization = some (bearerValue scheme token) →
    ¬σ.auth.AnonymousTo request.path →
    authorizeRequest p (some σ.auth) σ.tokens t request = .ok user

theorem minted_opens (hs : p.standard.Lawful) (hl : p.urlSafe.Lawful) (hv : p.Verifies)
    {σ : Router} (htokens : σ.auth.tokens = some svc)
    (hlt : p.unixNow t < (svc.accessExpires p issued).toNat)
    (hrevoked : family ∉ σ.tokens.revoked) (huser : σ.auth.hasUser p user = true) :
    Opens p σ t (svc.mintAccess p issued family user) user := by
  intro request scheme hscheme hget hpath
  have hverify : svc.verifyAccess p σ.tokens t (svc.mintAccess p issued family user) =
      some user := by
    rw [TokenService.verifyAccess_mintAccess hl]
    exact if_pos ⟨hv _ _, hlt, hrevoked⟩
  exact (authorizeRequest_eq_ok hs).mpr (.inr ⟨hpath, .inl
    ⟨svc, _, htokens, bearer_signed hl hscheme hget, hverify, huser⟩⟩)

-- ---------------------------------------------------------------------------
-- The user of a family
-- ---------------------------------------------------------------------------

namespace Token

def Owned (family : UInt64) (user : Str) (log : List Event) : Prop :=
  ∀ e ∈ log, started e = some family → ∃ draw, e.call = .login user (some family) draw

def State.Belongs (family : UInt64) (user : Str) (s : State) : Prop :=
  s.All (fun _ record => record.family = family → record.user = user)
    (fun _ record => record.family = family → record.user = user)

variable {s s' : State}

theorem belongs (h : Run (machine p svc) log s last) (ho : Owned family user log) :
    s.Belongs family user := by
  refine h.invariant (fun log s _ => Owned family user log → s.Belongs family user) ?_ ?_ ho
  · rintro t s rfl _
    exact .new t
  · intro log s last now call _ ih _ ho
    refine (step_transition p svc now s call).every (fun other user' => other = family → user' = user)
      (ih fun e he => ho e (List.mem_cons_of_mem _ he)) ?_
    rintro user' _ draw hcall hstarted rfl
    obtain ⟨draw', heq⟩ := ho _ List.mem_cons_self hstarted
    cases hcall.symm.trans heq
    rfl

theorem Transition.refresh_user (hl : p.urlSafe.Lawful) (hs : s.Belongs family user)
    (h : Transition p svc now s (.refresh token userExists draw) s'
      (.refresh (.ok (other, pair))))
    (hminted : pair.accessToken = svc.mintAccess p now family other) : other = user := by
  cases h with
  | refreshRotated htidy _ hlive =>
    obtain ⟨hfamily, -⟩ := TokenService.mintAccess_inj hl hminted
    exact hs.live _ _ (htidy.refresh_lookup hlive) hfamily

theorem Transition.login_room
    (h : Transition p svc now s (.login user (some family) (some bytes)) s' reply)
    (hroom : s.held now < maxRecords) :
    reply = .login (.ok (svc.pairOf p now family user (now + maxFamilyLifetime) bytes)) := by
  cases h with
  | loginFull hfull => exact absurd hroom (Nat.not_lt.mpr hfull)
  | login => rfl

end Token

-- ---------------------------------------------------------------------------
-- The round trip
-- ---------------------------------------------------------------------------

/-- `POST /auth/token` without a body, with the credential as it is encoded. -/
structure LoginRequest (p : Platform) (credential : Str) (request : Request) : Prop where
  method : request.method = "POST".toList
  path : request.path = "/auth/token".toList
  bodiless : declaresBody request = false
  header : request.get authorization = some (Text.utf8 (encodeCredential p credential))

def loginWith (p : Platform) (credential : Str) (family : UInt64) (draw : Block tokenBytes) :
    Action :=
  .login (encodeCredential p credential) (some family) (some draw)

def loginPair (p : Platform) (svc : TokenService) (now : Instant) (user : Str) (family : UInt64)
    (draw : Block tokenBytes) : IssuedTokens :=
  svc.pairOf p now family user (now + Token.maxFamilyLifetime) draw

theorem login_answer {σ : Router} (hs : p.standard.Lawful) (hcred : Credential credential user)
    (hconf : encodeCredential p credential ∈ σ.auth.expectedAuthorizations)
    (hroom : σ.tokens.held now < Token.maxRecords) :
    (step p svc now σ (loginWith p credential family draw)).2 =
      .token (.login (.ok (loginPair p svc now user family draw))) ∧
    σ.auth.basicUser p (encodeCredential p credential) = some user := by
  have huser : σ.auth.basicUser p (encodeCredential p credential) = some user :=
    basicUser_eq_some.mpr ⟨hconf, basicAuthUsername_encodeCredential hs hcred⟩
  refine ⟨?_, huser⟩
  simp only [loginWith, step, huser]
  exact congrArg Answer.token (Token.Transition.login_room
    (Token.step_transition p svc now σ.tokens (.login user (some family) (some draw))) hroom)

theorem login_request {σ : Router} (hs : p.standard.Lawful) (htokens : σ.auth.tokens = some svc)
    (hcred : Credential credential user) (hr : LoginRequest p credential request) :
    handleAuthRequest p (some σ.auth) σ.tokens now ⟨some family, some draw⟩ request =
      ((step p svc now σ (loginWith p credential family draw)).1.tokens,
        Router.responseOf (step p svc now σ (loginWith p credential family draw)).2) := by
  refine (handleAuthRequest_step htokens _ request).1 _ ?_
  refine Router.asks_eq_some.mpr ⟨.login, ?_, hr.method, hr.bodiless, ?_⟩
  · rw [hr.path]
    rfl
  · rw [Request.getStr, hr.header]
    have hvisible := visible_of_basicAuthUsername hs (basicAuthUsername_encodeCredential hs hcred)
    rw [Option.bind_some, Text.visibleAscii_utf8 hvisible]
    rfl

theorem refresh_of_reply (h : (step p svc now σ action).2 = .token (.refresh r)) :
    ∃ token draw, (Token.step p svc now σ.tokens (.refresh token (σ.auth.hasUser p) draw)).2 =
      .refresh r := by
  cases action with
  | login authorization familyDraw draw =>
    simp only [step] at h
    split at h <;> cases h
  | refresh token draw => exact ⟨token, draw, Answer.token.inj h⟩
  | _ => cases h

/-- A refresh in a run whose access token names the family is its user's. -/
theorem refresh_owned (hl : p.urlSafe.Lawful)
    (h : Run (machine p svc) (later ++ earlier) σ t)
    (ho : Token.Owned family user (tokenLog p svc (later ++ earlier))) (hm : m ∈ later)
    (hreply : m.reply = .token (.refresh (.ok (other, pair))))
    (hminted : pair.accessToken = svc.mintAccess p m.time family other) : other = user := by
  obtain ⟨newer, older, last, rfl, hrun, -, hstep⟩ := h.split hm
  obtain ⟨_, -, htokens⟩ := Router.run_tokens hrun
  have ho : Token.Owned family user (tokenLog p svc (older ++ earlier)) := by
    intro e he
    obtain ⟨m', hm', heq⟩ := List.mem_filterMap.mp he
    refine ho e (List.mem_filterMap.mpr ⟨m', ?_, heq⟩)
    rw [List.append_assoc]
    exact List.mem_append_right _ (List.mem_cons_of_mem _ hm')
  obtain ⟨token, draw, hanswer⟩ := refresh_of_reply (hstep.symm.trans hreply)
  have htransition := Token.step_transition p svc m.time m.before.tokens
    (.refresh token (m.before.auth.hasUser p) draw)
  rw [hanswer] at htransition
  exact htransition.refresh_user hl (Token.belongs htokens ho) hminted

def loginEvent (p : Platform) (svc : TokenService) (now : Instant) (σ : Router) (credential : Str)
    (family : UInt64) (draw : Block tokenBytes) : Router.Event :=
  ⟨now, σ, loginWith p credential family draw,
    (step p svc now σ (loginWith p credential family draw)).2⟩

/-- A configured credential logs its user in, and the access token it gets opens
tunnels for that user. So does one that a refresh of its family gets, for the
user the refresh answers with: another one only if a family id was drawn twice. -/
theorem login_to_tunnel (hs : p.standard.Lawful) (hl : p.urlSafe.Lawful) (hv : p.Verifies)
    (h : Run (machine p svc) earlier σ last)
    (hvalid : validateBasicAuthCredential credential = .ok ())
    (hsplit : Text.splitOnce ':' credential = some (user, password))
    (hconf : encodeCredential p credential ∈ σ.auth.expectedAuthorizations)
    (hroom : σ.tokens.held now < Token.maxRecords) (family : UInt64) (draw : Block tokenBytes) :
    (∀ request, LoginRequest p credential request →
      handleAuthRequest p (some σ.auth) σ.tokens now ⟨some family, some draw⟩ request =
        ((step p svc now σ (loginWith p credential family draw)).1.tokens,
          tokensResponse (loginPair p svc now user family draw))) ∧
    issuedTo p (loginEvent p svc now σ credential family draw) =
      some (user, loginPair p svc now user family draw) ∧
    ∀ later σ' t t',
      Run (machine p svc) (later ++ loginEvent p svc now σ credential family draw :: earlier) σ' t →
      t ≤ t' → family ∉ σ'.tokens.revoked →
      (σ'.auth.hasUser p user = true → p.unixNow t' < (svc.accessExpires p now).toNat →
        Opens p σ' t' (loginPair p svc now user family draw).accessToken user) ∧
      ∀ m ∈ later, ∀ other pair, m.reply = .token (.refresh (.ok (other, pair))) →
        pair.accessToken = svc.mintAccess p m.time family other →
        (σ'.auth.hasUser p other = true → p.unixNow t' < (svc.accessExpires p m.time).toNat →
          Opens p σ' t' pair.accessToken other) ∧
        (Token.Owned family user
            (tokenLog p svc (later ++ loginEvent p svc now σ credential family draw :: earlier)) →
          other = user) := by
  have hcred : Credential credential user := by
    obtain ⟨user', password', hsplit', hform⟩ := validateBasicAuthCredential_ok.mp hvalid
    cases hsplit.symm.trans hsplit'
    exact ⟨password, hsplit, hform⟩
  obtain ⟨hanswer, huser⟩ : (step p svc now σ (loginWith p credential family draw)).2 = _ ∧ _ :=
    login_answer hs hcred hconf hroom
  refine ⟨?_, ?_, ?_⟩
  · intro request hr
    rw [login_request hs (Router.tokens_configured h) hcred hr, hanswer]
    rfl
  · rw [loginEvent, hanswer]
    simp only [issuedTo, loginWith, huser, Option.map_some]
  intro later σ' t t' hrun _ hrevoked
  have htokens := Router.tokens_configured hrun
  refine ⟨fun huser hlt => minted_opens hs hl hv htokens hlt hrevoked huser, ?_⟩
  intro m hm other pair hreply hminted
  refine ⟨?_, fun ho => refresh_owned hl hrun ho hm hreply hminted⟩
  intro hother hlt
  rw [hminted]
  exact minted_opens hs hl hv htokens hlt hrevoked hother

-- a quote, a space and a dot in the name, a colon in the password
def oddCredential : Str := "j\"ø e.:a:b".toList

def oddUser : Str := "j\"ø e.".toList

def oddRouter : Router where
  auth :=
    { Router.staff with
      expectedAuthorizations := [encodeCredential (.crates 0) oddCredential]
      anonymousTargets := ["db:80".toList] }
  tokens := .new 0

def oddPair : IssuedTokens := loginPair (.crates 0) Token.service 0 oddUser 1 (Token.nthDraw 1)

def oddAfter : Router :=
  (step (.crates 0) Token.service 0 oddRouter (loginWith (.crates 0) oddCredential 1
    (Token.nthDraw 1))).1

def oddRequest (path : Str) : Request :=
  ⟨"GET".toList, path, [(authorization, bearerValue "bEaReR".toList oddPair.accessToken)]⟩

theorem login_to_tunnel_odd :
    authorizeRequest (.crates 0) (some oddAfter.auth) oddAfter.tokens 1
      (oddRequest "/tcp:db:22".toList) = .ok oddUser := by
  have hrun : Run (machine (.crates 0) Token.service) [] oddRouter 0 := .start ⟨rfl, rfl⟩
  obtain ⟨-, -, hopens⟩ := @login_to_tunnel (.crates 0) Token.service oddUser [] oddRouter 0
    oddCredential "a:b".toList 0 (Platform.crates_standard 0) (Platform.crates_urlSafe 0)
    (fun key payload => beq_self_eq_true _) hrun (by decide) (by decide)
    List.mem_cons_self (by decide) 1 (Token.nthDraw 1)
  have hlater := (hopens [] oddAfter 0 1 (.call _ hrun (Nat.le_refl 0)) (by decide)
    (by decide +kernel)).1 (by decide +kernel) (by decide)
  refine hlater _ "bEaReR".toList (by decide) rfl ?_
  rw [← allowsAnonymousTarget_eq_true]
  decide

/-- The targets open to everyone come first, also for a user with a token. -/
theorem anonymous_target_first :
    oddPair.accessToken = Token.service.mintAccess (.crates 0) 0 1 oddUser ∧
    (step (.crates 0) Token.service 0 oddRouter (loginWith (.crates 0) oddCredential 1
      (Token.nthDraw 1))).2 = .token (.login (.ok oddPair)) ∧
    (Platform.crates 0).unixNow 1 < (Token.service.accessExpires (.crates 0) 0).toNat ∧
    (1 : UInt64) ∉ oddAfter.tokens.revoked ∧ oddAfter.auth.hasUser (.crates 0) oddUser = true ∧
    authorizeRequest (.crates 0) (some oddAfter.auth) oddAfter.tokens 1
      (oddRequest "/tcp:db:80".toList) = .ok anonymousAuthUser ∧ anonymousAuthUser ≠ oddUser := by
  refine ⟨rfl, ?_, ?_, ?_, ?_, ?_, ?_⟩ <;> decide +kernel

end Ws2tcpRouter
