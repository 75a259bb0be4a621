import Ws2tcpRouter.Mediation
import Ws2tcpRouter.Token.Refusal

/-!
# Removing users

A token of a user who was removed is refused for as long as the user is away.
It stays refused after their return if it had come to its end by then; if not,
it works again, because all that ties it to the user is their name.
-/

namespace Ws2tcpRouter

open Timed (Run)
open Token (tokenBytes IssuedTokens TokenService hashToken)

namespace Router

variable {p : Platform} {svc : TokenService} {σ : Router} {user : Str} {pair : IssuedTokens}

-- ---------------------------------------------------------------------------
-- Whose tokens
-- ---------------------------------------------------------------------------

/-- The user a pair was handed out to, and the pair. -/
def issuedTo (p : Platform) (e : Event) : Option (Str × IssuedTokens) :=
  match e.call, e.reply with
  | .login authorization _ _, .token (.login (.ok pair)) =>
    (e.before.auth.basicUser p authorization).map fun user => (user, pair)
  | .refresh _ _, .token (.refresh (.ok r)) => some r
  | _, _ => none

def names (p : Platform) (credentials : List Str) (user : Str) : Bool :=
  credentials.any fun credential => basicAuthUsername p credential == some user

/-- The event installs a file that names the user, who was away. -/
def Returns (p : Platform) (user : Str) (e : Event) : Prop :=
  ∃ file entries, e.call = .reloadAuthFile file ∧ e.before.auth.hasUser p user = false ∧
    loadAuthFile p file = .ok entries ∧
    names p (e.before.auth.fixedAuthorizations ++ entries) user = true

/-- Users come back through the file of credentials only. -/
theorem returns_of_step (now : Instant) (action : Action) (reply : Answer)
    (haway : σ.auth.hasUser p user = false)
    (h : (step p svc now σ action).1.auth.hasUser p user = true) :
    Returns p user ⟨now, σ, action, reply⟩ := by
  have hsame : (step p svc now σ action).1.auth.expectedAuthorizations ≠
      σ.auth.expectedAuthorizations := by
    intro heq
    simp only [AuthConfig.hasUser, heq] at h haway
    exact absurd (haway.symm.trans h) (by decide)
  cases action with
  | reloadAuthFile file =>
    simp only [step] at h hsame
    obtain ⟨e, heq⟩ | ⟨entries, changed, hload, -, heq⟩ := reloadAuthFile_cases p σ.auth file
    · rw [heq] at hsame
      exact (hsame rfl).elim
    · rw [heq] at h
      exact ⟨file, entries, rfl, haway, hload, h⟩
  | reloadAnonymousTargetFile file =>
    simp only [step] at hsame
    obtain ⟨e, heq⟩ | ⟨targets, changed, -, heq⟩ := reloadAnonymousTargetFile_cases σ.auth file
    · rw [heq] at hsame
      exact (hsame rfl).elim
    · rw [heq] at hsame
      exact (hsame rfl).elim
  | login authorization familyDraw draw =>
    simp only [step] at hsame
    split at hsame <;> exact (hsame rfl).elim
  | refresh => exact (hsame rfl).elim
  | revoke => exact (hsame rfl).elim
  | authorize => exact (hsame rfl).elim

/-- The tokens of the configuration are the service's. -/
theorem tokens_configured (h : Run (machine p svc) log σ t) : σ.auth.tokens = some svc := by
  refine h.invariant (fun _ σ _ => σ.auth.tokens = some svc) ?_ ?_
  · rintro t σ ⟨hs, -⟩
    exact hs
  intro log σ last now action _ hs _
  cases action with
  | login authorization familyDraw draw =>
    simp only [machine, step]
    split <;> exact hs
  | reloadAuthFile file =>
    obtain ⟨e, heq⟩ | ⟨entries, changed, -, -, heq⟩ := reloadAuthFile_cases p σ.auth file <;>
    · simp only [machine, step, heq]
      exact hs
  | reloadAnonymousTargetFile file =>
    obtain ⟨e, heq⟩ | ⟨targets, changed, -, heq⟩ :=
      reloadAnonymousTargetFile_cases σ.auth file <;>
    · simp only [machine, step, heq]
      exact hs
  | refresh => exact hs
  | revoke => exact hs
  | authorize => exact hs

-- ---------------------------------------------------------------------------
-- One pair of tokens
-- ---------------------------------------------------------------------------

theorem issuedTo_spec {m : Event} (hreply : m.reply = (step p svc m.time m.before m.call).2)
    (h : issuedTo p m = some (user, pair)) :
    ∃ call, tokenCall p m.before m.call = some call ∧
      (Token.step p svc m.time m.before.tokens call).2.pair = some pair ∧
      ((∀ user' familyDraw draw, call = .login user' familyDraw draw → user' = user) ∧
        ∀ r, (Token.step p svc m.time m.before.tokens call).2 = .refresh (.ok r) → r.1 = user) := by
  obtain ⟨now, σ, action, reply⟩ := m
  simp only at hreply
  unfold issuedTo at h
  split at h
  next authorization familyDraw draw pair' hcall hanswer =>
    obtain ⟨user', huser, heq⟩ := Option.map_eq_some_iff.mp h
    cases heq
    simp only at hcall hanswer huser
    subst hcall hanswer
    have hcall : tokenCall p σ (.login authorization familyDraw draw) =
        some (.login user familyDraw draw) := by simp only [tokenCall, huser, Option.map_some]
    rw [step_token hcall] at hreply
    have hstep := Answer.token.inj hreply
    refine ⟨_, hcall, ?_, ?_, ?_⟩
    · rw [← hstep]
      rfl
    · intro user' _ _ heq
      cases heq
      rfl
    · intro r hr
      rw [← hstep] at hr
      cases hr
  next token draw r hcall hanswer =>
    cases h
    simp only at hcall hanswer
    subst hcall hanswer
    have hstep := Answer.token.inj hreply
    refine ⟨_, rfl, ?_, ?_, ?_⟩
    · rw [← hstep]
      rfl
    · intro _ _ _ heq
      cases heq
    · intro r hr
      rw [← hstep] at hr
      cases hr
      rfl
  next => cases h

/-- A pair in a run: the event of the token service that filed it, and how it
was minted. -/
structure Issue (p : Platform) (svc : TokenService) (m : Event) (σ : Router) (user : Str)
    (pair : IssuedTokens) (t : Token.Event) (family : UInt64) : Prop where
  event : tokenEvent p svc m = some t
  time : t.time = m.time
  issued : Token.issued t = some pair.refreshToken
  filed : ∀ record, σ.tokens.refresh.lookup (hashToken p pair.refreshToken) = some record →
    record.user = user
  minted : pair.accessToken = svc.mintAccess p m.time family user
  mints : Token.mints p svc family (svc.mintAccess p m.time family user) t

theorem issue {m : Event} (h : Run (machine p svc) (m :: earlier) σ last)
    (hissued : issuedTo p m = some (user, pair)) :
    ∃ t family, Issue p svc m σ user pair t family := by
  obtain ⟨last', -, -, -, hreply, rfl⟩ := h.cons_inv
  obtain ⟨call, hcall, hpair, hlogin, hrefresh⟩ := issuedTo_spec hreply hissued
  obtain ⟨family, user', deadline, bytes, rfl, hfiled, hnew, huser⟩ :=
    (Token.step_transition p svc m.time m.before.tokens call).issues hpair
  obtain rfl : user' = user := by
    obtain ⟨familyDraw, draw, heq⟩ | heq := huser
    · exact hlogin _ _ _ heq
    · exact hrefresh _ heq
  refine ⟨⟨m.time, m.before.tokens, call, _⟩, family, ?_, rfl, hnew, ?_, rfl, ?_⟩
  · simp only [tokenEvent, Timed.Event.within, hcall, Option.map_some]
    rfl
  · intro record hr
    simp only [machine, step_tokens, hcall, Option.elim_some] at hr
    rw [hfiled] at hr
    cases hr
    rfl
  · exact ⟨_, user', hpair, rfl, rfl⟩

-- ---------------------------------------------------------------------------
-- While a user is away
-- ---------------------------------------------------------------------------

/-- From when a user is away: they are still away, or what had come to hold of
the token store by their return, and lasts, holds. -/
theorem away_or (Gone : Token.State → Instant → Prop)
    (h : Run (machine p svc) (later ++ log) σ last)
    (haway : ∀ σ₀ t₀, Run (machine p svc) log σ₀ t₀ → σ₀.auth.hasUser p user = false)
    (hlasts : ∀ s t t', t ≤ t' → Gone s t → Gone s t')
    (hkeep : ∀ e ∈ later, Gone e.before.tokens e.time →
      Gone (step p svc e.time e.before e.call).1.tokens e.time)
    (hreturns : ∀ e ∈ later, Returns p user e → Gone e.before.tokens e.time) :
    ∀ e ∈ later, e.before.auth.hasUser p user = false ∨ Gone e.before.tokens e.time := by
  have hafter := (h.after (fun σ t => σ.auth.hasUser p user = false ∨ Gone σ.tokens t)
    (fun e => (Gone e.before.tokens e.time →
      Gone (step p svc e.time e.before e.call).1.tokens e.time) ∧
        (Returns p user e → Gone e.before.tokens e.time)) ?_ ?_ ?_).2
  · intro e he
    obtain ⟨t, hle, haway | hgone, -⟩ := hafter e he
    · exact .inl haway
    · exact .inr (hlasts _ _ _ hle hgone)
  · rintro log t ⟨now, σ, action, reply⟩ - hq hle ⟨hkeep, hreturns⟩ -
    obtain haway | hgone := hq
    · cases hnow : (step p svc now σ action).1.auth.hasUser p user with
      | false => exact .inl hnow
      | true => exact .inr (hkeep (hreturns (returns_of_step now action reply haway hnow)))
    · exact .inr (hkeep (hlasts _ _ _ hle hgone))
  · intro σ₀ t₀ h₀
    exact .inl (haway σ₀ t₀ h₀)
  · intro e he
    exact ⟨hkeep e he, hreturns e he⟩

/-- What each call of the token service keeps, each event keeps. -/
theorem keep_tokens {P : Token.State → Prop} {e : Event} (h : P e.before.tokens)
    (hcall : ∀ call, tokenCall p e.before e.call = some call →
      P (Token.step p svc e.time e.before.tokens call).1) :
    P (step p svc e.time e.before e.call).1.tokens := by
  rw [step_tokens]
  cases hc : tokenCall p e.before e.call with
  | none => exact h
  | some call => exact hcall call hc

theorem tokenEvent_of_call {e : Event} (h : tokenCall p e.before e.call = some call) :
    tokenEvent p svc e = some ⟨e.time, e.before.tokens, call,
      (Token.step p svc e.time e.before.tokens call).2⟩ := by
  simp only [tokenEvent, Timed.Event.within, h, Option.map_some]
  rfl

-- ---------------------------------------------------------------------------
-- Removal
-- ---------------------------------------------------------------------------

def Lapsed (p : Platform) (svc : TokenService) (s : Token.State) (now : Instant)
    (pair : IssuedTokens) : Prop :=
  svc.verifyAccess p s now pair.accessToken = none ∧ s.Lacks (hashToken p pair.refreshToken) now

/-- Whoever returns has no token that still works. -/
def ReturnsLapsed (p : Platform) (svc : TokenService) : List Event → Prop
  | [] => True
  | e :: log =>
    (∀ user, Returns p user e → ∀ m ∈ log, ∀ pair, issuedTo p m = some (user, pair) →
      Lapsed p svc e.before.tokens e.time pair) ∧ ReturnsLapsed p svc log

theorem ReturnsLapsed.older (h : ReturnsLapsed p svc (later ++ log)) : ReturnsLapsed p svc log := by
  induction later with
  | nil => exact h
  | cons e later ih => exact ih h.2

theorem tokenLog_append (later log : List Event) :
    tokenLog p svc (later ++ log) = tokenLog p svc later ++ tokenLog p svc log :=
  List.filterMap_append

/-- From when the user a pair was handed out to is away, the user is away or
the pair does not work, where whoever returns has no token that works. -/
theorem away_or_lapsed {m : Event} {σ₁ : Router} (hl : p.urlSafe.Lawful) (hc : p.ClocksTogether)
    (h : Run (machine p svc) (later ++ log) σ last)
    (hf : Token.Fresh p (tokenLog p svc (later ++ log)))
    (hreturns : ReturnsLapsed p svc (later ++ log)) (hm : m ∈ log)
    (hissued : issuedTo p m = some (user, pair)) (hi : Issue p svc m σ₁ user pair t family)
    (haway : ∀ σ₀ t₀, Run (machine p svc) log σ₀ t₀ → σ₀.auth.hasUser p user = false) :
    ∀ e ∈ later, e.before.auth.hasUser p user = false ∨
      (e.before.tokens.Lacks (hashToken p pair.refreshToken) e.time ∧
        Token.Over p svc family user m.time e.before.tokens e.time) := by
  have ht : t ∈ tokenLog p svc log := List.mem_filterMap.mpr ⟨m, hm, hi.event⟩
  refine away_or (fun s now => s.Lacks (hashToken p pair.refreshToken) now ∧
    Token.Over p svc family user m.time s now) h haway ?_ ?_ ?_
  · rintro s now now' hle ⟨hlacks, hover⟩
    exact ⟨hlacks.later hle, hover.later hc hle⟩
  · rintro e he ⟨hlacks, hover⟩
    obtain ⟨newer, older, last', rfl, hrun, hle, -⟩ := h.split he
    have hmle : m.time ≤ e.time := (hrun.time_le m (List.mem_append_right _ hm)).trans hle
    refine @keep_tokens p svc
      (fun s => s.Lacks _ e.time ∧ Token.Over p svc family user m.time s e.time) e
      ⟨hlacks, hover⟩ ?_
    intro call hcall
    have hstep := Token.step_transition p svc e.time e.before.tokens call
    refine ⟨hstep.lacks hlacks ?_, hstep.over hc hmle hover⟩
    rw [tokenLog_append] at hf
    exact hf.not_reissued ht hi.issued _
      (List.mem_filterMap.mpr ⟨e, he, tokenEvent_of_call hcall⟩)
  · intro e he hreturn
    obtain ⟨newer, older, last', rfl, hrun, hle, -⟩ := h.split he
    rw [List.append_assoc] at hf hreturns
    have hm' : m ∈ older ++ log := List.mem_append_right _ hm
    obtain ⟨haccess, hlacks⟩ := hreturns.older.1 user hreturn m hm' pair hissued
    obtain ⟨t', -, htokens⟩ := run_tokens hrun
    rw [List.cons_append, tokenLog_append] at hf
    have hfresh : Token.Fresh p (tokenLog p svc (older ++ log)) := by
      have := hf.suffix
      rw [tokenLog, ← List.singleton_append, List.filterMap_append] at this
      exact this.suffix
    have hsettled := Token.settled hl htokens hfresh
    refine ⟨hlacks, ?_⟩
    have hmem : t ∈ tokenLog p svc (older ++ log) := List.mem_filterMap.mpr ⟨m, hm', hi.event⟩
    rw [hi.minted, ← hi.time] at haccess
    have hmint := hi.mints
    rw [← hi.time] at hmint ⊢
    exact .of_refused hl hsettled hmem hmint haccess

/-- What is filed for a token handed out is filed for the user it went to. -/
theorem owned {m : Event} (h : Run (machine p svc) (later ++ m :: earlier) σ last)
    (hf : Token.Fresh p (tokenLog p svc (later ++ m :: earlier)))
    (hissued : issuedTo p m = some (user, pair)) :
    ∀ e ∈ later, ∀ record, e.before.tokens.refresh.lookup (hashToken p pair.refreshToken) =
      some record → record.user = user := by
  obtain ⟨σ₁, t₁, h₁, -⟩ := h.older
  obtain ⟨t, family, hi⟩ := issue h₁ hissued
  have ht : t ∈ tokenLog p svc (m :: earlier) :=
    List.mem_filterMap.mpr ⟨m, List.mem_cons_self, hi.event⟩
  have hafter := (h.after (fun σ _ => ∀ record, σ.tokens.refresh.lookup
      (hashToken p pair.refreshToken) = some record → record.user = user)
    (fun e => e ∈ later) ?_ ?_ fun _ => id).2
  · intro e he
    obtain ⟨-, -, howned, -⟩ := hafter e he
    exact howned
  · intro log last' e _ howned _ he _
    refine @keep_tokens p svc (fun s => ∀ record, s.refresh.lookup _ = some record →
      record.user = user) e howned ?_
    intro call hcall record hr
    have hstep := Token.step_transition p svc e.time e.before.tokens call
    refine howned record (hstep.lookup_back ?_ hr)
    rw [tokenLog_append] at hf
    exact hf.not_reissued ht hi.issued _
      (List.mem_filterMap.mpr ⟨e, he, tokenEvent_of_call hcall⟩)
  · intro σ₀ t₀ h₀
    obtain ⟨t', family', hi'⟩ := issue h₀ hissued
    exact hi'.filed

/-- A user who was removed loses the tokens handed out before, also when they
return, provided that whoever returns has no token that still works. -/
theorem removal_final {r m : Event} (hl : p.urlSafe.Lawful) (hc : p.ClocksTogether)
    (h : Run (machine p svc) (later ++ r :: (between ++ m :: earlier)) σ last)
    (hf : Token.Fresh p (tokenLog p svc (later ++ r :: (between ++ m :: earlier))))
    (hreturns : ReturnsLapsed p svc (later ++ r :: (between ++ m :: earlier)))
    (hissued : issuedTo p m = some (user, pair)) (hreload : r.call = .reloadAuthFile file)
    (hremoved : (r.before.auth.reloadAuthFile p file).1.hasUser p user = false) :
    ∀ e ∈ later,
      (∀ draw redeemed, e.call = .refresh pair.refreshToken draw →
        e.reply ≠ .token (.refresh (.ok redeemed))) ∧
      ∀ request accepted, e.call = .authorize request → request.Bearer pair.accessToken →
        e.reply = .authorize (.ok accepted) → e.before.auth.AnonymousTo request.path := by
  have hm : m ∈ r :: (between ++ m :: earlier) := by simp
  have hlog : later ++ r :: (between ++ m :: earlier) = later ++ r :: between ++ m :: earlier := by
    simp
  have howned := owned (hlog ▸ h) (hlog ▸ hf) hissued
  obtain ⟨σ₁, t₁, h₁, -⟩ := (hlog ▸ h).older
  obtain ⟨t, family, hi⟩ := issue h₁ hissued
  have haway := away_or_lapsed hl hc h hf hreturns hm hissued hi ?_
  · intro e he
    obtain ⟨newer, older, last', -, hrun, hle, hreply⟩ := h.split he
    refine ⟨?_, ?_⟩
    · rintro draw ⟨user', pair'⟩ hcall hok
      rw [hreply, hcall] at hok
      have hstep := Token.step_transition p svc e.time e.before.tokens
        (.refresh pair.refreshToken (e.before.auth.hasUser p) draw)
      rw [Answer.token.inj hok] at hstep
      obtain ⟨record, hlive, hunexpired, rfl, hexists⟩ := hstep.redeemed
      rw [howned e (List.mem_append_left _ he) record hlive] at hexists
      obtain hgone | ⟨hlacks, -⟩ := haway e he
      · exact absurd (hgone.symm.trans hexists) (by decide)
      · exact absurd ((hlacks record hlive).symm.trans hunexpired) (by decide)
    · intro request accepted hcall hbearer hok
      rw [hreply, hcall] at hok
      refine (authorizeRequest_bearer (Answer.authorize.inj hok) hbearer).resolve_right ?_
      intro hverify
      obtain ⟨tokens, htokens, haccess, hexists⟩ := verifyAccessToken_eq_some.mp hverify
      rw [tokens_configured hrun] at htokens
      cases htokens
      rw [hi.minted] at haccess
      obtain hgone | ⟨-, hover⟩ := haway e he
      · obtain rfl : accepted = user := by
          rw [Token.TokenService.verifyAccess_mintAccess hl,
            Option.ite_none_right_eq_some] at haccess
          exact (Option.some.inj haccess.2).symm
        exact absurd (hgone.symm.trans hexists) (by decide)
      · rw [hover.refused hl] at haccess
        cases haccess
  · intro σ₀ t₀ h₀
    obtain ⟨-, -, -, -, -, rfl⟩ := h₀.cons_inv
    simp only [machine, step, hreload]
    exact hremoved

def staff : AuthConfig where
  expectedAuthorizations :=
    ["alice:secret", "bob:hunter2"].map fun s => encodeCredential (.crates 0) s.toList
  fixedAuthorizations := []
  anonymousTargets := []
  fixedAnonymousTargets := []
  tokens := some Token.service

def serve (calls : List (Instant × Action)) : List Event × Router :=
  (machine (.crates 0) Token.service).exec ⟨staff, .new 0⟩ calls

def serveEvent (now : Instant) (action : Action) (calls : List (Instant × Action)) : Event :=
  ⟨now, (serve calls).2, action, (step (.crates 0) Token.service now (serve calls).2 action).2⟩

theorem serve_cons (now : Instant) (action : Action) (calls : List (Instant × Action)) :
    (serve ((now, action) :: calls)).1 = serveEvent now action calls :: (serve calls).1 := rfl

def aliceLogin : Action :=
  .login (encodeCredential (.crates 0) "alice:secret".toList) (some 1) (some (Token.nthDraw 1))

def aliceRefresh : Action := .refresh (Token.nthToken 1) (some (Token.nthDraw 2))

def alicePair : IssuedTokens :=
  Token.service.pairOf (.crates 0) 0 1 "alice".toList Token.maxFamilyLifetime (Token.nthDraw 1)

def removalCalls : List (Instant × Action) :=
  [(1, .reloadAuthFile (some "bob:hunter2".toList)), (0, aliceLogin)]

def aliceReturns : Action := .reloadAuthFile (some "alice:changed\nbob:hunter2".toList)

def tunnelRequest : Request :=
  ⟨"GET".toList, "/tcp:db:5432".toList,
    [(authorization, Text.utf8 ("Bearer ".toList ++ alicePair.accessToken))]⟩

theorem alicePair_issued :
    issuedTo (.crates 0) (serveEvent 0 aliceLogin []) = some ("alice".toList, alicePair) := by
  decide +kernel

/-- Only alice returns, and only once her tokens have ended. -/
theorem returnsLapsed_alice : ReturnsLapsed (.crates 0) Token.service
    (serve ((fromSecs 3600, aliceRefresh) :: (fromSecs 3600, aliceReturns) :: removalCalls)).1 := by
  have hrefused : Token.service.verifyAccess (.crates 0)
      (serve removalCalls).2.tokens (fromSecs 3600) alicePair.accessToken = none := by
    decide +kernel
  have hfiled : (serve removalCalls).2.tokens.refresh.lookup
      (hashToken (.crates 0) alicePair.refreshToken) =
        some ⟨1, "alice".toList, fromSecs 3600, Token.maxFamilyLifetime⟩ := by
    decide +kernel
  have hremoval : issuedTo (.crates 0) (serveEvent 1 (.reloadAuthFile (some "bob:hunter2".toList))
      [(0, aliceLogin)]) = none := rfl
  refine ⟨?_, ?_, ?_, ?_, trivial⟩
  · rintro user ⟨file, entries, hcall, -⟩
    cases hcall
  · intro user _ m hm pair hissued
    rcases List.mem_cons.mp hm with rfl | hm
    · cases hremoval.symm.trans hissued
    · rw [List.mem_singleton.mp hm] at hissued
      cases alicePair_issued.symm.trans hissued
      refine ⟨hrefused, ?_⟩
      intro record hr
      cases hfiled.symm.trans hr
      decide
  · rintro user ⟨file, entries, -, haway, -⟩ m hm pair hissued
    rw [List.mem_singleton.mp hm] at hissued
    cases alicePair_issued.symm.trans hissued
    exact absurd haway (by decide +kernel)
  · rintro user ⟨file, entries, hcall, -⟩
    cases hcall

/-- Back after her tokens have ended, alice cannot use them. -/
theorem removal_final_return : ¬ ∃ redeemed,
    (serveEvent (fromSecs 3600) aliceRefresh
      ((fromSecs 3600, aliceReturns) :: removalCalls)).reply =
        .token (.refresh (.ok redeemed)) := by
  have hrun : Run (machine (.crates 0) Token.service)
      (serve ((fromSecs 3600, aliceRefresh) :: (fromSecs 3600, aliceReturns) :: removalCalls)).1
      (serve ((fromSecs 3600, aliceRefresh) :: (fromSecs 3600, aliceReturns) :: removalCalls)).2
      (fromSecs 3600) :=
    Run.exec ⟨rfl, rfl⟩ (show ([fromSecs 3600, fromSecs 3600, 1, 0] ++ [0]).Pairwise (· ≥ ·) by
      decide)
  have hfresh : Token.Fresh (.crates 0) (tokenLog (.crates 0) Token.service
      (serve ((fromSecs 3600, aliceRefresh) :: (fromSecs 3600, aliceReturns) :: removalCalls)).1) := by
    decide +kernel
  have hreturns := returnsLapsed_alice
  simp only [serve_cons, removalCalls] at hrun hfresh hreturns ⊢
  have hfinal := @removal_final (.crates 0) Token.service _ "alice".toList alicePair
    [serveEvent (fromSecs 3600) aliceRefresh ((fromSecs 3600, aliceReturns) :: removalCalls),
      serveEvent (fromSecs 3600) aliceReturns removalCalls] []
    [] _ _ _ _ (Platform.crates_urlSafe 0)
    (Platform.crates_clocksTogether 0) hrun hfresh hreturns alicePair_issued rfl (by decide +kernel)
  rintro ⟨redeemed, hreply⟩
  exact (hfinal _ List.mem_cons_self).1 _ redeemed rfl hreply

/-- Back before her tokens end, alice may use them again. -/
theorem returned_user_revived :
    (serve removalCalls).2.auth.hasUser (.crates 0) "alice".toList = false ∧
    (serve ((4, aliceRefresh) :: (3, .authorize tunnelRequest) :: (2, aliceReturns) ::
        removalCalls)).1.map Timed.Event.reply =
      [.token (.refresh (.ok ("alice".toList, Token.service.pairOf (.crates 0) 4 1 "alice".toList
          Token.maxFamilyLifetime (Token.nthDraw 2)))),
        .authorize (.ok "alice".toList), .reload (.ok true), .reload (.ok true),
        .token (.login (.ok alicePair))] := by
  decide +kernel

end Router

end Ws2tcpRouter
