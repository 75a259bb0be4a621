import Ws2tcpRouter.Token.Format
import Ws2tcpRouter.Token.Refusal

/-!
# Restarts

Two lives of the service, the second with an empty store and whatever secret it
was given. Of the first it knows nothing: an access token counts by its tag and
its expiry alone, also where its family was revoked, and a refresh token does
not count at all.
-/

namespace Ws2tcpRouter.Token

open Timed (Run)

variable {p : Platform} {svc svc' : TokenService} {s s' : State} {family : UInt64} {token : Str}

-- ---------------------------------------------------------------------------
-- What a life knows
-- ---------------------------------------------------------------------------

theorem revoked_known (hl : p.urlSafe.Lawful) (h : Run (machine p svc) log s last)
    (hf : Fresh p log) (hmem : family ∈ s.revoked) : family ∈ families log := by
  obtain ⟨till, hentry⟩ := AList.mem_iff_lookup.mp hmem
  exact ended_known (settled hl h hf family till hentry).1

/-- A call mints for the family it starts, or for one that is known. -/
theorem Transition.mints_known (hl : p.urlSafe.Lawful) (h : Transition p svc now s call s' reply)
    (hknown : Known log s) (hmint : mints p svc family token ⟨now, s, call, reply⟩) :
    family ∈ families (⟨now, s, call, reply⟩ :: log) := by
  obtain ⟨pair, user, hpair, rfl, hmint⟩ := hmint
  rw [families_cons]
  cases h with
  | login =>
    cases hpair
    rw [← (TokenService.mintAccess_inj hl hmint).1]
    exact List.mem_cons_self
  | refreshRotated htidy _ hlive =>
    cases hpair
    rw [← (TokenService.mintAccess_inj hl hmint).1]
    exact hknown.live _ _ (htidy.refresh_lookup hlive)
  | _ => cases hpair

theorem mints_known (hl : p.urlSafe.Lawful) (h : Run (machine p svc) log s last) (hm : m ∈ log)
    (hmint : mints p svc family token m) : family ∈ families log := by
  induction h with
  | start => cases hm
  | @call log s last now call hrun _ ih =>
    obtain rfl | hm := List.mem_cons.mp hm
    · exact (step_transition p svc now s call).mints_known hl (known hrun) hmint
    · rw [families_cons]
      exact List.mem_append_right _ (ih hm)

/-- A token with the hash of none issued is not in the store. -/
theorem stranger_unknown (h : Run (machine p svc) log s last) (hf : Fresh p log)
    (hstranger : ∀ token' ∈ issuedTokens log, hashToken p token' ≠ hashToken p token) :
    s.refresh.lookup (hashToken p token) = none ∧ s.spent.lookup (hashToken p token) = none := by
  have htracks := tracks h hf
  refine ⟨?_, ?_⟩
  · refine Option.eq_none_iff_forall_ne_some.mpr ?_
    intro record hlive
    obtain ⟨token', g, hhash, hgrant, -⟩ := htracks.all.live _ _ hlive
    exact hstranger token' (grant_known hgrant).1 hhash
  · refine Option.eq_none_iff_forall_ne_some.mpr ?_
    intro record hspent
    obtain ⟨token', g, hhash, hgrant, -⟩ := htracks.all.spent _ _ hspent
    exact hstranger token' (grant_known hgrant).1 hhash

/-- What such a token is answered. -/
theorem Transition.stranger (h : Transition p svc now s call s' reply)
    (hlive : s.refresh.lookup (hashToken p token) = none)
    (hspent : s.spent.lookup (hashToken p token) = none) :
    (∀ userExists draw, call = .refresh token userExists draw →
      reply = .refresh (.error .full) ∨ reply = .refresh (.error .invalid)) ∧
    (call = .revoke token → reply = .revoke false) := by
  refine ⟨?_, ?_⟩
  · rintro userExists draw rfl
    cases h with
    | refreshFull => exact .inl rfl
    | refreshUnknown => exact .inr rfl
    | refreshReused htidy _ _ hfound => cases hspent.symm.trans (htidy.spent_lookup hfound)
    | refreshRefused => exact .inr rfl
    | refreshNoToken htidy _ hfound => cases hlive.symm.trans (htidy.refresh_lookup hfound)
    | refreshRotated htidy _ hfound => cases hlive.symm.trans (htidy.refresh_lookup hfound)
  · rintro rfl
    cases h with
    | revokeUnknown => rfl
    | revoke hfound => simp [State.familyOf, hlive, hspent] at hfound

-- ---------------------------------------------------------------------------
-- Two lives
-- ---------------------------------------------------------------------------

theorem Fresh.newer (h : Fresh p (after ++ before)) : Fresh p after := by
  have htokens : ∀ token ∈ tokens after, token ∈ tokens (after ++ before) := by
    intro token ht
    simp only [tokens, issuedTokens, List.filterMap_append, List.mem_append] at ht ⊢
    exact ht.imp .inl .inl
  refine ⟨?_, ?_, ?_⟩
  · have hnodup := h.tokens_nodup
    rw [issuedTokens, List.filterMap_append] at hnodup
    exact hnodup.of_append_left
  · have hnodup := h.families_nodup
    rw [families, List.filterMap_append] at hnodup
    exact hnodup.of_append_left
  · intro token ht token' ht'
    exact h.no_collision token (htokens token ht) token' (htokens token' ht')

/-- A family of the older part is started in none of the newer. -/
theorem Fresh.family_apart (h : Fresh p (after ++ before)) (hf : family ∈ families before) :
    family ∉ families after := by
  have hnodup := h.families_nodup
  rw [families, List.filterMap_append, List.nodup_append] at hnodup
  exact fun hmem => hnodup.2.2 family hmem family hf rfl

/-- The part of a life before an event of it. -/
theorem life_event (h : Run (machine p svc) after s t) (hfresh : Fresh p (after ++ before))
    (he : e ∈ after) :
    ∃ newer older last, after = newer ++ e :: older ∧ Run (machine p svc) older e.before last ∧
      Fresh p (older ++ before) ∧ e.reply = (step p svc e.time e.before e.call).2 := by
  have h' : Run (machine p svc) (after ++ []) s t := by rwa [List.append_nil]
  obtain ⟨newer, older, last, rfl, hrun, -, hreply⟩ := h'.split he
  rw [List.append_nil] at hrun
  rw [List.append_assoc, List.cons_append] at hfresh
  exact ⟨newer, older, last, rfl, hrun, (Fresh.suffix hfresh).older, hreply⟩

/-- The two secrets sign the payload alike. -/
def SameTag (p : Platform) (svc svc' : TokenService) (payload : Bytes) : Prop :=
  p.hmacSign svc'.key payload = p.hmacSign svc.key payload

instance : Decidable (SameTag p svc svc' payload) := inferInstanceAs (Decidable (_ = _))

theorem openToken_foreign (hl : p.urlSafe.Lawful) (hm : p.HmacExact) (payload : Bytes) :
    TokenService.openToken p svc' (svc.signed p payload) =
      if SameTag p svc svc' payload then some payload else none := by
  have hverify : p.hmacVerify svc'.key payload (p.hmacSign svc.key payload) = true ↔
      SameTag p svc svc' payload := (hm _ _ _).trans eq_comm
  simp [TokenService.openToken, TokenService.signed, Text.splitOnce_append (hl.dot_notMem payload),
    hl.decode_encode, hverify]

/-- After a restart an access token of an earlier life is accepted exactly where
the new secret gives it the tag it carries and it has not expired, revoked or
not; and a refresh token of an earlier life is unknown. -/
theorem restart (hl : p.urlSafe.Lawful) (hm : p.HmacExact)
    (hbefore : Run (machine p svc) before s t) (hafter : Run (machine p svc') after s' t')
    (hfresh : Fresh p (after ++ before)) :
    (∀ m ∈ before, ∀ family user pair, m.reply.pair = some pair →
      pair.accessToken = svc.mintAccess p m.time family user →
        ∀ e ∈ after, e.call = .verifyAccess pair.accessToken → e.reply = .verifyAccess
          (if SameTag p svc svc'
              (TokenService.accessPayload family (svc.accessExpires p m.time) user) ∧
            p.unixNow e.time < (svc.accessExpires p m.time).toNat
          then some user else none)) ∧
    ∀ m ∈ before, ∀ token, issued m = some token → ∀ e ∈ after,
      (∀ userExists draw, e.call = .refresh token userExists draw →
        e.reply = .refresh (.error .full) ∨ e.reply = .refresh (.error .invalid)) ∧
      (e.call = .revoke token → e.reply = .revoke false) := by
  refine ⟨?_, ?_⟩
  · intro m hmem family user pair hpair htoken e hevent hcall
    obtain ⟨newer, older, last, rfl, hrun, hfresh', hreply⟩ := life_event hafter hfresh hevent
    have hfamily : family ∈ families before :=
      mints_known hl hbefore hmem ⟨pair, user, hpair, rfl, htoken⟩
    have hnot : family ∉ e.before.revoked := fun hrevoked =>
      hfresh'.family_apart hfamily (revoked_known hl hrun hfresh'.newer hrevoked)
    rw [hreply, hcall, htoken, step, TokenService.verifyAccess_eq, TokenService.mintAccess,
      openToken_foreign hl hm]
    by_cases hsame : SameTag p svc svc'
      (TokenService.accessPayload family (svc.accessExpires p m.time) user)
    · simp [hsame, hnot]
    · simp [hsame]
  · intro m hmem token hissued e hevent
    obtain ⟨newer, older, last, rfl, hrun, hfresh', hreply⟩ := life_event hafter hfresh hevent
    have hstranger : ∀ token' ∈ issuedTokens older, hashToken p token' ≠ hashToken p token := by
      intro token' htoken'
      obtain ⟨e', he', hissued'⟩ := List.mem_filterMap.mp htoken'
      exact hfresh'.not_reissued hmem hissued e' he' token' hissued'
    obtain ⟨hlive, hspent⟩ := stranger_unknown hrun hfresh'.newer hstranger
    have htransition := step_transition p svc' e.time e.before e.call
    rw [← hreply] at htransition
    exact htransition.stranger hlive hspent

def loggedOut : List (Instant × Call) :=
  [(2, .revoke (nthToken 1)), (1, .login "alice".toList (some 1) (some (nthDraw 1)))]

/-- With the secret kept, the access token of a login that was ended counts
again, and its refresh token is gone. -/
theorem restart_logout :
    let token := service.mintAccess (Platform.crates 0) 1 1 "alice".toList
    (serveEvent 2 (.verifyAccess token) loggedOut).reply = .verifyAccess none ∧
      (serveEvent 3 (.verifyAccess token) []).reply = .verifyAccess (some "alice".toList) ∧
      (serveEvent 4 (.revoke (nthToken 1)) [(3, .verifyAccess token)]).reply = .revoke false := by
  intro token
  have hbefore := serve_run loggedOut (by decide)
  have hafter := serve_run [(4, .revoke (nthToken 1)), (3, .verifyAccess token)] (by decide)
  obtain ⟨hended, hfresh, hpair, hissued, hcounts⟩ :
      (serveEvent 2 (.verifyAccess token) loggedOut).reply = .verifyAccess none ∧
      Fresh (Platform.crates 0)
        ((serve [(4, .revoke (nthToken 1)), (3, .verifyAccess token)]).1 ++ (serve loggedOut).1) ∧
      (serveEvent 1 (.login "alice".toList (some 1) (some (nthDraw 1))) []).reply.pair =
        some (service.pairOf (Platform.crates 0) 1 1 "alice".toList (1 + maxFamilyLifetime)
          (nthDraw 1)) ∧
      issued (serveEvent 1 (.login "alice".toList (some 1) (some (nthDraw 1))) []) =
        some (nthToken 1) ∧
      (Platform.crates 0).unixNow 3 < (service.accessExpires (Platform.crates 0) 1).toNat := by
    decide +kernel
  obtain ⟨haccess, hrefresh⟩ := restart (Platform.crates_urlSafe 0) (Platform.crates_hmacExact 0)
    hbefore hafter hfresh
  refine ⟨hended, ?_, ?_⟩
  · have hreply := haccess _ (List.mem_cons_of_mem _ List.mem_cons_self) 1 "alice".toList _ hpair
      rfl _ (List.mem_cons_of_mem _ List.mem_cons_self) rfl
    exact hreply.trans (congrArg Reply.verifyAccess (if_pos ⟨rfl, hcounts⟩))
  · exact (hrefresh _ (List.mem_cons_of_mem _ List.mem_cons_self) (nthToken 1) hissued _
      List.mem_cons_self).2 rfl

end Ws2tcpRouter.Token
