import Ws2tcpRouter.Token.Sweeping

/-!
# What stays refused

A refresh token without an unexpired live record stays without one unless it
is issued again, and a minted access token that is not accepted is never
accepted again, whatever is called in between.
-/

namespace Ws2tcpRouter.Token

variable {p : Platform} {svc : TokenService} {s s' : State} {hash : Hash} {token user : Str}
  {record : RefreshRecord}

-- ---------------------------------------------------------------------------
-- Refresh tokens
-- ---------------------------------------------------------------------------

/-- No unexpired record is kept under the hash. -/
def State.Lacks (s : State) (hash : Hash) (now : Instant) : Prop :=
  ∀ record, s.refresh.lookup hash = some record → record.unexpired now = false

theorem State.Lacks.later (h : s.Lacks hash t) (hle : t ≤ now) : s.Lacks hash now := by
  intro record hr
  have hexpired := h record hr
  simp only [RefreshRecord.unexpired, Bool.and_eq_false_iff, decide_eq_false_iff_not]
    at hexpired ⊢
  lia

/-- A call files a record only under the hash of the token it issues. -/
theorem Transition.lookup_back (h : Transition p svc now s call s' reply)
    (hnew : ∀ token, issued ⟨now, s, call, reply⟩ = some token → hashToken p token ≠ hash)
    (hr : s'.refresh.lookup hash = some record) : s.refresh.lookup hash = some record := by
  have hfile : ∀ {s : State} {bytes record'},
      hashToken p (p.urlSafe.encode bytes.val) ≠ hash →
      (s.file p bytes record').refresh.lookup hash = some record →
      s.refresh.lookup hash = some record := by
    intro s bytes record' hne hr
    obtain ⟨heq, -⟩ | ⟨-, hr⟩ := AList.lookup_insert_some.mp hr
    · exact (hne heq.symm).elim
    · exact hr
  cases h with
  | loginNoFamily => exact hr
  | loginFull => exact State.Tidied.refresh_lookup (.inr rfl) hr
  | loginNoToken htidy => exact htidy.refresh_lookup hr
  | login htidy => exact htidy.refresh_lookup (hfile (hnew _ rfl) hr)
  | refreshFull => exact State.Tidied.refresh_lookup (.inr rfl) hr
  | refreshUnknown htidy => exact htidy.refresh_lookup hr
  | refreshReused htidy => exact htidy.refresh_lookup (AList.lookup_retain_some.mp hr).1
  | refreshRefused htidy => exact htidy.refresh_lookup (AList.lookup_erase_some.mp hr).2
  | refreshNoToken htidy => exact htidy.refresh_lookup (AList.lookup_erase_some.mp hr).2
  | refreshRotated htidy =>
    exact htidy.refresh_lookup (AList.lookup_erase_some.mp (hfile (hnew _ rfl) hr)).2
  | revokeUnknown => exact hr
  | revoke => exact (AList.lookup_retain_some.mp hr).1
  | verifyAccess => exact hr

theorem Transition.lacks (h : Transition p svc now s call s' reply) (hlacks : s.Lacks hash now)
    (hnew : ∀ token, issued ⟨now, s, call, reply⟩ = some token → hashToken p token ≠ hash) :
    s'.Lacks hash now :=
  fun record hr => hlacks record (h.lookup_back hnew hr)

theorem Fresh.suffix (h : Fresh p (later ++ log)) : Fresh p log := by
  induction later with
  | nil => exact h
  | cons e later ih => exact ih h.older

/-- In a fresh log no later token has the hash of one issued. -/
theorem Fresh.not_reissued (h : Fresh p (later ++ log)) (hm : m ∈ log)
    (hi : issued m = some token) :
    ∀ e ∈ later, ∀ token', issued e = some token' → hashToken p token' ≠ hashToken p token := by
  intro e he token' hi' hhash
  have hmem : token ∈ issuedTokens log := List.mem_filterMap.mpr ⟨m, hm, hi⟩
  have hmem' : token' ∈ issuedTokens later := List.mem_filterMap.mpr ⟨e, he, hi'⟩
  have hnodup := h.tokens_nodup
  rw [issuedTokens, List.filterMap_append, List.nodup_append] at hnodup
  have hall : ∀ {t}, t ∈ issuedTokens later ∨ t ∈ issuedTokens log → t ∈ tokens (later ++ log) := by
    intro t ht
    refine List.mem_append_right _ ?_
    rw [issuedTokens, List.filterMap_append]
    exact List.mem_append.mpr ht
  have heq := h.no_collision token (hall (.inr hmem)) token' (hall (.inl hmem')) hhash
  exact hnodup.2.2 token' hmem' token hmem heq

/-- A token is redeemed for the user of its unexpired record, if they exist. -/
theorem Transition.redeemed (h : Transition p svc now s (.refresh token userExists draw) s'
    (.refresh (.ok (user, pair)))) :
    ∃ record, s.refresh.lookup (hashToken p token) = some record ∧
      record.unexpired now = true ∧ record.user = user ∧ userExists user = true := by
  cases h with
  | refreshRotated htidy _ hlive hunexpired huser =>
    exact ⟨_, htidy.refresh_lookup hlive, hunexpired, rfl, huser⟩

/-- A pair handed out is filed, for the user it was asked for or is told. -/
theorem Transition.issues (h : Transition p svc now s call s' reply) (hp : reply.pair = some pair) :
    ∃ family user deadline bytes, pair = svc.pairOf p now family user deadline bytes ∧
      s'.refresh.lookup (hashToken p pair.refreshToken) =
        some (svc.recordOf now family user deadline) ∧
      issued ⟨now, s, call, reply⟩ = some pair.refreshToken ∧
      ((∃ familyDraw draw, call = .login user familyDraw draw) ∨
        reply = .refresh (.ok (user, pair))) := by
  cases h with
  | login =>
    cases hp
    exact ⟨_, _, _, _, rfl, AList.lookup_insert _, rfl, .inl ⟨_, _, rfl⟩⟩
  | refreshRotated =>
    cases hp
    exact ⟨_, _, _, _, rfl, AList.lookup_insert _, rfl, .inr rfl⟩
  | _ => cases hp

-- ---------------------------------------------------------------------------
-- Access tokens
-- ---------------------------------------------------------------------------

/-- The access token minted at `t` for the family and the user is refused for
good: its tag is bad, it has expired, or its family is revoked until it has. -/
def Over (p : Platform) (svc : TokenService) (family : UInt64) (user : Str) (t : Instant)
    (s : State) (now : Instant) : Prop :=
  p.hmacVerify svc.key (TokenService.accessPayload family (svc.accessExpires p t) user)
      (p.hmacSign svc.key (TokenService.accessPayload family (svc.accessExpires p t) user)) = false ∨
    (svc.accessExpires p t).toNat ≤ p.unixNow now ∨
    ∃ till, s.revoked.lookup family = some till ∧ t + svc.accessTtl ≤ till

namespace Over

theorem refused (hl : p.urlSafe.Lawful) (h : Over p svc family user t s now) :
    svc.verifyAccess p s now (svc.mintAccess p t family user) = none := by
  rw [TokenService.verifyAccess_mintAccess hl, if_neg]
  rintro ⟨htag, hlt, hnot⟩
  obtain hbad | hpast | ⟨till, hentry, -⟩ := h
  · exact absurd (hbad.symm.trans htag) (by decide)
  · exact Nat.not_lt.mpr hpast hlt
  · exact hnot (AList.mem_iff_lookup.mpr ⟨till, hentry⟩)

theorem later (hc : p.ClocksTogether) (h : Over p svc family user t s now) (hle : now ≤ now') :
    Over p svc family user t s now' :=
  h.imp_right fun h => h.imp_left fun h => h.trans (hc.unixNow_mono hle)

theorem same (h : Over p svc family user t s now) (heq : s'.revoked = s.revoked) :
    Over p svc family user t s' now := by
  rwa [Over, heq]

theorem tidied (hc : p.ClocksTogether) (h : Over p svc family user t s now)
    (ht : s.Tidied now s') : Over p svc family user t s' now := by
  obtain hbad | hpast | ⟨till, hentry, hle⟩ := h
  · exact .inl hbad
  · exact .inr (.inl hpast)
  · obtain rfl | rfl := ht
    · exact .inr (.inr ⟨till, hentry, hle⟩)
    · by_cases hnow : now < till
      · exact .inr (.inr ⟨till, AList.lookup_retain_some.mpr ⟨hentry, decide_eq_true hnow⟩, hle⟩)
      · exact .inr (.inl (TokenService.accessExpires_le_unixNow hc
          (hle.trans (Nat.le_of_not_lt hnow))))

theorem revokeFamily (h : Over p svc family user t s now) (hle : t ≤ now) (other : UInt64) :
    Over p svc family user t (s.revokeFamily other now svc.accessTtl) now := by
  obtain hbad | hpast | ⟨till, hentry, htill⟩ := h
  · exact .inl hbad
  · exact .inr (.inl hpast)
  · refine .inr (.inr ?_)
    by_cases heq : family = other
    · subst heq
      exact ⟨now + svc.accessTtl, AList.lookup_insert _, Nat.add_le_add_right hle _⟩
    · exact ⟨till, (AList.lookup_insert_ne heq).trans hentry, htill⟩

/-- What is refused now has been revoked early enough to be refused for good. -/
theorem of_refused (hl : p.urlSafe.Lawful) (hs : Settled p svc log s) (hm : m ∈ log)
    (hmint : mints p svc family (svc.mintAccess p m.time family user) m)
    (h : svc.verifyAccess p s now (svc.mintAccess p m.time family user) = none) :
    Over p svc family user m.time s now := by
  rw [TokenService.verifyAccess_mintAccess hl] at h
  by_contra hnot
  simp only [Over, not_or, Bool.not_eq_false, Nat.not_le] at hnot
  obtain ⟨htag, hlt, hnone⟩ := hnot
  have hfamily : family ∉ s.revoked := by
    intro hmem
    obtain ⟨till, hentry⟩ := AList.mem_iff_lookup.mp hmem
    exact hnone ⟨till, hentry, (hs family till hentry).2 m hm _ hmint⟩
  rw [if_pos ⟨htag, hlt, hfamily⟩] at h
  cases h

end Over

theorem Transition.over (hc : p.ClocksTogether) (h : Transition p svc now s call s' reply)
    (hle : t ≤ now) (ho : Over p svc family user t s now) : Over p svc family user t s' now := by
  cases h with
  | loginNoFamily => exact ho
  | loginFull => exact ho.tidied hc (.inr rfl)
  | loginNoToken htidy => exact ho.tidied hc htidy
  | login htidy => exact (ho.tidied hc htidy).same rfl
  | refreshFull => exact ho.tidied hc (.inr rfl)
  | refreshUnknown htidy => exact ho.tidied hc htidy
  | refreshReused htidy => exact (ho.tidied hc htidy).revokeFamily hle _
  | refreshRefused htidy => exact (ho.tidied hc htidy).same rfl
  | refreshNoToken htidy => exact (ho.tidied hc htidy).same rfl
  | refreshRotated htidy => exact (ho.tidied hc htidy).same rfl
  | revokeUnknown => exact ho
  | revoke => exact ho.revokeFamily hle _
  | verifyAccess => exact ho

end Ws2tcpRouter.Token
