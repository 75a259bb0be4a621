import Ws2tcpRouter.Token.Sweeping

/-!
# Logins are independent

A call for one family leaves the unexpired records of every other as they
were, and what its access tokens are worth. Every call may sweep, but that
drops what has expired only.
-/

namespace Ws2tcpRouter.Token

open Timed (Run)

variable {p : Platform} {svc : TokenService} {s s' : State} {hash : Hash}

/-- The stores hold the same unexpired entries of the family. -/
structure State.SameFor (family : UInt64) (now : Instant) (s s' : State) : Prop where
  refresh : ∀ hash record, record.family = family → record.unexpired now = true →
    (s'.refresh.lookup hash = some record ↔ s.refresh.lookup hash = some record)
  spent : ∀ hash record, record.family = family → record.unexpired now = true →
    (s'.spent.lookup hash = some record ↔ s.spent.lookup hash = some record)
  revoked : ∀ till, now < till →
    (s'.revoked.lookup family = some till ↔ s.revoked.lookup family = some till)

def State.FreeLive (family : UInt64) (s : State) (hash : Hash) : Prop :=
  ∀ record, s.refresh.lookup hash = some record → record.family ≠ family

def State.FreeSpent (family : UInt64) (s : State) (hash : Hash) : Prop :=
  ∀ record, s.spent.lookup hash = some record → record.family ≠ family

namespace State.SameFor

theorem refl (family : UInt64) (now : Instant) (s : State) : s.SameFor family now s :=
  ⟨fun _ _ _ _ => Iff.rfl, fun _ _ _ _ => Iff.rfl, fun _ _ => Iff.rfl⟩

theorem trans (h : s.SameFor family now s') (h' : s'.SameFor family now s'') :
    s.SameFor family now s'' :=
  ⟨fun hash record hf hu => (h'.refresh hash record hf hu).trans (h.refresh hash record hf hu),
    fun hash record hf hu => (h'.spent hash record hf hu).trans (h.spent hash record hf hu),
    fun till hlt => (h'.revoked till hlt).trans (h.revoked till hlt)⟩

theorem tidied (h : s.Tidied now s') : s.SameFor family now s' := by
  refine ⟨?_, ?_, ?_⟩
  · intro hash record _ hu
    exact ⟨h.refresh_lookup, fun hr => h.refresh_kept hr hu⟩
  · intro hash record _ hu
    exact ⟨h.spent_lookup, fun hr => h.spent_kept hr (of_decide_eq_true hu)⟩
  · intro till hlt
    obtain rfl | rfl := h
    · exact Iff.rfl
    · rw [State.forceSweep, AList.lookup_retain_some]
      exact and_iff_left (decide_eq_true hlt)

theorem file {bytes : Block tokenBytes} (hne : record.family ≠ family)
    (hfree : s.FreeLive family (hashToken p (p.urlSafe.encode bytes.val))) :
    s.SameFor family now (s.file p bytes record) := by
  refine ⟨?_, fun _ _ _ _ => Iff.rfl, fun _ _ => Iff.rfl⟩
  intro hash record' hf _
  rw [State.file, AList.lookup_insert_some]
  constructor
  · rintro (⟨-, rfl⟩ | ⟨-, hr⟩)
    · exact (hne hf).elim
    · exact hr
  · intro hr
    refine .inr ⟨?_, hr⟩
    rintro rfl
    exact hfree record' hr hf

theorem take (hfree : s.FreeLive family hash) : s.SameFor family now (s.take hash) := by
  refine ⟨?_, fun _ _ _ _ => Iff.rfl, fun _ _ => Iff.rfl⟩
  intro hash' record hf _
  rw [State.take, AList.lookup_erase_some]
  constructor
  · exact And.right
  · intro hr
    refine ⟨?_, hr⟩
    rintro rfl
    exact hfree record hr hf

theorem retire {record : RefreshRecord} (hne : record.family ≠ family)
    (hfree : s.FreeLive family hash) (hspent : s.FreeSpent family hash) :
    s.SameFor family now (s.retire hash record) := by
  refine ⟨(take hfree).refresh, ?_, fun _ _ => Iff.rfl⟩
  intro hash' record' hf _
  rw [State.retire, AList.lookup_insert_some]
  constructor
  · rintro (⟨-, rfl⟩ | ⟨-, hr⟩)
    · exact (hne hf).elim
    · exact hr
  · intro hr
    refine .inr ⟨?_, hr⟩
    rintro rfl
    exact hspent record' hr hf

theorem revokeFamily (hne : other ≠ family) (accessTtl : Duration) :
    s.SameFor family now (s.revokeFamily other now accessTtl) := by
  refine ⟨?_, fun _ _ _ _ => Iff.rfl, ?_⟩
  · intro hash record hf _
    rw [State.revokeFamily, AList.lookup_retain_some]
    refine and_iff_left (decide_eq_true ?_)
    rw [hf]
    exact hne.symm
  · intro till _
    rw [State.revokeFamily, AList.lookup_insert_ne hne.symm]

end State.SameFor

-- ---------------------------------------------------------------------------
-- The family of a call
-- ---------------------------------------------------------------------------

/-- The family a call would start, or the one its token was granted in. -/
def Call.family (l : Ledger) : Call → Option UInt64
  | .login _ familyDraw _ => familyDraw
  | .refresh token _ _ | .revoke token => (l.grant token).map Grant.family
  | .verifyAccess _ => none

theorem Tracks.freeLive (ht : Tracks p svc l s now) (ha : Apart p l token)
    (hother : (l.grant token).map Grant.family ≠ some family) :
    s.FreeLive family (hashToken p token) := by
  rintro record hr rfl
  obtain ⟨g, hg, rfl, -⟩ := ht.of_live ha hr
  exact hother (by rw [hg]; rfl)

theorem Tracks.freeSpent (ht : Tracks p svc l s now) (ha : Apart p l token)
    (hother : (l.grant token).map Grant.family ≠ some family) :
    s.FreeSpent family (hashToken p token) := by
  rintro record hr rfl
  obtain ⟨g, hg, rfl, -⟩ := ht.of_spent ha hr
  exact hother (by rw [hg]; rfl)

theorem Transition.sameFor (h : Transition p svc now s call s' reply)
    (hf : Fresh p (⟨now, s, call, reply⟩ :: log)) (ht : Tracks p svc (ledger log) s now)
    (hother : call.family (ledger log) ≠ some family) : s.SameFor family now s' := by
  cases h with
  | loginNoFamily => exact .refl family now s
  | loginFull => exact .tidied (.inr rfl)
  | loginNoToken htidy => exact .tidied htidy
  | login htidy =>
    have hnone := hf.grant_issued rfl
    have hfree := (ht.tidied htidy).freeLive (hf.apart (.inr rfl))
      (show _ ≠ some family by rw [hnone]; exact nofun)
    exact (State.SameFor.tidied htidy).trans (.file (fun heq => hother (congrArg some heq)) hfree)
  | refreshFull => exact .tidied (.inr rfl)
  | refreshUnknown htidy => exact .tidied htidy
  | refreshReused htidy _ _ hspent =>
    have hfree := (ht.tidied htidy).freeSpent (hf.apart (.inl rfl)) hother
    exact (State.SameFor.tidied htidy).trans (.revokeFamily (hfree _ hspent) _)
  | refreshRefused htidy =>
    have hfree := (ht.tidied htidy).freeLive (hf.apart (.inl rfl)) hother
    exact (State.SameFor.tidied htidy).trans (.take hfree)
  | refreshNoToken htidy _ hlive =>
    have ha := hf.apart (.inl rfl)
    have hfree := (ht.tidied htidy).freeLive ha hother
    exact (State.SameFor.tidied htidy).trans
      (.retire (hfree _ hlive) hfree ((ht.tidied htidy).freeSpent ha hother))
  | refreshRotated htidy _ hlive =>
    have ht := ht.tidied htidy
    have ha := hf.apart (.inl rfl)
    have hfree := ht.freeLive ha hother
    have hne := hfree _ hlive
    have hretired := ht.retire ha hlive
    have hnone := hf.grant_issued rfl
    have hnew := hretired.freeLive (hf.apart (.inr rfl))
      (show _ ≠ some family by
        rw [show ((ledger log).retire _).grant _ = none from hnone]
        exact nofun)
    exact (State.SameFor.tidied htidy).trans ((State.SameFor.retire hne hfree
      (ht.freeSpent ha hother)).trans (.file hne hnew))
  | revokeUnknown => exact .refl family now s
  | revoke hfamily =>
    obtain ⟨g, hg, rfl⟩ := ht.of_familyOf (hf.apart (.inl rfl)) hfamily
    refine .revokeFamily ?_ _
    rintro rfl
    exact hother (by rw [Call.family, hg]; rfl)
  | verifyAccess => exact .refl family now s

-- ---------------------------------------------------------------------------
-- Access tokens
-- ---------------------------------------------------------------------------

/-- For a token that has not expired, an entry that has is as good as none. -/
theorem Settled.mem_revoked_iff (hc : p.ClocksTogether) (hs : Settled p svc log s) (hm : m ∈ log)
    (hmint : mints p svc family token m) (hle : now ≤ t)
    (hlt : p.unixNow t < (svc.accessExpires p m.time).toNat) :
    family ∈ s.revoked ↔ ∃ till, now < till ∧ s.revoked.lookup family = some till := by
  rw [AList.mem_iff_lookup]
  constructor
  · rintro ⟨till, hentry⟩
    refine ⟨till, ?_, hentry⟩
    by_contra hpast
    have htill := (hs family till hentry).2 m hm token hmint
    have hexpired := TokenService.accessExpires_le_unixNow hc
      ((htill.trans (Nat.le_of_not_lt hpast)).trans hle)
    exact Nat.not_lt.mpr hexpired hlt
  · rintro ⟨till, -, hentry⟩
    exact ⟨till, hentry⟩

/-- In a fresh run, a call for one family leaves every other with the same
unexpired records, and its access tokens with the same worth. -/
theorem families_independent (hl : p.urlSafe.Lawful) (hc : p.ClocksTogether)
    (h : Run (machine p svc) (e :: log) s last) (hf : Fresh p (e :: log))
    (hother : e.call.family (ledger log) ≠ some family) :
    e.before.SameFor family e.time s ∧
    ∀ m ∈ log, ∀ token, mints p svc family token m → ∀ t, e.time ≤ t →
      svc.verifyAccess p s t token = svc.verifyAccess p e.before t token := by
  have hafter := settled hl h hf
  obtain ⟨last', hrun, hle, rfl, hreply, rfl⟩ := h.cons_inv
  have ht := (tracks hrun hf.older).later hle
  have hbefore := settled hl hrun hf.older
  obtain ⟨now, before, call, reply⟩ := e
  simp only at hreply
  subst hreply
  have hsame := (step_transition p svc now before call).sameFor hf ht hother
  refine ⟨hsame, ?_⟩
  intro m hm token hmint t hlet
  have hmint' := hmint
  obtain ⟨pair, user, -, -, rfl⟩ := hmint
  rw [TokenService.verifyAccess_mintAccess hl, TokenService.verifyAccess_mintAccess hl]
  refine if_congr (and_congr_right fun _ => and_congr_right fun hlt => not_congr ?_) rfl rfl
  rw [hafter.mem_revoked_iff hc (List.mem_cons_of_mem _ hm) hmint' hlet hlt,
    hbefore.mem_revoked_iff hc hm hmint' hlet hlt]
  exact exists_congr fun till => and_congr_right fun htill => hsame.revoked till htill

def twoLogins : List (Instant × Call) :=
  (2, .login "bob".toList (some 2) (some (nthDraw 2))) :: rotatedCalls

theorem families_independent_reuse :
    let token := service.mintAccess (Platform.crates 0) 2 2 "bob".toList
    (serveEvent 3 reuse twoLogins).reply = .refresh (.error (.reused "alice".toList)) ∧
      service.verifyAccess (Platform.crates 0) (serve ((3, reuse) :: twoLogins)).2 4 token =
        some "bob".toList := by
  intro token
  have hrun := serve_run ((3, reuse) :: twoLogins) (by decide)
  have hfresh : Fresh (Platform.crates 0) (serve ((3, reuse) :: twoLogins)).1 := by
    decide +kernel
  have hminted : mints (Platform.crates 0) service 2 token
      (serveEvent 2 (.login "bob".toList (some 2) (some (nthDraw 2))) rotatedCalls) :=
    ⟨service.pairOf (Platform.crates 0) 2 2 "bob".toList maxFamilyLifetime (nthDraw 2),
      "bob".toList, by decide +kernel, rfl, rfl⟩
  obtain ⟨-, hsame⟩ := families_independent (Platform.crates_urlSafe 0)
    (Platform.crates_clocksTogether 0) hrun hfresh
    (show Call.family _ reuse ≠ some 2 by decide +kernel)
  refine ⟨by decide +kernel, ?_⟩
  rw [hsame _ List.mem_cons_self token hminted 4 (by decide)]
  decide +kernel

end Ws2tcpRouter.Token
