import Ws2tcpRouter.Token.Ledger
import Ws2tcpRouter.Token.Revocation

/-!
# Sweeping

The service next to a reference that drops every entry at the instant it
expires. The two stores hold the same unexpired entries throughout; the calls
that look at an entry check for themselves whether it has expired, with one
exception, and so answer alike. The exception is `revoke`.
-/

namespace Ws2tcpRouter.Token

open Timed (Run)

variable {p : Platform} {svc : TokenService} {s s' : State} {token user : Str}
  {userExists : Str → Bool} {bytes : Block tokenBytes} {record : RefreshRecord}

-- ---------------------------------------------------------------------------
-- The unexpired part of a store
-- ---------------------------------------------------------------------------

/-- The stores hold the same unexpired entries. -/
structure State.Agree (now : Instant) (s s' : State) : Prop where
  refresh : s.refresh.retain (fun _ record => record.unexpired now) =
    s'.refresh.retain fun _ record => record.unexpired now
  spent : s.spent.retain (fun _ record => record.unexpired now) =
    s'.spent.retain fun _ record => record.unexpired now
  revoked : s.revoked.retain (fun _ till => decide (now < till)) =
    s'.revoked.retain fun _ till => decide (now < till)

namespace State.Agree

theorem refl (now : Instant) (s : State) : s.Agree now s := ⟨rfl, rfl, rfl⟩

theorem symm (h : s.Agree now s') : s'.Agree now s :=
  ⟨h.refresh.symm, h.spent.symm, h.revoked.symm⟩

theorem trans (h : s.Agree now s') (h' : s'.Agree now s'') : s.Agree now s'' :=
  ⟨h.refresh.trans h'.refresh, h.spent.trans h'.spent, h.revoked.trans h'.revoked⟩

theorem forceSweep_eq (h : s.Agree now s') : s.forceSweep now = s'.forceSweep now := by
  simp only [State.forceSweep, h.refresh, h.spent, h.revoked]

theorem swept (now : Instant) (s : State) : s.Agree now (s.forceSweep now) := by
  refine ⟨?_, ?_, ?_⟩ <;> simp [State.forceSweep]

theorem later (h : s.Agree t s') (hle : t ≤ now) : s.Agree now s' := by
  refine ⟨AList.retain_congr_of_imp h.refresh ?_, AList.retain_congr_of_imp h.spent ?_,
    AList.retain_congr_of_imp h.revoked ?_⟩
  · intro _ record hr
    simp only [RefreshRecord.unexpired, Bool.and_eq_true, decide_eq_true_eq] at hr ⊢
    lia
  · intro _ record hr
    simp only [SpentRecord.unexpired, decide_eq_true_eq] at hr ⊢
    lia
  · intro _ till hr
    simp only [decide_eq_true_eq] at hr ⊢
    lia

theorem file (h : s.Agree now s') (p : Platform) (bytes : Block tokenBytes)
    (record : RefreshRecord) : (s.file p bytes record).Agree now (s'.file p bytes record) :=
  ⟨AList.retain_insert_congr h.refresh _ _, h.spent, h.revoked⟩

theorem take (h : s.Agree now s') (hash : Hash) : (s.take hash).Agree now (s'.take hash) :=
  ⟨AList.retain_erase_congr h.refresh _, h.spent, h.revoked⟩

theorem retire (h : s.Agree now s') (hash : Hash) (record : RefreshRecord) :
    (s.retire hash record).Agree now (s'.retire hash record) :=
  ⟨AList.retain_erase_congr h.refresh _, AList.retain_insert_congr h.spent _ _, h.revoked⟩

theorem revokeFamily (h : s.Agree now s') (family : UInt64) (accessTtl : Duration) :
    (s.revokeFamily family now accessTtl).Agree now (s'.revokeFamily family now accessTtl) :=
  ⟨AList.retain_retain_congr h.refresh _, h.spent, AList.retain_insert_congr h.revoked _ _⟩

theorem take_expired {hash : Hash} (hr : s.refresh.lookup hash = some record)
    (hexpired : record.unexpired now = false) : s.Agree now (s.take hash) := by
  refine ⟨?_, rfl, rfl⟩
  have hnot : hash ∉ s.refresh.retain fun _ record => record.unexpired now := by
    intro hmem
    obtain ⟨record', hr'⟩ := AList.mem_iff_lookup.mp hmem
    obtain ⟨hr', hunexpired⟩ := AList.lookup_retain_some.mp hr'
    rw [hr] at hr'
    cases hr'
    exact absurd (hexpired.symm.trans hunexpired) (by decide)
  simp only [State.take]
  rw [AList.retain_erase, AList.erase_of_notMem hnot]

end State.Agree

theorem State.Tidied.agree (h : s.Tidied now s') : s.Agree now s' := by
  obtain rfl | rfl := h
  · exact .refl now s'
  · exact .swept now s

/-- Tidying a swept store changes nothing. -/
theorem State.Tidied.of_swept (h : (s.forceSweep now).Tidied now s') : s' = s.forceSweep now := by
  obtain rfl | rfl := h
  · rfl
  · exact State.forceSweep_forceSweep s now

-- ---------------------------------------------------------------------------
-- One call on a store and on the swept store
-- ---------------------------------------------------------------------------

/-- What the service makes of a call at `now`, on a store where every expired
entry has been dropped. -/
def promptStep (p : Platform) (svc : TokenService) (now : Instant) (s : State) (call : Call) :
    State × Reply :=
  step p svc now (s.forceSweep now) call

/-- `refresh` after it has made room. -/
def TokenService.redeem (p : Platform) (svc : TokenService) (s : State) (now : Instant)
    (hash : Hash) (userExists : Str → Bool) (draw : Option (Block tokenBytes)) :
    State × Except TokenError (Str × IssuedTokens) :=
  match s.refresh.lookup hash with
  | none =>
    match s.spent.lookup hash with
    | some spent =>
      if now < spent.expires then
        (s.revokeFamily spent.family now svc.accessTtl, .error (.reused spent.user))
      else (s, .error .invalid)
    | none => (s, .error .invalid)
  | some record =>
    if record.unexpired now && userExists record.user then
      match draw with
      | none => (s.retire hash record, .error .random)
      | some bytes =>
        ((s.retire hash record).file p bytes
            (svc.recordOf now record.family record.user record.familyDeadline),
          .ok (record.user, svc.pairOf p now record.family record.user record.familyDeadline bytes))
    else (s.take hash, .error .invalid)

theorem refresh_eq (s : State) (now : Instant) (draw : Option (Block tokenBytes)) :
    svc.refresh p s now token userExists draw =
      match (s.sweep now).makeRoom now with
      | (s, .error e) => (s, .error e)
      | (s, .ok ()) => svc.redeem p s now (hashToken p token) userExists draw := by
  simp only [TokenService.refresh]
  rcases (s.sweep now).makeRoom now with ⟨s', e | ⟨⟩⟩
  · rfl
  · simp only [TokenService.redeem]
    cases s'.refresh.lookup (hashToken p token) with
    | none => rfl
    | some record =>
      have htest : (record.unexpired now && userExists record.user) =
          !(decide (now ≥ record.expires) || decide (now ≥ record.familyDeadline) ||
            !userExists record.user) := by
        simp only [RefreshRecord.unexpired, ge_iff_le, Bool.not_or, Bool.not_not]
        rw [← decide_not, ← decide_not]
        simp only [Nat.not_le]
      simp only [htest]
      cases hbad : decide (now ≥ record.expires) || decide (now ≥ record.familyDeadline) ||
          !userExists record.user with
      | true => rfl
      | false => cases draw <;> rfl

section
variable {hash : Hash} {spent : SpentRecord} (draw : Option (Block tokenBytes))

theorem redeem_unknown (hlive : s.refresh.lookup hash = none)
    (hspent : (s.spent.lookup hash).filter (SpentRecord.unexpired now) = none) :
    svc.redeem p s now hash userExists draw = (s, .error .invalid) := by
  cases hs : s.spent.lookup hash with
  | none => simp [TokenService.redeem, hlive, hs]
  | some spent =>
    have hexpired : ¬ now < spent.expires := by
      simpa [hs, Option.filter, SpentRecord.unexpired] using hspent
    simp [TokenService.redeem, hlive, hs, hexpired]

theorem redeem_reused (hlive : s.refresh.lookup hash = none)
    (hspent : s.spent.lookup hash = some spent) (hlt : now < spent.expires) :
    svc.redeem p s now hash userExists draw =
      (s.revokeFamily spent.family now svc.accessTtl, .error (.reused spent.user)) := by
  simp [TokenService.redeem, hlive, hspent, hlt]

theorem redeem_refused (hlive : s.refresh.lookup hash = some record)
    (hbad : (record.unexpired now && userExists record.user) = false) :
    svc.redeem p s now hash userExists draw = (s.take hash, .error .invalid) := by
  simp [TokenService.redeem, hlive, hbad]

theorem redeem_noToken (hlive : s.refresh.lookup hash = some record)
    (hgood : (record.unexpired now && userExists record.user) = true) :
    svc.redeem p s now hash userExists none = (s.retire hash record, .error .random) := by
  simp [TokenService.redeem, hlive, hgood]

theorem redeem_rotated (hlive : s.refresh.lookup hash = some record)
    (hgood : (record.unexpired now && userExists record.user) = true) :
    svc.redeem p s now hash userExists (some bytes) =
      ((s.retire hash record).file p bytes
          (svc.recordOf now record.family record.user record.familyDeadline),
        .ok (record.user, svc.pairOf p now record.family record.user record.familyDeadline bytes)) := by
  simp [TokenService.redeem, hlive, hgood]

end

def State.Disjoint (s : State) : Prop :=
  ∀ hash record, s.refresh.lookup hash = some record → s.spent.lookup hash = none

theorem redeem_swept (hd : s.Disjoint) (hash : Hash) (draw : Option (Block tokenBytes)) :
    (svc.redeem p s now hash userExists draw).2 =
        (svc.redeem p (s.forceSweep now) now hash userExists draw).2 ∧
      (svc.redeem p s now hash userExists draw).1.Agree now
        (svc.redeem p (s.forceSweep now) now hash userExists draw).1 := by
  have hswept := State.Agree.swept now s
  have hlive' : (s.forceSweep now).refresh.lookup hash =
      (s.refresh.lookup hash).filter (RefreshRecord.unexpired now) := AList.lookup_retain _ _ _
  have hspent' : (s.forceSweep now).spent.lookup hash =
      (s.spent.lookup hash).filter (SpentRecord.unexpired now) := AList.lookup_retain _ _ _
  cases hlive : s.refresh.lookup hash with
  | none =>
    rw [hlive] at hlive'
    cases hspent : (s.spent.lookup hash).filter (SpentRecord.unexpired now) with
    | none =>
      rw [hspent] at hspent'
      rw [redeem_unknown draw hlive hspent, redeem_unknown draw hlive' (by simp [hspent'])]
      exact ⟨rfl, hswept⟩
    | some spent =>
      rw [hspent] at hspent'
      obtain ⟨hs, hlt⟩ := Option.filter_eq_some_iff.mp hspent
      have hlt := of_decide_eq_true hlt
      rw [redeem_reused draw hlive hs hlt, redeem_reused draw hlive' hspent' hlt]
      exact ⟨rfl, hswept.revokeFamily _ _⟩
  | some record =>
    cases hunexpired : record.unexpired now with
    | false =>
      have hnone := hd _ _ hlive
      rw [redeem_refused draw hlive (by simp [hunexpired]), redeem_unknown draw
        (by simp [hlive', hlive, Option.filter, hunexpired]) (by simp [hspent', hnone])]
      exact ⟨rfl, (State.Agree.take_expired hlive hunexpired).symm.trans hswept⟩
    | true =>
      have hlive' : (s.forceSweep now).refresh.lookup hash = some record := by
        simp [hlive', hlive, Option.filter, hunexpired]
      cases hgood : record.unexpired now && userExists record.user with
      | false =>
        rw [redeem_refused draw hlive hgood, redeem_refused draw hlive' hgood]
        exact ⟨rfl, hswept.take hash⟩
      | true =>
        cases draw with
        | none =>
          rw [redeem_noToken hlive hgood, redeem_noToken hlive' hgood]
          exact ⟨rfl, hswept.retire hash record⟩
        | some bytes =>
          rw [redeem_rotated hlive hgood, redeem_rotated hlive' hgood]
          exact ⟨rfl, (hswept.retire hash record).file _ _ _⟩

theorem makeRoom_swept (s : State) (now : Instant) :
    (s.makeRoom now = (s.forceSweep now, .error .full) ∧
      (s.forceSweep now).makeRoom now = (s.forceSweep now, .error .full)) ∨
    ∃ s', s.Tidied now s' ∧ s.makeRoom now = (s', .ok ()) ∧
      (s.forceSweep now).makeRoom now = (s.forceSweep now, .ok ()) := by
  have hheld : (s.forceSweep now).held now = s.held now := State.Tidied.held_eq (.inr rfl)
  obtain ⟨hfull, hs⟩ | ⟨s', htidy, hroom, hs⟩ := s.makeRoom_cases now
  · obtain ⟨-, hz⟩ | ⟨z, htidy', hroom', -⟩ := (s.forceSweep now).makeRoom_cases now
    · exact .inl ⟨hs, by rw [hz, State.forceSweep_forceSweep]⟩
    · have := htidy'.room hroom'
      lia
  · obtain ⟨hfull, -⟩ | ⟨z, htidy', -, hz⟩ := (s.forceSweep now).makeRoom_cases now
    · have := htidy.room hroom
      lia
    · exact .inr ⟨s', htidy, hs, by rw [hz, htidy'.of_swept]⟩

theorem login_swept (p : Platform) (svc : TokenService) (s : State) (now : Instant) (user : Str)
    (familyDraw : Option UInt64) (draw : Option (Block tokenBytes)) :
    (svc.login p s now user familyDraw draw).2 =
        (svc.login p (s.forceSweep now) now user familyDraw draw).2 ∧
      (svc.login p s now user familyDraw draw).1.Agree now
        (svc.login p (s.forceSweep now) now user familyDraw draw).1 := by
  cases familyDraw with
  | none => exact ⟨rfl, .swept now s⟩
  | some family =>
    simp only [TokenService.login, randomFamily]
    obtain ⟨hs, hz⟩ | ⟨s', htidy, hs, hz⟩ := makeRoom_swept s now
    · rw [hs, hz]
      exact ⟨rfl, .refl _ _⟩
    · rw [hs, hz]
      have hagree : s'.Agree now (s.forceSweep now) := htidy.agree.symm.trans (.swept now s)
      cases draw with
      | none => exact ⟨rfl, hagree⟩
      | some bytes => exact ⟨rfl, hagree.file _ _ _⟩

theorem refresh_swept (p : Platform) (svc : TokenService) (hd : s.Disjoint) (now : Instant)
    (token : Str) (userExists : Str → Bool) (draw : Option (Block tokenBytes)) :
    (svc.refresh p s now token userExists draw).2 =
        (svc.refresh p (s.forceSweep now) now token userExists draw).2 ∧
      (svc.refresh p s now token userExists draw).1.Agree now
        (svc.refresh p (s.forceSweep now) now token userExists draw).1 := by
  have hsweep := State.Tidied.sweep now s
  rw [refresh_eq, refresh_eq, (State.Tidied.sweep now (s.forceSweep now)).of_swept,
    ← hsweep.forceSweep_eq]
  obtain ⟨hs, hz⟩ | ⟨s', htidy, hs, hz⟩ := makeRoom_swept (s.sweep now) now
  · rw [hs, hz]
    exact ⟨rfl, .refl _ _⟩
  · rw [hs, hz]
    have htidy := hsweep.trans htidy
    have hd' : s'.Disjoint := by
      intro hash record hr
      cases hspent : s'.spent.lookup hash with
      | none => rfl
      | some spent =>
        have hnone := hd _ _ (htidy.refresh_lookup hr)
        rw [htidy.spent_lookup hspent] at hnone
        cases hnone
    rw [hsweep.forceSweep_eq, ← htidy.forceSweep_eq]
    exact redeem_swept hd' _ draw

/-- An expired record, live or spent, is still held under the hash. -/
def State.Lingers (s : State) (hash : Hash) (now : Instant) : Prop :=
  (∃ record, s.refresh.lookup hash = some record ∧ record.unexpired now = false) ∨
    ∃ spent, s.spent.lookup hash = some spent ∧ spent.unexpired now = false

/-- The call is a logout with a token whose record has expired without having
been swept. -/
def LogsOutExpired (p : Platform) (e : Event) : Prop :=
  ∃ token, e.call = .revoke token ∧ e.before.Lingers (hashToken p token) e.time

theorem familyOf_swept {hash : Hash} (hnot : ¬ s.Lingers hash now) :
    (s.forceSweep now).familyOf hash = s.familyOf hash := by
  simp only [State.Lingers, not_or, not_exists, not_and, Bool.not_eq_false] at hnot
  simp only [State.familyOf, State.forceSweep, AList.lookup_retain]
  cases hlive : s.refresh.lookup hash with
  | some record => simp [Option.filter, hnot.1 record hlive]
  | none =>
    cases hspent : s.spent.lookup hash with
    | none => rfl
    | some spent => simp [Option.filter, hnot.2 spent hspent]

theorem familyOf_lingers {hash : Hash} (hd : s.Disjoint) (h : s.Lingers hash now) :
    (s.forceSweep now).familyOf hash = none ∧ s.familyOf hash ≠ none := by
  simp only [State.familyOf, State.forceSweep, AList.lookup_retain]
  obtain ⟨record, hlive, hexpired⟩ | ⟨spent, hspent, hexpired⟩ := h
  · simp [hlive, hd _ _ hlive, Option.filter, hexpired]
  · have hlive : s.refresh.lookup hash = none := by
      cases hlive : s.refresh.lookup hash with
      | none => rfl
      | some record => simp [hd _ _ hlive] at hspent
    simp [hlive, hspent, Option.filter, hexpired]

theorem revoke_swept (p : Platform) (svc : TokenService)
    (hnot : ¬ s.Lingers (hashToken p token) now) :
    (svc.revoke p s now token).2 = (svc.revoke p (s.forceSweep now) now token).2 ∧
      (svc.revoke p s now token).1.Agree now (svc.revoke p (s.forceSweep now) now token).1 := by
  simp only [TokenService.revoke, familyOf_swept hnot]
  cases s.familyOf (hashToken p token) with
  | none => exact ⟨rfl, .swept now s⟩
  | some family => exact ⟨rfl, (State.Agree.swept now s).revokeFamily _ _⟩

/-- Where an expired record lingers, the logout is answered differently. -/
theorem revoke_lingers (svc : TokenService) (hd : s.Disjoint) (h : s.Lingers (hashToken p token) now) :
    (svc.revoke p s now token).2 ≠ (svc.revoke p (s.forceSweep now) now token).2 := by
  obtain ⟨hnone, hsome⟩ := familyOf_lingers hd h
  obtain ⟨family, hf⟩ := Option.ne_none_iff_exists'.mp hsome
  simp [TokenService.revoke, hnone, hf]

-- ---------------------------------------------------------------------------
-- Access tokens
-- ---------------------------------------------------------------------------

/-- The access tokens minted for a revoked family run out no later than its
entry. -/
def Settled (p : Platform) (svc : TokenService) (log : List Event) (s : State) : Prop :=
  ∀ family till, s.revoked.lookup family = some till → family ∈ (ledger log).ended ∧
    ∀ m ∈ log, ∀ token, mints p svc family token m → m.time + svc.accessTtl ≤ till

/-- An access token that carries a valid tag and a family of this log was
minted for that family. -/
def Unforged (p : Platform) (svc : TokenService) : List Event → Prop
  | [] => True
  | e :: log => (∀ token payload family expires user, e.call = .verifyAccess token →
      TokenService.openToken p svc token = some payload →
      TokenService.readPayload payload = some (family, expires, user) → family ∈ families log →
      ∃ m ∈ log, mints p svc family (svc.signed p payload) m) ∧ Unforged p svc log

theorem Unforged.of_calls (h : ∀ e ∈ log, ∀ token, e.call ≠ .verifyAccess token) :
    Unforged p svc log := by
  induction log with
  | nil => exact trivial
  | cons e log ih =>
    obtain ⟨hfirst, hrest⟩ := List.forall_mem_cons.mp h
    exact ⟨fun token _ _ _ _ hcall => (hfirst token hcall).elim, ih hrest⟩

theorem verifyAccess_swept (hl : p.urlSafe.Lawful) (hc : p.ClocksTogether)
    (hs : Settled p svc log s)
    (hu : Unforged p svc (⟨now, s, .verifyAccess token, reply⟩ :: log)) :
    svc.verifyAccess p s now token = svc.verifyAccess p (s.forceSweep now) now token := by
  rw [TokenService.verifyAccess_eq, TokenService.verifyAccess_eq]
  cases hopen : TokenService.openToken p svc token with
  | none => rfl
  | some payload =>
    simp only [Option.bind_some]
    cases hread : TokenService.readPayload payload with
    | none => rfl
    | some fields =>
      obtain ⟨family, expires, user⟩ := fields
      simp only [Option.bind_some]
      have hsame : p.unixNow now < expires.toNat →
          (family ∉ s.revoked ↔ family ∉ (s.forceSweep now).revoked) := by
        intro hlt
        refine not_congr ⟨?_, ?_⟩
        · intro hmem
          obtain ⟨till, hentry⟩ := AList.mem_iff_lookup.mp hmem
          -- an entry that could be swept has outlived the token
          have htill : now < till := by
            by_contra hpast
            obtain ⟨hended, hall⟩ := hs family till hentry
            obtain ⟨m, hm, hmint⟩ :=
              hu.1 token payload family expires user rfl hopen hread (ended_known hended)
            have hexpires := mint_expires hl hmint hread
            have hle := hall m hm _ hmint
            have := TokenService.accessExpires_le_unixNow hc
              (hle.trans (Nat.le_of_not_lt hpast))
            rw [hexpires] at hlt
            exact absurd hlt (Nat.not_lt.mpr this)
          exact AList.mem_iff_lookup.mpr
            ⟨till, AList.lookup_retain_some.mpr ⟨hentry, decide_eq_true htill⟩⟩
        · intro hmem
          obtain ⟨till, hentry⟩ := AList.mem_iff_lookup.mp hmem
          exact AList.mem_iff_lookup.mpr ⟨till, (AList.lookup_retain_some.mp hentry).1⟩
      simp only [and_congr_right hsame]

-- ---------------------------------------------------------------------------
-- Runs
-- ---------------------------------------------------------------------------

theorem Tracks.disjoint (h : Tracks p svc (ledger log) s now) (hf : Fresh p log) : s.Disjoint := by
  intro hash record hlive
  cases hspent : s.spent.lookup hash with
  | none => rfl
  | some spent =>
    obtain ⟨token, g, rfl, hg, -, hunused, -⟩ := h.all.live _ _ hlive
    obtain ⟨token', g', hhash, hg', -, hretired⟩ := h.all.spent _ _ hspent
    have hgranted : ∀ {token g}, (ledger log).grant token = some g → token ∈ tokens log :=
      fun hg => List.mem_append_right _ (grant_known hg).1
    obtain rfl := hf.no_collision token (hgranted hg) token' (hgranted hg') hhash
    exact (hunused (retired_used log hretired)).elim

theorem Settled.sub (h : Settled p svc log s)
    (hsub : ∀ family till, s'.revoked.lookup family = some till →
      s.revoked.lookup family = some till) : Settled p svc log s' :=
  fun family till hentry => h family till (hsub family till hentry)

theorem Settled.tidied (h : Settled p svc log s) (ht : s.Tidied now s') : Settled p svc log s' := by
  refine h.sub ?_
  obtain rfl | rfl := ht
  · exact fun _ _ => id
  · exact fun _ _ hentry => (AList.lookup_retain_some.mp hentry).1

theorem Settled.call (h : Settled p svc log s) {e : Event}
    (hmints : ∀ family token, mints p svc family token e → family ∉ (ledger log).ended) :
    Settled p svc (e :: log) s := by
  intro family till hentry
  obtain ⟨hmem, hall⟩ := h family till hentry
  refine ⟨Ledger.ended_subset_after _ _ hmem, ?_⟩
  intro m hm token hmint
  rcases List.mem_cons.mp hm with rfl | hm
  · exact (hmints family token hmint hmem).elim
  · exact hall m hm token hmint

theorem Settled.revokeFamily (h : Settled p svc log s) (hended : family ∈ (ledger log).ended)
    (htime : ∀ m ∈ log, m.time ≤ now) :
    Settled p svc log (s.revokeFamily family now svc.accessTtl) := by
  intro family' till hentry
  obtain ⟨rfl, rfl⟩ | ⟨-, hentry⟩ := AList.lookup_insert_some.mp hentry
  · exact ⟨hended, fun m hm _ _ => Nat.add_le_add_right (htime m hm) _⟩
  · exact h family' till hentry

theorem mem_ended_endFamily {l : Ledger} (hg : l.grant token = some g) :
    g.family ∈ (l.endFamily token).ended := by
  simp [Ledger.endFamily, hg]

theorem Transition.settled (hl : p.urlSafe.Lawful) (h : Transition p svc now s call s' reply)
    (hf : Fresh p (⟨now, s, call, reply⟩ :: log)) (ht : Tracks p svc (ledger log) s now)
    (htime : ∀ m ∈ log, m.time ≤ now) (hs : Settled p svc log s) :
    Settled p svc (⟨now, s, call, reply⟩ :: log) s' := by
  have htime' : ∀ m ∈ (⟨now, s, call, reply⟩ :: log : List Event), m.time ≤ now :=
    List.forall_mem_cons.mpr ⟨Nat.le_refl now, htime⟩
  have hs' : Settled p svc (⟨now, s, call, reply⟩ :: log) s := by
    refine hs.call ?_
    rintro family token ⟨pair, user, hpair, rfl, hmint⟩
    cases h with
    | login =>
      cases hpair
      rw [← (TokenService.mintAccess_inj hl hmint).1]
      exact hf.started_notMem rfl
    | refreshRotated htidy _ hlive =>
      cases hpair
      obtain ⟨g, -, rfl, -, hended⟩ := (ht.tidied htidy).of_live (hf.apart (.inl rfl)) hlive
      rw [← (TokenService.mintAccess_inj hl hmint).1]
      exact hended
    | _ => cases hpair
  cases h with
  | loginNoFamily => exact hs'
  | loginFull => exact hs'.tidied (.inr rfl)
  | loginNoToken htidy => exact hs'.tidied htidy
  | login htidy => exact (hs'.tidied htidy).sub fun _ _ => id
  | refreshFull => exact hs'.tidied (.inr rfl)
  | refreshUnknown htidy => exact hs'.tidied htidy
  | refreshReused htidy _ _ hspent =>
    obtain ⟨g, hg, rfl, -⟩ := (ht.tidied htidy).of_spent (hf.apart (.inl rfl)) hspent
    exact (hs'.tidied htidy).revokeFamily (mem_ended_endFamily hg) htime'
  | refreshRefused htidy => exact (hs'.tidied htidy).sub fun _ _ => id
  | refreshNoToken htidy => exact (hs'.tidied htidy).sub fun _ _ => id
  | refreshRotated htidy => exact (hs'.tidied htidy).sub fun _ _ => id
  | revokeUnknown => exact hs'
  | revoke hfamily =>
    obtain ⟨g, hg, rfl⟩ := ht.of_familyOf (hf.apart (.inl rfl)) hfamily
    exact hs'.revokeFamily (mem_ended_endFamily hg) htime'
  | verifyAccess => exact hs'

theorem settled (hl : p.urlSafe.Lawful) (h : Run (machine p svc) log s last) (hf : Fresh p log) :
    Settled p svc log s := by
  refine h.invariant (fun log s _ => Fresh p log → Settled p svc log s) ?_ ?_ hf
  · rintro t _ rfl - family till hentry
    cases hentry
  · intro log s last now call hrun ih hle hf
    have ht := (tracks hrun hf.older).later hle
    exact (step_transition p svc now s call).settled hl hf ht
      (fun m hm => (hrun.time_le m hm).trans hle) (ih hf.older)

-- ---------------------------------------------------------------------------
-- The reference
-- ---------------------------------------------------------------------------

/-- The reference: every entry is dropped at the instant it expires. -/
def promptMachine (p : Platform) (svc : TokenService) : Timed.Machine Instant State Call Reply where
  start t s := s = State.new t
  step := promptStep p svc

private theorem answered {r r' : State × α} (f : α → Reply) (h : r.2 = r'.2 ∧ r.1.Agree now r'.1) :
    (r.1, f r.2).2 = (r'.1, f r'.2).2 ∧ (r.1, f r.2).1.Agree now (r'.1, f r'.2).1 :=
  ⟨congrArg f h.1, h.2⟩

theorem step_swept (hl : p.urlSafe.Lawful) (hc : p.ClocksTogether) (hd : s.Disjoint)
    (hs : Settled p svc log s) (hu : Unforged p svc (⟨now, s, call, reply⟩ :: log))
    (hlogout : ¬ LogsOutExpired p ⟨now, s, call, reply⟩) :
    (step p svc now s call).2 = (promptStep p svc now s call).2 ∧
      (step p svc now s call).1.Agree now (promptStep p svc now s call).1 := by
  cases call with
  | login user familyDraw draw =>
    exact answered Reply.login (login_swept p svc s now user familyDraw draw)
  | refresh token userExists draw =>
    exact answered Reply.refresh (refresh_swept p svc hd now token userExists draw)
  | revoke token =>
    refine answered Reply.revoke (revoke_swept p svc ?_)
    exact fun hlingers => hlogout ⟨token, rfl, hlingers⟩
  | verifyAccess token =>
    exact ⟨congrArg Reply.verifyAccess (verifyAccess_swept hl hc hs hu), .swept now s⟩

theorem promptStep_congr (h : s.Agree now s') (call : Call) :
    promptStep p svc now s' call = promptStep p svc now s call := by
  rw [promptStep, promptStep, h.forceSweep_eq]

/-- Until a logout presents a token whose record lingers, the service and the
reference hold the same unexpired entries and answer alike. -/
theorem Agree.run {stores : State × State} (hl : p.urlSafe.Lawful) (hc : p.ClocksTogether)
    (h : Run ((machine p svc).both (promptMachine p svc)) log stores last)
    (hf : Fresh p (log.map Timed.Event.left)) (hu : Unforged p svc (log.map Timed.Event.left))
    (hlogout : ∀ e ∈ log.map Timed.Event.left, ¬ LogsOutExpired p e) :
    stores.1.Agree last stores.2 ∧ ∀ e ∈ log, e.reply.1 = e.reply.2 := by
  refine h.agree (fun t s s' => s.Agree t s')
    (fun log => Fresh p log ∧ Unforged p svc log ∧ ∀ e ∈ log, ¬ LogsOutExpired p e) ?_ ?_ ?_
    ⟨hf, hu, hlogout⟩
  · rintro e log ⟨hf, hu, hlogout⟩
    exact ⟨hf.older, hu.2, fun e' he' => hlogout e' (List.mem_cons_of_mem _ he')⟩
  · rintro t s s' rfl rfl
    exact .refl t _
  · rintro log s s' last now call hrun hagree hle ⟨hf, hu, hlogout⟩
    have hagree := hagree.later hle
    have ht := (tracks hrun hf.older).later hle
    have hsettled := settled hl hrun hf.older
    show _ = (promptStep p svc now s' call).2 ∧ State.Agree now _ (promptStep p svc now s' call).1
    rw [promptStep_congr hagree]
    exact step_swept hl hc (ht.disjoint hf.older) hsettled hu (hlogout _ List.mem_cons_self)

/-- The service answers a run as the reference does exactly if no logout in it
presents a token whose record has expired without having been swept. -/
theorem sweeping_unobservable_iff {stores : State × State} (hl : p.urlSafe.Lawful)
    (hc : p.ClocksTogether)
    (h : Run ((machine p svc).both (promptMachine p svc)) log stores last)
    (hf : Fresh p (log.map Timed.Event.left)) (hu : Unforged p svc (log.map Timed.Event.left)) :
    (∀ e ∈ log, e.reply.1 = e.reply.2) ↔ ∀ e ∈ log, ¬ LogsOutExpired p e.left := by
  constructor
  · intro hsame
    induction log generalizing stores last with
    | nil => simp
    | cons e log ih =>
      obtain ⟨last', hrun, hle, -, hreply, -⟩ := h.cons_inv
      obtain ⟨hfirst, hrest⟩ := List.forall_mem_cons.mp hsame
      have hbefore := ih hrun hf.older hu.2 hrest
      refine List.forall_mem_cons.mpr ⟨?_, hbefore⟩
      rintro ⟨token, hcall, hlingers⟩
      obtain ⟨hagree, -⟩ := Agree.run hl hc hrun hf.older hu.2 (by simpa using hbefore)
      have ht := (tracks hrun.left hf.older).later hle
      have hsame : (step p svc e.time e.before.1 e.call).2 =
          (promptStep p svc e.time e.before.2 e.call).2 := by
        rw [hreply] at hfirst
        exact hfirst
      rw [promptStep_congr (hagree.later hle), show e.call = .revoke token from hcall] at hsame
      exact revoke_lingers svc (ht.disjoint hf.older) hlingers (Reply.revoke.inj hsame)
  · intro hlogout
    exact (Agree.run hl hc h hf hu (by simpa using hlogout)).2

def compare (calls : List (Instant × Call)) :
    List (Timed.Event Instant (State × State) Call (Reply × Reply)) × (State × State) :=
  ((machine (Platform.crates 0) service).both (promptMachine (Platform.crates 0) service)).exec
    (State.new 0, State.new 0) calls

def expiredCalls : List (Instant × Call) :=
  [(fromSecs 3600, .refresh (nthToken 1) (fun _ => true) (some (nthDraw 2))),
    (0, .login "alice".toList (some 1) (some (nthDraw 1)))]

/-- A refresh at the instant the token expires is refused by both. -/
theorem sweeping_unobservable_refresh :
    (compare expiredCalls).1.map (·.reply.1) = (compare expiredCalls).1.map (·.reply.2) := by
  have hrun : Run ((machine (Platform.crates 0) service).both
      (promptMachine (Platform.crates 0) service)) (compare expiredCalls).1
        (compare expiredCalls).2 (fromSecs 3600) :=
    Run.exec ⟨rfl, rfl⟩ (show (expiredCalls.map Prod.fst ++ [0]).Pairwise (· ≥ ·) by decide)
  have hfresh : Fresh (Platform.crates 0) ((compare expiredCalls).1.map Timed.Event.left) := by
    decide +kernel
  have hcalls : ∀ e ∈ (compare expiredCalls).1, e.call ∈ expiredCalls.map Prod.snd := by
    intro e he
    rw [← Timed.Machine.exec_call]
    exact List.mem_map_of_mem he
  refine List.map_congr_left ((sweeping_unobservable_iff (Platform.crates_urlSafe 0)
    (Platform.crates_clocksTogether 0) hrun hfresh (.of_calls ?_)).mpr ?_)
  · intro e he token hcall
    obtain ⟨e', he', rfl⟩ := List.mem_map.mp he
    have hmem := hcalls e' he'
    rw [show e'.call = _ from hcall] at hmem
    simp [expiredCalls] at hmem
  · rintro e he ⟨token, hcall, -⟩
    have hmem := hcalls e he
    rw [show e.call = _ from hcall] at hmem
    simp [expiredCalls] at hmem

/-- A logout with an expired token is answered as if it were not. -/
theorem logout_expired_observed :
    (compare [(fromSecs 3600, .revoke (nthToken 1)),
        (0, .login "alice".toList (some 1) (some (nthDraw 1)))]).1.map Timed.Event.reply =
      [(.revoke true, .revoke false),
        let pair := service.pairOf (Platform.crates 0) 0 1 "alice".toList maxFamilyLifetime (nthDraw 1)
        (.login (.ok pair), .login (.ok pair))] := by
  decide +kernel

end Ws2tcpRouter.Token
