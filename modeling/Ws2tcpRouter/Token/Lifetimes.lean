import Ws2tcpRouter.Token.Format
import Ws2tcpRouter.Token.Revocation
import Ws2tcpRouter.Token.Refusal

/-!
# Advertised lifetimes

What a pair says of its lifetimes against how long it is accepted. The refresh
token keeps its promise. The access token expires at a full second of the wall
clock, and the fraction of a second that had passed when it was issued is
missing at the end.
-/

namespace Ws2tcpRouter.Token

open Timed (Run)

variable {p : Platform} {svc : TokenService} {s s' : State}

-- ---------------------------------------------------------------------------
-- The access token
-- ---------------------------------------------------------------------------

/-- The wall clock is at a full second, and `secs` later still in the range of
its integer. -/
def FullSecond (p : Platform) (t : Instant) (secs : Nat) : Prop :=
  p.systemTime t % nanosPerSec = 0 ∧ p.unixNow t + secs < 2 ^ 64

theorem unixNow_eq (hc : p.ClocksTogether) (t : Instant) :
    (p.unixNow t : Int) = p.systemTime t / nanosPerSec := by
  have ht := hc.past_epoch t
  simp only [Platform.unixNow, durationSinceEpoch, ht, if_true, Option.elim_some, asSecs,
    nanosPerSec]
  omega

/-- At a full second the token is accepted to the end of its lifetime. -/
theorem unixNow_lt_accessExpires (hc : p.ClocksTogether)
    (hfull : FullSecond p t (asSecs svc.accessTtl)) (hlt : d < fromSecs (asSecs svc.accessTtl)) :
    p.unixNow (t + d) < (svc.accessExpires p t).toNat := by
  have hnow := unixNow_eq hc (t + d)
  have hissued := unixNow_eq hc t
  rw [hc.advance] at hnow
  obtain ⟨hzero, hrange⟩ := hfull
  rw [TokenService.accessExpires, UInt64.toNat_ofNat', Nat.mod_eq_of_lt hrange]
  simp only [fromSecs, nanosPerSec] at hnow hissued hzero hlt
  lia

/-- A token that is accepted in the last nanosecond was issued at a full second. -/
theorem fullSecond_of_lt (hc : p.ClocksTogether) (hpos : 0 < asSecs svc.accessTtl)
    (h : p.unixNow (t + (fromSecs (asSecs svc.accessTtl) - 1)) < (svc.accessExpires p t).toNat) :
    FullSecond p t (asSecs svc.accessTtl) := by
  have hnow := unixNow_eq hc (t + (fromSecs (asSecs svc.accessTtl) - 1))
  have hissued := unixNow_eq hc t
  rw [hc.advance] at hnow
  rw [TokenService.accessExpires, UInt64.toNat_ofNat'] at h
  unfold FullSecond
  simp only [fromSecs, nanosPerSec] at *
  omega

-- ---------------------------------------------------------------------------
-- The refresh token
-- ---------------------------------------------------------------------------

theorem RefreshRecord.unexpired_earlier {record : RefreshRecord} (h : record.unexpired now = true)
    (hle : t ≤ now) : record.unexpired t = true := by
  simp only [RefreshRecord.unexpired, Bool.and_eq_true, decide_eq_true_eq] at h ⊢
  lia

/-- The record filed with a pair lasts for the seconds that are advertised. -/
theorem recordOf_unexpired {bytes : Block tokenBytes} (hle : t ≤ now)
    (h : now < t + fromSecs (svc.pairOf p t family user deadline bytes).refreshExpiresIn) :
    (svc.recordOf t family user deadline).unexpired now = true := by
  have hfloor : fromSecs (asSecs (min (t + svc.refreshTtl) deadline - t)) ≤
      min (t + svc.refreshTtl) deadline - t := Nat.div_mul_le_self _ _
  simp only [TokenService.pairOf] at h
  have hlt : now < min (t + svc.refreshTtl) deadline := by lia
  obtain ⟨-, hdeadline⟩ := Nat.lt_min.mp hlt
  simp only [TokenService.recordOf, RefreshRecord.unexpired, hlt, hdeadline, decide_true,
    Bool.and_self]

/-- The call neither presents a refresh token of that hash nor issues one, and
does not revoke the family. -/
structure Spares (p : Platform) (hash : Hash) (family : UInt64) (e : Event) : Prop where
  notPresented : ∀ token userExists draw, e.call = .refresh token userExists draw →
    hash ≠ hashToken p token
  notIssued : ∀ token, issued e = some token → hash ≠ hashToken p token
  notRevoked : ¬Revokes p family e

theorem Transition.keeps {hash : Hash} {record : RefreshRecord}
    (h : Transition p svc now s call s' reply)
    (hspares : Spares p hash record.family ⟨now, s, call, reply⟩)
    (hlive : s.refresh.lookup hash = some record) (hunexpired : record.unexpired now = true) :
    s'.refresh.lookup hash = some record := by
  have hkept : ∀ {s'}, s.Tidied now s' → s'.refresh.lookup hash = some record :=
    fun htidy => htidy.refresh_kept hlive hunexpired
  have hother : ∀ {s' : State} {family}, s'.refresh.lookup hash = some record →
      record.family ≠ family →
      (s'.revokeFamily family now svc.accessTtl).refresh.lookup hash = some record :=
    fun hr hne => AList.lookup_retain_some.mpr ⟨hr, decide_eq_true hne⟩
  cases h with
  | loginNoFamily => exact hlive
  | loginFull => exact hkept (.inr rfl)
  | loginNoToken htidy => exact hkept htidy
  | login htidy =>
    exact AList.lookup_insert_some.mpr (.inr ⟨hspares.notIssued _ rfl, hkept htidy⟩)
  | refreshFull => exact hkept (.inr rfl)
  | refreshUnknown htidy => exact hkept htidy
  | refreshReused htidy _ _ hspent =>
    refine hother (hkept htidy) ?_
    intro heq
    exact hspares.notRevoked (.reuse rfl rfl (by rw [htidy.spent_lookup hspent, heq]; rfl))
  | refreshRefused htidy =>
    exact AList.lookup_erase_some.mpr ⟨hspares.notPresented _ _ _ rfl, hkept htidy⟩
  | refreshNoToken htidy =>
    exact AList.lookup_erase_some.mpr ⟨hspares.notPresented _ _ _ rfl, hkept htidy⟩
  | refreshRotated htidy =>
    refine AList.lookup_insert_some.mpr (.inr ⟨hspares.notIssued _ rfl, ?_⟩)
    exact AList.lookup_erase_some.mpr ⟨hspares.notPresented _ _ _ rfl, hkept htidy⟩
  | revokeUnknown => exact hlive
  | revoke hfamily =>
    refine hother hlive ?_
    rintro rfl
    exact hspares.notRevoked (.logout rfl rfl hfamily)
  | verifyAccess => exact hlive

/-- A token with an unexpired record is not rejected, if its user exists. -/
theorem refresh_ne_invalid {token : Str} {record : RefreshRecord}
    (hlive : s.refresh.lookup (hashToken p token) = some record)
    (hunexpired : record.unexpired now = true) (huser : userExists record.user = true) :
    (svc.refresh p s now token userExists draw).2 ≠ .error .invalid := by
  have hstep := step_transition p svc now s (.refresh token userExists draw)
  simp only [step] at hstep
  generalize svc.refresh p s now token userExists draw = r at hstep ⊢
  obtain ⟨s', reply⟩ := r
  rintro rfl
  cases hstep with
  | refreshUnknown htidy _ habsent =>
    rw [htidy.refresh_kept hlive hunexpired] at habsent
    cases habsent
  | refreshRefused htidy _ hlive' hbad =>
    rw [htidy.refresh_kept hlive hunexpired] at hlive'
    cases hlive'
    obtain hbad | hbad := hbad
    · exact absurd (hunexpired.symm.trans hbad) (by decide)
    · exact absurd (huser.symm.trans hbad) (by decide)

-- ---------------------------------------------------------------------------
-- Both promises
-- ---------------------------------------------------------------------------

/-- What the pair of the last call of the log says of its lifetimes is kept in
whatever follows: the access token is accepted as long as its family is not
revoked, and the refresh token is not rejected as long as nothing befalls it. -/
structure Honoured (p : Platform) (svc : TokenService) (log : List Event) (issuedAt : Instant)
    (family : UInt64) (user : Str) (pair : IssuedTokens) : Prop where
  access : ∀ later s last now, Run (machine p svc) (later ++ log) s last → last ≤ now →
    family ∉ s.revoked → now < issuedAt + fromSecs pair.accessExpiresIn →
      svc.verifyAccess p s now pair.accessToken = some user
  refresh : ∀ later s last now userExists draw, Run (machine p svc) (later ++ log) s last →
    last ≤ now → (∀ e ∈ later, Spares p (hashToken p pair.refreshToken) family e) →
      userExists user = true → now < issuedAt + fromSecs pair.refreshExpiresIn →
        (svc.refresh p s now pair.refreshToken userExists draw).2 ≠ .error .invalid

theorem event_le (h : Run (machine p svc) (later ++ e :: log) s last) : e.time ≤ last :=
  h.time_le e (List.mem_append_right _ List.mem_cons_self)

/-- A record filed by a call stays while it has not expired and nothing befalls it. -/
theorem kept {hash : Hash} {record : RefreshRecord}
    (h : Run (machine p svc) (later ++ e :: log) s last)
    (hfiled : (step p svc e.time e.before e.call).1.refresh.lookup hash = some record)
    (hspares : ∀ e' ∈ later, Spares p hash record.family e') (hle : last ≤ now)
    (hunexpired : record.unexpired now = true) : s.refresh.lookup hash = some record := by
  refine (h.after (fun s _ => s.refresh.lookup hash = some record)
    (fun e' => e'.time ≤ now ∧ Spares p hash record.family e') ?_ ?_ ?_).1
  · rintro log last ⟨now', before, call, reply⟩ - hlive - ⟨hle', hspares'⟩ hreply
    have hreply : reply = (step p svc now' before call).2 := hreply
    subst hreply
    exact (step_transition p svc now' before call).keeps hspares' hlive
      (RefreshRecord.unexpired_earlier hunexpired hle')
  · intro s₀ t₀ h₀
    obtain ⟨_, -, -, -, -, rfl⟩ := h₀.cons_inv
    exact hfiled
  · intro e' he'
    exact ⟨(h.time_le e' (List.mem_append_left _ he')).trans hle, hspares e' he'⟩

/-- The promises of a pair whose family is not revoked are kept, if and only if
it was issued at a full second, or with an access token for less than one. -/
theorem lifetimes_honoured_iff (hl : p.urlSafe.Lawful) (hm : p.HmacExact) (hc : p.ClocksTogether)
    (h : Run (machine p svc) (e :: log) s last) (hpair : e.reply.pair = some pair)
    (hmint : pair.accessToken = svc.mintAccess p e.time family user) (halive : family ∉ s.revoked) :
    Honoured p svc (e :: log) e.time family user pair ↔
      asSecs svc.accessTtl = 0 ∨ FullSecond p e.time (asSecs svc.accessTtl) := by
  obtain ⟨_, -, -, rfl, hreply, rfl⟩ := h.cons_inv
  have hstep := step_transition p svc e.time e.before e.call
  rw [hreply] at hpair
  obtain ⟨family', user', deadline, bytes, rfl, hissued, -, -⟩ := hstep.issues hpair
  obtain ⟨rfl, -, rfl⟩ := TokenService.mintAccess_inj hl hmint
  have haccepted : ∀ s now, family' ∉ s.revoked →
      (svc.verifyAccess p s now (svc.mintAccess p e.time family' user') = some user' ↔
        p.unixNow now < (svc.accessExpires p e.time).toNat) := by
    intro s now hnot
    rw [TokenService.verifyAccess_mintAccess hl, (hm _ _ _).mpr rfl]
    simp [hnot]
  constructor
  · intro hhonoured
    rw [or_iff_not_imp_left]
    intro hne
    have hpos := Nat.pos_of_ne_zero hne
    have hlast : fromSecs (asSecs svc.accessTtl) - 1 < fromSecs (asSecs svc.accessTtl) :=
      Nat.sub_one_lt (Nat.mul_pos hpos (by decide)).ne'
    have hverify := hhonoured.access [] _ e.time _ h (Nat.le_add_right _ _) halive
      (Nat.add_lt_add_left hlast _)
    exact fullSecond_of_lt hc hpos ((haccepted _ _ halive).mp hverify)
  · intro hcond
    refine ⟨?_, ?_⟩
    · intro later s' last now hrun hle hnot hlt
      obtain ⟨d, rfl⟩ := Nat.exists_eq_add_of_le ((event_le hrun).trans hle)
      have hlt : d < fromSecs (asSecs svc.accessTtl) := Nat.lt_of_add_lt_add_left hlt
      refine (haccepted s' _ hnot).mpr (unixNow_lt_accessExpires hc (hcond.resolve_left ?_) hlt)
      intro hzero
      rw [hzero, fromSecs, Nat.zero_mul] at hlt
      cases hlt
    · intro later s' last now userExists draw hrun hle hspares huser hlt
      have hunexpired := recordOf_unexpired ((event_le hrun).trans hle) hlt
      exact refresh_ne_invalid (kept hrun hissued hspares hle hunexpired) hunexpired huser

def alicePair (t : Instant) : IssuedTokens :=
  service.pairOf (Platform.crates 0) t 1 "alice".toList (t + maxFamilyLifetime) (nthDraw 1)

theorem lifetimes_honoured_login :
    Honoured (Platform.crates 0) service (serve [(0, loginAlice)]).1 0 1 "alice".toList
      (alicePair 0) := by
  have hrun := serve_run [(0, loginAlice)] (by decide)
  have hfull : FullSecond (Platform.crates 0) 0 (asSecs service.accessTtl) :=
    ⟨by decide +kernel, by decide +kernel⟩
  refine (lifetimes_honoured_iff (Platform.crates_urlSafe 0) (Platform.crates_hmacExact 0)
    (Platform.crates_clocksTogether 0) hrun ?_ rfl ?_).mpr (.inr hfull)
  · decide +kernel
  · decide +kernel

/-- Logged in at half past a second, with an access token for ten minutes, which
is refused after nine minutes and 59.6 seconds. -/
theorem access_expires_early :
    let t : Instant := 500000000
    let pair := alicePair t
    (serveEvent t loginAlice []).reply = .login (.ok pair) ∧ pair.accessExpiresIn = 600 ∧
      fromSecs 599 + 600000000 < fromSecs pair.accessExpiresIn ∧
      (1 : UInt64) ∉ (serve [(t, loginAlice)]).2.revoked ∧
      (serveEvent (t + (fromSecs 599 + 600000000)) (.verifyAccess pair.accessToken)
        [(t, loginAlice)]).reply = .verifyAccess none := by
  decide +kernel

end Ws2tcpRouter.Token
