import Ws2tcpRouter.Token.Access
import Ws2tcpRouter.Token.Step

/-!
# Revocation is final

A revoked family stays dead: it has no live record, and either it is still
in `revoked` or every access token minted for it has expired. Sweeping
forgets the entry only at the time the last access token runs out, so the
two halves of the alternative meet.
-/

namespace Ws2tcpRouter.Token

open Timed (Run)

variable {p : Platform} {svc : TokenService} {s s' : State}

-- ---------------------------------------------------------------------------
-- Where the families in the store come from
-- ---------------------------------------------------------------------------

/-- The store knows only families some login started. -/
def Known (log : List Event) : State → Prop :=
  State.All (fun _ record => record.family ∈ families log)
    (fun _ record => record.family ∈ families log)

theorem Known.older (e : Event) (h : Known log s) : Known (e :: log) s := by
  have hmem : ∀ family, family ∈ families log → family ∈ families (e :: log) := by
    intro family hf
    rw [families_cons]
    exact List.mem_append_right _ hf
  exact h.imp (fun _ _ => hmem _) (fun _ _ => hmem _)

theorem Transition.known (h : Transition p svc now s call s' reply) (hs : Known log s) :
    Known (⟨now, s, call, reply⟩ :: log) s' := by
  refine h.every (fun family _ => family ∈ families (⟨now, s, call, reply⟩ :: log))
    (hs.older _) ?_
  intro user family draw _ hstarted
  rw [families_cons, hstarted]
  exact List.mem_cons_self

theorem known (h : Run (machine p svc) log s last) : Known log s := by
  refine h.invariant (fun log s _ => Known log s) ?_ ?_
  · rintro t _ rfl
    exact .new t
  · intro log s last now call _ hs _
    exact (step_transition p svc now s call).known hs

-- ---------------------------------------------------------------------------
-- Dead families
-- ---------------------------------------------------------------------------

/-- The family revoked at `since` has no live record, and is in `revoked`
until the access tokens minted for it have expired. -/
structure Dead (svc : TokenService) (family : UInt64) (since : Instant) (s : State)
    (now : Instant) : Prop where
  since_le : since ≤ now
  noLive : ∀ hash record, s.refresh.lookup hash = some record → record.family ≠ family
  forgotten : (∃ till, s.revoked.lookup family = some till ∧ since + svc.accessTtl ≤ till) ∨
    since + svc.accessTtl ≤ now

namespace Dead

theorem later (h : Dead svc family since s t) (hle : t ≤ now) : Dead svc family since s now := by
  refine ⟨h.since_le.trans hle, h.noLive, ?_⟩
  obtain hentry | hpast := h.forgotten
  · exact .inl hentry
  · exact .inr (hpast.trans hle)

theorem tidied (h : Dead svc family since s now) (ht : s.Tidied now s') :
    Dead svc family since s' now := by
  refine ⟨h.since_le, fun _ _ hr => h.noLive _ _ (ht.refresh_lookup hr), ?_⟩
  obtain ⟨till, hentry, hle⟩ | hpast := h.forgotten
  · obtain rfl | rfl := ht
    · exact .inl ⟨till, hentry, hle⟩
    · by_cases hnow : now < till
      · exact .inl ⟨till, AList.lookup_retain_some.mpr ⟨hentry, by simpa using hnow⟩, hle⟩
      · exact .inr (hle.trans (Nat.le_of_not_lt hnow))
  · exact .inr hpast

theorem file {bytes : Block tokenBytes} (h : Dead svc family since s now) (hne : record.family ≠ family) :
    Dead svc family since (s.file p bytes record) now := by
  refine ⟨h.since_le, ?_, h.forgotten⟩
  intro hash record' hr
  obtain ⟨-, rfl⟩ | ⟨-, hr⟩ := AList.lookup_insert_some.mp hr
  · exact hne
  · exact h.noLive _ _ hr

theorem take {taken : Hash} (h : Dead svc family since s now) :
    Dead svc family since (s.take taken) now :=
  ⟨h.since_le, fun _ _ hr => h.noLive _ _ (AList.lookup_erase_some.mp hr).2, h.forgotten⟩

theorem retire {taken : Hash} {record : RefreshRecord} (h : Dead svc family since s now) :
    Dead svc family since (s.retire taken record) now :=
  ⟨h.since_le, h.take.noLive, h.forgotten⟩

theorem revokeFamily (h : Dead svc family since s now) (other : UInt64) :
    Dead svc family since (s.revokeFamily other now svc.accessTtl) now := by
  refine ⟨h.since_le, fun _ _ hr => h.noLive _ _ (AList.lookup_retain_some.mp hr).1, ?_⟩
  by_cases heq : family = other
  · subst heq
    exact .inl ⟨now + svc.accessTtl, AList.lookup_insert _, Nat.add_le_add_right h.since_le _⟩
  · obtain ⟨till, hentry, hle⟩ | hpast := h.forgotten
    · exact .inl ⟨till, (AList.lookup_insert_ne heq).trans hentry, hle⟩
    · exact .inr hpast

theorem of_revokeFamily (s : State) (family : UInt64) (now : Instant) :
    Dead svc family now (s.revokeFamily family now svc.accessTtl) now := by
  refine ⟨Nat.le_refl _, ?_, .inl ⟨_, AList.lookup_insert _, Nat.le_refl _⟩⟩
  intro hash record hr
  simpa using (AList.lookup_retain_some.mp hr).2

end Dead

theorem Transition.dead (h : Transition p svc now s call s' reply)
    (hd : Dead svc family since s now) (hnew : started ⟨now, s, call, reply⟩ ≠ some family) :
    Dead svc family since s' now := by
  cases h with
  | loginNoFamily => exact hd
  | loginFull => exact hd.tidied (.inr rfl)
  | loginNoToken htidy => exact hd.tidied htidy
  | login htidy =>
    exact (hd.tidied htidy).file (by simpa [started, TokenService.recordOf] using hnew)
  | refreshFull => exact hd.tidied (.inr rfl)
  | refreshUnknown htidy => exact hd.tidied htidy
  | refreshReused htidy => exact (hd.tidied htidy).revokeFamily _
  | refreshRefused htidy => exact (hd.tidied htidy).take
  | refreshNoToken htidy => exact (hd.tidied htidy).retire
  | refreshRotated htidy _ hlive =>
    have hne := (hd.tidied htidy).noLive _ _ hlive
    exact (hd.tidied htidy).retire.file hne
  | revokeUnknown => exact hd
  | revoke => exact hd.revokeFamily _
  | verifyAccess => exact hd

-- ---------------------------------------------------------------------------
-- Runs
-- ---------------------------------------------------------------------------

/-- The call revoked the family: a logout of one of its tokens that was
known, or the detected reuse of one. -/
inductive Revokes (p : Platform) (family : UInt64) (e : Event) : Prop
  | logout : e.call = .revoke token → e.reply = .revoke true →
      e.before.familyOf (hashToken p token) = some family → Revokes p family e
  | reuse : e.call = .refresh token userExists draw → e.reply = .refresh (.error (.reused user)) →
      (e.before.spent.lookup (hashToken p token)).map SpentRecord.family = some family →
      Revokes p family e

def mints (p : Platform) (svc : TokenService) (family : UInt64) (accessToken : Str) (e : Event) :
    Prop :=
  ∃ pair user, e.reply.pair = some pair ∧ pair.accessToken = accessToken ∧
    accessToken = svc.mintAccess p e.time family user

theorem mint_expires (hl : p.urlSafe.Lawful) (h : mints p svc family (svc.signed p payload) m)
    (hread : TokenService.readPayload payload = some (family', expires, user)) :
    expires = svc.accessExpires p m.time := by
  obtain ⟨pair, user, hpair, htoken, heq⟩ := h
  rw [TokenService.signed_inj hl heq, TokenService.readPayload_accessPayload] at hread
  exact ((Prod.mk.inj (Prod.mk.inj (Option.some.inj hread)).2).1).symm

theorem Transition.dead_of_revokes (h : Transition p svc now s call s' reply)
    (hr : Revokes p family ⟨now, s, call, reply⟩) : Dead svc family now s' now := by
  cases hr with
  | logout hcall hreply hfamily =>
    simp only at hcall hreply hfamily
    subst hcall hreply
    cases h with
    | revoke hfound =>
      rw [hfound] at hfamily
      cases hfamily
      exact .of_revokeFamily _ _ _
  | reuse hcall hreply hfamily =>
    simp only at hcall hreply hfamily
    subst hcall hreply
    cases h with
    | refreshReused htidy _ _ hspent =>
      rw [htidy.spent_lookup hspent] at hfamily
      cases hfamily
      exact .of_revokeFamily _ _ _

/-- A call mints only for the family it starts or finds live. -/
theorem Transition.not_mints (hl : p.urlSafe.Lawful) (h : Transition p svc now s call s' reply)
    (hd : Dead svc family since s t) (hnew : started ⟨now, s, call, reply⟩ ≠ some family) :
    ¬ mints p svc family token ⟨now, s, call, reply⟩ := by
  rintro ⟨pair, user, hpair, rfl, hmint⟩
  cases h with
  | login =>
    cases hpair
    have heq := (TokenService.mintAccess_inj hl hmint).1
    exact hnew (congrArg some heq)
  | refreshRotated htidy _ hlive =>
    cases hpair
    have heq := (TokenService.mintAccess_inj hl hmint).1
    exact hd.noLive _ _ (htidy.refresh_lookup hlive) heq
  | _ => cases hpair

theorem Known.of_familyOf {hash : Hash} (h : Known log s) (hf : s.familyOf hash = some family) :
    family ∈ families log := by
  unfold State.familyOf at hf
  split at hf
  next record hlive =>
    cases hf
    exact h.live _ _ hlive
  next =>
    obtain ⟨record, hspent, rfl⟩ := Option.map_eq_some_iff.mp hf
    exact h.spent _ _ hspent

theorem Known.of_revokes (h : Known log e.before) (hr : Revokes p family e) :
    family ∈ families log := by
  cases hr with
  | logout _ _ hfamily => exact h.of_familyOf hfamily
  | reuse _ _ hfamily =>
    obtain ⟨record, hspent, rfl⟩ := Option.map_eq_some_iff.mp hfamily
    exact h.spent _ _ hspent

/-- Where family ids are distinct, a family known earlier is not started
again. -/
theorem not_started_again (hdistinct : (families (later ++ log)).Nodup)
    (hf : family ∈ families log) : ∀ e ∈ later, started e ≠ some family := by
  intro e he hs
  rw [families, List.filterMap_append, List.nodup_append] at hdistinct
  exact hdistinct.2.2 family (List.mem_filterMap.mpr ⟨e, he, hs⟩) family hf rfl

/-- From its revocation on, every later call finds the family dead. -/
theorem dead_after (h : Run (machine p svc) (later ++ e :: earlier) s last)
    (hdistinct : (families (later ++ e :: earlier)).Nodup) (hrevokes : Revokes p family e) :
    ∀ e' ∈ later, started e' ≠ some family ∧ e'.reply = (step p svc e'.time e'.before e'.call).2 ∧
      Dead svc family e.time e'.before e'.time := by
  have hnew : ∀ e' ∈ later, started e' ≠ some family := by
    obtain ⟨s₀, t₀, h₀, -⟩ := h.older
    obtain ⟨last₀, hbefore, -⟩ := h₀.cons_inv
    refine not_started_again hdistinct ?_
    rw [families_cons]
    exact List.mem_append_right _ ((known hbefore).of_revokes hrevokes)
  have hdead := (h.after (fun s t => Dead svc family e.time s t)
    (fun e' => started e' ≠ some family) ?_ ?_ hnew).2
  · intro e' he'
    obtain ⟨t, hle, hd, hreply⟩ := hdead e' he'
    exact ⟨hnew e' he', hreply, hd.later hle⟩
  · rintro log t ⟨now, before, call, reply⟩ - hd hle hok hreply
    simp only at hreply
    subst hreply
    exact (step_transition p svc now before call).dead (hd.later hle) hok
  · intro s₀ t₀ h₀
    obtain ⟨last₀, -, -, rfl, hreply, rfl⟩ := h₀.cons_inv
    obtain ⟨now, before, call, reply⟩ := e
    simp only at hreply
    subst hreply
    exact (step_transition p svc now before call).dead_of_revokes hrevokes

/-- Once a family is revoked, no later call mints for it, and no later check
accepts an access token that was ever minted for it, whenever its entry in
`revoked` is swept. -/
theorem revocation_final (hl : p.urlSafe.Lawful) (hc : p.ClocksTogether)
    (h : Run (machine p svc) (later ++ e :: earlier) s last)
    (hdistinct : (families (later ++ e :: earlier)).Nodup) (hrevokes : Revokes p family e) :
    (∀ e' ∈ later, ∀ token, ¬ mints p svc family token e') ∧
    ∀ m ∈ later ++ e :: earlier, ∀ token, mints p svc family token m →
      ∀ e' ∈ later, e'.call = .verifyAccess token → e'.reply = .verifyAccess none := by
  have hafter := dead_after h hdistinct hrevokes
  have hlater : ∀ e' ∈ later, ∀ token, ¬ mints p svc family token e' := by
    rintro ⟨now, before, call, reply⟩ he' token
    obtain ⟨hnew, hreply, hd⟩ := hafter _ he'
    simp only at hreply
    subst hreply
    exact (step_transition p svc now before call).not_mints hl hd hnew
  refine ⟨hlater, ?_⟩
  intro m hm token hmint e' he' hcall
  -- the token was minted no later than the revocation
  have hmle : m.time ≤ e.time := by
    rcases List.mem_append.mp hm with hm | hm
    · exact (hlater m hm token hmint).elim
    · obtain ⟨s₀, t₀, h₀, -⟩ := h.older
      obtain ⟨-, -, -, rfl, -, -⟩ := h₀.cons_inv
      exact h₀.time_le m hm
  obtain ⟨-, hreply, hd⟩ := hafter e' he'
  obtain ⟨pair, user, -, -, rfl⟩ := hmint
  rw [hreply, hcall]
  refine congrArg Reply.verifyAccess (TokenService.verifyAccess_mint_none hl ?_ user)
  obtain ⟨till, hentry, -⟩ | hpast := hd.forgotten
  · exact .inr (AList.mem_iff_lookup.mpr ⟨till, hentry⟩)
  · exact .inl (TokenService.accessExpires_le_unixNow hc ((Nat.add_le_add_right hmle _).trans hpast))

def rotatedCalls : List (Instant × Call) :=
  [(2, .refresh (nthToken 1) (fun _ => true) (some (nthDraw 3))),
    (0, .login "alice".toList (some 1) (some (nthDraw 1)))]

def reuse : Call := .refresh (nthToken 1) (fun _ => true) (some (nthDraw 4))

/-- Its reuse ends the access token of the rotation, which had worked. -/
theorem revocation_final_reuse :
    let token := service.mintAccess (Platform.crates 0) 2 1 "alice".toList
    (serveEvent 3 (.verifyAccess token) rotatedCalls).reply = .verifyAccess (some "alice".toList) ∧
      (serveEvent 4 (.verifyAccess token) ((3, reuse) :: rotatedCalls)).reply =
        .verifyAccess none := by
  intro token
  have hrun := serve_run ((4, .verifyAccess token) :: (3, reuse) :: rotatedCalls) (by decide)
  have hreused : (serveEvent 3 reuse rotatedCalls).reply =
      .refresh (.error (.reused "alice".toList)) := by decide +kernel
  have hrevokes : Revokes (Platform.crates 0) 1 (serveEvent 3 reuse rotatedCalls) :=
    .reuse rfl hreused (by decide +kernel)
  have hminted : mints (Platform.crates 0) service 1 token
      (serveEvent 2 (.refresh (nthToken 1) (fun _ => true) (some (nthDraw 3)))
        rotatedCalls.tail) :=
    ⟨service.pairOf (Platform.crates 0) 2 1 "alice".toList maxFamilyLifetime (nthDraw 3),
      "alice".toList, by decide +kernel, rfl, rfl⟩
  have hfinal := @revocation_final (Platform.crates 0) service _
    [serveEvent 4 (.verifyAccess token) ((3, reuse) :: rotatedCalls)]
    (serveEvent 3 reuse rotatedCalls) (serve rotatedCalls).1 4 1
    (Platform.crates_urlSafe 0) (Platform.crates_clocksTogether 0) hrun (by decide +kernel)
    hrevokes
  refine ⟨by decide +kernel, ?_⟩
  exact hfinal.2 _ (by simp [rotatedCalls, serve_cons]) token hminted _ List.mem_cons_self rfl

end Ws2tcpRouter.Token
