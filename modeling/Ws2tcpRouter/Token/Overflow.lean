import Ws2tcpRouter.Args
import Ws2tcpRouter.Token.Step

/-!
# Sums of times

The service once more, with the ranges of its sums: an `Instant` counts seconds
in an `i64`, an expiry is a `u64`. A sum out of range ends the call, and as every
sum is made with the mutex held, the mutex is poisoned by it. Of a sum in `u64`
that is so in a build that checks it; in others `accessExpires` is what it wraps
to.
-/

namespace Ws2tcpRouter.Token

/-- The first second that `i64` does not hold. -/
def instantEnd : Instant := fromSecs (2 ^ 63)

namespace Checked

def addInstant (t : Instant) (d : Duration) : Option Instant :=
  if t + d < instantEnd then some (t + d) else none

def addSecs (a b : Nat) : Option UInt64 := if a + b < 2 ^ 64 then some (.ofNat (a + b)) else none

def newState (now : Instant) : Option State := do
  let nextSweep ← addInstant now sweepInterval
  some ⟨∅, ∅, ∅, nextSweep⟩

def forceSweep (s : State) (now : Instant) : Option State := do
  let nextSweep ← addInstant now sweepInterval
  some
    { refresh := s.refresh.retain fun _ record => record.unexpired now
      spent := s.spent.retain fun _ record => record.unexpired now
      revoked := s.revoked.retain fun _ till => decide (now < till)
      nextSweep }

def sweep (s : State) (now : Instant) : Option State :=
  if now < s.nextSweep then some s else forceSweep s now

def revokeFamily (s : State) (family : UInt64) (now : Instant) (accessTtl : Duration) :
    Option State := do
  let till ← addInstant now accessTtl
  some { s with
    refresh := s.refresh.retain fun _ record => decide (record.family ≠ family)
    revoked := s.revoked.insert family till }

def makeRoom (s : State) (now : Instant) : Option (State × Except TokenError Unit) :=
  if maxRecords ≤ s.records then do
    let s ← forceSweep s now
    some (if maxRecords ≤ s.records then (s, .error .full) else (s, .ok ()))
  else some (s, .ok ())

variable (p : Platform) (svc : TokenService)

def mintAccess (now : Instant) (family : UInt64) (user : Str) : Option Str := do
  let expires ← addSecs (p.unixNow now) (asSecs svc.accessTtl)
  some (svc.signed p (TokenService.accessPayload family expires user))

def issue (s : State) (family : UInt64) (user : Str) (now familyDeadline : Instant)
    (draw : Option (Block tokenBytes)) : Option (State × Except TokenError IssuedTokens) :=
  match generateToken p draw with
  | none => some (s, .error .random)
  | some refreshToken => do
    let refreshExpires := min (← addInstant now svc.refreshTtl) familyDeadline
    let accessToken ← mintAccess p svc now family user
    some
      ({ s with
          refresh := s.refresh.insert (hashToken p refreshToken)
            { family, user, expires := refreshExpires, familyDeadline } },
        .ok
          { accessToken
            accessExpiresIn := asSecs svc.accessTtl
            refreshToken
            refreshExpiresIn := asSecs (refreshExpires - now) })

def login (s : State) (now : Instant) (user : Str) (familyDraw : Option UInt64)
    (draw : Option (Block tokenBytes)) : Option (State × Except TokenError IssuedTokens) :=
  match randomFamily familyDraw with
  | .error e => some (s, .error e)
  | .ok family => do
    match ← makeRoom s now with
    | (s, .error e) => some (s, .error e)
    | (s, .ok ()) =>
      let familyDeadline ← addInstant now maxFamilyLifetime
      issue p svc s family user now familyDeadline draw

def refresh (s : State) (now : Instant) (refreshToken : Str) (userExists : Str → Bool)
    (draw : Option (Block tokenBytes)) :
    Option (State × Except TokenError (Str × IssuedTokens)) := do
  let hash := hashToken p refreshToken
  let s ← sweep s now
  match ← makeRoom s now with
  | (s, .error e) => some (s, .error e)
  | (s, .ok ()) =>
    match s.refresh.lookup hash with
    | none =>
      match s.spent.lookup hash with
      | some spent =>
        if now < spent.expires then do
          let s ← revokeFamily s spent.family now svc.accessTtl
          some (s, .error (.reused spent.user))
        else some (s, .error .invalid)
      | none => some (s, .error .invalid)
    | some record =>
      let s := { s with refresh := s.refresh.erase hash }
      if now ≥ record.expires || now ≥ record.familyDeadline || !userExists record.user then
        some (s, .error .invalid)
      else
        let s := { s with
          spent := s.spent.insert hash
            { family := record.family, user := record.user, expires := record.expires } }
        match ← issue p svc s record.family record.user now record.familyDeadline draw with
        | (s, .error e) => some (s, .error e)
        | (s, .ok issued) => some (s, .ok (record.user, issued))

def revoke (s : State) (now : Instant) (refreshToken : Str) : Option (State × Bool) :=
  match s.familyOf (hashToken p refreshToken) with
  | some family => do
    let s ← revokeFamily s family now svc.accessTtl
    some (s, true)
  | none => some (s, false)

def call (now : Instant) (s : State) : Call → Option (State × Reply)
  | .login user familyDraw draw =>
    (login p svc s now user familyDraw draw).map fun r => (r.1, .login r.2)
  | .refresh token userExists draw =>
    (refresh p svc s now token userExists draw).map fun r => (r.1, .refresh r.2)
  | .revoke token => (revoke p svc s now token).map fun r => (r.1, .revoke r.2)
  | .verifyAccess token => some (s, .verifyAccess (svc.verifyAccess p s now token))

/-- A call that finds the mutex poisoned: what it answers before it locks. -/
def beforeLock (now : Instant) : Call → Option Reply
  | .login _ none _ => some (.login (.error .random))
  | .verifyAccess token =>
    match svc.verifyAccess p ⟨∅, ∅, ∅, now⟩ now token with
    | none => some (.verifyAccess none)
    | some _ => none
  | _ => none

/-- The content of the mutex is absent once it is poisoned, and the reply of a
call that panics. -/
def machine : Timed.Machine Instant (Option State) Call (Option Reply) where
  start t s := ∃ built, newState t = some built ∧ s = some built
  step now
    | none, i => (none, beforeLock p svc now i)
    | some s, i => ((call p svc now s i).map Prod.fst, (call p svc now s i).map Prod.snd)

end Checked

-- ---------------------------------------------------------------------------
-- In range
-- ---------------------------------------------------------------------------

/-- The sums of a clock reading with the lifetimes are in range, for every
reading until `last`. -/
structure InRange (p : Platform) (accessTtl refreshTtl : Duration) (last : Instant) : Prop where
  family : last + maxFamilyLifetime < instantEnd
  refresh : last + refreshTtl < instantEnd
  access : last + accessTtl < instantEnd
  wall : ∀ now ≤ last, p.unixNow now + asSecs accessTtl < 2 ^ 64

theorem InRange.earlier (h : InRange p accessTtl refreshTtl last) (hle : now ≤ last) :
    InRange p accessTtl refreshTtl now where
  family := (Nat.add_le_add_right hle _).trans_lt h.family
  refresh := (Nat.add_le_add_right hle _).trans_lt h.refresh
  access := (Nat.add_le_add_right hle _).trans_lt h.access
  wall t ht := h.wall t (ht.trans hle)

theorem InRange.sweep (h : InRange p accessTtl refreshTtl now) :
    now + sweepInterval < instantEnd :=
  (Nat.add_le_add_left (by decide) _).trans_lt h.family

namespace Checked

theorem machine_step (p : Platform) (svc : TokenService) (now : Instant) (s : State) (i : Call) :
    (machine p svc).step now (some s) i =
      ((call p svc now s i).map Prod.fst, (call p svc now s i).map Prod.snd) := rfl

theorem addInstant_eq_some : addInstant t d = some r ↔ t + d < instantEnd ∧ t + d = r := by
  unfold addInstant
  split <;> simp [*]

theorem addInstant_of (h : t + d < instantEnd) : addInstant t d = some (t + d) := if_pos h

theorem addSecs_of (h : a + b < 2 ^ 64) : addSecs a b = some (.ofNat (a + b)) := if_pos h

section
variable {p : Platform} {svc : TokenService} {s : State}

section
variable (h : InRange p svc.accessTtl svc.refreshTtl now)
include h

theorem newState_of : newState now = some (.new now) := by
  rw [newState, addInstant_of h.sweep]
  rfl

theorem forceSweep_of : forceSweep s now = some (s.forceSweep now) := by
  rw [forceSweep, addInstant_of h.sweep]
  rfl

theorem sweep_of : sweep s now = some (s.sweep now) := by
  unfold sweep State.sweep
  split
  · rfl
  · exact forceSweep_of h

theorem revokeFamily_of :
    revokeFamily s family now svc.accessTtl = some (s.revokeFamily family now svc.accessTtl) := by
  rw [revokeFamily, addInstant_of h.access]
  rfl

theorem makeRoom_of : makeRoom s now = some (s.makeRoom now) := by
  unfold makeRoom State.makeRoom
  split
  · rw [forceSweep_of h]
    rfl
  · rfl

theorem mintAccess_of :
    mintAccess p svc now family user = some (svc.mintAccess p now family user) := by
  rw [mintAccess, addSecs_of (h.wall now (Nat.le_refl _))]
  rfl

theorem issue_of :
    issue p svc s family user now deadline draw =
      some (svc.issue p s family user now deadline draw) := by
  unfold issue TokenService.issue
  cases generateToken p draw with
  | none => rfl
  | some token =>
    simp only [addInstant_of h.refresh, mintAccess_of h]
    rfl

theorem login_of :
    login p svc s now user familyDraw draw = some (svc.login p s now user familyDraw draw) := by
  unfold login TokenService.login
  cases randomFamily familyDraw with
  | error e => rfl
  | ok family =>
    simp only [makeRoom_of h, addInstant_of h.family, issue_of h]
    obtain ⟨s', r⟩ := s.makeRoom now
    cases r with
    | error e => rfl
    | ok _ => rfl

theorem refresh_of :
    refresh p svc s now token userExists draw =
      some (svc.refresh p s now token userExists draw) := by
  unfold refresh TokenService.refresh
  simp only [sweep_of h, makeRoom_of h, revokeFamily_of h, issue_of h, Option.bind_eq_bind,
    Option.bind_some]
  obtain ⟨s', r⟩ := (s.sweep now).makeRoom now
  cases r with
  | error e => rfl
  | ok _ =>
    cases hlive : s'.refresh.lookup (hashToken p token) with
    | none =>
      cases hspent : s'.spent.lookup (hashToken p token) with
      | none => simp only [hlive, hspent]
      | some spent =>
        simp only [hlive, hspent]
        split
        next => rfl
        next => rfl
    | some record =>
      simp only [hlive]
      split
      next => rfl
      next =>
        generalize svc.issue p _ _ _ _ _ _ = issued
        obtain ⟨s'', r⟩ := issued
        cases r with
        | error e => rfl
        | ok _ => rfl

theorem revoke_of : revoke p svc s now token = some (svc.revoke p s now token) := by
  unfold revoke TokenService.revoke
  cases s.familyOf (hashToken p token) with
  | none => rfl
  | some family =>
    simp only [revokeFamily_of h]
    rfl

/-- In range the service is the one without an end of times. -/
theorem call_of : call p svc now s i = some (step p svc now s i) := by
  cases i with
  | login => simp only [call, login_of h, step, Option.map_some]
  | refresh => simp only [call, refresh_of h, step, Option.map_some]
  | revoke => simp only [call, revoke_of h, step, Option.map_some]
  | verifyAccess => rfl

end

-- ---------------------------------------------------------------------------
-- Out of range
-- ---------------------------------------------------------------------------

theorem revokeFamily_some (h : revokeFamily s family now accessTtl = some s') :
    now + accessTtl < instantEnd := by
  obtain ⟨till, htill, -⟩ := Option.bind_eq_some_iff.mp h
  exact (addInstant_eq_some.mp htill).1

theorem issue_some {bytes : Block tokenBytes}
    (h : issue p svc s family user now deadline (some bytes) = some (s', r)) :
    now + svc.refreshTtl < instantEnd ∧ p.unixNow now + asSecs svc.accessTtl < 2 ^ 64 ∧
      s'.familyOf (hashToken p (p.urlSafe.encode bytes.val)) = some family := by
  obtain ⟨refreshExpires, hrefresh, h⟩ := Option.bind_eq_some_iff.mp h
  obtain ⟨accessToken, haccess, h⟩ := Option.bind_eq_some_iff.mp h
  obtain ⟨expires, hexpires, -⟩ := Option.bind_eq_some_iff.mp haccess
  cases h
  refine ⟨(addInstant_eq_some.mp hrefresh).1, ?_, ?_⟩
  · by_contra hout
    rw [addSecs, if_neg hout] at hexpires
    cases hexpires
  · simp [State.familyOf]

theorem login_room (hroom : s.records < maxRecords) :
    login p svc s now user (some family) draw =
      (do
        let familyDeadline ← addInstant now maxFamilyLifetime
        issue p svc s family user now familyDeadline draw) := by
  have hmake : makeRoom s now = some (s, .ok ()) := if_neg (Nat.not_le_of_lt hroom)
  change (makeRoom s now).bind _ = _
  rw [hmake, Option.bind_some]

theorem login_some {bytes : Block tokenBytes} (hroom : s.records < maxRecords)
    (h : login p svc s now user (some family) (some bytes) = some (s', r)) :
    now + maxFamilyLifetime < instantEnd ∧ now + svc.refreshTtl < instantEnd ∧
      p.unixNow now + asSecs svc.accessTtl < 2 ^ 64 ∧
        s'.familyOf (hashToken p (p.urlSafe.encode bytes.val)) = some family := by
  rw [login_room hroom] at h
  obtain ⟨deadline, hdeadline, h⟩ := Option.bind_eq_some_iff.mp h
  exact ⟨(addInstant_eq_some.mp hdeadline).1, issue_some h⟩

theorem revoke_some (hknown : s.familyOf (hashToken p token) = some family)
    (h : revoke p svc s now token = some r) : now + svc.accessTtl < instantEnd := by
  simp only [revoke, hknown] at h
  obtain ⟨s', hs', -⟩ := Option.bind_eq_some_iff.mp h
  exact revokeFamily_some hs'

end

end Checked

-- ---------------------------------------------------------------------------
-- Every run
-- ---------------------------------------------------------------------------

open Timed (Run)

variable {p : Platform} {svc : TokenService}

/-- No sum leaves its range in a run until `last`: the mutex is not poisoned,
and no call has panicked. -/
def NeverOverflows (p : Platform) (svc : TokenService) (last : Instant) : Prop :=
  ∀ log s t, Run (Checked.machine p svc) log s t → t ≤ last →
    s.isSome ∧ ∀ e ∈ log, e.reply.isSome

def Event.checked (e : Event) : Timed.Event Instant (Option State) Call (Option Reply) :=
  ⟨e.time, some e.before, e.call, some e.reply⟩

/-- A run in range is one of the service whose instants have no end. -/
theorem InRange.run (hrange : InRange p svc.accessTtl svc.refreshTtl last)
    (h : Run (Checked.machine p svc) log s t) (hle : t ≤ last) :
    ∃ log' s', log = log'.map Event.checked ∧ s = some s' ∧ Run (machine p svc) log' s' t := by
  induction h with
  | start hs =>
    obtain ⟨built, hbuilt, rfl⟩ := hs
    rw [Checked.newState_of (hrange.earlier hle)] at hbuilt
    cases hbuilt
    exact ⟨[], _, rfl, rfl, .start rfl⟩
  | @call log s last' now i _ hle' ih =>
    obtain ⟨log', s', rfl, rfl, hrun⟩ := ih (hle'.trans hle)
    have hcall := Checked.call_of (s := s') (i := i) (hrange.earlier hle)
    refine ⟨⟨now, s', i, (step p svc now s' i).2⟩ :: log', (step p svc now s' i).1, ?_, ?_,
      .call i hrun hle'⟩
    · simp [Checked.machine, hcall, Event.checked]
    · simp [Checked.machine, hcall]

/-- Every call of a run that never overflows makes all its sums. -/
theorem NeverOverflows.call (h : NeverOverflows p svc last)
    (hrun : Run (Checked.machine p svc) log (some s) t) (hle : t ≤ now) (hnow : now ≤ last)
    (i : Call) : ∃ s' reply, Checked.call p svc now s i = some (s', reply) ∧
      Run (Checked.machine p svc) (⟨now, some s, i, some reply⟩ :: log) (some s') now := by
  have hnext := Run.call i hrun hle
  rw [Checked.machine_step] at hnext
  have hsound := (h _ _ _ hnext hnow).1
  cases hcall : Checked.call p svc now s i with
  | none => simp [hcall] at hsound
  | some r => exact ⟨r.1, r.2, rfl, by simpa [hcall] using hnext⟩

/-- A login as the first call and a logout right after it make every sum there is. -/
theorem NeverOverflows.inRange (h : NeverOverflows p svc last) :
    InRange p svc.accessTtl svc.refreshTtl last := by
  have hnew : Checked.newState 0 = some (.new 0) := by
    rw [Checked.newState, Checked.addInstant_of (by decide +kernel)]
    rfl
  have hstart : Run (Checked.machine p svc) [] (some (.new 0)) 0 := .start ⟨_, hnew, rfl⟩
  have hroom : (State.new 0).records < maxRecords := by decide +kernel
  have hlogin : ∀ now ≤ last, ∃ s' log, Run (Checked.machine p svc) log (some s') now ∧
      now + maxFamilyLifetime < instantEnd ∧ now + svc.refreshTtl < instantEnd ∧
        p.unixNow now + asSecs svc.accessTtl < 2 ^ 64 ∧
          s'.familyOf (hashToken p (p.urlSafe.encode (nthDraw 0).val)) = some 0 := by
    intro now hle
    obtain ⟨s', _, hcall, hrun⟩ :=
      h.call hstart (Nat.zero_le now) hle (.login [] (some 0) (some (nthDraw 0)))
    simp only [Checked.call, Option.map_eq_some_iff] at hcall
    obtain ⟨⟨_, _⟩, hlogin, heq⟩ := hcall
    cases heq
    exact ⟨_, _, hrun, Checked.login_some hroom hlogin⟩
  obtain ⟨s', _, hrun, hfamily, hrefresh, -, hknown⟩ := hlogin last (Nat.le_refl _)
  refine ⟨hfamily, hrefresh, ?_, ?_⟩
  · obtain ⟨_, _, hcall, -⟩ := h.call hrun (Nat.le_refl _) (Nat.le_refl _)
      (.revoke (p.urlSafe.encode (nthDraw 0).val))
    simp only [Checked.call, Option.map_eq_some_iff] at hcall
    obtain ⟨_, hrevoke, -⟩ := hcall
    exact Checked.revoke_some hknown hrevoke
  · intro now hle
    obtain ⟨_, _, -, -, -, hwall, -⟩ := hlogin now hle
    exact hwall

theorem fromArgs_ok {read : Str → Option Bytes}
    (h : TokenService.fromArgs args read draw = .ok svc) :
    ∃ secret, svc =
      .new secret (fromSecs args.accessTokenTtl.toNat) (fromSecs args.refreshTokenTtl.toNat) := by
  obtain ⟨secret, -, h⟩ := Except.bind_eq_ok.mp h
  cases h
  exact ⟨secret, rfl⟩

/-- No run of the service of these arguments overflows, if and only if their
lifetimes are in range. -/
theorem neverOverflows_iff {read : Str → Option Bytes}
    (hbuilt : TokenService.fromArgs args read draw = .ok svc) :
    NeverOverflows p svc last ↔
      InRange p (fromSecs args.accessTokenTtl.toNat) (fromSecs args.refreshTokenTtl.toNat)
        last := by
  obtain ⟨secret, rfl⟩ := fromArgs_ok hbuilt
  constructor
  · exact NeverOverflows.inRange
  · intro hrange log s t hrun hle
    obtain ⟨log', s', rfl, rfl, -⟩ := InRange.run hrange hrun hle
    refine ⟨rfl, ?_⟩
    intro e he
    obtain ⟨_, -, rfl⟩ := List.mem_map.mp he
    rfl

theorem neverOverflows_defaults :
    NeverOverflows (Platform.crates 0)
      (.new (nthDraw 0).val (fromSecs 600) (fromSecs 604800)) (fromSecs (2 ^ 62)) := by
  have hbuilt : TokenService.fromArgs .defaults (fun _ => none) (some (nthDraw 0)) =
      .ok (.new (nthDraw 0).val (fromSecs 600) (fromSecs 604800)) := rfl
  refine (neverOverflows_iff hbuilt).mpr
    ⟨by decide +kernel, by decide +kernel, by decide +kernel, ?_⟩
  intro now hle
  have hmono := (Platform.crates_clocksTogether 0).unixNow_mono hle
  exact (Nat.add_le_add_right hmono _).trans_lt (by decide +kernel)

/-- With the longest refresh lifetime the first login panics, and the second
finds the mutex poisoned. With the longest access lifetime, where the sum wraps,
a token is refused in the second it is issued. -/
theorem longest_lifetimes_overflow :
    let longest : UInt64 := 18446744073709551615
    let svc := TokenService.new (nthDraw 0).val (fromSecs 600) (fromSecs longest.toNat)
    let svc' := TokenService.new (nthDraw 0).val (fromSecs longest.toNat) (fromSecs 604800)
    let t := fromSecs 1
    { Args.defaults with refreshTokenTtl := longest }.validate = .ok () ∧
      TokenService.fromArgs { Args.defaults with refreshTokenTtl := longest } (fun _ => none)
        (some (nthDraw 0)) = .ok svc ∧
      ((Checked.machine (Platform.crates 0) svc).exec (some (.new 0))
        [(t, loginAlice), (0, loginAlice)]).1.map (·.reply) = [none, none] ∧
      { Args.defaults with accessTokenTtl := longest }.validate = .ok () ∧
      svc'.verifyAccess (Platform.crates 0) (.new 0) t
        (svc'.mintAccess (Platform.crates 0) t 1 "alice".toList) = none := by
  refine ⟨?_, ?_, ?_, ?_, ?_⟩
  · exact (Args.validate_ttl Args.validate_defaults _ _).mpr (by decide)
  · rfl
  · decide +kernel
  · exact (Args.validate_ttl Args.validate_defaults _ _).mpr (by decide)
  · decide +kernel

end Ws2tcpRouter.Token
