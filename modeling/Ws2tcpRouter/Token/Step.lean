import Ws2tcpRouter.Crates
import Ws2tcpRouter.Lib.Timed
import Ws2tcpRouter.Token.Service

/-!
# The service as a machine

A call of the service with everything it reads, its reply, and the machine
they make. `Transition` lists every way a call can go, with what it found,
what it left and what it answered; `step_transition` says there is no other.
Every invariant of the store is proved from that list.
-/

namespace Ws2tcpRouter.Token

inductive Call
  | login (user : Str) (familyDraw : Option UInt64) (draw : Option (Block tokenBytes))
  | refresh (token : Str) (userExists : Str → Bool) (draw : Option (Block tokenBytes))
  | revoke (token : Str)
  | verifyAccess (token : Str)

inductive Reply
  | login (r : Except TokenError IssuedTokens)
  | refresh (r : Except TokenError (Str × IssuedTokens))
  | revoke (known : Bool)
  | verifyAccess (user : Option Str)
  deriving DecidableEq

section
variable (p : Platform) (svc : TokenService)

def step (now : Instant) (s : State) : Call → State × Reply
  | .login user familyDraw draw =>
    let r := svc.login p s now user familyDraw draw
    (r.1, .login r.2)
  | .refresh token userExists draw =>
    let r := svc.refresh p s now token userExists draw
    (r.1, .refresh r.2)
  | .revoke token =>
    let r := svc.revoke p s now token
    (r.1, .revoke r.2)
  | .verifyAccess token => (s, .verifyAccess (svc.verifyAccess p s now token))

def machine : Timed.Machine Instant State Call Reply where
  start t s := s = State.new t
  step := step p svc

end

-- ---------------------------------------------------------------------------
-- What a log tells
-- ---------------------------------------------------------------------------

abbrev Event := Timed.Event Instant State Call Reply

def Reply.pair : Reply → Option IssuedTokens
  | .login (.ok pair) => some pair
  | .refresh (.ok (_, pair)) => some pair
  | _ => none

def started (e : Event) : Option UInt64 :=
  match e.call, e.reply with
  | .login _ familyDraw _, .login (.ok _) => familyDraw
  | _, _ => none

def families (log : List Event) : List UInt64 := log.filterMap started

theorem families_cons (e : Event) (log : List Event) :
    families (e :: log) = (started e).toList ++ families log := by
  cases h : started e <;> simp [families, h]

/-- The service of the tests: tokens last ten minutes and one hour. -/
def service : TokenService :=
  .new (Text.utf8 "0123456789abcdef0123456789abcdef".toList) (fromSecs 600) (fromSecs 3600)

/-- The `n`th of a row of distinct draws. -/
def nthDraw (n : Nat) : Block tokenBytes :=
  ⟨Text.toBeBytes (.ofNat n) ++ List.replicate 24 0, rfl⟩

theorem nthDraw_inj (hi : i < 2 ^ 64) (hj : j < 2 ^ 64) (h : nthDraw i = nthDraw j) : i = j := by
  have hbytes : Text.toBeBytes (.ofNat i) = Text.toBeBytes (.ofNat j) :=
    List.append_cancel_right (congrArg Subtype.val h)
  have hn := congrArg (fun bytes => (Text.fromBeBytes bytes).toNat) hbytes
  simp only [Text.fromBeBytes_toBeBytes, UInt64.toNat_ofNat'] at hn
  rwa [Nat.mod_eq_of_lt hi, Nat.mod_eq_of_lt hj] at hn

def loginAlice : Call := .login "alice".toList (some 1) (some (nthDraw 1))

def nthToken (n : Nat) : Str := (Platform.crates 0).urlSafe.encode (nthDraw n).val

def serve (calls : List (Instant × Call)) : List Event × State :=
  (machine (Platform.crates 0) service).exec (State.new 0) calls

def serveEvent (now : Instant) (call : Call) (calls : List (Instant × Call)) : Event :=
  ⟨now, (serve calls).2, call, (step (Platform.crates 0) service now (serve calls).2 call).2⟩

theorem serve_cons (now : Instant) (call : Call) (calls : List (Instant × Call)) :
    (serve ((now, call) :: calls)).1 = serveEvent now call calls :: (serve calls).1 := rfl

theorem serve_run (calls : List (Instant × Call)) (h : (calls.map Prod.fst).Pairwise (· ≥ ·)) :
    Timed.Run (machine (Platform.crates 0) service) (serve calls).1 (serve calls).2
      ((calls.map Prod.fst).headD 0) := by
  refine .exec rfl (List.pairwise_append.mpr ⟨h, List.pairwise_singleton _ _, ?_⟩)
  intro t _ t' ht'
  rw [List.mem_singleton.mp ht']
  exact Nat.zero_le t

-- ---------------------------------------------------------------------------
-- Sweeping
-- ---------------------------------------------------------------------------

namespace State

def held (s : State) (now : Instant) : Nat :=
  (s.refresh.retain fun _ record => record.unexpired now).len +
    (s.spent.retain fun _ record => record.unexpired now).len

/-- What a call may sweep before it looks at the store: nothing, or every
expired entry. -/
def Tidied (now : Instant) (s s' : State) : Prop := s' = s ∨ s' = s.forceSweep now

@[simp] theorem forceSweep_forceSweep (s : State) (now : Instant) :
    (s.forceSweep now).forceSweep now = s.forceSweep now := by
  simp [forceSweep]

theorem records_forceSweep (s : State) (now : Instant) : (s.forceSweep now).records = s.held now :=
  rfl

theorem held_le_records (s : State) (now : Instant) : s.held now ≤ s.records :=
  Nat.add_le_add (AList.len_retain_le _ _) (AList.len_retain_le _ _)

theorem Tidied.refl (now : Instant) (s : State) : Tidied now s s := .inl rfl

theorem Tidied.sweep (now : Instant) (s : State) : Tidied now s (s.sweep now) := by
  unfold State.sweep
  split
  · exact .inl rfl
  · exact .inr rfl

theorem Tidied.forceSweep_eq (h : Tidied now s s') : s'.forceSweep now = s.forceSweep now := by
  obtain rfl | rfl := h
  · rfl
  · exact forceSweep_forceSweep s now

theorem Tidied.held_eq (h : Tidied now s s') : s'.held now = s.held now := by
  rw [← records_forceSweep, h.forceSweep_eq, records_forceSweep]

theorem Tidied.trans (h : Tidied now s s') (h' : Tidied now s' s'') : Tidied now s s'' := by
  obtain rfl | rfl := h'
  · exact h
  · exact .inr h.forceSweep_eq

theorem Tidied.records_le (h : Tidied now s s') : s'.records ≤ s.records := by
  obtain rfl | rfl := h
  · exact Nat.le_refl _
  · exact held_le_records s now

/-- A tidied store lacks nothing but expired entries. -/
theorem Tidied.refresh_lookup (h : Tidied now s s') (hr : s'.refresh.lookup k = some record) :
    s.refresh.lookup k = some record := by
  obtain rfl | rfl := h
  · exact hr
  · exact (AList.lookup_retain_some.mp hr).1

theorem Tidied.spent_lookup (h : Tidied now s s') (hr : s'.spent.lookup k = some record) :
    s.spent.lookup k = some record := by
  obtain rfl | rfl := h
  · exact hr
  · exact (AList.lookup_retain_some.mp hr).1

theorem Tidied.refresh_kept (h : Tidied now s s') (hr : s.refresh.lookup k = some record)
    (hu : record.unexpired now = true) : s'.refresh.lookup k = some record := by
  obtain rfl | rfl := h
  · exact hr
  · exact AList.lookup_retain_some.mpr ⟨hr, hu⟩

theorem Tidied.spent_kept (h : Tidied now s s') (hr : s.spent.lookup k = some record)
    (hu : now < record.expires) : s'.spent.lookup k = some record := by
  obtain rfl | rfl := h
  · exact hr
  · exact AList.lookup_retain_some.mpr ⟨hr, by simpa [SpentRecord.unexpired] using hu⟩

theorem makeRoom_cases (s : State) (now : Instant) :
    (maxRecords ≤ s.held now ∧ s.makeRoom now = (s.forceSweep now, .error .full)) ∨
    (∃ s', Tidied now s s' ∧ s'.records < maxRecords ∧ s.makeRoom now = (s', .ok ())) := by
  unfold makeRoom
  by_cases hfull : maxRecords ≤ s.records
  · by_cases hheld : maxRecords ≤ s.held now
    · refine .inl ⟨hheld, ?_⟩
      simp only [hfull, if_true]
      exact if_pos hheld
    · refine .inr ⟨s.forceSweep now, .inr rfl, Nat.lt_of_not_le hheld, ?_⟩
      simp only [hfull, if_true]
      exact if_neg hheld
  · exact .inr ⟨s, .refl now s, Nat.lt_of_not_le hfull, by simp [hfull]⟩

/-- Being refused for lack of room is being full of unexpired records. -/
theorem Tidied.room (h : Tidied now s s') (hroom : s'.records < maxRecords) :
    s.held now < maxRecords := by
  rw [← h.held_eq]
  exact (held_le_records s' now).trans_lt hroom

end State

-- ---------------------------------------------------------------------------
-- Issuing and retiring
-- ---------------------------------------------------------------------------

def State.file (p : Platform) (s : State) (bytes : Block tokenBytes) (record : RefreshRecord) :
    State :=
  { s with refresh := s.refresh.insert (hashToken p (p.urlSafe.encode bytes.val)) record }

def State.take (s : State) (hash : Hash) : State := { s with refresh := s.refresh.erase hash }

def State.retire (s : State) (hash : Hash) (record : RefreshRecord) : State :=
  { s.take hash with
    spent := s.spent.insert hash ⟨record.family, record.user, record.expires⟩ }

namespace TokenService

variable (p : Platform) (svc : TokenService)

def recordOf (now : Instant) (family : UInt64) (user : Str) (familyDeadline : Instant) :
    RefreshRecord :=
  ⟨family, user, min (now + svc.refreshTtl) familyDeadline, familyDeadline⟩

def pairOf (now : Instant) (family : UInt64) (user : Str) (familyDeadline : Instant)
    (bytes : Block tokenBytes) : IssuedTokens where
  accessToken := svc.mintAccess p now family user
  accessExpiresIn := asSecs svc.accessTtl
  refreshToken := p.urlSafe.encode bytes.val
  refreshExpiresIn := asSecs (min (now + svc.refreshTtl) familyDeadline - now)

theorem issue_none (s : State) :
    svc.issue p s family user now deadline none = (s, .error .random) := rfl

theorem issue_some (s : State) (bytes : Block tokenBytes) :
    svc.issue p s family user now deadline (some bytes) =
      (s.file p bytes (svc.recordOf now family user deadline),
        .ok (svc.pairOf p now family user deadline bytes)) := rfl

end TokenService

-- ---------------------------------------------------------------------------
-- What holds of every record
-- ---------------------------------------------------------------------------

/-- Every live record satisfies `P` and every spent one `Q`. -/
structure State.All (P : Hash → RefreshRecord → Prop) (Q : Hash → SpentRecord → Prop)
    (s : State) : Prop where
  live : ∀ hash record, s.refresh.lookup hash = some record → P hash record
  spent : ∀ hash record, s.spent.lookup hash = some record → Q hash record

namespace State.All

variable {P P' : Hash → RefreshRecord → Prop} {Q Q' : Hash → SpentRecord → Prop} {s s' : State}

theorem new (t : Instant) : (State.new t).All P Q :=
  ⟨fun _ _ h => (nomatch h), fun _ _ h => (nomatch h)⟩

theorem imp (h : s.All P Q) (hP : ∀ hash record, P hash record → P' hash record)
    (hQ : ∀ hash record, Q hash record → Q' hash record) : s.All P' Q' :=
  ⟨fun hash record hr => hP _ _ (h.live hash record hr),
    fun hash record hr => hQ _ _ (h.spent hash record hr)⟩

theorem tidied (h : s.All P Q) (ht : s.Tidied now s') : s'.All P Q :=
  ⟨fun _ _ hr => h.live _ _ (ht.refresh_lookup hr), fun _ _ hr => h.spent _ _ (ht.spent_lookup hr)⟩

theorem forceSweep (h : s.All P Q) : (s.forceSweep now).All P Q := h.tidied (.inr rfl)

theorem file {bytes : Block tokenBytes} (h : s.All P Q)
    (hnew : P (hashToken p (p.urlSafe.encode bytes.val)) record) :
    (s.file p bytes record).All P Q := by
  refine ⟨?_, h.spent⟩
  intro hash record' hr
  obtain ⟨rfl, rfl⟩ | ⟨-, hr⟩ := AList.lookup_insert_some.mp hr
  · exact hnew
  · exact h.live _ _ hr

theorem take {taken : Hash} (h : s.All P Q) :
    (s.take taken).All (fun hash record => hash ≠ taken ∧ P hash record) Q := by
  refine ⟨?_, h.spent⟩
  intro hash record hr
  obtain ⟨hne, hr⟩ := AList.lookup_erase_some.mp hr
  exact ⟨hne, h.live _ _ hr⟩

theorem retire {taken : Hash} {record : RefreshRecord} (h : s.All P Q)
    (hnew : Q taken ⟨record.family, record.user, record.expires⟩) :
    (s.retire taken record).All (fun hash record => hash ≠ taken ∧ P hash record) Q := by
  refine ⟨h.take.live, ?_⟩
  intro hash record' hr
  obtain ⟨rfl, rfl⟩ | ⟨-, hr⟩ := AList.lookup_insert_some.mp hr
  · exact hnew
  · exact h.spent _ _ hr

theorem revokeFamily (h : s.All P Q) :
    (s.revokeFamily family now ttl).All (fun hash record => record.family ≠ family ∧ P hash record)
      Q := by
  refine ⟨?_, h.spent⟩
  intro hash record hr
  obtain ⟨hr, hne⟩ := AList.lookup_retain_some.mp hr
  exact ⟨by simpa using hne, h.live _ _ hr⟩

end State.All

-- ---------------------------------------------------------------------------
-- Every way a call can go
-- ---------------------------------------------------------------------------

inductive Transition (p : Platform) (svc : TokenService) (now : Instant) (s : State) :
    Call → State → Reply → Prop
  | loginNoFamily : Transition p svc now s (.login user none draw) s (.login (.error .random))
  | loginFull : maxRecords ≤ s.held now →
      Transition p svc now s (.login user (some family) draw) (s.forceSweep now)
        (.login (.error .full))
  | loginNoToken : s.Tidied now s' → s'.records < maxRecords →
      Transition p svc now s (.login user (some family) none) s' (.login (.error .random))
  | login : s.Tidied now s' → s'.records < maxRecords →
      Transition p svc now s (.login user (some family) (some bytes))
        (s'.file p bytes (svc.recordOf now family user (now + maxFamilyLifetime)))
        (.login (.ok (svc.pairOf p now family user (now + maxFamilyLifetime) bytes)))
  | refreshFull : maxRecords ≤ s.held now →
      Transition p svc now s (.refresh token userExists draw) (s.forceSweep now)
        (.refresh (.error .full))
  | refreshUnknown : s.Tidied now s' → s'.records < maxRecords →
      s'.refresh.lookup (hashToken p token) = none →
      (∀ spent, s'.spent.lookup (hashToken p token) = some spent → spent.expires ≤ now) →
      Transition p svc now s (.refresh token userExists draw) s' (.refresh (.error .invalid))
  | refreshReused : s.Tidied now s' → s'.records < maxRecords →
      s'.refresh.lookup (hashToken p token) = none →
      s'.spent.lookup (hashToken p token) = some spent → now < spent.expires →
      Transition p svc now s (.refresh token userExists draw)
        (s'.revokeFamily spent.family now svc.accessTtl) (.refresh (.error (.reused spent.user)))
  | refreshRefused : s.Tidied now s' → s'.records < maxRecords →
      s'.refresh.lookup (hashToken p token) = some record →
      (record.unexpired now = false ∨ userExists record.user = false) →
      Transition p svc now s (.refresh token userExists draw) (s'.take (hashToken p token))
        (.refresh (.error .invalid))
  | refreshNoToken : s.Tidied now s' → s'.records < maxRecords →
      s'.refresh.lookup (hashToken p token) = some record →
      record.unexpired now = true → userExists record.user = true →
      Transition p svc now s (.refresh token userExists none)
        (s'.retire (hashToken p token) record) (.refresh (.error .random))
  | refreshRotated : s.Tidied now s' → s'.records < maxRecords →
      s'.refresh.lookup (hashToken p token) = some record →
      record.unexpired now = true → userExists record.user = true →
      Transition p svc now s (.refresh token userExists (some bytes))
        ((s'.retire (hashToken p token) record).file p bytes
          (svc.recordOf now record.family record.user record.familyDeadline))
        (.refresh (.ok (record.user,
          svc.pairOf p now record.family record.user record.familyDeadline bytes)))
  | revokeUnknown : s.familyOf (hashToken p token) = none →
      Transition p svc now s (.revoke token) s (.revoke false)
  | revoke : s.familyOf (hashToken p token) = some family →
      Transition p svc now s (.revoke token) (s.revokeFamily family now svc.accessTtl)
        (.revoke true)
  | verifyAccess :
      Transition p svc now s (.verifyAccess token) s
        (.verifyAccess (svc.verifyAccess p s now token))

section
variable (p : Platform) (svc : TokenService) (now : Instant) (s : State)

private theorem login_transition (user : Str) (familyDraw : Option UInt64)
    (draw : Option (Block tokenBytes)) :
    Transition p svc now s (.login user familyDraw draw)
      (svc.login p s now user familyDraw draw).1
      (.login (svc.login p s now user familyDraw draw).2) := by
  cases familyDraw with
  | none => exact .loginNoFamily
  | some family =>
    simp only [TokenService.login, randomFamily]
    obtain ⟨hheld, hfull⟩ | ⟨s', htidy, hroom, hok⟩ := s.makeRoom_cases now
    · rw [hfull]
      exact .loginFull hheld
    · rw [hok]
      cases draw with
      | none => exact .loginNoToken htidy hroom
      | some bytes => exact .login htidy hroom

private theorem refresh_transition (token : Str) (userExists : Str → Bool)
    (draw : Option (Block tokenBytes)) :
    Transition p svc now s (.refresh token userExists draw)
      (svc.refresh p s now token userExists draw).1
      (.refresh (svc.refresh p s now token userExists draw).2) := by
  have hsweep := State.Tidied.sweep now s
  simp only [TokenService.refresh]
  obtain ⟨hheld, hfull⟩ | ⟨s', htidy, hroom, hok⟩ := (s.sweep now).makeRoom_cases now
  · rw [hfull, hsweep.forceSweep_eq]
    exact .refreshFull (hsweep.held_eq ▸ hheld)
  · rw [hok]
    have htidy := hsweep.trans htidy
    cases hlive : s'.refresh.lookup (hashToken p token) with
    | none =>
      cases hspent : s'.spent.lookup (hashToken p token) with
      | none =>
        simp only [hlive, hspent]
        exact .refreshUnknown htidy hroom hlive (by simp [hspent])
      | some spent =>
        simp only [hlive, hspent]
        split
        next hlt => exact .refreshReused htidy hroom hlive hspent hlt
        next hge =>
          refine .refreshUnknown htidy hroom hlive ?_
          intro spent' h
          rw [hspent] at h
          cases h
          exact Nat.le_of_not_lt hge
    | some record =>
      simp only [hlive]
      split
      next hbad =>
        refine .refreshRefused htidy hroom hlive ?_
        simp only [ge_iff_le, Bool.or_eq_true, decide_eq_true_eq, Bool.not_eq_true',
          RefreshRecord.unexpired, Bool.and_eq_false_iff, decide_eq_false_iff_not] at hbad ⊢
        lia
      next hgood =>
        simp only [ge_iff_le, Bool.or_eq_true, decide_eq_true_eq, Bool.not_eq_true', not_or,
          Bool.not_eq_false] at hgood
        have hlive' : record.unexpired now = true := by
          simp only [RefreshRecord.unexpired, Bool.and_eq_true, decide_eq_true_eq]
          lia
        cases draw with
        | none => exact .refreshNoToken htidy hroom hlive hlive' hgood.2
        | some bytes => exact .refreshRotated htidy hroom hlive hlive' hgood.2

theorem step_transition (call : Call) :
    Transition p svc now s call (step p svc now s call).1 (step p svc now s call).2 := by
  cases call with
  | login user familyDraw draw => exact login_transition p svc now s user familyDraw draw
  | refresh token userExists draw => exact refresh_transition p svc now s token userExists draw
  | revoke token =>
    cases hf : s.familyOf (hashToken p token) with
    | none =>
      simp only [step, TokenService.revoke, hf]
      exact .revokeUnknown hf
    | some family =>
      simp only [step, TokenService.revoke, hf]
      exact .revoke hf
  | verifyAccess token => exact .verifyAccess

end

variable {p : Platform} {svc : TokenService} {s s' : State}

/-- What holds of the family and the user of every record is kept, if it holds
of what a login files. -/
theorem Transition.every (R : UInt64 → Str → Prop) (h : Transition p svc now s call s' reply)
    (hs : s.All (fun _ record => R record.family record.user)
      (fun _ record => R record.family record.user))
    (hlogin : ∀ user family draw, call = .login user (some family) draw →
      started ⟨now, s, call, reply⟩ = some family → R family user) :
    s'.All (fun _ record => R record.family record.user)
      (fun _ record => R record.family record.user) := by
  cases h with
  | loginNoFamily => exact hs
  | loginFull => exact hs.forceSweep
  | loginNoToken htidy => exact hs.tidied htidy
  | login htidy => exact (hs.tidied htidy).file (hlogin _ _ _ rfl rfl)
  | refreshFull => exact hs.forceSweep
  | refreshUnknown htidy => exact hs.tidied htidy
  | refreshReused htidy => exact (hs.tidied htidy).revokeFamily.imp (fun _ _ => And.right) fun _ _ => id
  | refreshRefused htidy => exact (hs.tidied htidy).take.imp (fun _ _ => And.right) fun _ _ => id
  | refreshNoToken htidy _ hlive =>
    have hs := hs.tidied htidy
    exact (hs.retire (hs.live _ _ hlive)).imp (fun _ _ => And.right) fun _ _ => id
  | refreshRotated htidy _ hlive =>
    have hs := hs.tidied htidy
    have hrecord := hs.live _ _ hlive
    refine State.All.file ?_ hrecord
    exact (hs.retire hrecord).imp (fun _ _ => And.right) fun _ _ => id
  | revokeUnknown => exact hs
  | revoke => exact hs.revokeFamily.imp (fun _ _ => And.right) fun _ _ => id
  | verifyAccess => exact hs

end Ws2tcpRouter.Token
