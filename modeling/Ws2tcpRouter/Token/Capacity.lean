import Ws2tcpRouter.Token.Step
import Mathlib.Data.List.Perm.Subperm

/-!
# How much the store holds

Live and spent records together never exceed `maxRecords`, and a call is
refused for lack of room exactly when that many unexpired records are held.
-/

namespace Ws2tcpRouter.Token

open Timed (Run)

variable {p : Platform} {svc : TokenService} {s : State} {record : RefreshRecord}

-- ---------------------------------------------------------------------------
-- Refresh records
-- ---------------------------------------------------------------------------

theorem State.records_file_le (s : State) (bytes : Block tokenBytes) (record : RefreshRecord) :
    (s.file p bytes record).records ≤ s.records + 1 := by
  have := AList.len_insert_le s.refresh (hashToken p (p.urlSafe.encode bytes.val)) record
  simp only [State.file, State.records]
  omega

theorem State.records_take_le (s : State) (hash : Hash) : (s.take hash).records ≤ s.records :=
  Nat.add_le_add_right (AList.len_erase_le _ _) _

theorem State.records_retire_le {s : State} {hash : Hash} (h : s.refresh.lookup hash = some record) :
    (s.retire hash record).records ≤ s.records := by
  have hmem : hash ∈ s.refresh := AList.mem_iff_lookup.mpr ⟨record, h⟩
  have htake := AList.len_erase_of_mem hmem
  have hspent := AList.len_insert_le s.spent hash ⟨record.family, record.user, record.expires⟩
  simp only [State.retire, State.take, State.records]
  omega

theorem State.records_revokeFamily_le (s : State) (family : UInt64) (now : Instant)
    (accessTtl : Duration) : (s.revokeFamily family now accessTtl).records ≤ s.records :=
  Nat.add_le_add_right (AList.len_retain_le _ _) _

theorem Transition.records_le (h : Transition p svc now s call s' reply)
    (hs : s.records ≤ maxRecords) : s'.records ≤ maxRecords := by
  cases h with
  | loginNoFamily => exact hs
  | loginFull => exact (State.held_le_records s now).trans hs
  | loginNoToken _ hroom => exact hroom.le
  | login _ hroom => exact (State.records_file_le _ _ _).trans hroom
  | refreshFull => exact (State.held_le_records s now).trans hs
  | refreshUnknown _ hroom => exact hroom.le
  | refreshReused _ hroom => exact (State.records_revokeFamily_le _ _ _ _).trans hroom.le
  | refreshRefused _ hroom => exact (State.records_take_le _ _).trans hroom.le
  | refreshNoToken _ hroom hlive => exact (State.records_retire_le hlive).trans hroom.le
  | refreshRotated _ hroom hlive =>
    have hretire := State.records_retire_le hlive
    exact (State.records_file_le _ _ _).trans (hretire.trans_lt hroom)
  | revokeUnknown => exact hs
  | revoke => exact (State.records_revokeFamily_le _ _ _ _).trans hs
  | verifyAccess => exact hs

theorem records_le (h : Run (machine p svc) log s last) : s.records ≤ maxRecords := by
  refine h.invariant (fun _ s _ => s.records ≤ maxRecords) ?_ ?_
  · rintro t _ rfl
    exact Nat.zero_le _
  · intro log s last now call _ hs _
    exact (step_transition p svc now s call).records_le hs

theorem login_full_iff (s : State) (now : Instant) :
    (svc.login p s now user (some family) draw).2 = .error .full ↔ maxRecords ≤ s.held now := by
  simp only [TokenService.login, randomFamily]
  obtain ⟨hheld, hfull⟩ | ⟨s', htidy, hroom, hok⟩ := s.makeRoom_cases now
  · simp [hfull, hheld]
  · have hlt := htidy.room hroom
    rw [hok]
    cases draw <;> simp [TokenService.issue_none, TokenService.issue_some, hlt]

theorem refresh_full_iff (s : State) (now : Instant) :
    (svc.refresh p s now token userExists draw).2 = .error .full ↔ maxRecords ≤ s.held now := by
  have hstep := step_transition p svc now s (.refresh token userExists draw)
  simp only [step] at hstep
  generalize svc.refresh p s now token userExists draw = r at hstep ⊢
  obtain ⟨s', reply⟩ := r
  cases hstep with
  | refreshFull hheld => simp [hheld]
  | refreshUnknown htidy hroom => simp [htidy.room hroom]
  | refreshReused htidy hroom => simp [htidy.room hroom]
  | refreshRefused htidy hroom => simp [htidy.room hroom]
  | refreshNoToken htidy hroom => simp [htidy.room hroom]
  | refreshRotated htidy hroom => simp [htidy.room hroom]

/-- In every reachable state the refresh records stay within the limit, and a
refresh, or a login whose family id was drawn, is refused for lack of room
exactly when `maxRecords` unexpired records are held. -/
theorem capacity_exact (h : Run (machine p svc) log s last) :
    s.refresh.len + s.spent.len ≤ maxRecords ∧
    (∀ now token userExists draw, (svc.refresh p s now token userExists draw).2 = .error .full ↔
      maxRecords ≤ s.held now) ∧
    ∀ now user family draw, (svc.login p s now user (some family) draw).2 = .error .full ↔
      maxRecords ≤ s.held now :=
  ⟨records_le h, fun now _ _ _ => refresh_full_iff s now, fun now _ _ _ => login_full_iff s now⟩

/-- After a login the token can be refreshed: there is room. -/
theorem capacity_exact_login :
    let s := (serve [(0, .login "alice".toList (some 1) (some (nthDraw 1)))]).2
    s.refresh.len + s.spent.len ≤ maxRecords ∧
      (service.refresh (Platform.crates 0) s 1 (nthToken 1) (fun _ => true) none).2 ≠
        .error .full := by
  intro s
  have hrun := serve_run [(0, .login "alice".toList (some 1) (some (nthDraw 1)))] (by decide)
  obtain ⟨hlen, hrefresh, -⟩ := capacity_exact hrun
  refine ⟨hlen, ?_⟩
  rw [Ne, hrefresh]
  decide +kernel

-- ---------------------------------------------------------------------------
-- Filling the store
-- ---------------------------------------------------------------------------

theorem step_login (user : Str) (family : UInt64) (bytes : Block tokenBytes)
    (hroom : s.records < maxRecords) :
    step p svc now s (.login user (some family) (some bytes)) =
      (s.file p bytes (svc.recordOf now family user (now + maxFamilyLifetime)),
        .login (.ok (svc.pairOf p now family user (now + maxFamilyLifetime) bytes))) := by
  have hnot : ¬ maxRecords ≤ s.records := Nat.not_le.mpr hroom
  simp [step, TokenService.login, randomFamily, State.makeRoom, hnot, TokenService.issue_some]

theorem State.records_file {s : State} {bytes : Block tokenBytes}
    (hnew : hashToken p (p.urlSafe.encode bytes.val) ∉ s.refresh) :
    (s.file p bytes record).records = s.records + 1 := by
  simp only [State.file, State.records, AList.len_insert_of_notMem hnew]
  lia

theorem State.held_file {s : State} {bytes : Block tokenBytes}
    (hnew : hashToken p (p.urlSafe.encode bytes.val) ∉ s.refresh)
    (hunexpired : record.unexpired now = true) :
    (s.file p bytes record).held now = s.held now + 1 := by
  have hnew' : hashToken p (p.urlSafe.encode bytes.val) ∉
      s.refresh.retain fun _ record => record.unexpired now := by
    intro hmem
    obtain ⟨record', hr⟩ := AList.mem_iff_lookup.mp hmem
    exact hnew (AList.mem_iff_lookup.mpr ⟨record', (AList.lookup_retain_some.mp hr).1⟩)
  simp only [State.held, State.file]
  rw [AList.retain_insert (fun _ record => RefreshRecord.unexpired now record) _ hunexpired,
    AList.len_insert_of_notMem hnew']
  lia

def drawHash (p : Platform) (i : Nat) : Hash := hashToken p (p.urlSafe.encode (nthDraw i).val)

theorem drawHash_unhashed (epoch i : Nat) : drawHash (Platform.unhashed epoch) i = nthDraw i :=
  Platform.unhashed_sha256 epoch (nthDraw i)

/-- The login that draws the `i`th family and the `i`th token. -/
def nthLogin (p : Platform) (svc : TokenService) (user : Str) (t : Instant) (s : State) (i : Nat) :
    Event :=
  ⟨t, s, .login user (some (.ofNat i)) (some (nthDraw i)),
    .login (.ok (svc.pairOf p t (.ofNat i) user (t + maxFamilyLifetime) (nthDraw i)))⟩

/-- Logins at one instant fill a store of unexpired records as far as the
limit; what each of them keeps of the log holds at the end. -/
theorem logins_fill (hinj : ∀ i j, i < 2 ^ 64 → j < 2 ^ 64 → drawHash p i = drawHash p j → i = j)
    (httl : 0 < svc.refreshTtl) (user : Str) (h : Run (machine p svc) log s t)
    (hheld : s.held t = s.records)
    (hnew : ∀ i, k ≤ i → i < 2 ^ 64 → drawHash p i ∉ s.refresh) (n : Nat)
    (hn : s.records + n ≤ maxRecords) (hk : k + n ≤ 2 ^ 64) (P : List Event → Nat → Prop)
    (hP : P log k)
    (hkeep : ∀ log s i, i < 2 ^ 64 → P log i → P (nthLogin p svc user t s i :: log) (i + 1)) :
    ∃ log' s', Run (machine p svc) (log' ++ log) s' t ∧ P (log' ++ log) (k + n) ∧
      s'.held t = s.records + n ∧
      s'.records = s.records + n ∧ s'.spent = s.spent ∧ s'.revoked = s.revoked ∧
      (∀ hash record, s.refresh.lookup hash = some record → s'.refresh.lookup hash = some record) ∧
      ∀ i, k + n ≤ i → i < 2 ^ 64 → drawHash p i ∉ s'.refresh := by
  induction n with
  | zero => exact ⟨[], s, h, hP, hheld, rfl, rfl, rfl, fun _ _ => id, hnew⟩
  | succ n ih =>
    obtain ⟨log', s', hrun, hP', hheld', hrecords, hspent, hrevoked, hkept, hnew'⟩ :=
      ih (by lia) (by lia)
    have hfresh := hnew' (k + n) (Nat.le_refl _) (by lia)
    have hunexpired : (svc.recordOf t (.ofNat (k + n)) user (t + maxFamilyLifetime)).unexpired t =
        true := by
      have : 0 < maxFamilyLifetime := by decide
      simp only [TokenService.recordOf, RefreshRecord.unexpired, Bool.and_eq_true]
      lia
    have hcall := Run.call (.login user (some (.ofNat (k + n))) (some (nthDraw (k + n)))) hrun
      (Nat.le_refl t)
    have hlogin : (machine p svc).step t s'
        (.login user (some (.ofNat (k + n))) (some (nthDraw (k + n)))) = _ :=
      step_login user (.ofNat (k + n)) (nthDraw (k + n)) (by lia)
    rw [hlogin] at hcall
    refine ⟨_ :: log', _, hcall, hkeep _ s' _ (by lia) hP', ?_, ?_, hspent, hrevoked, ?_, ?_⟩
    · rw [State.held_file hfresh hunexpired, hheld']
      rfl
    · rw [State.records_file hfresh, hrecords]
      rfl
    · intro hash record hr
      have hne : hash ≠ drawHash p (k + n) := by
        rintro rfl
        exact hfresh (AList.mem_iff_lookup.mpr ⟨record, hkept _ _ hr⟩)
      exact AList.lookup_insert_some.mpr (.inr ⟨hne, hkept _ _ hr⟩)
    · intro i hi hlt hmem
      rcases (AList.mem_insert _).mp hmem with heq | hmem
      · have := hinj i (k + n) hlt (by lia) heq
        lia
      · exact hnew' i (by lia) hlt hmem

end Ws2tcpRouter.Token
