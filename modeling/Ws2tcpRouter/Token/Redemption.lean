import Ws2tcpRouter.Token.Capacity
import Ws2tcpRouter.Token.Ledger

/-!
# Redeeming refresh tokens

What `refresh` answers, in terms of the ledger: which tokens it redeems, when
it detects the reuse of a token rotated out, and what a failure on the
server's side leaves of the token presented.
-/

namespace Ws2tcpRouter.Token

open Timed (Run)

variable {p : Platform} {svc : TokenService} {l : Ledger} {s s' : State} {token user : Str}
  {g : Grant} {userExists : Str → Bool} {bytes : Block tokenBytes}

-- ---------------------------------------------------------------------------
-- Which tokens are redeemed
-- ---------------------------------------------------------------------------

/-- The token was granted so, has not been presented since, and neither its
family nor its lifetime has ended. -/
structure Redeemable (svc : TokenService) (l : Ledger) (token : Str) (g : Grant) (now : Instant) :
    Prop where
  granted : l.grant token = some g
  unused : token ∉ l.used
  alive : g.family ∉ l.ended
  unexpired : now < g.expires svc

theorem Tracks.refresh_ok_iff (ht : Tracks p svc l s now) (ha : Apart p l token)
    (draw : Option (Block tokenBytes)) :
    (∃ pair, (svc.refresh p s now token userExists draw).2 = .ok (user, pair)) ↔
      ∃ g, Redeemable svc l token g now ∧ g.user = user ∧ userExists user = true ∧
        s.held now < maxRecords ∧ draw.isSome = true := by
  have hstep := step_transition p svc now s (.refresh token userExists draw)
  simp only [step] at hstep
  constructor
  · rintro ⟨pair, hok⟩
    rw [hok] at hstep
    generalize (svc.refresh p s now token userExists draw).1 = s' at hstep
    cases hstep with
    | refreshRotated htidy hroom hlive hunexpired huser =>
      obtain ⟨g, hg, rfl, hused, hended⟩ := (ht.tidied htidy).of_live ha hlive
      exact ⟨g, ⟨hg, hused, hended, (g.unexpired_record svc).mp hunexpired⟩, rfl, huser,
        htidy.room hroom, rfl⟩
  · rintro ⟨g, hr, rfl, huser, hheld, hdraw⟩
    have hlive := ht.live token g hr.granted hr.unused hr.alive hr.unexpired
    have hunexpired := (g.unexpired_record svc).mpr hr.unexpired
    generalize svc.refresh p s now token userExists draw = r at hstep ⊢
    obtain ⟨s', reply⟩ := r
    cases hstep with
    | refreshFull hfull => exact (Nat.not_le.mpr hheld hfull).elim
    | refreshUnknown htidy _ habsent =>
      rw [htidy.refresh_kept hlive hunexpired] at habsent
      cases habsent
    | refreshReused htidy _ habsent =>
      rw [htidy.refresh_kept hlive hunexpired] at habsent
      cases habsent
    | refreshRefused htidy _ hlive' hbad =>
      rw [htidy.refresh_kept hlive hunexpired] at hlive'
      cases hlive'
      obtain hbad | hbad := hbad
      · exact absurd (hunexpired.symm.trans hbad) (by decide)
      · exact absurd (huser.symm.trans hbad) (by decide)
    | refreshNoToken => cases hdraw
    | refreshRotated htidy _ hlive' =>
      rw [htidy.refresh_kept hlive hunexpired] at hlive'
      cases hlive'
      exact ⟨_, rfl⟩

theorem redeems_iff (h : Run (machine p svc) (e :: log) s last) (hf : Fresh p (e :: log))
    (hcall : e.call = .refresh token userExists draw) :
    (∃ pair, e.reply = .refresh (.ok (user, pair))) ↔
      ∃ g, Redeemable svc (ledger log) token g e.time ∧ g.user = user ∧ userExists user = true ∧
        e.before.held e.time < maxRecords ∧ draw.isSome = true := by
  obtain ⟨last', hrun, hle, -, hreply, -⟩ := h.cons_inv
  have ht := (tracks hrun hf.older).later hle
  have ha := hf.apart (.inl (show presented e = some token by rw [presented, hcall]))
  rw [hreply, hcall, ← ht.refresh_ok_iff ha draw]
  simp only [machine, step, Reply.refresh.injEq]

/-- No token is presented before it is issued, or by the call that issues it. -/
def Unforeseen : List Event → Prop
  | [] => True
  | e :: log => (∀ token, issued e = some token → ∀ e' ∈ e :: log, spends e' ≠ some token) ∧
    Unforeseen log

theorem Ledger.mem_used_after {e : Event} (h : issued e ≠ some token) :
    token ∈ (l.after e).used ↔ spends e = some token ∨ token ∈ l.used := by
  unfold Ledger.after
  split
  next pair hcall hreply =>
    have hne : token ≠ pair.refreshToken := by
      rintro rfl
      exact h (by simp only [issued, hcall, hreply])
    simp [Ledger.issue, spends, hcall, hne]
  next pair hcall hreply =>
    have hne : token ≠ pair.refreshToken := by
      rintro rfl
      exact h (by simp only [issued, hcall, hreply])
    simp [Ledger.issue, Ledger.retire, Ledger.use, spends, hcall, hreply, hne, @eq_comm _ token]
  next hcall hreply =>
    simp [Ledger.retire, Ledger.use, spends, hcall, hreply, @eq_comm _ token]
  next hcall hreply => simp [Ledger.use, spends, hcall, hreply, @eq_comm _ token]
  next hcall hreply =>
    simp [Ledger.endFamily, Ledger.use, spends, hcall, hreply, @eq_comm _ token]
  next hcall hreply => simp [Ledger.endFamily, spends, hcall]
  next hrotated hrandom hinvalid hreused _ =>
    have hnone : spends e = none := by
      unfold spends
      split
      next => rfl
      next r hfull hcall hreply =>
        rcases r with (_ | user | _ | _) | ⟨user, pair⟩
        · exact (hinvalid _ _ _ hcall hreply).elim
        · exact (hreused _ _ _ _ hcall hreply).elim
        · exact (hfull rfl).elim
        · exact (hrandom _ _ _ hcall hreply).elim
        · exact (hrotated _ _ _ _ _ hcall hreply).elim
      next => rfl
    simp [hnone]

theorem Ledger.not_mem_used_after {e : Event} (h : issued e = some token) :
    token ∉ (l.after e).used := by
  unfold issued at h
  split at h
  next hcall hreply =>
    cases h
    simp [Ledger.after, hcall, hreply, Ledger.issue]
  next hcall hreply =>
    cases h
    simp [Ledger.after, hcall, hreply, Ledger.issue]
  next => cases h

/-- Where no token is foreseen, those presented since they were issued are
those ever presented. -/
theorem mem_used_iff (h : Unforeseen log) :
    token ∈ (ledger log).used ↔ ∃ e ∈ log, spends e = some token := by
  induction log with
  | nil => simp [ledger, Ledger.empty]
  | cons e log ih =>
    obtain ⟨hfirst, hrest⟩ := h
    by_cases hi : issued e = some token
    · refine iff_of_false (Ledger.not_mem_used_after hi) ?_
      rintro ⟨e', he', hs⟩
      exact hfirst token hi e' he' hs
    · rw [ledger, Ledger.mem_used_after hi, ih hrest]
      simp

/-- In a fresh run, `refresh` accepts exactly the tokens that were issued,
not presented since, of a family not ended, unexpired and of a user that
exists, while there is room; it answers with the user they were issued to. -/
theorem refresh_redeems_exactly (h : Run (machine p svc) (e :: log) s last)
    (hf : Fresh p (e :: log)) (hcall : e.call = .refresh token userExists (some bytes)) :
    (∀ user, (∃ pair, e.reply = .refresh (.ok (user, pair))) ↔
      ∃ g, (ledger log).grant token = some g ∧ g.user = user ∧ token ∉ (ledger log).used ∧
        g.family ∉ (ledger log).ended ∧
        (e.time < g.issued + svc.refreshTtl ∧ e.time < g.started + maxFamilyLifetime) ∧
        userExists user = true ∧ e.before.held e.time < maxRecords) ∧
    (Unforeseen log → (token ∈ (ledger log).used ↔ ∃ e' ∈ log, spends e' = some token)) := by
  refine ⟨?_, mem_used_iff⟩
  intro user
  rw [redeems_iff h hf hcall]
  constructor
  · rintro ⟨g, hr, huser, hexists, hheld, -⟩
    exact ⟨g, hr.granted, huser, hr.unused, hr.alive, (g.lt_expires svc).mp hr.unexpired, hexists,
      hheld⟩
  · rintro ⟨g, hg, huser, hused, hended, hlt, hexists, hheld⟩
    exact ⟨g, ⟨hg, hused, hended, (g.lt_expires svc).mpr hlt⟩, huser, hexists, hheld, rfl⟩

def loginCalls : List (Instant × Call) := [(0, .login "alice".toList (some 1) (some (nthDraw 1)))]

theorem refresh_redeems_exactly_login :
    let e := serveEvent 1 (.refresh (nthToken 1) (fun _ => true) (some (nthDraw 2))) loginCalls
    ∃ pair, e.reply = .refresh (.ok ("alice".toList, pair)) := by
  intro e
  have hrun := serve_run ((1, e.call) :: loginCalls) (by decide)
  have hfresh : Fresh (Platform.crates 0) (serve ((1, e.call) :: loginCalls)).1 := by
    decide +kernel
  refine ((refresh_redeems_exactly hrun hfresh rfl).1 "alice".toList).mpr
    ⟨⟨1, "alice".toList, 0, 0⟩, ?_⟩
  decide +kernel

-- ---------------------------------------------------------------------------
-- Reuse
-- ---------------------------------------------------------------------------

theorem Tracks.reuse_iff (ht : Tracks p svc l s now) (ha : Apart p l token)
    (hg : l.grant token = some g) (hretired : token ∈ l.retired) (hused : token ∈ l.used)
    (hlt : now < g.expires svc) :
    (svc.refresh p s now token userExists draw).2 = .error (.reused g.user) ∧
      (∀ hash record, (svc.refresh p s now token userExists draw).1.refresh.lookup hash =
        some record → record.family ≠ g.family) ∧
      g.family ∈ (svc.refresh p s now token userExists draw).1.revoked ↔
    s.held now < maxRecords := by
  have hspent := ht.spent token g hg hretired hlt
  have habsent : ∀ record, s.refresh.lookup (hashToken p token) ≠ some record := by
    intro record hlive
    obtain ⟨-, -, -, hnot, -⟩ := ht.of_live ha hlive
    exact hnot hused
  have hstep := step_transition p svc now s (.refresh token userExists draw)
  simp only [step] at hstep
  generalize svc.refresh p s now token userExists draw = r at hstep ⊢
  obtain ⟨s', reply⟩ := r
  cases hstep with
  | refreshFull hfull => simp [Nat.not_lt.mpr hfull]
  | refreshUnknown htidy _ _ hexpired =>
    have := hexpired _ (htidy.spent_kept hspent hlt)
    exact absurd hlt (Nat.not_lt.mpr this)
  | refreshReused htidy hroom _ hspent' =>
    rw [htidy.spent_kept hspent hlt] at hspent'
    cases hspent'
    refine iff_of_true ⟨rfl, ?_, ?_⟩ (htidy.room hroom)
    · intro hash record hr
      exact of_decide_eq_true (AList.lookup_retain_some.mp hr).2
    · exact AList.mem_iff_lookup.mpr ⟨_, AList.lookup_insert _⟩
  | refreshRefused htidy _ hlive => exact (habsent _ (htidy.refresh_lookup hlive)).elim
  | refreshNoToken htidy _ hlive => exact (habsent _ (htidy.refresh_lookup hlive)).elim
  | refreshRotated htidy _ hlive => exact (habsent _ (htidy.refresh_lookup hlive)).elim

theorem rotated (h : Run (machine p svc) log s last) (hf : Fresh p log) (he : e ∈ log)
    (hcall : e.call = .refresh token userExists draw) (hreply : e.reply = .refresh (.ok r)) :
    ∃ g, (ledger log).grant token = some g ∧ token ∈ (ledger log).retired := by
  induction log generalizing s last with
  | nil => cases he
  | cons e' log ih =>
    rcases List.mem_cons.mp he with rfl | he
    · obtain ⟨user, pair⟩ := r
      obtain ⟨g, hr, -⟩ := (redeems_iff h hf hcall).mp ⟨pair, hreply⟩
      refine ⟨g, (hf.keeps hr.granted).1, ?_⟩
      have hne : token ≠ pair.refreshToken := by
        rintro rfl
        have hnew := hr.granted
        rw [hf.grant_issued (by simp only [issued, hcall, hreply])] at hnew
        cases hnew
      simp [ledger, Ledger.after, hcall, hreply, Ledger.issue, Ledger.retire, hne]
    · obtain ⟨last', hrun, -⟩ := h.cons_inv
      obtain ⟨g, hg, hretired⟩ := ih hrun hf.older he
      obtain ⟨hg', hkeep⟩ := hf.keeps hg
      exact ⟨g, hg', hkeep hretired⟩

/-- The reuse of a token rotated out is detected, and ends its family, exactly
when there is room for a record: a full store is answered first. -/
theorem reuse_detected_iff_room (h : Run (machine p svc) log s last) (hf : Fresh p log)
    (he : e ∈ log) (hcall : e.call = .refresh token userExists draw)
    (hreply : e.reply = .refresh (.ok r)) :
    ∃ g, (ledger log).grant token = some g ∧
      ∀ now, last ≤ now → now < g.expires svc → ∀ userExists draw,
        ((svc.refresh p s now token userExists draw).2 = .error (.reused g.user) ∧
          (∀ hash record, (svc.refresh p s now token userExists draw).1.refresh.lookup hash =
            some record → record.family ≠ g.family) ∧
          g.family ∈ (svc.refresh p s now token userExists draw).1.revoked ↔
        s.held now < maxRecords) := by
  obtain ⟨g, hg, hretired⟩ := rotated h hf he hcall hreply
  refine ⟨g, hg, ?_⟩
  intro now hle hlt userExists' draw'
  have ha : Apart p (ledger log) token := by
    intro token' g' hg'
    refine hf.no_collision token ?_ token' ?_
    · exact List.mem_append_right _ (grant_known hg).1
    · exact List.mem_append_right _ (grant_known hg').1
  exact ((tracks h hf).later hle).reuse_iff ha hg hretired (retired_used log hretired) hlt

def refreshAgain (n : Nat) : Call := .refresh (nthToken 1) (fun _ => true) (some (nthDraw n))

theorem reuse_detected_rotated :
    (serveEvent 2 (refreshAgain 3) ((1, refreshAgain 2) :: loginCalls)).reply =
      .refresh (.error (.reused "alice".toList)) := by
  have hrun := serve_run ((1, refreshAgain 2) :: loginCalls) (by decide)
  have hfresh : Fresh (Platform.crates 0) (serve ((1, refreshAgain 2) :: loginCalls)).1 := by
    decide +kernel
  have hok : (serveEvent 1 (refreshAgain 2) loginCalls).reply = .refresh (.ok ("alice".toList,
      service.pairOf (Platform.crates 0) 1 1 "alice".toList maxFamilyLifetime (nthDraw 2))) := by
    decide +kernel
  obtain ⟨g, hg, hiff⟩ := reuse_detected_iff_room hrun hfresh List.mem_cons_self rfl hok
  have hgrant : (ledger (serve ((1, refreshAgain 2) :: loginCalls)).1).grant (nthToken 1) =
      some ⟨1, "alice".toList, 0, 0⟩ := by decide +kernel
  obtain rfl := Option.some.inj (hgrant.symm.trans hg)
  have hdetected := (hiff 2 (by decide) (by decide +kernel) (fun _ => true) (some (nthDraw 3))).mpr
    (by decide +kernel)
  exact congrArg Reply.refresh hdetected.1

/-- The log has only drawn families and tokens that come before the `n`th. -/
structure DrawnBelow (p : Platform) (log : List Event) (n : Nat) : Prop where
  tokens : ∀ token ∈ tokens log, ∃ i < n, i < 2 ^ 64 ∧ token = p.urlSafe.encode (nthDraw i).val
  families : ∀ family ∈ families log, family.toNat < n

theorem DrawnBelow.nthLogin (hi : i < 2 ^ 64) (h : DrawnBelow p log i) :
    DrawnBelow p (nthLogin p svc user t s i :: log) (i + 1) := by
  refine ⟨?_, ?_⟩
  · intro token ht
    obtain hp | hp | ht := (mem_tokens_cons _ log).mp ht
    · cases hp
    · exact ⟨i, Nat.lt_succ_self i, hi, (Option.some.inj hp).symm⟩
    · obtain ⟨j, hj, hlt, rfl⟩ := h.tokens token ht
      exact ⟨j, hj.trans (Nat.lt_succ_self i), hlt, rfl⟩
  · intro family hfamily
    obtain rfl | hfamily : family = .ofNat i ∨ family ∈ Token.families log :=
      List.mem_cons.mp hfamily
    · rw [UInt64.toNat_ofNat']
      exact (Nat.mod_le _ _).trans_lt (Nat.lt_succ_self i)
    · exact (h.families family hfamily).trans (Nat.lt_succ_self i)

section
variable (hinj : ∀ i j, i < 2 ^ 64 → j < 2 ^ 64 → drawHash p i = drawHash p j → i = j)
include hinj

theorem DrawnBelow.no_collision (h : DrawnBelow p log n) :
    ∀ token ∈ Token.tokens log, ∀ token' ∈ Token.tokens log,
      hashToken p token' = hashToken p token → token' = token := by
  intro token ht token' ht' heq
  obtain ⟨j, -, hj, rfl⟩ := h.tokens token ht
  obtain ⟨k, -, hk, rfl⟩ := h.tokens token' ht'
  rw [hinj k j hk hj heq]

/-- Where the draws are told apart, one more login leaves a log fresh. -/
theorem Fresh.nthLogin (hi : i < 2 ^ 64) (h : Fresh p log) (hd : DrawnBelow p log i) :
    Fresh p (nthLogin p svc user t s i :: log) := by
  refine ⟨?_, ?_, DrawnBelow.no_collision hinj (hd.nthLogin hi)⟩
  · show (p.urlSafe.encode (nthDraw i).val :: issuedTokens log).Nodup
    refine List.nodup_cons.mpr ⟨?_, h.tokens_nodup⟩
    intro hmem
    obtain ⟨j, hj, hlt, heq⟩ := hd.tokens _ (List.mem_append_right _ hmem)
    have := hinj i j hi hlt (congrArg (hashToken p) heq)
    omega
  · show (.ofNat i :: families log).Nodup
    refine List.nodup_cons.mpr ⟨?_, h.families_nodup⟩
    intro hmem
    have hlt := hd.families _ hmem
    rw [UInt64.toNat_ofNat', Nat.mod_eq_of_lt hi] at hlt
    exact Nat.lt_irrefl i hlt

end

/-- A login, a refresh, and logins up to the limit: now the reuse of the first
token goes undetected. -/
theorem reuse_undetected_when_full :
    ∃ log s e, Run (machine (Platform.unhashed 0) service) log s 0 ∧
      Fresh (Platform.unhashed 0) log ∧ e ∈ log ∧
      e.call = refreshAgain 2 ∧ (∃ r, e.reply = .refresh (.ok r)) ∧
      s.spent.lookup (hashToken (Platform.unhashed 0) (nthToken 1)) =
        some ⟨1, "alice".toList, fromSecs 3600⟩ ∧
      (service.refresh (Platform.unhashed 0) s 0 (nthToken 1) (fun _ => true) none).2 =
        .error .full := by
  have hinj : ∀ i j, i < 2 ^ 64 → j < 2 ^ 64 →
      drawHash (Platform.unhashed 0) i = drawHash (Platform.unhashed 0) j → i = j := by
    intro i j hi hj h
    rw [drawHash_unhashed, drawHash_unhashed] at h
    exact nthDraw_inj hi hj h
  let calls : List (Instant × Call) := (0, refreshAgain 2) :: loginCalls
  let run := (machine (Platform.unhashed 0) service).exec (State.new 0) calls
  have hrun : Run (machine (Platform.unhashed 0) service) run.1 run.2 0 :=
    Run.exec rfl (show (calls.map Prod.fst ++ [0]).Pairwise (· ≥ ·) by decide)
  have hnew : ∀ i, 3 ≤ i → i < 2 ^ 64 → drawHash (Platform.unhashed 0) i ∉ run.2.refresh := by
    have hkeys : run.2.refresh.keys = [drawHash (Platform.unhashed 0) 2] := by decide +kernel
    intro i hi hlt hmem
    have hmem' : drawHash (Platform.unhashed 0) i ∈ run.2.refresh.keys := hmem
    rw [hkeys, List.mem_singleton] at hmem'
    have := hinj i 2 hlt (by decide) hmem'
    lia
  have hrecords : run.2.records = 2 := by decide +kernel
  have hdrawn : DrawnBelow (Platform.unhashed 0) run.1 3 := by
    have htokens : tokens run.1 = [nthToken 1, nthToken 2, nthToken 1] := by decide +kernel
    have hfamilies : families run.1 = [1] := by decide +kernel
    refine ⟨?_, ?_⟩
    · rw [htokens]
      simp only [List.forall_mem_cons, List.not_mem_nil, false_imp_iff, implies_true, and_true]
      exact ⟨⟨1, by decide, by decide, rfl⟩, ⟨2, by decide, by decide, rfl⟩,
        1, by decide, by decide, rfl⟩
    · rw [hfamilies]
      exact List.forall_mem_singleton.mpr (by decide)
  obtain ⟨log', s, hfull, ⟨hfresh, -⟩, hheld, -, hspent, -⟩ :=
    logins_fill hinj (show 0 < service.refreshTtl by decide) "bob".toList hrun (by decide +kernel)
      hnew 99998 (by rw [hrecords]; decide) (by decide)
      (fun log i => Fresh (Platform.unhashed 0) log ∧ DrawnBelow (Platform.unhashed 0) log i)
      ⟨by decide +kernel, hdrawn⟩
      (fun _ _ _ hi h => ⟨h.1.nthLogin hinj hi h.2, h.2.nthLogin hi⟩)
  refine ⟨_, s, _, hfull, hfresh, List.mem_append_right _ List.mem_cons_self, rfl,
    ⟨("alice".toList, service.pairOf (Platform.unhashed 0) 0 1 "alice".toList maxFamilyLifetime
      (nthDraw 2)), by decide +kernel⟩, ?_, ?_⟩
  · rw [hspent]
    decide +kernel
  · rw [refresh_full_iff, hheld, hrecords]
    decide

-- ---------------------------------------------------------------------------
-- Failures of the server
-- ---------------------------------------------------------------------------

theorem unused_later (h : token ∉ (ledger log).used) (hlater : ∀ e ∈ later, spends e ≠ some token) :
    token ∉ (ledger (later ++ log)).used := by
  induction later with
  | nil => exact h
  | cons e later ih =>
    obtain ⟨hne, hrest⟩ := List.forall_mem_cons.mp hlater
    by_cases hi : issued e = some token
    · exact Ledger.not_mem_used_after hi
    · simp only [List.cons_append, ledger, Ledger.mem_used_after hi, not_or]
      exact ⟨hne, ih hrest⟩

/-- Whatever happens next, the token redeems its record when it is presented
again with nothing in the way: no presentation of it but what a full store
turned away, no end of its family or of its lifetime, its user there, room,
and a working generator. -/
def StillRedeemable (p : Platform) (svc : TokenService) (log : List Event) (token : Str)
    (record : RefreshRecord) : Prop :=
  ∀ later e s last, Run (machine p svc) (e :: later ++ log) s last → Fresh p (e :: later ++ log) →
    (∀ e' ∈ later, spends e' ≠ some token) → record.family ∉ (ledger (later ++ log)).ended →
    ∀ userExists bytes, e.call = .refresh token userExists (some bytes) →
      record.unexpired e.time = true → userExists record.user = true →
      e.before.held e.time < maxRecords → ∃ pair, e.reply = .refresh (.ok (record.user, pair))

theorem Redeemable.still (hr : Redeemable svc (ledger log) token g now) :
    StillRedeemable p svc log token (g.record svc) := by
  intro later e s last h hf hlater hended userExists bytes hcall hunexpired huser hheld
  refine (redeems_iff h hf hcall).mpr ⟨g, ⟨?_, ?_, hended, ?_⟩, rfl, huser, hheld, rfl⟩
  · exact hf.older.keeps_later hr.granted
  · exact unused_later hr.unused hlater
  · exact (g.unexpired_record svc).mp hunexpired

/-- Once presented without success, the token is not redeemed at the next
presentation either. -/
theorem not_stillRedeemable (h : Run (machine p svc) log s last) (hf : Fresh p log)
    (ht : token ∈ tokens log) (hused : token ∈ (ledger log).used)
    (hended : record.family ∉ (ledger log).ended) (hunexpired : record.unexpired last = true)
    (huser : userExists record.user = true) (hheld : s.held last < maxRecords) :
    ¬ StillRedeemable p svc log token record := by
  intro hstill
  have ha : Apart p (ledger log) token := fun token' g hg =>
    hf.no_collision token ht token' (List.mem_append_right _ (grant_known hg).1)
  let e : Event := ⟨last, s, .refresh token userExists (some (nthDraw 0)),
    .refresh (svc.refresh p s last token userExists (some (nthDraw 0))).2⟩
  have hrun : Run (machine p svc) ([e] ++ log) _ last := Run.call e.call h (Nat.le_refl last)
  have hnot : ∀ r, e.reply ≠ .refresh (.ok r) := by
    rintro ⟨user, pair⟩ hok
    obtain ⟨g, hr, -⟩ := ((tracks h hf).refresh_ok_iff ha _).mp ⟨pair, Reply.refresh.inj hok⟩
    exact hr.unused hused
  have hfresh : Fresh p ([e] ++ log) := by
    refine hf.present ?_ rfl ?_
    · unfold issued
      split
      next hcall _ => cases hcall
      next hreply => exact (hnot _ hreply).elim
      next => rfl
    · intro token' hp
      cases hp
      exact ht
  obtain ⟨pair, hok⟩ := hstill [] e _ _ hrun hfresh (by simp) hended userExists (nthDraw 0) rfl
    hunexpired huser hheld
  exact hnot _ hok

/-- Without a new token, a redeemable one is retired for nothing. -/
theorem Transition.noToken (h : Transition p svc now s (.refresh token userExists none) s' reply)
    (hlive : s.refresh.lookup (hashToken p token) = some record)
    (hunexpired : record.unexpired now = true) (huser : userExists record.user = true)
    (hheld : s.held now < maxRecords) :
    reply = .refresh (.error .random) ∧ s'.records < maxRecords := by
  cases h with
  | refreshFull hfull => exact (Nat.not_le.mpr hheld hfull).elim
  | refreshUnknown htidy _ habsent =>
    rw [htidy.refresh_kept hlive hunexpired] at habsent
    cases habsent
  | refreshReused htidy _ habsent =>
    rw [htidy.refresh_kept hlive hunexpired] at habsent
    cases habsent
  | refreshRefused htidy _ hlive' hbad =>
    rw [htidy.refresh_kept hlive hunexpired] at hlive'
    cases hlive'
    simp [hunexpired, huser] at hbad
  | refreshNoToken _ hroom hlive' => exact ⟨rfl, (State.records_retire_le hlive').trans_lt hroom⟩

/-- A failure of the server spares a redeemable token exactly when it is the
lack of room: where only the generator fails, the token is spent. -/
theorem refresh_failure_spares_iff (h : Run (machine p svc) (e :: log) s last)
    (hf : Fresh p (e :: log)) (hcall : e.call = .refresh token userExists draw)
    (hlive : e.before.refresh.lookup (hashToken p token) = some record)
    (hunexpired : record.unexpired e.time = true) (huser : userExists record.user = true) :
    (e.reply = .refresh (.error .full) ∨ e.reply = .refresh (.error .random) →
        StillRedeemable p svc (e :: log) token record) ↔
      maxRecords ≤ e.before.held e.time ∨ draw.isSome = true := by
  obtain ⟨last', hrun, hle, rfl, hreply, hs⟩ := h.cons_inv
  have ht := (tracks hrun hf.older).later hle
  have hpresented : presented e = some token := by rw [presented, hcall]
  have ha := hf.apart (.inl hpresented)
  obtain ⟨g, hg, rfl, hused, hended⟩ := ht.of_live ha hlive
  have hr : Redeemable svc (ledger log) token g e.time :=
    ⟨hg, hused, hended, (g.unexpired_record svc).mp hunexpired⟩
  constructor
  · intro hspares
    by_contra hnot
    simp only [not_or, Nat.not_le, Bool.not_eq_true, Option.isSome_eq_false_iff,
      Option.isNone_iff_eq_none] at hnot
    obtain ⟨hroom, rfl⟩ := hnot
    have hstep := step_transition p svc e.time e.before e.call
    rw [show (step p svc e.time e.before e.call).2 = e.reply from hreply.symm,
      show (step p svc e.time e.before e.call).1 = s from hs.symm, hcall] at hstep
    obtain ⟨hrandom, hrecords⟩ := hstep.noToken hlive hunexpired huser hroom
    refine not_stillRedeemable h hf ?_ ?_ ?_ hunexpired huser
      ((State.held_le_records s _).trans_lt hrecords) (hspares (.inr hrandom))
    · exact (mem_tokens_cons e log).mpr (.inl hpresented)
    · simp [ledger, Ledger.after, hcall, hrandom, Ledger.retire, Ledger.use]
    · simp only [ledger, Ledger.after, hcall, hrandom]
      exact hended
  · intro hspared hfail
    have hfull : e.reply = .refresh (.error .full) := by
      by_cases hroom : maxRecords ≤ e.before.held e.time
      · rw [hreply, hcall]
        exact congrArg Reply.refresh ((refresh_full_iff _ _).mpr hroom)
      · have hdraw := hspared.resolve_left hroom
        obtain ⟨pair, hok⟩ := (redeems_iff h hf hcall).mpr
          ⟨g, hr, rfl, huser, Nat.lt_of_not_le hroom, hdraw⟩
        rw [hok] at hfail
        obtain hfail | hfail := hfail <;> cases hfail
    have hsame : ledger (e :: log) = ledger log := by
      simp only [ledger, Ledger.after, hcall, hfull]
    exact Redeemable.still (hsame ▸ hr)

def refreshFailing : Call := .refresh (nthToken 1) (fun _ => true) none

theorem refresh_failure_spends :
    ¬ ((serveEvent 1 refreshFailing loginCalls).reply = .refresh (.error .full) ∨
        (serveEvent 1 refreshFailing loginCalls).reply = .refresh (.error .random) →
      StillRedeemable (Platform.crates 0) service (serve ((1, refreshFailing) :: loginCalls)).1
        (nthToken 1) ⟨1, "alice".toList, fromSecs 3600, maxFamilyLifetime⟩) := by
  have hrun := serve_run ((1, refreshFailing) :: loginCalls) (by decide)
  have hfresh : Fresh (Platform.crates 0) (serve ((1, refreshFailing) :: loginCalls)).1 := by
    decide +kernel
  rw [serve_cons] at hrun hfresh ⊢
  rw [refresh_failure_spares_iff hrun hfresh rfl (by decide +kernel) (by decide +kernel) rfl]
  decide +kernel

/-- The retry after the failure, a second later, is taken for reuse and ends the
login. -/
theorem refresh_failure_retried :
    (∃ record, (serve loginCalls).2.refresh.lookup (hashToken (Platform.crates 0) (nthToken 1)) =
      some record ∧ record.unexpired (fromSecs 2) = true) ∧
    (serveEvent (fromSecs 1) refreshFailing loginCalls).reply = .refresh (.error .random) ∧
    (serveEvent (fromSecs 2) (refreshAgain 2) ((fromSecs 1, refreshFailing) :: loginCalls)).reply =
      .refresh (.error (.reused "alice".toList)) := by
  refine ⟨⟨⟨1, "alice".toList, fromSecs 3600, maxFamilyLifetime⟩, ?_, ?_⟩, ?_, ?_⟩ <;>
    decide +kernel

end Ws2tcpRouter.Token
