import Ws2tcpRouter.Token.Ledger

/-!
# What the store holds

The joint invariant of the three maps: which records there may be of one
family, and how their users, their lifetimes and the revocation of the family
hang together. Every operation on a store restores it.
-/

namespace Ws2tcpRouter.Token

open Timed (Run)

variable {p : Platform} {svc : TokenService} {s s' : State} {token user : Str}

-- ---------------------------------------------------------------------------
-- The login of a family
-- ---------------------------------------------------------------------------

/-- The login at `t` of this user started the family. -/
def Login (log : List Event) (family : UInt64) (user : Str) (t : Instant) : Prop :=
  ∃ e ∈ log, started e = some family ∧ e.time = t ∧ ∃ familyDraw draw,
    e.call = .login user familyDraw draw

namespace Login

theorem older (e : Event) (h : Login log family user t) : Login (e :: log) family user t := by
  obtain ⟨e', he', h⟩ := h
  exact ⟨e', List.mem_cons_of_mem _ he', h⟩

theorem known (h : Login log family user t) : family ∈ families log := by
  obtain ⟨e, he, hstarted, -⟩ := h
  exact List.mem_filterMap.mpr ⟨e, he, hstarted⟩

end Login

theorem started_once (hnodup : (families log).Nodup) (he : e ∈ log) (he' : e' ∈ log)
    (hs : started e = some family) (hs' : started e' = some family) : e = e' := by
  induction log with
  | nil => cases he
  | cons first log ih =>
    rw [families_cons, List.nodup_append] at hnodup
    obtain ⟨-, hrest, hdisjoint⟩ := hnodup
    have hnot : ∀ e ∈ log, started first = some family → started e ≠ some family := by
      intro e he hfirst hlater
      exact hdisjoint family (by simp [hfirst]) family (List.mem_filterMap.mpr ⟨e, he, hlater⟩) rfl
    rcases List.mem_cons.mp he with rfl | hmem <;> rcases List.mem_cons.mp he' with rfl | hmem'
    · rfl
    · exact (hnot e' hmem' hs hs').elim
    · exact (hnot e hmem hs' hs).elim
    · exact ih hrest hmem hmem'

theorem Login.unique (hnodup : (families log).Nodup) (h : Login log family user t)
    (h' : Login log family user' t') : user = user' ∧ t = t' := by
  obtain ⟨e, he, hs, rfl, _, _, hcall⟩ := h
  obtain ⟨e', he', hs', rfl, _, _, hcall'⟩ := h'
  obtain rfl := started_once hnodup he he' hs hs'
  rw [hcall] at hcall'
  cases hcall'
  exact ⟨rfl, rfl⟩

-- ---------------------------------------------------------------------------
-- The invariant
-- ---------------------------------------------------------------------------

/-- The hash is that of a token of the log. -/
def Filed (p : Platform) (log : List Event) (hash : Hash) : Prop :=
  ∃ token ∈ issuedTokens log, hashToken p token = hash

/-- The record goes back to the login of its family, and lasts no longer than a
token issued now would. -/
def Dated (svc : TokenService) (log : List Event) (now : Instant) (family : UInt64) (user : Str)
    (expires deadline : Instant) : Prop :=
  ∃ t, Login log family user t ∧ deadline = t + maxFamilyLifetime ∧
    expires ≤ min (now + svc.refreshTtl) deadline

structure Sound (p : Platform) (svc : TokenService) (log : List Event) (now : Instant)
    (s : State) : Prop where
  all : s.All
    (fun hash record => Filed p log hash ∧
      Dated svc log now record.family record.user record.expires record.familyDeadline)
    (fun hash record => Filed p log hash ∧
      ∃ deadline, Dated svc log now record.family record.user record.expires deadline)
  apart : ∀ hash ∈ s.refresh, hash ∉ s.spent
  single : ∀ hash record hash' record', s.refresh.lookup hash = some record →
    s.refresh.lookup hash' = some record' → record.family = record'.family → hash = hash'
  ordered : ∀ hash record hash' spent, s.refresh.lookup hash = some record →
    s.spent.lookup hash' = some spent → spent.family = record.family →
    spent.expires ≤ record.expires
  revoked : ∀ family ∈ s.revoked, family ∈ families log ∧
    ∀ hash record, s.refresh.lookup hash = some record → record.family ≠ family

theorem Dated.later (h : Dated svc log t family user expires deadline) (e : Event)
    (hle : t ≤ now) : Dated svc (e :: log) now family user expires deadline := by
  obtain ⟨start, hlogin, hdeadline, hexpires⟩ := h
  refine ⟨start, hlogin.older e, hdeadline, ?_⟩
  lia

namespace Sound

theorem new (t : Instant) : Sound p svc [] t (State.new t) where
  all := .new t
  apart hash h := (AList.notMem_empty hash h).elim
  single _ _ _ _ h := by cases h
  ordered _ _ _ _ h := by cases h
  revoked family h := (AList.notMem_empty family h).elim

theorem later (h : Sound p svc log t s) (e : Event) (hle : t ≤ now) :
    Sound p svc (e :: log) now s := by
  have hfiled : ∀ hash, Filed p log hash → Filed p (e :: log) hash := by
    rintro hash ⟨token, htoken, hhash⟩
    refine ⟨token, ?_, hhash⟩
    rw [issuedTokens_cons]
    exact List.mem_append_right _ htoken
  refine ⟨h.all.imp ?_ ?_, h.apart, h.single, h.ordered, ?_⟩
  · exact fun hash record hr => ⟨hfiled hash hr.1, hr.2.later e hle⟩
  · rintro hash record ⟨hhash, deadline, hdated⟩
    exact ⟨hfiled hash hhash, deadline, hdated.later e hle⟩
  · intro family hmem
    refine ⟨?_, (h.revoked family hmem).2⟩
    rw [families_cons]
    exact List.mem_append_right _ (h.revoked family hmem).1

/-- Dropping entries keeps the invariant. -/
theorem sub (h : Sound p svc log now s)
    (hlive : ∀ hash record, s'.refresh.lookup hash = some record →
      s.refresh.lookup hash = some record)
    (hspent : ∀ hash record, s'.spent.lookup hash = some record →
      s.spent.lookup hash = some record)
    (hrevoked : ∀ family ∈ s'.revoked, family ∈ s.revoked) : Sound p svc log now s' where
  all := ⟨fun hash record hr => h.all.live _ _ (hlive hash record hr),
    fun hash record hr => h.all.spent _ _ (hspent hash record hr)⟩
  apart hash hmem hmem' := by
    obtain ⟨record, hr⟩ := AList.mem_iff_lookup.mp hmem
    obtain ⟨record', hr'⟩ := AList.mem_iff_lookup.mp hmem'
    exact h.apart hash (AList.mem_iff_lookup.mpr ⟨record, hlive _ _ hr⟩)
      (AList.mem_iff_lookup.mpr ⟨record', hspent _ _ hr'⟩)
  single hash record hash' record' hr hr' :=
    h.single hash record hash' record' (hlive _ _ hr) (hlive _ _ hr')
  ordered hash record hash' spent hr hr' :=
    h.ordered hash record hash' spent (hlive _ _ hr) (hspent _ _ hr')
  revoked family hmem :=
    ⟨(h.revoked family (hrevoked family hmem)).1, fun hash record hr =>
      (h.revoked family (hrevoked family hmem)).2 hash record (hlive _ _ hr)⟩

theorem tidied (h : Sound p svc log t s) (ht : s.Tidied now s') : Sound p svc log t s' := by
  refine h.sub (fun _ _ => ht.refresh_lookup) (fun _ _ => ht.spent_lookup) ?_
  obtain rfl | rfl := ht
  · exact fun _ => id
  · intro family hmem
    obtain ⟨till, htill⟩ := AList.mem_iff_lookup.mp hmem
    exact AList.mem_iff_lookup.mpr ⟨till, (AList.lookup_retain_some.mp htill).1⟩

theorem take (h : Sound p svc log now s) (hash : Hash) : Sound p svc log now (s.take hash) :=
  h.sub (fun _ _ hr => (AList.lookup_erase_some.mp hr).2) (fun _ _ => id) fun _ => id

/-- The record retired was the one of its family, so that none is left live. -/
theorem retire {hash : Hash} (h : Sound p svc log now s)
    (hlive : s.refresh.lookup hash = some record) :
    Sound p svc log now (s.retire hash record) ∧
      ∀ hash' record', (s.retire hash record).refresh.lookup hash' = some record' →
        record'.family ≠ record.family := by
  have hnone : ∀ hash' record', (s.retire hash record).refresh.lookup hash' = some record' →
      record'.family ≠ record.family := by
    intro hash' record' hr heq
    obtain ⟨hne, hr⟩ := AList.lookup_erase_some.mp hr
    exact hne (h.single _ _ _ _ hr hlive heq)
  have htake := h.take hash
  obtain ⟨hfiled, hdated⟩ := h.all.live _ _ hlive
  refine ⟨⟨⟨htake.all.live, ?_⟩, ?_, htake.single, ?_, htake.revoked⟩, hnone⟩
  · intro hash' record' hr
    obtain ⟨rfl, rfl⟩ | ⟨-, hr⟩ := AList.lookup_insert_some.mp hr
    · exact ⟨hfiled, _, hdated⟩
    · exact h.all.spent _ _ hr
  · intro hash' hmem hmem'
    obtain ⟨record', hr⟩ := AList.mem_iff_lookup.mp hmem
    obtain ⟨spent, hr'⟩ := AList.mem_iff_lookup.mp hmem'
    obtain ⟨hne, hr⟩ := AList.lookup_erase_some.mp hr
    obtain ⟨rfl, -⟩ | ⟨-, hr'⟩ := AList.lookup_insert_some.mp hr'
    · exact hne rfl
    · exact h.apart hash' (AList.mem_iff_lookup.mpr ⟨_, hr⟩) (AList.mem_iff_lookup.mpr ⟨_, hr'⟩)
  · intro hash' record' hash'' spent hr hr' heq
    obtain ⟨-, rfl⟩ | ⟨-, hr'⟩ := AList.lookup_insert_some.mp hr'
    · exact (hnone hash' record' hr heq.symm).elim
    · exact htake.ordered hash' record' hash'' spent hr hr' heq

/-- A record filed for a family without a live one lasts as long as any that
was filed for it before. -/
theorem file {bytes : Block tokenBytes} (h : Sound p svc log now s) (hnodup : (families log).Nodup)
    (hlogin : Login log family user t) (hdeadline : deadline = t + maxFamilyLifetime)
    (hissued : p.urlSafe.encode bytes.val ∈ issuedTokens log)
    (hnew : hashToken p (p.urlSafe.encode bytes.val) ∉ s.spent)
    (hnone : ∀ hash record, s.refresh.lookup hash = some record → record.family ≠ family)
    (halive : family ∉ s.revoked) :
    Sound p svc log now (s.file p bytes (svc.recordOf now family user deadline)) := by
  subst hdeadline
  refine ⟨h.all.file ⟨⟨_, hissued, rfl⟩, t, hlogin, rfl, Nat.le_refl _⟩, ?_, ?_, ?_, ?_⟩
  · intro hash hmem
    rcases (AList.mem_insert _).mp hmem with rfl | hmem
    · exact hnew
    · exact h.apart hash hmem
  · intro hash record hash' record' hr hr' heq
    obtain ⟨rfl, rfl⟩ | ⟨-, hr⟩ := AList.lookup_insert_some.mp hr <;>
      obtain ⟨rfl, rfl⟩ | ⟨-, hr'⟩ := AList.lookup_insert_some.mp hr'
    · rfl
    · exact (hnone _ _ hr' heq.symm).elim
    · exact (hnone _ _ hr heq).elim
    · exact h.single _ _ _ _ hr hr' heq
  · intro hash record hash' spent hr hr' heq
    obtain ⟨-, rfl⟩ | ⟨-, hr⟩ := AList.lookup_insert_some.mp hr
    · obtain ⟨-, _, t', hlogin', rfl, hexpires⟩ := h.all.spent _ _ hr'
      obtain ⟨-, rfl⟩ := Login.unique hnodup hlogin (heq ▸ hlogin')
      exact hexpires
    · exact h.ordered _ _ _ _ hr hr' heq
  · intro family' hmem
    refine ⟨(h.revoked family' hmem).1, ?_⟩
    intro hash record hr heq
    obtain ⟨-, rfl⟩ | ⟨-, hr⟩ := AList.lookup_insert_some.mp hr
    · cases heq
      exact halive hmem
    · exact (h.revoked family' hmem).2 _ _ hr heq

theorem revokeFamily (h : Sound p svc log now s) (hknown : family ∈ families log) :
    Sound p svc log now (s.revokeFamily family now svc.accessTtl) := by
  have hback : ∀ hash record,
      (s.revokeFamily family now svc.accessTtl).refresh.lookup hash = some record →
        s.refresh.lookup hash = some record ∧ record.family ≠ family := by
    intro hash record hr
    obtain ⟨hr, hne⟩ := AList.lookup_retain_some.mp hr
    exact ⟨hr, of_decide_eq_true hne⟩
  refine ⟨h.all.revokeFamily.imp (fun _ _ => And.right) fun _ _ => id, ?_, ?_, ?_, ?_⟩
  · intro hash hmem
    obtain ⟨record, hr⟩ := AList.mem_iff_lookup.mp hmem
    exact h.apart hash (AList.mem_iff_lookup.mpr ⟨record, (hback _ _ hr).1⟩)
  · exact fun _ _ _ _ hr hr' => h.single _ _ _ _ (hback _ _ hr).1 (hback _ _ hr').1
  · exact fun _ _ _ _ hr hr' => h.ordered _ _ _ _ (hback _ _ hr).1 hr'
  · intro family' hmem
    rcases (AList.mem_insert _).mp hmem with rfl | hmem
    · exact ⟨hknown, fun hash record hr => (hback hash record hr).2⟩
    · exact ⟨(h.revoked family' hmem).1,
        fun hash record hr => (h.revoked family' hmem).2 hash record (hback hash record hr).1⟩

end Sound

-- ---------------------------------------------------------------------------
-- Every call restores it
-- ---------------------------------------------------------------------------

theorem Fresh.notFiled (h : Fresh p (e :: log)) (hi : issued e = some token) :
    ¬Filed p log (hashToken p token) := by
  rintro ⟨token', hmem, hhash⟩
  have hissued : token ∈ issuedTokens (e :: log) := by simp [issuedTokens_cons, hi]
  have hmem' : token' ∈ issuedTokens (e :: log) := by
    rw [issuedTokens_cons]
    exact List.mem_append_right _ hmem
  obtain rfl := h.no_collision token (List.mem_append_right _ hissued) token'
    (List.mem_append_right _ hmem') hhash
  have hnodup := h.tokens_nodup
  rw [issuedTokens_cons, hi] at hnodup
  exact (List.nodup_cons.mp hnodup).1 hmem

theorem Fresh.newFamily (h : Fresh p (e :: log)) (hs : started e = some family) :
    family ∉ families log := by
  have hnodup := h.families_nodup
  rw [families_cons, hs] at hnodup
  exact (List.nodup_cons.mp hnodup).1

theorem Sound.unspent {hash : Hash} (h : Sound p svc log now s) (hnew : ¬Filed p log hash) :
    hash ∉ s.spent := by
  intro hmem
  obtain ⟨record, hr⟩ := AList.mem_iff_lookup.mp hmem
  exact hnew (h.all.spent _ _ hr).1

theorem Sound.known_of_familyOf {hash : Hash} (h : Sound p svc log now s)
    (hf : s.familyOf hash = some family) : family ∈ families log := by
  unfold State.familyOf at hf
  split at hf
  next record hlive =>
    cases hf
    obtain ⟨-, _, hlogin, -⟩ := h.all.live _ _ hlive
    exact hlogin.known
  next =>
    obtain ⟨record, hspent, rfl⟩ := Option.map_eq_some_iff.mp hf
    obtain ⟨-, _, _, hlogin, -⟩ := h.all.spent _ _ hspent
    exact hlogin.known

theorem Transition.sound (h : Transition p svc now s call s' reply)
    (hf : Fresh p (⟨now, s, call, reply⟩ :: log)) (hs : Sound p svc log last s)
    (hle : last ≤ now) : Sound p svc (⟨now, s, call, reply⟩ :: log) now s' := by
  have hlater : ∀ {s'}, Sound p svc log last s' →
      Sound p svc (⟨now, s, call, reply⟩ :: log) now s' := fun hs => hs.later _ hle
  cases h with
  | loginNoFamily => exact hlater hs
  | loginFull => exact hlater (hs.tidied (.inr rfl))
  | loginNoToken htidy => exact hlater (hs.tidied htidy)
  | login htidy =>
    have htidied := hs.tidied htidy
    have hnew := hf.newFamily rfl
    refine (hlater htidied).file hf.families_nodup ⟨_, List.mem_cons_self, rfl, rfl, _, _, rfl⟩
      rfl List.mem_cons_self (htidied.unspent (hf.notFiled rfl)) ?_ ?_
    · rintro hash record hr rfl
      obtain ⟨-, _, hlogin, -⟩ := htidied.all.live _ _ hr
      exact hnew hlogin.known
    · exact fun hmem => hnew (htidied.revoked _ hmem).1
  | refreshFull => exact hlater (hs.tidied (.inr rfl))
  | refreshUnknown htidy => exact hlater (hs.tidied htidy)
  | refreshReused htidy _ _ hspent =>
    have htidied := hlater (hs.tidied htidy)
    obtain ⟨-, _, _, hlogin, -⟩ := htidied.all.spent _ _ hspent
    exact htidied.revokeFamily hlogin.known
  | refreshRefused htidy => exact hlater ((hs.tidied htidy).take _)
  | refreshNoToken htidy _ hlive => exact hlater ((hs.tidied htidy).retire hlive).1
  | refreshRotated htidy _ hlive =>
    have htidied := hs.tidied htidy
    obtain ⟨hretired, hnone⟩ := htidied.retire hlive
    obtain ⟨-, start, hlogin, hdeadline, -⟩ := htidied.all.live _ _ hlive
    refine (hlater hretired).file hf.families_nodup (hlogin.older _) hdeadline List.mem_cons_self
      (hretired.unspent (hf.notFiled rfl)) hnone ?_
    exact fun hmem => (htidied.revoked _ hmem).2 _ _ hlive rfl
  | revokeUnknown => exact hlater hs
  | revoke hfamily => exact (hlater hs).revokeFamily ((hlater hs).known_of_familyOf hfamily)
  | verifyAccess => exact hlater hs

theorem sound (h : Run (machine p svc) log s last) (hf : Fresh p log) : Sound p svc log last s := by
  refine h.invariant (fun log s last => Fresh p log → Sound p svc log last s) ?_ ?_ hf
  · rintro t _ rfl -
    exact .new t
  · intro log s last now call _ ih hle hf
    exact (step_transition p svc now s call).sound hf (ih hf.older) hle

-- ---------------------------------------------------------------------------
-- What it says of the records
-- ---------------------------------------------------------------------------

/-- There is a record, live or spent, of that family, user and expiry. -/
def State.Holds (s : State) (family : UInt64) (user : Str) (expires : Instant) : Prop :=
  (∃ hash record, s.refresh.lookup hash = some record ∧ record.family = family ∧
    record.user = user ∧ record.expires = expires) ∨
  ∃ hash record, s.spent.lookup hash = some record ∧ record.family = family ∧
    record.user = user ∧ record.expires = expires

/-- The store represents the families of the log. -/
structure Represents (log : List Event) (s : State) : Prop where
  apart : ∀ hash, ¬(hash ∈ s.refresh ∧ hash ∈ s.spent)
  single : ∀ hash record hash' record', s.refresh.lookup hash = some record →
    s.refresh.lookup hash' = some record' → record.family = record'.family → hash = hash'
  user : ∀ family user user' expires expires', s.Holds family user expires →
    s.Holds family user' expires' → user = user'
  loggedIn : ∀ family user expires, s.Holds family user expires → ∃ t, Login log family user t
  deadline : ∀ hash record user t, s.refresh.lookup hash = some record →
    Login log record.family user t → record.familyDeadline = t + maxFamilyLifetime
  expires : ∀ family user expires user' t, s.Holds family user expires →
    Login log family user' t → expires ≤ t + maxFamilyLifetime
  ordered : ∀ hash record hash' spent, s.refresh.lookup hash = some record →
    s.spent.lookup hash' = some spent → spent.family = record.family →
    spent.expires ≤ record.expires
  revoked : ∀ family ∈ s.revoked, ∀ hash record, s.refresh.lookup hash = some record →
    record.family ≠ family

theorem Sound.of_holds (h : Sound p svc log now s) (hholds : s.Holds family user expires) :
    ∃ t, Login log family user t ∧ expires ≤ t + maxFamilyLifetime := by
  rcases hholds with ⟨hash, record, hr, rfl, rfl, rfl⟩ | ⟨hash, record, hr, rfl, rfl, rfl⟩
  · obtain ⟨-, t, hlogin, hdeadline, hle⟩ := h.all.live _ _ hr
    exact ⟨t, hlogin, hdeadline ▸ hle.trans (Nat.min_le_right _ _)⟩
  · obtain ⟨-, deadline, t, hlogin, rfl, hle⟩ := h.all.spent _ _ hr
    exact ⟨t, hlogin, hle.trans (Nat.min_le_right _ _)⟩

/-- The store of every fresh run represents the families that logged in. -/
theorem represents (h : Run (machine p svc) log s last) (hf : Fresh p log) : Represents log s := by
  have hs := sound h hf
  refine ⟨fun hash hmem => hs.apart hash hmem.1 hmem.2, hs.single, ?_, ?_, ?_, ?_, hs.ordered,
    fun family hmem => (hs.revoked family hmem).2⟩
  · intro family user user' expires expires' hholds hholds'
    obtain ⟨t, hlogin, -⟩ := hs.of_holds hholds
    obtain ⟨t', hlogin', -⟩ := hs.of_holds hholds'
    exact (hlogin.unique hf.families_nodup hlogin').1
  · intro family user expires hholds
    obtain ⟨t, hlogin, -⟩ := hs.of_holds hholds
    exact ⟨t, hlogin⟩
  · intro hash record user t hr hlogin
    obtain ⟨-, t', hlogin', hdeadline, -⟩ := hs.all.live _ _ hr
    obtain ⟨-, rfl⟩ := hlogin.unique hf.families_nodup hlogin'
    exact hdeadline
  · intro family user expires user' t hholds hlogin
    obtain ⟨t', hlogin', hle⟩ := hs.of_holds hholds
    obtain ⟨-, rfl⟩ := hlogin.unique hf.families_nodup hlogin'
    exact hle

def rotatedOnce : List (Instant × Call) :=
  [(fromSecs 1, .refresh (nthToken 1) (fun _ => true) (some (nthDraw 2))),
    (0, .login "alice".toList (some 1) (some (nthDraw 1)))]

theorem represents_rotated :
    Represents (serve rotatedOnce).1 (serve rotatedOnce).2 ∧ (serve rotatedOnce).2.records = 2 :=
  ⟨represents (serve_run rotatedOnce (by decide))
    (by decide +kernel), by decide +kernel⟩

end Ws2tcpRouter.Token
