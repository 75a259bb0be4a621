import Ws2tcpRouter.Token.Step

/-!
# The ledger

What the service is for, without hashes, tables or sweeping: which tokens were
granted to whom and when, which of them were presented, which were retired,
and which families ended. The ledger is read off the log alone. As long as
tokens and families are fresh and no hash collides, the store holds exactly
the unexpired part of it.
-/

namespace Ws2tcpRouter.Token

open Timed (Run)

/-- What a refresh token was issued for: the family and its user, when the
token was issued, and when a login started the family. -/
structure Grant where
  family : UInt64
  user : Str
  issued : Instant
  started : Instant
  deriving DecidableEq, Repr

namespace Grant

variable (svc : TokenService) (g : Grant)

def deadline : Instant := g.started + maxFamilyLifetime
def expires : Instant := min (g.issued + svc.refreshTtl) g.deadline

def record : RefreshRecord := ⟨g.family, g.user, g.expires svc, g.deadline⟩
def spentRecord : SpentRecord := ⟨g.family, g.user, g.expires svc⟩

theorem unexpired_record : (g.record svc).unexpired now = true ↔ now < g.expires svc := by
  simp only [record, RefreshRecord.unexpired, expires, Bool.and_eq_true]
  lia

theorem lt_expires : now < g.expires svc ↔
    now < g.issued + svc.refreshTtl ∧ now < g.started + maxFamilyLifetime :=
  Nat.lt_min

end Grant

-- ---------------------------------------------------------------------------
-- Reading a log
-- ---------------------------------------------------------------------------

def issued (e : Event) : Option Str :=
  match e.call, e.reply with
  | .login _ (some _) _, .login (.ok pair) => some pair.refreshToken
  | .refresh _ _ _, .refresh (.ok (_, pair)) => some pair.refreshToken
  | _, _ => none

/-- The token a refresh presented, where it got past the capacity check. -/
def spends (e : Event) : Option Str :=
  match e.call, e.reply with
  | .refresh _ _ _, .refresh (.error .full) => none
  | .refresh token _ _, .refresh _ => some token
  | _, _ => none

structure Ledger where
  grant : Str → Option Grant
  /-- Tokens presented since they were issued. -/
  used : List Str
  /-- Tokens that were redeemable when presented. -/
  retired : List Str
  ended : List UInt64

namespace Ledger

def empty : Ledger := ⟨fun _ => none, [], [], []⟩

def issue (l : Ledger) (token : Str) (g : Option Grant) : Ledger where
  grant token' := if token' = token then g else l.grant token'
  used := l.used.filter (· ≠ token)
  retired := l.retired.filter (· ≠ token)
  ended := l.ended

def use (l : Ledger) (token : Str) : Ledger := { l with used := token :: l.used }

def retire (l : Ledger) (token : Str) : Ledger :=
  { l.use token with retired := token :: l.retired }

def endFamily (l : Ledger) (token : Str) : Ledger :=
  { l with ended := ((l.grant token).map Grant.family).toList ++ l.ended }

def after (l : Ledger) (e : Event) : Ledger :=
  match e.call, e.reply with
  | .login user (some family) _, .login (.ok pair) =>
    l.issue pair.refreshToken (some ⟨family, user, e.time, e.time⟩)
  | .refresh token _ _, .refresh (.ok (_, pair)) =>
    (l.retire token).issue pair.refreshToken
      ((l.grant token).map fun g => { g with issued := e.time })
  | .refresh token _ _, .refresh (.error .random) => l.retire token
  | .refresh token _ _, .refresh (.error .invalid) => l.use token
  | .refresh token _ _, .refresh (.error (.reused _)) => (l.use token).endFamily token
  | .revoke token, .revoke true => l.endFamily token
  | _, _ => l

end Ledger

def ledger : List Event → Ledger
  | [] => .empty
  | e :: log => (ledger log).after e

-- ---------------------------------------------------------------------------
-- The store against the ledger
-- ---------------------------------------------------------------------------

variable {p : Platform} {svc : TokenService} {l : Ledger} {s s' : State} {token : Str} {g : Grant}

/-- The store holds the unexpired part of the ledger: the granted tokens that
were not presented since and whose family did not end, live, and the retired
ones, spent. What else it holds is of the ledger too, but has expired. -/
structure Tracks (p : Platform) (svc : TokenService) (l : Ledger) (s : State) (now : Instant) :
    Prop where
  all : s.All
    (fun hash record => ∃ token g, hashToken p token = hash ∧ l.grant token = some g ∧
      record = g.record svc ∧ token ∉ l.used ∧ g.family ∉ l.ended)
    (fun hash record => ∃ token g, hashToken p token = hash ∧ l.grant token = some g ∧
      record = g.spentRecord svc ∧ token ∈ l.retired)
  live : ∀ token g, l.grant token = some g → token ∉ l.used → g.family ∉ l.ended →
    now < g.expires svc → s.refresh.lookup (hashToken p token) = some (g.record svc)
  spent : ∀ token g, l.grant token = some g → token ∈ l.retired → now < g.expires svc →
    s.spent.lookup (hashToken p token) = some (g.spentRecord svc)

def Apart (p : Platform) (l : Ledger) (token : Str) : Prop :=
  ∀ token' g, l.grant token' = some g → hashToken p token' = hashToken p token → token' = token

namespace Tracks

theorem later (h : Tracks p svc l s t) (hle : t ≤ now) : Tracks p svc l s now :=
  ⟨h.all, fun token g hg hu he hlt => h.live token g hg hu he (hle.trans_lt hlt),
    fun token g hg hr hlt => h.spent token g hg hr (hle.trans_lt hlt)⟩

theorem tidied (h : Tracks p svc l s now) (ht : s.Tidied now s') : Tracks p svc l s' now :=
  ⟨h.all.tidied ht,
    fun token g hg hu he hlt =>
      ht.refresh_kept (h.live token g hg hu he hlt) ((g.unexpired_record svc).mpr hlt),
    fun token g hg hr hlt => ht.spent_kept (h.spent token g hg hr hlt) hlt⟩

theorem of_live (h : Tracks p svc l s now) (ha : Apart p l token)
    (hlive : s.refresh.lookup (hashToken p token) = some record) :
    ∃ g, l.grant token = some g ∧ record = g.record svc ∧ token ∉ l.used ∧ g.family ∉ l.ended := by
  obtain ⟨token', g, hhash, hg, hrecord, hused, hended⟩ := h.all.live _ _ hlive
  obtain rfl := ha _ _ hg hhash
  exact ⟨g, hg, hrecord, hused, hended⟩

theorem of_spent (h : Tracks p svc l s now) (ha : Apart p l token)
    (hspent : s.spent.lookup (hashToken p token) = some record) :
    ∃ g, l.grant token = some g ∧ record = g.spentRecord svc ∧ token ∈ l.retired := by
  obtain ⟨token', g, hhash, hg, hrecord, hretired⟩ := h.all.spent _ _ hspent
  obtain rfl := ha _ _ hg hhash
  exact ⟨g, hg, hrecord, hretired⟩

theorem of_familyOf (h : Tracks p svc l s now) (ha : Apart p l token)
    (hf : s.familyOf (hashToken p token) = some family) :
    ∃ g, l.grant token = some g ∧ g.family = family := by
  unfold State.familyOf at hf
  split at hf
  next record hlive =>
    obtain ⟨g, hg, rfl, -⟩ := h.of_live ha hlive
    exact ⟨g, hg, Option.some.inj hf⟩
  next =>
    obtain ⟨record, hspent, rfl⟩ := Option.map_eq_some_iff.mp hf
    obtain ⟨g, hg, rfl, -⟩ := h.of_spent ha hspent
    exact ⟨g, hg, rfl⟩

theorem use_absent (h : Tracks p svc l s now)
    (habsent : s.refresh.lookup (hashToken p token) = none) : Tracks p svc (l.use token) s now := by
  refine ⟨⟨?_, h.all.spent⟩, ?_, h.spent⟩
  · intro hash record hr
    obtain ⟨token', g, rfl, hg, hrecord, hused, hended⟩ := h.all.live _ _ hr
    refine ⟨token', g, rfl, hg, hrecord, ?_, hended⟩
    rintro (_ | ⟨_, hmem⟩)
    · rw [habsent] at hr
      cases hr
    · exact hused hmem
  · intro token' g hg hused
    exact h.live token' g hg fun hmem => hused (List.mem_cons_of_mem _ hmem)

theorem use_take (h : Tracks p svc l s now) (ha : Apart p l token) :
    Tracks p svc (l.use token) (s.take (hashToken p token)) now := by
  refine ⟨h.all.take.imp ?_ fun _ _ => id, ?_, h.spent⟩
  · rintro _ record ⟨hne, token', g, rfl, hg, hrecord, hused, hended⟩
    refine ⟨token', g, rfl, hg, hrecord, ?_, hended⟩
    rintro (_ | ⟨_, hmem⟩)
    · exact hne rfl
    · exact hused hmem
  · intro token' g hg hused hended hlt
    simp only [Ledger.use, List.mem_cons, not_or] at hused
    have hne : hashToken p token' ≠ hashToken p token := fun heq => hused.1 (ha _ _ hg heq)
    exact AList.lookup_erase_some.mpr ⟨hne, h.live token' g hg hused.2 hended hlt⟩

theorem retire (h : Tracks p svc l s now) (ha : Apart p l token)
    (hlive : s.refresh.lookup (hashToken p token) = some record) :
    Tracks p svc (l.retire token) (s.retire (hashToken p token) record) now := by
  have htake := h.use_take ha
  obtain ⟨g, hg, rfl, -⟩ := h.of_live ha hlive
  refine ⟨⟨htake.all.live, ?_⟩, htake.live, ?_⟩
  · intro hash record hr
    obtain ⟨rfl, rfl⟩ | ⟨-, hr⟩ := AList.lookup_insert_some.mp hr
    · exact ⟨token, g, rfl, hg, rfl, List.mem_cons_self⟩
    · obtain ⟨token', g', hhash, hg', hrecord, hretired⟩ := h.all.spent _ _ hr
      exact ⟨token', g', hhash, hg', hrecord, List.mem_cons_of_mem _ hretired⟩
  · intro token' g' hg' hretired hlt
    refine AList.lookup_insert_some.mpr ?_
    by_cases heq : hashToken p token' = hashToken p token
    · obtain rfl := ha _ _ hg' heq
      obtain rfl : g = g' := Option.some.inj (hg.symm.trans hg')
      exact .inl ⟨rfl, rfl⟩
    · refine .inr ⟨heq, h.spent token' g' hg' ?_ hlt⟩
      obtain rfl | hmem := List.mem_cons.mp hretired
      · exact (heq rfl).elim
      · exact hmem

theorem endFamily (h : Tracks p svc l s now) (hg : l.grant token = some g) :
    Tracks p svc (l.endFamily token) (s.revokeFamily g.family now svc.accessTtl) now := by
  have hended : (l.endFamily token).ended = g.family :: l.ended := by simp [Ledger.endFamily, hg]
  refine ⟨h.all.revokeFamily.imp ?_ fun _ _ => id, ?_, h.spent⟩
  · rintro _ record ⟨hne, token', g', rfl, hg', rfl, hused, hnot⟩
    refine ⟨token', g', rfl, hg', rfl, hused, ?_⟩
    rw [hended, List.mem_cons, not_or]
    exact ⟨hne, hnot⟩
  · intro token' g' hg' hused hnot hlt
    rw [hended, List.mem_cons, not_or] at hnot
    refine AList.lookup_retain_some.mpr ⟨h.live token' g' hg' hused hnot.2 hlt, ?_⟩
    exact decide_eq_true hnot.1

theorem issue {bytes : Block tokenBytes} (h : Tracks p svc l s now)
    (ha : Apart p l (p.urlSafe.encode bytes.val)) (hnew : l.grant (p.urlSafe.encode bytes.val) = none)
    (hended : g.family ∉ l.ended) :
    Tracks p svc (l.issue (p.urlSafe.encode bytes.val) (some g)) (s.file p bytes (g.record svc)) now := by
  have hother : ∀ token' g', l.grant token' = some g' →
      token' ≠ p.urlSafe.encode bytes.val ∧
        hashToken p token' ≠ hashToken p (p.urlSafe.encode bytes.val) := by
    intro token' g' hg'
    have hne : token' ≠ p.urlSafe.encode bytes.val := by
      rintro rfl
      rw [hnew] at hg'
      cases hg'
    exact ⟨hne, fun heq => hne (ha _ _ hg' heq)⟩
  refine ⟨⟨?_, ?_⟩, ?_, ?_⟩
  · intro hash record hr
    obtain ⟨rfl, rfl⟩ | ⟨-, hr⟩ := AList.lookup_insert_some.mp hr
    · exact ⟨_, g, rfl, by simp [Ledger.issue], rfl, by simp [Ledger.issue], hended⟩
    · obtain ⟨token', g', hhash, hg', hrecord, hused, hnot⟩ := h.all.live _ _ hr
      have hne := (hother _ _ hg').1
      exact ⟨token', g', hhash, by simp [Ledger.issue, hne, hg'], hrecord,
        by simp [Ledger.issue, hused], hnot⟩
  · intro hash record hr
    obtain ⟨token', g', hhash, hg', hrecord, hretired⟩ := h.all.spent _ _ hr
    have hne := (hother _ _ hg').1
    exact ⟨token', g', hhash, by simp [Ledger.issue, hne, hg'], hrecord,
      by simp [Ledger.issue, hne, hretired]⟩
  · intro token' g' hg' hused hnot hlt
    refine AList.lookup_insert_some.mpr ?_
    by_cases hne : token' = p.urlSafe.encode bytes.val
    · subst hne
      simp only [Ledger.issue, if_true, Option.some.injEq] at hg'
      exact .inl ⟨rfl, hg' ▸ rfl⟩
    · simp only [Ledger.issue, hne, if_false] at hg'
      refine .inr ⟨(hother _ _ hg').2, h.live token' g' hg' ?_ hnot hlt⟩
      simpa [Ledger.issue, hne] using hused
  · intro token' g' hg' hretired hlt
    simp only [Ledger.issue, List.mem_filter, decide_eq_true_eq] at hg' hretired
    rw [if_neg hretired.2] at hg'
    exact h.spent token' g' hg' hretired.1 hlt

end Tracks

-- ---------------------------------------------------------------------------
-- Fresh runs
-- ---------------------------------------------------------------------------

def issuedTokens (log : List Event) : List Str := log.filterMap issued

def presented (e : Event) : Option Str :=
  match e.call with
  | .refresh token _ _ => some token
  | .revoke token => some token
  | _ => none

def tokens (log : List Event) : List Str := log.filterMap presented ++ issuedTokens log

/-- No token was issued twice, no family started twice, and SHA-256 does not
collide on the tokens of the log. -/
structure Fresh (p : Platform) (log : List Event) : Prop where
  tokens_nodup : (issuedTokens log).Nodup
  families_nodup : (families log).Nodup
  no_collision : ∀ token ∈ tokens log, ∀ token' ∈ tokens log,
    hashToken p token' = hashToken p token → token' = token

instance : Decidable (Fresh p log) :=
  decidable_of_iff
    ((issuedTokens log).Nodup ∧ (families log).Nodup ∧ ∀ token ∈ tokens log, ∀ token' ∈ tokens log,
      hashToken p token' = hashToken p token → token' = token)
    ⟨fun h => ⟨h.1, h.2.1, h.2.2⟩, fun h => ⟨h.1, h.2, h.3⟩⟩

theorem issuedTokens_cons (e : Event) (log : List Event) :
    issuedTokens (e :: log) = (issued e).toList ++ issuedTokens log := by
  cases h : issued e <;> simp [issuedTokens, h]

theorem mem_tokens_cons (e : Event) (log : List Event) :
    token ∈ tokens (e :: log) ↔
      presented e = some token ∨ issued e = some token ∨ token ∈ tokens log := by
  cases h : presented e <;>
    simp [tokens, issuedTokens_cons, h, eq_comm, or_left_comm]

theorem Fresh.older (h : Fresh p (e :: log)) : Fresh p log := by
  refine ⟨?_, ?_, ?_⟩
  · have := h.tokens_nodup
    rw [issuedTokens_cons, List.nodup_append] at this
    exact this.2.1
  · have := h.families_nodup
    rw [families_cons, List.nodup_append] at this
    exact this.2.1
  · intro token ht token' ht'
    exact h.no_collision token ((mem_tokens_cons e log).mpr (.inr (.inr ht))) token'
      ((mem_tokens_cons e log).mpr (.inr (.inr ht')))

/-- A call grants only the token it issues, for a family it starts or one
already granted in. -/
theorem Ledger.grant_after {e : Event} (h : (l.after e).grant token = some g) :
    l.grant token = some g ∨ issued e = some token ∧
      (started e = some g.family ∨ ∃ token' g', l.grant token' = some g' ∧ g'.family = g.family) := by
  obtain ⟨now, before, call, reply⟩ := e
  unfold Ledger.after at h
  split at h
  next user family draw pair hcall hreply =>
    simp only at hcall hreply
    subst hcall hreply
    simp only [Ledger.issue] at h
    split at h
    next heq =>
      cases h
      exact .inr ⟨congrArg some heq.symm, .inl rfl⟩
    next => exact .inl h
  next token' userExists draw user pair hcall hreply =>
    simp only at hcall hreply
    subst hcall hreply
    simp only [Ledger.issue] at h
    split at h
    next heq =>
      obtain ⟨g', hg', rfl⟩ := Option.map_eq_some_iff.mp h
      exact .inr ⟨congrArg some heq.symm, .inr ⟨token', g', hg', rfl⟩⟩
    next => exact .inl h
  all_goals exact .inl h

/-- Presenting a token of the log again leaves it fresh. -/
theorem Fresh.present (h : Fresh p log) (hi : issued e = none) (hs : started e = none)
    (hp : ∀ token, presented e = some token → token ∈ tokens log) : Fresh p (e :: log) := by
  have hmem : ∀ token, token ∈ tokens (e :: log) → token ∈ tokens log := by
    intro token ht
    rw [mem_tokens_cons, hi] at ht
    obtain ht | ht | ht := ht
    · exact hp token ht
    · cases ht
    · exact ht
  refine ⟨?_, ?_, ?_⟩
  · rw [issuedTokens_cons, hi]
    exact h.tokens_nodup
  · rw [families_cons, hs]
    exact h.families_nodup
  · intro token ht token' ht'
    exact h.no_collision token (hmem token ht) token' (hmem token' ht')

/-- Until it is issued again, a token keeps its grant and stays retired. -/
theorem Ledger.after_keeps {e : Event} (h : issued e ≠ some token) :
    (l.after e).grant token = l.grant token ∧ (token ∈ l.retired → token ∈ (l.after e).retired) := by
  unfold Ledger.after
  split
  next pair hcall hreply =>
    have hne : token ≠ pair.refreshToken := by
      rintro rfl
      exact h (by simp only [issued, hcall, hreply])
    simp [Ledger.issue, hne]
  next pair hcall hreply =>
    have hne : token ≠ pair.refreshToken := by
      rintro rfl
      exact h (by simp only [issued, hcall, hreply])
    simp +contextual [Ledger.issue, Ledger.retire, Ledger.use, hne]
  next => simp +contextual [Ledger.retire, Ledger.use]
  all_goals exact ⟨rfl, id⟩

theorem Ledger.retired_used_after {e : Event} (h : l.retired ⊆ l.used) :
    (l.after e).retired ⊆ (l.after e).used := by
  have hretire : ∀ token, (l.retire token).retired ⊆ (l.retire token).used :=
    fun token => List.cons_subset_cons token h
  have hissue : ∀ (l : Ledger) token g, l.retired ⊆ l.used →
      (l.issue token g).retired ⊆ (l.issue token g).used :=
    fun l token g h => List.filter_subset _ h
  unfold Ledger.after
  split
  · exact hissue _ _ _ h
  · exact hissue _ _ _ (hretire _)
  · exact hretire _
  · exact List.subset_cons_of_subset _ h
  · exact List.subset_cons_of_subset _ h
  · exact h
  · exact h

theorem retired_used (log : List Event) : (ledger log).retired ⊆ (ledger log).used := by
  induction log with
  | nil => exact List.Subset.refl _
  | cons e log ih => exact Ledger.retired_used_after ih

/-- A granted token was issued, in a family some login started. -/
theorem grant_known (h : (ledger log).grant token = some g) :
    token ∈ issuedTokens log ∧ g.family ∈ families log := by
  induction log generalizing token g with
  | nil => cases h
  | cons e log ih =>
    rw [issuedTokens_cons, families_cons, List.mem_append, List.mem_append]
    obtain h | ⟨hissued, hfamily⟩ := Ledger.grant_after h
    · exact ⟨.inr (ih h).1, .inr (ih h).2⟩
    · refine ⟨.inl (by simp [hissued]), ?_⟩
      obtain hstarted | ⟨token', g', hg', heq⟩ := hfamily
      · exact .inl (by simp [hstarted])
      · exact .inr (heq ▸ (ih hg').2)

/-- A call ends only the family of the token it presents. -/
theorem Ledger.ended_after {e : Event} (h : family ∈ (l.after e).ended) :
    family ∈ l.ended ∨ ∃ token g, presented e = some token ∧ l.grant token = some g ∧
      g.family = family := by
  have hend : ∀ token, family ∈ ((l.grant token).map Grant.family).toList ++ l.ended →
      family ∈ l.ended ∨ ∃ g, l.grant token = some g ∧ g.family = family := by
    intro token hmem
    rcases List.mem_append.mp hmem with hmem | hmem
    · exact .inr (by simpa using hmem)
    · exact .inl hmem
  unfold Ledger.after at h
  split at h
  case h_5 token _ _ _ hcall _ =>
    obtain hmem | ⟨g, hg, heq⟩ := hend token h
    · exact .inl hmem
    · exact .inr ⟨token, g, by rw [presented, hcall], hg, heq⟩
  case h_6 token hcall _ =>
    obtain hmem | ⟨g, hg, heq⟩ := hend token h
    · exact .inl hmem
    · exact .inr ⟨token, g, by rw [presented, hcall], hg, heq⟩
  all_goals exact .inl h

theorem Ledger.ended_subset_after (l : Ledger) (e : Event) : l.ended ⊆ (l.after e).ended := by
  unfold Ledger.after
  split
  case h_5 => exact List.subset_append_right _ _
  case h_6 => exact List.subset_append_right _ _
  all_goals exact List.Subset.refl _

/-- Only families some login started end. -/
theorem ended_known (h : family ∈ (ledger log).ended) : family ∈ families log := by
  induction log with
  | nil => cases h
  | cons e log ih =>
    rw [families_cons]
    obtain h | ⟨token, g, -, hg, rfl⟩ := Ledger.ended_after h
    · exact List.mem_append_right _ (ih h)
    · exact List.mem_append_right _ (grant_known hg).2

theorem Fresh.apart (h : Fresh p (e :: log))
    (ht : presented e = some token ∨ issued e = some token) : Apart p (ledger log) token := by
  intro token' g hg
  refine h.no_collision token ?_ token' ?_
  · rw [mem_tokens_cons]
    exact ht.imp_right .inl
  · rw [mem_tokens_cons]
    exact .inr (.inr (List.mem_append_right _ (grant_known hg).1))

theorem Fresh.grant_issued (h : Fresh p (e :: log)) (hi : issued e = some token) :
    (ledger log).grant token = none := by
  cases hg : (ledger log).grant token with
  | none => rfl
  | some g =>
    have hnodup := h.tokens_nodup
    rw [issuedTokens_cons, List.nodup_append] at hnodup
    exact (hnodup.2.2 token (by simp [hi]) token (grant_known hg).1 rfl).elim

theorem Fresh.keeps (h : Fresh p (e :: log)) (hg : (ledger log).grant token = some g) :
    (ledger (e :: log)).grant token = some g ∧
      (token ∈ (ledger log).retired → token ∈ (ledger (e :: log)).retired) := by
  have hne : issued e ≠ some token := by
    intro hi
    rw [h.grant_issued hi] at hg
    cases hg
  obtain ⟨hgrant, hretired⟩ := Ledger.after_keeps hne
  exact ⟨hgrant.trans hg, hretired⟩

theorem Fresh.keeps_later (h : Fresh p (later ++ log)) (hg : (ledger log).grant token = some g) :
    (ledger (later ++ log)).grant token = some g := by
  induction later with
  | nil => exact hg
  | cons e later ih => exact (h.keeps (ih h.older)).1

theorem Fresh.started_notMem (h : Fresh p (e :: log)) (hs : started e = some family) :
    family ∉ (ledger log).ended := by
  intro hmem
  have hnodup := h.families_nodup
  rw [families_cons, List.nodup_append] at hnodup
  exact hnodup.2.2 family (by simp [hs]) family (ended_known hmem) rfl

theorem Transition.tracks (h : Transition p svc now s call s' reply)
    (hf : Fresh p (⟨now, s, call, reply⟩ :: log)) (ht : Tracks p svc (ledger log) s now) :
    Tracks p svc (ledger (⟨now, s, call, reply⟩ :: log)) s' now := by
  cases h with
  | loginNoFamily => exact ht
  | loginFull => exact ht.tidied (.inr rfl)
  | loginNoToken htidy => exact ht.tidied htidy
  | login htidy =>
    have hended := hf.started_notMem rfl
    exact (ht.tidied htidy).issue (hf.apart (.inr rfl)) (hf.grant_issued rfl) hended
  | refreshFull => exact ht.tidied (.inr rfl)
  | refreshUnknown htidy _ habsent => exact (ht.tidied htidy).use_absent habsent
  | refreshReused htidy _ habsent hspent =>
    have ht := ht.tidied htidy
    have ha := hf.apart (.inl rfl)
    obtain ⟨g, hg, rfl, -⟩ := ht.of_spent ha hspent
    exact (ht.use_absent habsent).endFamily hg
  | refreshRefused htidy => exact (ht.tidied htidy).use_take (hf.apart (.inl rfl))
  | refreshNoToken htidy _ hlive => exact (ht.tidied htidy).retire (hf.apart (.inl rfl)) hlive
  | refreshRotated htidy _ hlive =>
    have ht := ht.tidied htidy
    have ha := hf.apart (.inl rfl)
    obtain ⟨g, hg, rfl, -, hended⟩ := ht.of_live ha hlive
    simp only [ledger, Ledger.after, hg, Option.map_some]
    exact (ht.retire ha hlive).issue (hf.apart (.inr rfl)) (hf.grant_issued rfl) hended
  | revokeUnknown => exact ht
  | revoke hfamily =>
    obtain ⟨g, hg, rfl⟩ := ht.of_familyOf (hf.apart (.inl rfl)) hfamily
    exact ht.endFamily hg
  | verifyAccess => exact ht

/-- In a fresh run the store is in step with the ledger. -/
theorem tracks (h : Run (machine p svc) log s last) (hf : Fresh p log) :
    Tracks p svc (ledger log) s last := by
  refine h.invariant (fun log s last => Fresh p log → Tracks p svc (ledger log) s last) ?_ ?_ hf
  · rintro t _ rfl -
    exact ⟨.new t, fun _ _ hg => (nomatch hg), fun _ _ hg => (nomatch hg)⟩
  · intro log s last now call _ ih hle hf
    exact (step_transition p svc now s call).tracks hf ((ih hf.older).later hle)

end Ws2tcpRouter.Token
