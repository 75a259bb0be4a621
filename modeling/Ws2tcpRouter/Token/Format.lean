import Ws2tcpRouter.Token.Access
import Ws2tcpRouter.Token.Step

/-!
# The format of access tokens

Which strings `verify_access` reads at all: exactly those `mint_access` could
have built. The family, the expiry and the user are fields of the string.
-/

namespace Ws2tcpRouter

/-- The decoder accepts what the encoder writes and nothing else. -/
structure Engine.Exact (e : Engine) : Prop extends e.Lawful where
  exact : ∀ s bytes, e.decode s = some bytes → s = e.encode bytes

/-- A tag is accepted exactly if it is the payload's. -/
def Platform.HmacExact (p : Platform) : Prop :=
  ∀ key payload tag, p.hmacVerify key payload tag = true ↔ tag = p.hmacSign key payload

theorem Platform.crates_exact (epoch : Nat) : (Platform.crates epoch).urlSafe.Exact :=
  ⟨Platform.crates_urlSafe epoch, fun _ _ => (Base64.decode_eq_some Base64.urlSafe).mp⟩

theorem Platform.crates_hmacExact (epoch : Nat) : (Platform.crates epoch).HmacExact :=
  fun _ _ _ => beq_iff_eq.trans eq_comm

namespace Token.TokenService

variable {p : Platform} {svc : TokenService} {family expires : UInt64} {user token : Str}

theorem readPayload_eq_some :
    readPayload payload = some (family, expires, user) ↔
      payload = accessPayload family expires user := by
  constructor
  · intro h
    cases payload with
    | nil => cases h
    | cons version rest =>
      simp only [readPayload, Option.ite_none_left_eq_some, Bool.or_eq_true, decide_eq_true_eq,
        not_or, Decidable.not_not] at h
      obtain ⟨⟨rfl, hlen⟩, hfields⟩ := h
      obtain ⟨user', huser, heq⟩ := Option.map_eq_some_iff.mp hfields
      cases heq
      have hfamily : (rest.take 8).length = 8 := List.length_take_of_le (by omega)
      have hexpires : ((rest.drop 8).take 8).length = 8 :=
        List.length_take_of_le (by rw [List.length_drop]; omega)
      have hrest : rest.drop 16 = (rest.drop 8).drop 8 := by rw [List.drop_drop]
      rw [accessPayload, Text.toBeBytes_fromBeBytes hfamily, Text.toBeBytes_fromBeBytes hexpires,
        ← Text.fromUtf8_eq_some.mp huser, List.append_assoc, hrest, List.take_append_drop,
        List.take_append_drop]
  · rintro rfl
    exact readPayload_accessPayload family expires user

theorem openToken_eq_some (he : p.urlSafe.Exact) (hm : p.HmacExact) :
    openToken p svc token = some payload ↔ token = svc.signed p payload := by
  constructor
  · intro h
    obtain ⟨⟨encoded, tag⟩, hsplit, h⟩ := Option.bind_eq_some_iff.mp h
    obtain ⟨bytes, hbytes, h⟩ := Option.bind_eq_some_iff.mp h
    obtain ⟨tagBytes, htag, h⟩ := Option.bind_eq_some_iff.mp h
    obtain ⟨hverify, heq⟩ := Option.ite_none_right_eq_some.mp h
    cases heq
    rw [(Text.splitOnce_eq_some.mp hsplit).2, he.exact _ _ hbytes, he.exact _ _ htag,
      (hm _ _ _).mp hverify]
    rfl
  · rintro rfl
    rw [openToken_signed he.toLawful, if_pos ((hm _ _ _).mpr rfl)]

theorem verifyAccess_generated (hl : p.urlSafe.Lawful) (h : generateToken p draw = some token)
    (s : State) (now : Instant) : svc.verifyAccess p s now token = none := by
  obtain ⟨bytes, -, rfl⟩ := Option.map_eq_some_iff.mp h
  have hnone : Text.splitOnce '.' (p.urlSafe.encode bytes.val) = none := by
    cases hsplit : Text.splitOnce '.' (p.urlSafe.encode bytes.val) with
    | none => rfl
    | some parts =>
      have hmem : '.' ∈ p.urlSafe.encode bytes.val := by
        rw [(Text.splitOnce_eq_some.mp hsplit).2]
        exact List.mem_append_right _ List.mem_cons_self
      exact (hl.dot_notMem _ hmem).elim
  rw [verifyAccess_eq, openToken, hnone]
  rfl

/-- With nothing revoked, the strings accepted for a user are exactly those
minted for that user, in some family and with an expiry still to come; the
string determines all three. No refresh token is among them. -/
theorem access_format_exact (he : p.urlSafe.Exact) (hm : p.HmacExact) (svc : TokenService)
    {s : State} (hrevoked : s.revoked = ∅) (now : Instant) :
    (∀ token user, svc.verifyAccess p s now token = some user ↔
      ∃ family expires : UInt64, p.unixNow now < expires.toNat ∧
        token = svc.signed p (accessPayload family expires user)) ∧
    (∀ family expires user family' expires' user',
      svc.signed p (accessPayload family expires user) =
        svc.signed p (accessPayload family' expires' user') →
      family = family' ∧ expires = expires' ∧ user = user') ∧
    ∀ draw token, generateToken p draw = some token →
      ∀ s' now', svc.verifyAccess p s' now' token = none := by
  refine ⟨?_, ?_, fun draw token h s' now' => verifyAccess_generated he.toLawful h s' now'⟩
  · intro token user
    rw [verifyAccess_eq]
    constructor
    · intro h
      obtain ⟨⟨family, expires, user'⟩, hread, h⟩ := Option.bind_eq_some_iff.mp h
      obtain ⟨payload, hopen, hread⟩ := Option.bind_eq_some_iff.mp hread
      obtain ⟨⟨hlt, -⟩, heq⟩ := Option.ite_none_right_eq_some.mp h
      cases heq
      rw [readPayload_eq_some] at hread
      subst hread
      exact ⟨family, expires, hlt, (openToken_eq_some he hm).mp hopen⟩
    · rintro ⟨family, expires, hlt, rfl⟩
      have hnot : family ∉ s.revoked := by simp [hrevoked]
      rw [(openToken_eq_some he hm).mpr rfl, Option.bind_some, readPayload_accessPayload,
        Option.bind_some]
      exact if_pos ⟨hlt, hnot⟩
  · intro family expires user family' expires' user' h
    have hread := congrArg readPayload (signed_inj he.toLawful h)
    simpa using hread

/-- A user with a dot and beyond ASCII. -/
theorem access_format_exact_dotted :
    service.verifyAccess (.crates 0) (.new 0) 0
        (service.signed (.crates 0) (accessPayload 7 9 "j. dœ".toList)) =
      some "j. dœ".toList :=
  ((access_format_exact (Platform.crates_exact 0) (Platform.crates_hmacExact 0) service
    (show (State.new 0).revoked = ∅ from rfl) 0).1 _ _).mpr ⟨7, 9, by decide, rfl⟩

end Token.TokenService

end Ws2tcpRouter
