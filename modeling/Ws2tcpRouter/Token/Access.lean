import Ws2tcpRouter.Token.Service

/-!
# Access tokens

What `verify_access` makes of a string that carries a signed payload, and in
particular of one `mint_access` built. The string determines the family, the
expiry and the user it was built for.
-/

namespace Ws2tcpRouter.Token.TokenService

variable {p : Platform} {svc : TokenService}

/-- The family, the expiry and the user a payload carries. -/
def readPayload : Bytes → Option (UInt64 × UInt64 × Str)
  | [] => none
  | version :: rest =>
    if version ≠ accessTokenVersion || rest.length < 16 then none
    else (Text.fromUtf8 (rest.drop 16)).map fun user =>
      (Text.fromBeBytes (rest.take 8), Text.fromBeBytes ((rest.drop 8).take 8), user)

private theorem split_fields {a b : Bytes} (ha : a.length = 8) (hb : b.length = 8) (c : Bytes) :
    (a ++ b ++ c).take 8 = a ∧ ((a ++ b ++ c).drop 8).take 8 = b ∧ (a ++ b ++ c).drop 16 = c := by
  refine ⟨?_, ?_, ?_⟩
  · rw [List.append_assoc, List.take_left' ha]
  · rw [List.append_assoc, List.drop_left' ha, List.take_left' hb]
  · exact List.drop_left' (by rw [List.length_append, ha, hb])

@[simp] theorem readPayload_accessPayload (family expires : UInt64) (user : Str) :
    readPayload (accessPayload family expires user) = some (family, expires, user) := by
  obtain ⟨hfamily, hexpires, huser⟩ := split_fields (Text.length_toBeBytes family)
    (Text.length_toBeBytes expires) (Text.utf8 user)
  have hlen : ¬ (Text.toBeBytes family ++ Text.toBeBytes expires ++ Text.utf8 user).length < 16 := by
    simp only [List.length_append, Text.length_toBeBytes]
    omega
  simp only [readPayload, accessPayload, hfamily, hexpires, huser, hlen]
  simp

/-- The payload of a string with a valid tag. -/
def openToken (p : Platform) (svc : TokenService) (token : Str) : Option Bytes :=
  (Text.splitOnce '.' token).bind fun (payload, tag) =>
    (p.urlSafe.decode payload).bind fun payload =>
      (p.urlSafe.decode tag).bind fun tag =>
        if p.hmacVerify svc.key payload tag then some payload else none

/-- `verify_access` in two parts: what the string carries, and whether that
still counts. -/
theorem verifyAccess_eq (p : Platform) (svc : TokenService) (s : State) (now : Instant)
    (token : Str) :
    svc.verifyAccess p s now token =
      ((openToken p svc token).bind readPayload).bind fun (family, expires, user) =>
        if p.unixNow now < expires.toNat ∧ family ∉ s.revoked then some user else none := by
  unfold verifyAccess openToken
  cases Text.splitOnce '.' token with
  | none => rfl
  | some parts =>
    obtain ⟨payload, tag⟩ := parts
    simp only [Option.bind_eq_bind, Option.bind_some]
    cases p.urlSafe.decode payload with
    | none => rfl
    | some payload =>
      simp only [Option.bind_some]
      cases p.urlSafe.decode tag with
      | none => rfl
      | some tag =>
        simp only [Option.bind_some]
        cases p.hmacVerify svc.key payload tag with
        | false => rfl
        | true =>
          cases payload with
          | nil => rfl
          | cons version rest =>
            simp only [Bool.not_true, Bool.false_eq_true, if_false, if_true, Option.bind_some,
              readPayload]
            cases hbad : (version ≠ accessTokenVersion || rest.length < 16) with
            | true => simp only [if_true]; rfl
            | false =>
              simp only [Bool.false_eq_true, if_false]
              cases Text.fromUtf8 (rest.drop 16) with
              | none => rfl
              | some user =>
                simp only [Option.bind_some, Option.map_some, ge_iff_le]
                by_cases hold : (Text.fromBeBytes ((rest.drop 8).take 8)).toNat ≤ p.unixNow now
                · simp [hold, Nat.not_lt.mpr hold]
                · simp only [hold, if_false, Nat.lt_of_not_le hold, true_and]
                  by_cases hrev : Text.fromBeBytes (rest.take 8) ∈ s.revoked <;> simp [hrev]

theorem openToken_signed (hl : p.urlSafe.Lawful) (payload : Bytes) :
    openToken p svc (svc.signed p payload) =
      if p.hmacVerify svc.key payload (p.hmacSign svc.key payload) then some payload else none := by
  simp [openToken, signed, Text.splitOnce_append (hl.dot_notMem payload), hl.decode_encode]

theorem signed_inj (hl : p.urlSafe.Lawful) (h : svc.signed p a = svc.signed p b) : a = b := by
  have ha := Text.splitOnce_append (hl.dot_notMem a) (p.urlSafe.encode (p.hmacSign svc.key a))
  have hb := Text.splitOnce_append (hl.dot_notMem b) (p.urlSafe.encode (p.hmacSign svc.key b))
  unfold signed at h
  rw [h, hb] at ha
  exact hl.encode_inj (Prod.mk.inj (Option.some.inj ha)).1.symm

/-- An access token names its family. -/
theorem mintAccess_inj (hl : p.urlSafe.Lawful)
    (h : svc.mintAccess p t family user = svc.mintAccess p t' family' user') :
    family = family' ∧ svc.accessExpires p t = svc.accessExpires p t' ∧ user = user' := by
  have hp := congrArg readPayload (signed_inj hl h)
  simpa using hp

theorem verifyAccess_mintAccess (hl : p.urlSafe.Lawful) (s : State) (now t : Instant)
    (family : UInt64) (user : Str) :
    svc.verifyAccess p s now (svc.mintAccess p t family user) =
      if p.hmacVerify svc.key (accessPayload family (svc.accessExpires p t) user)
          (p.hmacSign svc.key (accessPayload family (svc.accessExpires p t) user)) ∧
        p.unixNow now < (svc.accessExpires p t).toNat ∧ family ∉ s.revoked
      then some user else none := by
  rw [verifyAccess_eq, mintAccess, openToken_signed hl]
  cases p.hmacVerify svc.key (accessPayload family (svc.accessExpires p t) user)
    (p.hmacSign svc.key (accessPayload family (svc.accessExpires p t) user)) <;> simp

theorem verifyAccess_mint_none (hl : p.urlSafe.Lawful) {s : State} {now t : Instant}
    (h : (svc.accessExpires p t).toNat ≤ p.unixNow now ∨ family ∈ s.revoked) (user : Str) :
    svc.verifyAccess p s now (svc.mintAccess p t family user) = none := by
  rw [verifyAccess_mintAccess hl, if_neg]
  rintro ⟨-, hlt, hnot⟩
  obtain hle | hmem := h
  · omega
  · exact hnot hmem

theorem accessExpires_le (p : Platform) (svc : TokenService) (t : Instant) :
    (svc.accessExpires p t).toNat ≤ p.unixNow t + asSecs svc.accessTtl := by
  rw [accessExpires, UInt64.toNat_ofNat']
  exact Nat.mod_le _ _

/-- An access token is past its expiry once its lifetime has gone by. -/
theorem accessExpires_le_unixNow (hc : p.ClocksTogether) (h : t + svc.accessTtl ≤ now) :
    (svc.accessExpires p t).toNat ≤ p.unixNow now :=
  (accessExpires_le p svc t).trans ((hc.unixNow_add t svc.accessTtl).trans (hc.unixNow_mono h))

end Ws2tcpRouter.Token.TokenService
