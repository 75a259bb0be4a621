import Ws2tcpRouter.ClientAddr
import Ws2tcpRouter.Lib.Mask

/-!
# Trusted ranges

The mask of `IpRange::contains` against what a CIDR block means: the address is
of the block's family and has its leading bits.
-/

namespace Ws2tcpRouter

variable {range : IpRange} {addr ip : IpAddr}

namespace IpAddr

def SameFamily : IpAddr → IpAddr → Prop
  | .v4 _, .v4 _ => True
  | .v6 _, .v6 _ => True
  | _, _ => False

/-- The addresses are of one family and agree on their `n` leading bits. -/
def AgreesOn (n : Nat) : IpAddr → IpAddr → Prop
  | .v4 a, .v4 b => Mask.Agree n a b
  | .v6 a, .v6 b => Mask.Agree n a b
  | _, _ => False

theorem AgreesOn.refl (n : Nat) (addr : IpAddr) : addr.AgreesOn n addr := by
  cases addr with
  | v4 a => exact Mask.Agree.refl n a
  | v6 a => exact Mask.Agree.refl n a

theorem AgreesOn.symm (h : AgreesOn n a b) : AgreesOn n b a := by
  cases a <;> cases b
  · exact Mask.Agree.symm h
  · exact h
  · exact h
  · exact Mask.Agree.symm h

theorem AgreesOn.trans (h : AgreesOn n a b) (h' : AgreesOn n b c) : AgreesOn n a c := by
  cases a <;> cases b <;> cases c <;> try contradiction
  · exact Mask.Agree.trans h h'
  · exact Mask.Agree.trans h h'

theorem agreesOn_zero : AgreesOn 0 addr ip ↔ addr.SameFamily ip := by
  cases addr <;> cases ip <;> simp [AgreesOn, SameFamily, Mask.agree_zero]

theorem agreesOn_bits : AgreesOn addr.bits addr ip ↔ ip = addr := by
  cases addr <;> cases ip <;> simp [AgreesOn, bits, Mask.agree_full, eq_comm]

end IpAddr

/-- The shift that has no result is the one of a block with no leading bits. -/
theorem checkedShl_mask (h : n ≤ w) :
    (checkedShl (BitVec.allOnes w) (w - n)).getD 0 = Mask.leading w n := by
  unfold checkedShl
  split
  next hlt => rfl
  next hge =>
    have hn : n = 0 := by omega
    rw [hn, Mask.leading_zero]
    rfl

namespace IpRange

theorem contains_iff : range.contains ip = true ↔
    range.addr.AgreesOn range.prefixLength ip.toCanonical := by
  obtain ⟨addr, n, hn⟩ := range
  cases addr with
  | v4 network =>
    have hmask := @checkedShl_mask n 32 hn
    cases h : ip.toCanonical with
    | v4 ip' =>
      simp only [contains, h, hmask, beq_iff_eq]
      exact @Mask.and_leading_eq_iff 32 n network ip' hn
    | v6 ip' => simp [contains, h, IpAddr.AgreesOn]
  | v6 network =>
    have hmask := @checkedShl_mask n 128 hn
    cases h : ip.toCanonical with
    | v4 ip' => simp [contains, h, IpAddr.AgreesOn]
    | v6 ip' =>
      simp only [contains, h, hmask, beq_iff_eq]
      exact @Mask.and_leading_eq_iff 128 n network ip' hn

/-- What is accepted is a canonical address, with the length behind the slash
or without one as long as the address. -/
theorem of_fromStr (h : fromStr input = .ok range) :
    range.addr.toCanonical = range.addr ∧
      ((Text.splitOnce '/' input = none ∧ IpAddr.parse (Text.trim input) = some range.addr ∧
          range.prefixLength = range.addr.bits) ∨
        ∃ addr length, Text.splitOnce '/' input = some (addr, length) ∧
          IpAddr.parse (Text.trim addr) = some range.addr ∧
          Text.parseUnsigned 255 (Text.trim length) = some range.prefixLength) := by
  unfold fromStr at h
  cases hsplit : Text.splitOnce '/' input with
  | none =>
    simp only [hsplit] at h
    split at h
    next => cases h
    next addr hparse =>
      split at h
      next => cases h
      next hcanonical =>
        cases h
        exact ⟨not_not.mp hcanonical, .inl ⟨rfl, hparse, rfl⟩⟩
  | some parts =>
    simp only [hsplit] at h
    split at h
    next => cases h
    next addr hparse =>
      split at h
      next => cases h
      next hcanonical =>
        split at h
        next => cases h
        next n hlength =>
          split at h
          next hn =>
            cases h
            exact ⟨not_not.mp hcanonical, .inr ⟨_, _, rfl, hparse, hlength⟩⟩
          next => cases h

/-- The shift amount in words, as the source computes it. -/
def shift (range : IpRange) : UInt32 :=
  UInt32.ofNat range.addr.bits - UInt32.ofNat range.prefixLength

theorem shift_add (range : IpRange) : range.shift.toNat + range.prefixLength = range.addr.bits := by
  have hle := range.le_bits
  have hbits : range.addr.bits ≤ 128 := by
    cases range.addr with
    | v4 _ => exact Nat.le_of_ble_eq_true rfl
    | v6 _ => exact Nat.le_refl _
  have hword : ∀ n ≤ 128, (UInt32.ofNat n).toNat = n := by
    intro n hn
    rw [UInt32.toNat_ofNat', Nat.mod_eq_of_lt (by omega)]
  have hbits' := hword _ hbits
  have hlength := hword _ (hle.trans hbits)
  rw [shift,
    UInt32.toNat_sub_of_le _ _ (by rw [UInt32.le_iff_toNat_le, hbits', hlength]; exact hle),
    hbits', hlength]
  exact Nat.sub_add_cancel hle

/-- A range that is accepted matches the addresses that, in canonical form, are
of its family and have its leading bits. A range of length 0 matches its family
and a range of full length its one address; bits behind the length make no
difference; and the difference that gives the shift is one of words. -/
theorem contains_spec (h : fromStr input = .ok range) :
    (∀ ip, range.contains ip = true ↔ range.addr.AgreesOn range.prefixLength ip.toCanonical) ∧
    (range.prefixLength = 0 →
      ∀ ip, range.contains ip = true ↔ range.addr.SameFamily ip.toCanonical) ∧
    (range.prefixLength = range.addr.bits →
      range.contains range.addr = true ∧
        ∀ ip, range.contains ip = true ↔ ip.toCanonical = range.addr) ∧
    (∀ other : IpRange, other.prefixLength = range.prefixLength →
      other.addr.AgreesOn range.prefixLength range.addr →
        ∀ ip, other.contains ip = range.contains ip) ∧
    range.shift.toNat + range.prefixLength = range.addr.bits := by
  refine ⟨fun ip => contains_iff, ?_, ?_, ?_, ?_⟩
  · intro hzero ip
    rw [contains_iff, hzero, IpAddr.agreesOn_zero]
  · intro hfull
    have hall : ∀ ip, range.contains ip = true ↔ ip.toCanonical = range.addr := by
      intro ip
      rw [contains_iff, hfull, IpAddr.agreesOn_bits]
    exact ⟨(hall _).mpr (of_fromStr h).1, hall⟩
  · intro other hlength hagree ip
    rw [Bool.eq_iff_iff, contains_iff, contains_iff, hlength]
    exact ⟨hagree.symm.trans, hagree.trans⟩
  · exact shift_add range

theorem contains_spec_slash8 : ∃ range, fromStr "10.1.2.3/8".toList = .ok range ∧
    (∀ ip, range.contains ip = true ↔ range.addr.AgreesOn 8 ip.toCanonical) ∧
    range.shift.toNat + 8 = 32 := by
  have h : fromStr "10.1.2.3/8".toList = .ok ⟨.v4 0x0a010203, 8, by decide⟩ := by decide +kernel
  exact ⟨_, h, (contains_spec h).1, (contains_spec h).2.2.2.2⟩

/-- A peer of a dual-stack listener matches an IPv4 range. -/
example : (fromStr "10.1.2.3/8".toList).map (fun range => range.contains (.v6 0xffff0aff0001)) =
    .ok true := by decide +kernel

end IpRange

/-- The sets of ranges, too, are read in canonical form. -/
theorem TrustedProxies.contains_iff {proxies : TrustedProxies} : proxies.contains ip = true ↔
    ∃ range ∈ proxies.ranges, range.addr.AgreesOn range.prefixLength ip.toCanonical := by
  simp [contains, IpRange.contains_iff]

end Ws2tcpRouter
