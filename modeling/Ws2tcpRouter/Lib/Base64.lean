import Ws2tcpRouter.Lib.Text
import Mathlib.Data.List.Nodup

/-!
# Base64

The encoding of RFC 4648 over any alphabet of 64 digits, with or without
padding. The decoder is strict: it accepts exactly what the encoder writes,
so neither stray bits nor misplaced padding get through.
-/

namespace Base64

/-- 64 digits, each recognised, and none of them the padding character. -/
structure Alphabet where
  digits : List Char
  length : digits.length = 64
  nodup : digits.Nodup
  pad_notMem : '=' ∉ digits

namespace Alphabet

variable (a : Alphabet)

def digit (n : Nat) : Char := a.digits[n]?.getD '='

def value (c : Char) : Option Nat := if c ∈ a.digits then some (a.digits.idxOf c) else none

theorem digit_mem (h : n < 64) : a.digit n ∈ a.digits := by
  have hn : n < a.digits.length := a.length.symm ▸ h
  rw [digit, List.getElem?_eq_getElem hn]
  exact List.getElem_mem hn

theorem value_digit (h : n < 64) : a.value (a.digit n) = some n := by
  have hn : n < a.digits.length := a.length.symm ▸ h
  rw [value, if_pos (a.digit_mem h), digit, List.getElem?_eq_getElem hn, Option.getD_some,
    a.nodup.idxOf_getElem n hn]

end Alphabet

variable (a : Alphabet)

def digits : Bytes → Str
  | [] => []
  | [x] => [a.digit (x.toNat / 4), a.digit (x.toNat % 4 * 16)]
  | [x, y] =>
    [a.digit (x.toNat / 4), a.digit (x.toNat % 4 * 16 + y.toNat / 16), a.digit (y.toNat % 16 * 4)]
  | x :: y :: z :: rest =>
    a.digit (x.toNat / 4) :: a.digit (x.toNat % 4 * 16 + y.toNat / 16) ::
      a.digit (y.toNat % 16 * 4 + z.toNat / 64) :: a.digit (z.toNat % 64) :: digits rest

def padding (bytes : Bytes) : Str := List.replicate ((3 - bytes.length % 3) % 3) '='

def encode (pad : Bool) (bytes : Bytes) : Str :=
  digits a bytes ++ if pad then padding bytes else []

/-- The bytes of digits, whatever the bits left over. -/
def undigits : Str → Option Bytes
  | [] => some []
  | [_] => none
  | [c, d] => do
    let x ← a.value c
    let y ← a.value d
    some [.ofNat (x * 4 + y / 16)]
  | [c, d, e] => do
    let x ← a.value c
    let y ← a.value d
    let z ← a.value e
    some [.ofNat (x * 4 + y / 16), .ofNat (y % 16 * 16 + z / 4)]
  | c :: d :: e :: f :: rest => do
    let x ← a.value c
    let y ← a.value d
    let z ← a.value e
    let w ← a.value f
    let bytes ← undigits rest
    some (.ofNat (x * 4 + y / 16) :: .ofNat (y % 16 * 16 + z / 4) :: .ofNat (z % 4 * 64 + w) ::
      bytes)

def decode (pad : Bool) (s : Str) : Option Bytes :=
  (undigits a (s.filter (· ≠ '='))).filter fun bytes => encode a pad bytes = s

theorem ofNat_toNat (x : UInt8) (h : n = x.toNat) : UInt8.ofNat n = x := by
  rw [h, UInt8.ofNat_toNat]

theorem undigits_digits (bytes : Bytes) : undigits a (digits a bytes) = some bytes := by
  induction bytes using digits.induct with
  | case1 => rfl
  | case2 x =>
    have hx := x.toNat_lt
    simp only [digits, undigits, a.value_digit (show x.toNat / 4 < 64 by omega),
      a.value_digit (show x.toNat % 4 * 16 < 64 by omega), Option.bind_eq_bind, Option.bind_some]
    rw [ofNat_toNat x (by omega)]
  | case3 x y =>
    have hx := x.toNat_lt
    have hy := y.toNat_lt
    simp only [digits, undigits, a.value_digit (show x.toNat / 4 < 64 by omega),
      a.value_digit (show x.toNat % 4 * 16 + y.toNat / 16 < 64 by omega),
      a.value_digit (show y.toNat % 16 * 4 < 64 by omega), Option.bind_eq_bind, Option.bind_some]
    rw [ofNat_toNat x (by omega), ofNat_toNat y (by omega)]
  | case4 x y z rest ih =>
    have hx := x.toNat_lt
    have hy := y.toNat_lt
    have hz := z.toNat_lt
    simp only [digits, undigits, a.value_digit (show x.toNat / 4 < 64 by omega),
      a.value_digit (show x.toNat % 4 * 16 + y.toNat / 16 < 64 by omega),
      a.value_digit (show y.toNat % 16 * 4 + z.toNat / 64 < 64 by omega),
      a.value_digit (show z.toNat % 64 < 64 by omega), ih, Option.bind_eq_bind, Option.bind_some]
    rw [ofNat_toNat x (by omega), ofNat_toNat y (by omega), ofNat_toNat z (by omega)]

theorem digits_mem (bytes : Bytes) : ∀ c ∈ digits a bytes, c ∈ a.digits := by
  induction bytes using digits.induct with
  | case1 => simp [digits]
  | case2 x =>
    have hx := x.toNat_lt
    simp only [digits, List.forall_mem_cons]
    exact ⟨a.digit_mem (by omega), a.digit_mem (by omega), by simp⟩
  | case3 x y =>
    have hx := x.toNat_lt
    have hy := y.toNat_lt
    simp only [digits, List.forall_mem_cons]
    exact ⟨a.digit_mem (by omega), a.digit_mem (by omega), a.digit_mem (by omega), by simp⟩
  | case4 x y z rest ih =>
    have hx := x.toNat_lt
    have hy := y.toNat_lt
    have hz := z.toNat_lt
    simp only [digits, List.forall_mem_cons]
    exact ⟨a.digit_mem (by omega), a.digit_mem (by omega), a.digit_mem (by omega),
      a.digit_mem (by omega), ih⟩

theorem mem_encode (pad : Bool) (h : c ∈ encode a pad bytes) : c ∈ a.digits ∨ c = '=' := by
  rcases List.mem_append.mp h with h | h
  · exact .inl (digits_mem a bytes c h)
  · cases pad
    · cases h
    · exact .inr (List.eq_of_mem_replicate h)

theorem filter_encode (pad : Bool) (bytes : Bytes) :
    (encode a pad bytes).filter (· ≠ '=') = digits a bytes := by
  have hdigits : (digits a bytes).filter (· ≠ '=') = digits a bytes := by
    rw [List.filter_eq_self]
    intro c hc
    have hne : c ≠ '=' := fun heq => a.pad_notMem (heq ▸ digits_mem a bytes c hc)
    simpa using hne
  have hpadding : (if pad then padding bytes else []).filter (· ≠ '=') = [] := by
    cases pad <;> simp [padding]
  rw [encode, List.filter_append, hdigits, hpadding, List.append_nil]

@[simp] theorem decode_encode (pad : Bool) (bytes : Bytes) :
    decode a pad (encode a pad bytes) = some bytes := by
  rw [decode, filter_encode, undigits_digits]
  simp

/-- The decoder accepts exactly what the encoder writes. -/
theorem decode_eq_some {pad : Bool} : decode a pad s = some bytes ↔ s = encode a pad bytes := by
  constructor
  · intro h
    obtain ⟨-, heq⟩ := Option.filter_eq_some_iff.mp h
    exact (of_decide_eq_true heq).symm
  · rintro rfl
    exact decode_encode a pad bytes

/-- The alphabet of RFC 4648 §4. -/
def standard : Alphabet where
  digits := "ABCDEFGHIJKLMNOPQRSTUVWXYZabcdefghijklmnopqrstuvwxyz0123456789+/".toList
  length := by decide +kernel
  nodup := by decide +kernel
  pad_notMem := by decide +kernel

/-- The alphabet of RFC 4648 §5. -/
def urlSafe : Alphabet where
  digits := "ABCDEFGHIJKLMNOPQRSTUVWXYZabcdefghijklmnopqrstuvwxyz0123456789-_".toList
  length := by decide +kernel
  nodup := by decide +kernel
  pad_notMem := by decide +kernel

end Base64
