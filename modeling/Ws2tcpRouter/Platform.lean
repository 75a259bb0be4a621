import Ws2tcpRouter.Lib.Text

/-!
# What the router runs on

The clocks of the standard library, and what the code calls in the `ring` and
`base64` crates. The crates are parameters: nothing is assumed of them beyond
the laws stated here, and each result names the ones it uses.
-/

namespace Ws2tcpRouter

/-- A reading of the monotonic clock, in nanoseconds. -/
abbrev Instant := Nat
abbrev Duration := Nat

def nanosPerSec : Nat := 1000000000

def fromSecs (secs : Nat) : Duration := secs * nanosPerSec
def asSecs (d : Duration) : Nat := d / nanosPerSec

theorem asSecs_add_le (a b : Duration) : asSecs a + asSecs b ≤ asSecs (a + b) := by
  simp only [asSecs, nanosPerSec]
  omega

/-- A block of `n` bytes: `[u8; n]`. -/
abbrev Block (n : Nat) := { bytes : Bytes // bytes.length = n }

/-- `digest::SHA256_OUTPUT_LEN` bytes. -/
abbrev Hash := Block 32

structure Engine where
  encode : Bytes → Str
  decode : Str → Option Bytes

/-- The characters of the two base64 alphabets and of the padding. -/
def base64Char (c : Char) : Bool := c.isAlphanum || "+/-_=".toList.contains c

/-- What `base64` documents of its engines. -/
structure Engine.Lawful (e : Engine) : Prop where
  decode_encode : ∀ bytes, e.decode (e.encode bytes) = some bytes
  encode_alphabet : ∀ bytes, ∀ c ∈ e.encode bytes, base64Char c = true
  decode_alphabet : ∀ s bytes, e.decode s = some bytes → ∀ c ∈ s, base64Char c = true

structure Platform where
  /-- `digest::digest(&SHA256, _)` -/
  sha256 : Bytes → Hash
  /-- `hmac::sign(&Key::new(HMAC_SHA256, key), _)` -/
  hmacSign : Bytes → Bytes → Bytes
  hmacVerify : Bytes → Bytes → Bytes → Bool
  /-- `URL_SAFE_NO_PAD` -/
  urlSafe : Engine
  /-- `STANDARD` -/
  standard : Engine
  /-- `SystemTime::now()` in nanoseconds since `UNIX_EPOCH`, when the monotonic
  clock reads the given instant. -/
  systemTime : Instant → Int

/-- `SystemTime::duration_since(UNIX_EPOCH)`: an error before the epoch. -/
def durationSinceEpoch (t : Int) : Option Duration := if 0 ≤ t then some t.toNat else none

def Platform.unixNow (p : Platform) (now : Instant) : Nat :=
  (durationSinceEpoch (p.systemTime now)).elim 0 asSecs

/-- The two clocks advance together, and the wall clock is past the epoch. -/
structure Platform.ClocksTogether (p : Platform) : Prop where
  past_epoch : ∀ t, 0 ≤ p.systemTime t
  advance : ∀ t d : Nat, p.systemTime (t + d) = p.systemTime t + d

theorem Platform.ClocksTogether.unixNow_add {p : Platform} (hc : p.ClocksTogether)
    (t : Instant) (d : Duration) : p.unixNow t + asSecs d ≤ p.unixNow (t + d) := by
  have ht := hc.past_epoch t
  have htd := hc.past_epoch (t + d)
  simp only [Platform.unixNow, durationSinceEpoch, ht, htd, if_true, Option.elim_some]
  rw [hc.advance, Int.toNat_add ht (Int.natCast_nonneg d), Int.toNat_natCast]
  exact asSecs_add_le _ _

theorem Platform.ClocksTogether.unixNow_mono {p : Platform} (hc : p.ClocksTogether)
    (h : t ≤ t') : p.unixNow t ≤ p.unixNow t' := by
  obtain ⟨d, rfl⟩ := Nat.exists_eq_add_of_le h
  exact (Nat.le_add_right _ _).trans (hc.unixNow_add t d)

theorem Engine.Lawful.dot_notMem {e : Engine} (h : e.Lawful) (bytes : Bytes) :
    '.' ∉ e.encode bytes := by
  intro hm
  have := h.encode_alphabet bytes _ hm
  exact absurd this (by decide)

theorem Engine.Lawful.encode_inj {e : Engine} (h : e.Lawful) (heq : e.encode a = e.encode b) :
    a = b :=
  Option.some.inj <| by rw [← h.decode_encode a, heq, h.decode_encode]

end Ws2tcpRouter
