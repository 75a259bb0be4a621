import Ws2tcpRouter.Lib.Base64
import Ws2tcpRouter.Lib.Sha256
import Ws2tcpRouter.Platform

/-!
# What the crates compute

A platform that can be evaluated: the two base64 engines, SHA-256 and
HMAC-SHA256 themselves, and a wall clock that has advanced with the monotonic
one since a given epoch time. The laws of `Platform` hold of it.
-/

namespace Ws2tcpRouter

def Engine.base64 (a : Base64.Alphabet) (pad : Bool) : Engine where
  encode := Base64.encode a pad
  decode := Base64.decode a pad

theorem Engine.base64_lawful (a : Base64.Alphabet) (pad : Bool)
    (h : a.digits.all base64Char) : (Engine.base64 a pad).Lawful := by
  have halphabet : ∀ bytes, ∀ c ∈ Base64.encode a pad bytes, base64Char c = true := by
    intro bytes c hc
    rcases Base64.mem_encode a pad hc with hc | rfl
    · exact List.all_eq_true.mp h c hc
    · decide
  refine ⟨Base64.decode_encode a pad, halphabet, ?_⟩
  intro s bytes hs
  rw [(Base64.decode_eq_some a).mp hs]
  exact halphabet bytes

/-- The platform at a wall clock that read `epoch` seconds when the monotonic
clock read zero. -/
def Platform.crates (epoch : Nat) : Platform where
  sha256 bytes := ⟨Sha256.digest bytes, Sha256.length_digest bytes⟩
  hmacSign := Sha256.hmac
  hmacVerify key payload tag := Sha256.hmac key payload == tag
  urlSafe := .base64 Base64.urlSafe false
  standard := .base64 Base64.standard true
  systemTime now := fromSecs epoch + now

/-- The crates, but for a hash that gives the bytes a token was made of, and so
tells all tokens apart. -/
def Platform.unhashed (epoch : Nat) : Platform where
  __ := Platform.crates epoch
  sha256 bytes :=
    match (Text.fromUtf8 bytes).bind (Base64.decode Base64.urlSafe false) with
    | some drawn => if h : drawn.length = 32 then ⟨drawn, h⟩ else ⟨_, Sha256.length_digest bytes⟩
    | none => ⟨_, Sha256.length_digest bytes⟩

theorem Platform.unhashed_sha256 (epoch : Nat) (drawn : Block 32) :
    (Platform.unhashed epoch).sha256
      (Text.utf8 ((Platform.unhashed epoch).urlSafe.encode drawn.val)) = drawn := by
  simp [Platform.unhashed, Platform.crates, Engine.base64, drawn.property]

theorem Platform.crates_urlSafe (epoch : Nat) : (Platform.crates epoch).urlSafe.Lawful :=
  Engine.base64_lawful _ _ (by decide +kernel)

theorem Platform.crates_standard (epoch : Nat) : (Platform.crates epoch).standard.Lawful :=
  Engine.base64_lawful _ _ (by decide +kernel)

theorem Platform.crates_clocksTogether (epoch : Nat) : (Platform.crates epoch).ClocksTogether := by
  refine ⟨?_, ?_⟩
  · intro t
    simp only [Platform.crates]
    lia
  · intro t d
    simp only [Platform.crates]
    lia

end Ws2tcpRouter
