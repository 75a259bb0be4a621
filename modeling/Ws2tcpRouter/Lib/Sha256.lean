import Ws2tcpRouter.Lib.Text

/-!
# SHA-256 and HMAC

The hash function of FIPS 180-4 and the keyed tag of RFC 2104 over it, on
lists of bytes and by structural recursion, so that digests can be evaluated.
-/

namespace Sha256

def constants : List UInt32 := [
  0x428a2f98, 0x71374491, 0xb5c0fbcf, 0xe9b5dba5, 0x3956c25b, 0x59f111f1, 0x923f82a4, 0xab1c5ed5,
  0xd807aa98, 0x12835b01, 0x243185be, 0x550c7dc3, 0x72be5d74, 0x80deb1fe, 0x9bdc06a7, 0xc19bf174,
  0xe49b69c1, 0xefbe4786, 0x0fc19dc6, 0x240ca1cc, 0x2de92c6f, 0x4a7484aa, 0x5cb0a9dc, 0x76f988da,
  0x983e5152, 0xa831c66d, 0xb00327c8, 0xbf597fc7, 0xc6e00bf3, 0xd5a79147, 0x06ca6351, 0x14292967,
  0x27b70a85, 0x2e1b2138, 0x4d2c6dfc, 0x53380d13, 0x650a7354, 0x766a0abb, 0x81c2c92e, 0x92722c85,
  0xa2bfe8a1, 0xa81a664b, 0xc24b8b70, 0xc76c51a3, 0xd192e819, 0xd6990624, 0xf40e3585, 0x106aa070,
  0x19a4c116, 0x1e376c08, 0x2748774c, 0x34b0bcb5, 0x391c0cb3, 0x4ed8aa4a, 0x5b9cca4f, 0x682e6ff3,
  0x748f82ee, 0x78a5636f, 0x84c87814, 0x8cc70208, 0x90befffa, 0xa4506ceb, 0xbef9a3f7, 0xc67178f2]

structure Chain where
  a : UInt32
  b : UInt32
  c : UInt32
  d : UInt32
  e : UInt32
  f : UInt32
  g : UInt32
  h : UInt32

def initial : Chain where
  a := 0x6a09e667
  b := 0xbb67ae85
  c := 0x3c6ef372
  d := 0xa54ff53a
  e := 0x510e527f
  f := 0x9b05688c
  g := 0x1f83d9ab
  h := 0x5be0cd19

def rotr (x n : UInt32) : UInt32 := (x >>> n) ||| (x <<< (32 - n))

def round (s : Chain) (kw : UInt32) : Chain :=
  let sum₁ := rotr s.e 6 ^^^ rotr s.e 11 ^^^ rotr s.e 25
  let choice := (s.e &&& s.f) ^^^ (~~~s.e &&& s.g)
  let t₁ := s.h + sum₁ + choice + kw
  let sum₀ := rotr s.a 2 ^^^ rotr s.a 13 ^^^ rotr s.a 22
  let majority := (s.a &&& s.b) ^^^ (s.a &&& s.c) ^^^ (s.b &&& s.c)
  ⟨t₁ + (sum₀ + majority), s.a, s.b, s.c, s.d + t₁, s.e, s.f, s.g⟩

/-- `n` more words of the message schedule, newest first. -/
def extend : Nat → List UInt32 → List UInt32
  | 0, w => w
  | n + 1, w =>
    let word (i : Nat) : UInt32 := w[i]?.getD 0
    let sigma₀ := rotr (word 14) 7 ^^^ rotr (word 14) 18 ^^^ (word 14 >>> 3)
    let sigma₁ := rotr (word 1) 17 ^^^ rotr (word 1) 19 ^^^ (word 1 >>> 10)
    extend n ((word 15 + sigma₀ + word 6 + sigma₁) :: w)

def words : Bytes → List UInt32
  | a :: b :: c :: d :: rest =>
    (((a.toUInt32 * 256 + b.toUInt32) * 256 + c.toUInt32) * 256 + d.toUInt32) :: words rest
  | _ => []

def compress (s : Chain) (block : Bytes) : Chain :=
  let schedule := (extend 48 (words block).reverse).reverse
  let r := (List.zipWith (· + ·) constants schedule).foldl round s
  ⟨s.a + r.a, s.b + r.b, s.c + r.c, s.d + r.d, s.e + r.e, s.f + r.f, s.g + r.g, s.h + r.h⟩

/-- The last `k` bytes of a number, most significant first. -/
def bigEndian (n : Nat) : Nat → Bytes
  | 0 => []
  | k + 1 => bigEndian (n / 256) k ++ [UInt8.ofNat n]

def pad (message : Bytes) : Bytes :=
  message ++ 0x80 :: (List.replicate ((119 - message.length % 64) % 64) 0 ++
    bigEndian (8 * message.length) 8)

def absorb : Nat → Chain → Bytes → Chain
  | 0, s, _ => s
  | n + 1, s, bytes => absorb n (compress s (bytes.take 64)) (bytes.drop 64)

def digest (message : Bytes) : Bytes :=
  let bytes := pad message
  let s := absorb (bytes.length / 64) initial bytes
  [s.a, s.b, s.c, s.d, s.e, s.f, s.g, s.h].flatMap fun word => bigEndian word.toNat 4

theorem length_bigEndian (n k : Nat) : (bigEndian n k).length = k := by
  induction k generalizing n with
  | zero => rfl
  | succ k ih => simp [bigEndian, ih]

theorem length_digest (message : Bytes) : (digest message).length = 32 := by
  simp [digest, length_bigEndian]

example : digest (Text.utf8 "abc".toList) =
    bigEndian 0xba7816bf8f01cfea414140de5dae2223b00361a396177a9cb410ff61f20015ad 32 := by
  decide +kernel

-- ---------------------------------------------------------------------------
-- HMAC
-- ---------------------------------------------------------------------------

/-- The key, hashed if it is longer than a block, padded to one. -/
def blockKey (key : Bytes) : Bytes :=
  let key := if 64 < key.length then digest key else key
  key ++ List.replicate (64 - key.length) 0

def hmac (key message : Bytes) : Bytes :=
  let inner := digest ((blockKey key).map (· ^^^ 0x36) ++ message)
  digest ((blockKey key).map (· ^^^ 0x5c) ++ inner)

example : hmac (Text.utf8 "Jefe".toList) (Text.utf8 "what do ya want for nothing?".toList) =
    bigEndian 0x5bdcc146bf60754e6a042426089575c75a003f089d2739839dec58b964ec3843 32 := by
  decide +kernel

end Sha256
