import CimdProxy.Text

/-! # SHA-256, CRC-32 and base64url

`hashlib.sha256`, `zlib.crc32` and `base64.urlsafe_b64encode` without padding, as functions on
byte strings.  Words are natural numbers below `2 ^ 32`, and every sum is taken modulo `2 ^ 32`, so
that the functions run. -/

namespace Py

/-- The last `k` bytes of a number, big-endian. -/
def bigEndian : ℕ → ℕ → Bytes
  | 0, _ => []
  | k + 1, n => bigEndian k (n / 256) ++ [UInt8.ofNat (n % 256)]

theorem length_bigEndian (k n : ℕ) : (bigEndian k n).length = k := by
  induction k generalizing n with
  | zero => rfl
  | succ k ih => simp [bigEndian, ih]

/-! ### SHA-256 -/

namespace Sha256

def word : ℕ := 4294967296

/-- Rotation of a word to the right by `k` places. -/
def rotr (k x : ℕ) : ℕ := (x >>> k) ||| ((x <<< (32 - k)) % word)

def smallSigma0 (x : ℕ) : ℕ := rotr 7 x ^^^ rotr 18 x ^^^ (x >>> 3)

def smallSigma1 (x : ℕ) : ℕ := rotr 17 x ^^^ rotr 19 x ^^^ (x >>> 10)

def bigSigma0 (x : ℕ) : ℕ := rotr 2 x ^^^ rotr 13 x ^^^ rotr 22 x

def bigSigma1 (x : ℕ) : ℕ := rotr 6 x ^^^ rotr 11 x ^^^ rotr 25 x

def choose (x y z : ℕ) : ℕ := (x &&& y) ^^^ ((word - 1 - x) &&& z)

def majority (x y z : ℕ) : ℕ := (x &&& y) ^^^ (x &&& z) ^^^ (y &&& z)

/-- The round constants. -/
def rounds : List ℕ :=
  [0x428a2f98, 0x71374491, 0xb5c0fbcf, 0xe9b5dba5, 0x3956c25b, 0x59f111f1, 0x923f82a4, 0xab1c5ed5,
   0xd807aa98, 0x12835b01, 0x243185be, 0x550c7dc3, 0x72be5d74, 0x80deb1fe, 0x9bdc06a7, 0xc19bf174,
   0xe49b69c1, 0xefbe4786, 0x0fc19dc6, 0x240ca1cc, 0x2de92c6f, 0x4a7484aa, 0x5cb0a9dc, 0x76f988da,
   0x983e5152, 0xa831c66d, 0xb00327c8, 0xbf597fc7, 0xc6e00bf3, 0xd5a79147, 0x06ca6351, 0x14292967,
   0x27b70a85, 0x2e1b2138, 0x4d2c6dfc, 0x53380d13, 0x650a7354, 0x766a0abb, 0x81c2c92e, 0x92722c85,
   0xa2bfe8a1, 0xa81a664b, 0xc24b8b70, 0xc76c51a3, 0xd192e819, 0xd6990624, 0xf40e3585, 0x106aa070,
   0x19a4c116, 0x1e376c08, 0x2748774c, 0x34b0bcb5, 0x391c0cb3, 0x4ed8aa4a, 0x5b9cca4f, 0x682e6ff3,
   0x748f82ee, 0x78a5636f, 0x84c87814, 0x8cc70208, 0x90befffa, 0xa4506ceb, 0xbef9a3f7, 0xc67178f2]

/-- The eight words of the chaining value. -/
structure State where
  a : ℕ
  b : ℕ
  c : ℕ
  d : ℕ
  e : ℕ
  f : ℕ
  g : ℕ
  h : ℕ

def initial : State :=
  ⟨0x6a09e667, 0xbb67ae85, 0x3c6ef372, 0xa54ff53a, 0x510e527f, 0x9b05688c, 0x1f83d9ab, 0x5be0cd19⟩

def round (s : State) (kw : ℕ × ℕ) : State :=
  let t1 := (s.h + bigSigma1 s.e + choose s.e s.f s.g + kw.1 + kw.2) % word
  let t2 := (bigSigma0 s.a + majority s.a s.b s.c) % word
  ⟨(t1 + t2) % word, s.a, s.b, s.c, (s.d + t1) % word, s.e, s.f, s.g⟩

/-- The message schedule, newest word first, extended by `n` words. -/
def extend : ℕ → List ℕ → List ℕ
  | 0, w => w
  | n + 1, w =>
      extend n ((smallSigma1 (w.getD 1 0) + w.getD 6 0 + smallSigma0 (w.getD 14 0) + w.getD 15 0)
        % word :: w)

def compress (s : State) (block : List ℕ) : State :=
  let r := (rounds.zip (extend 48 block.reverse).reverse).foldl round s
  ⟨(s.a + r.a) % word, (s.b + r.b) % word, (s.c + r.c) % word, (s.d + r.d) % word,
    (s.e + r.e) % word, (s.f + r.f) % word, (s.g + r.g) % word, (s.h + r.h) % word⟩

def pad (m : Bytes) : Bytes :=
  m ++ [0x80] ++ List.replicate ((119 - m.length % 64) % 64) 0 ++ bigEndian 8 (8 * m.length)

/-- Bytes to big-endian words. -/
def words : Bytes → List ℕ
  | a :: b :: c :: d :: rest =>
      (((a.toNat * 256 + b.toNat) * 256 + c.toNat) * 256 + d.toNat) :: words rest
  | _ => []

/-- Compress sixteen words at a time; the first argument bounds the number of blocks. -/
def blocks : ℕ → State → List ℕ → State
  | 0, s, _ => s
  | _ + 1, s, [] => s
  | n + 1, s, ws => blocks n (compress s (ws.take 16)) (ws.drop 16)

def digest (s : State) : Bytes := [s.a, s.b, s.c, s.d, s.e, s.f, s.g, s.h].flatMap (bigEndian 4)

end Sha256

/-- `hashlib.sha256(m).digest()`. -/
def sha256 (m : Bytes) : Bytes :=
  let ws := Sha256.words (Sha256.pad m)
  Sha256.digest (Sha256.blocks ws.length Sha256.initial ws)

theorem Sha256.length_digest (s : Sha256.State) : (Sha256.digest s).length = 32 := by
  simp [Sha256.digest, length_bigEndian]

theorem sha256_length (m : Bytes) : (sha256 m).length = 32 := by
  unfold sha256
  exact Sha256.length_digest _

/-! ### CRC-32 -/

def crcShift (crc : ℕ) : ℕ := if crc % 2 = 1 then (crc >>> 1) ^^^ 0xEDB88320 else crc >>> 1

def crcByte (crc : ℕ) (b : UInt8) : ℕ := crcShift^[8] (crc ^^^ b.toNat)

/-- `zlib.crc32(m)`. -/
def crc32 (m : Bytes) : ℕ := m.foldl crcByte 0xFFFFFFFF ^^^ 0xFFFFFFFF

/-! ### base64url -/

def base64Alphabet : Str := "ABCDEFGHIJKLMNOPQRSTUVWXYZabcdefghijklmnopqrstuvwxyz0123456789-_"

def base64Char (n : ℕ) : Char := base64Alphabet.getD (n % 64) 'A'

/-- `base64.urlsafe_b64encode(m).rstrip(b"=")`. -/
def base64Url : Bytes → Str
  | [] => []
  | [a] => [base64Char (a.toNat / 4), base64Char (a.toNat % 4 * 16)]
  | [a, b] =>
      [base64Char (a.toNat / 4), base64Char (a.toNat % 4 * 16 + b.toNat / 16),
        base64Char (b.toNat % 16 * 4)]
  | a :: b :: c :: rest =>
      base64Char (a.toNat / 4) :: base64Char (a.toNat % 4 * 16 + b.toNat / 16) ::
        base64Char (b.toNat % 16 * 4 + c.toNat / 64) :: base64Char (c.toNat % 64) :: base64Url rest

theorem base64Char_ascii (n : ℕ) : isAsciiChar (base64Char n) = true := by
  have h : ∀ k, k < 64 → isAsciiChar (base64Alphabet.getD k 'A') = true := by
    decide +kernel
  exact h (n % 64) (Nat.mod_lt _ (by norm_num))

theorem base64Url_ascii : ∀ m : Bytes, isAscii (base64Url m) = true
  | [] => rfl
  | [a] => by simp [base64Url, isAscii, base64Char_ascii]
  | [a, b] => by simp [base64Url, isAscii, base64Char_ascii]
  | a :: b :: c :: rest => by
      have ih := base64Url_ascii rest
      simp only [isAscii] at ih
      simp [base64Url, isAscii, base64Char_ascii, ih]

end Py
