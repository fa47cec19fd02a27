import CimdProxy.Surroundings

/-! # Signed assertions and their key set

`assertion.py`: RSA keys read from PEM, the signer with its active key, the published key set, and
the assertion itself.  `AssertionSigner` carries what `__post_init__` checks: the active key is one
of the keys. -/

namespace CimdProxy

open Py Effects

variable [Platform]

def maxAssertionLifetime : ℤ := 60

structure SigningKey where
  kid : Str
  privateKey : Platform.PrivateKey

/-- `SigningKey.from_pem`. -/
def SigningKey.fromPem (kid : Str) (pem : Bytes) : Except Exc SigningKey :=
  match Platform.loadPem pem with
  | none => .error (.signingKey
      ("signing key " ++ pyRepr kid ++ " is not an unencrypted PEM private key"))
  | some none => .error (.signingKey ("signing key " ++ pyRepr kid ++ " is not an RSA key"))
  | some (some key) =>
      if Platform.keySize key < 2048 then
        .error (.signingKey ("signing key " ++ pyRepr kid ++ " is shorter than 2048 bits"))
      else .ok ⟨kid, key⟩

/-- `n.to_bytes((n.bit_length() + 7) // 8, "big")`. -/
def toBytes (n : ℕ) : Bytes := bigEndian ((n.size + 7) / 8) n

def SigningKey.publicJwk (k : SigningKey) : Json :=
  .obj [("kty", .str "RSA"), ("use", .str "sig"), ("alg", .str "RS256"), ("kid", .str k.kid),
    ("n", .str (base64Url (toBytes (Platform.modulus k.privateKey)))),
    ("e", .str (base64Url (toBytes (Platform.exponent k.privateKey))))]

structure AssertionSigner where
  issuer : Str
  keys : List SigningKey
  activeKid : Str
  active : (keys.find? (fun k => k.kid == activeKid)).isSome = true

/-- The constructor with its check. -/
def AssertionSigner.make (issuer : Str) (keys : List SigningKey) (activeKid : Str) :
    Except Exc AssertionSigner :=
  if h : (keys.find? (fun k => k.kid == activeKid)).isSome = true then
    .ok ⟨issuer, keys, activeKid, h⟩
  else .error (.signingKey ("active signing key " ++ pyRepr activeKid ++ " is not configured"))

def AssertionSigner.jwks (s : AssertionSigner) : Json :=
  .obj [("keys", .arr (s.keys.map SigningKey.publicJwk))]

/-- The key that signs. -/
def AssertionSigner.activeKey (s : AssertionSigner) : SigningKey :=
  (s.keys.find? (fun k => k.kid == s.activeKid)).get s.active

/-- `str(u)` of a UUID. -/
def uuidText (u : Uuid) : Str :=
  let h := hexText 32 u.val
  join "-" [h.take 8, (h.drop 8).take 4, (h.drop 12).take 4, (h.drop 16).take 4, h.drop 20]

/-- The assertion signed at the second `now` with the identifier `jti`. -/
def AssertionSigner.assertion (s : AssertionSigner) (subject audience : Str) (lifetime now : ℤ)
    (jti : Uuid) : Str :=
  let key := s.activeKey
  let header : Json := .obj [("alg", .str "RS256"), ("typ", .str "JWT"), ("kid", .str key.kid)]
  let claims : Json := .obj [("iss", .str s.issuer), ("sub", .str subject), ("aud", .str audience),
    ("iat", .int now), ("exp", .int (now + lifetime)), ("jti", .str (uuidText jti))]
  let signingInput := base64Url (utf8 header.encode) ++ '.' :: base64Url (utf8 claims.encode)
  signingInput ++ '.' :: base64Url (Platform.sign key.privateKey (utf8 signingInput))

/-- `AssertionSigner.sign`. -/
def AssertionSigner.sign (s : AssertionSigner) (subject audience : Str)
    (lifetime : ℤ := maxAssertionLifetime) : Run Str := do
  if ¬ (0 < lifetime ∧ lifetime ≤ maxAssertionLifetime) then
    .raise (.valueError "assertion lifetime must be within 1..60s")
  else
    let now ← wholeTime
    let jti ← ask .uuid4
    return s.assertion subject audience lifetime now jti

end CimdProxy
