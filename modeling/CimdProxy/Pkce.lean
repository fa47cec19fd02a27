import CimdProxy.Config

/-! # PKCE, correlation ids and upstream endpoints

`pkce.py`, `correlation.py` and `upstream.py`. -/

namespace CimdProxy

open Py Effects

/-! ### PKCE -/

/-- `make_verifier`. -/
def makeVerifier (length : ℕ := 64) : Run Str :=
  if length < 43 ∨ 128 < length then
    .raise (.valueError "PKCE verifier length must be between 43 and 128")
  else do
    let raw ← ask (.tokenBytes 96)
    return (base64Url raw.val).take length

/-- `s.encode("ascii")`. -/
def encodeAscii (s : Str) : Except Exc Bytes :=
  if isAscii s then .ok (utf8 s)
  else .error (.valueError "'ascii' codec can't encode characters: ordinal not in range(128)")

/-- `derive_challenge`. -/
def deriveChallenge (verifier : Str) : Except Exc Str := do
  let bytes ← encodeAscii verifier
  return base64Url (sha256 bytes)

/-- `secrets.compare_digest` on strings. -/
def compareDigest (a b : Str) : Except Exc Bool :=
  if isAscii a && isAscii b then .ok (a == b)
  else .error (.typeError "comparing strings with non-ASCII characters is not supported")

/-- `verify_challenge`. -/
def verifyChallenge (verifier challenge : Str) : Except Exc Bool := do
  let computed ← deriveChallenge verifier
  compareDigest computed challenge

/-- A verifier passes exactly when it is ASCII and its challenge is the given one. -/
theorem verifyChallenge_eq_true {verifier challenge : Str} :
    verifyChallenge verifier challenge = .ok true ↔ deriveChallenge verifier = .ok challenge := by
  unfold verifyChallenge
  cases h : deriveChallenge verifier with
  | error e => simp
  | ok c =>
      have hc : isAscii c = true := by
        unfold deriveChallenge at h
        obtain ⟨b, -, hb⟩ := bind_eq_ok.mp h
        rw [← Except.ok.inj hb]
        exact base64Url_ascii _
      simp only [ok_bind, compareDigest, hc, Bool.true_and, Except.ok.injEq]
      by_cases hch : isAscii challenge = true
      · simp [hch]
      · simp only [hch, if_false, reduceCtorEq, false_iff]
        rintro rfl
        exact hch hc

/-- A verifier made here has a challenge. -/
theorem deriveChallenge_base64Url (b : Bytes) (n : ℕ) :
    ∃ c, deriveChallenge ((base64Url b).take n) = .ok c := by
  have h : isAscii ((base64Url b).take n) = true := by
    have := base64Url_ascii b
    rw [isAscii, List.all_eq_true] at this ⊢
    exact fun c hc => this c (List.mem_of_mem_take hc)
  refine ⟨base64Url (sha256 (utf8 ((base64Url b).take n))), ?_⟩
  simp only [deriveChallenge, encodeAscii, h, if_true, ok_bind, pure_eq_ok]

/-! ### Correlation ids -/

/-- `new_correlation_id`. -/
def newCorrelationId : Run Str := do
  let raw ← ask (.tokenBytes 10)
  return (base64Url raw.val).take 13

/-! ### Upstream endpoints -/

/-- `authorize_url`. -/
def authorizeUrl (issuer : Str) : Str := rstripSlash issuer ++ "/protocol/openid-connect/auth"

/-- `token_url`. -/
def tokenUrl (issuer : Str) : Str := rstripSlash issuer ++ "/protocol/openid-connect/token"

end CimdProxy
