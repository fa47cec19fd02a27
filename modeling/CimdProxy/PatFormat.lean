import CimdProxy.Pkce

/-! # The personal access token as a string

`pat_format.py`: a prefix, 43 base-62 characters of randomness and a checksum of 6. -/

namespace CimdProxy

open Py Effects

def patPrefix : Str := "kmb_pat_"

def base62Alphabet : Str := "0123456789ABCDEFGHIJKLMNOPQRSTUVWXYZabcdefghijklmnopqrstuvwxyz"

def randomBytes : ℕ := 32

def randomChars : ℕ := 43

def checksumChars : ℕ := 6

def tokenLength : ℕ := patPrefix.length + randomChars + checksumChars

/-- The loop of `_base62`: the digits, least significant first, and what is left of the value. -/
def base62Loop : ℕ → ℕ → Str × ℕ
  | value, 0 => ([], value)
  | value, width + 1 =>
      let (chars, rest) := base62Loop (value / 62) width
      (base62Alphabet.getD (value % 62) '0' :: chars, rest)

/-- `_base62`. -/
def base62 (value width : ℕ) : Except Exc Str :=
  let (chars, rest) := base62Loop value width
  if rest ≠ 0 then .error (.valueError "value does not fit the requested width")
  else .ok chars.reverse

/-- `_checksum`. -/
def checksum (body : Str) : Except Exc Str := do
  let bytes ← encodeAscii body
  base62 (crc32 bytes) checksumChars

/-- `int.from_bytes(b, "big")`. -/
def fromBytes (b : Bytes) : ℕ := b.foldl (fun n x => 256 * n + x.toNat) 0

/-- The token made of the given random bytes. -/
def tokenFrom (raw : Bytes) : Except Exc Str := do
  let random ← base62 (fromBytes raw) randomChars
  let body := patPrefix ++ random
  let check ← checksum body
  return body ++ check

/-- `generate`. -/
def generate : Run Str := do
  let raw ← ask (.tokenBytes randomBytes)
  .lift (tokenFrom raw.val)

/-- `is_well_formed`. -/
def isWellFormed (token : Str) : Except Exc Bool :=
  if token.length ≠ tokenLength || !patPrefix.isPrefixOf token then .ok false
  else
    let tail := token.drop patPrefix.length
    if tail.any (fun c => !base62Alphabet.contains c) then .ok false
    else do
      let computed ← checksum (token.take (tokenLength - checksumChars))
      compareDigest computed (token.drop (tokenLength - checksumChars))

theorem checksum_failure {body : Str} {e : Exc} (h : checksum body = .error e) : e.IsFailure := by
  unfold checksum at h
  rcases bind_eq_error.mp h with h | ⟨bytes, -, h⟩
  · unfold encodeAscii at h
    split_ifs at h
    rw [← Except.error.inj h]
    trivial
  · unfold base62 at h
    dsimp only at h
    split_ifs at h
    rw [← Except.error.inj h]
    trivial

theorem isWellFormed_failure {token : Str} {e : Exc} (h : isWellFormed token = .error e) :
    e.IsFailure := by
  unfold isWellFormed at h
  split_ifs at h
  dsimp only at h
  split_ifs at h
  rcases bind_eq_error.mp h with h | ⟨computed, -, h⟩
  · exact checksum_failure h
  · unfold compareDigest at h
    split_ifs at h
    rw [← Except.error.inj h]
    trivial

/-! ### Generated tokens are well formed -/

theorem base62Loop_chars (value width : ℕ) : (base62Loop value width).1.length = width ∧
    ∀ c ∈ (base62Loop value width).1, c ∈ base62Alphabet := by
  induction width generalizing value with
  | zero => exact ⟨rfl, fun c hc => nomatch hc⟩
  | succ width ih =>
      obtain ⟨hlen, hmem⟩ := ih (value / 62)
      refine ⟨by simp [base62Loop, hlen], fun c hc => ?_⟩
      rcases List.mem_cons.mp hc with rfl | hc
      · have hlt : value % 62 < base62Alphabet.length := Nat.mod_lt _ (by decide)
        rw [List.getD_eq_getElem _ _ hlt]
        exact List.getElem_mem hlt
      · exact hmem c hc

theorem base62_eq_ok {value width : ℕ} {s : Str} (h : base62 value width = .ok s) :
    s.length = width ∧ ∀ c ∈ s, c ∈ base62Alphabet := by
  obtain ⟨hlen, hmem⟩ := base62Loop_chars value width
  unfold base62 at h
  dsimp only at h
  split_ifs at h
  rw [← Except.ok.inj h]
  exact ⟨by rw [List.length_reverse, hlen], fun c hc => hmem c (List.mem_reverse.mp hc)⟩

theorem checksum_eq_ok {body s : Str} (h : checksum body = .ok s) :
    s.length = checksumChars ∧ ∀ c ∈ s, c ∈ base62Alphabet := by
  obtain ⟨bytes, -, h⟩ := bind_eq_ok.mp h
  exact base62_eq_ok h

theorem isAscii_of_base62 {s : Str} (h : ∀ c ∈ s, c ∈ base62Alphabet) : isAscii s = true := by
  have halphabet : isAscii base62Alphabet = true := by decide +kernel
  exact List.all_eq_true.mpr (fun c hc => List.all_eq_true.mp halphabet c (h c hc))

theorem tokenFrom_eq_ok {raw : Bytes} {token : Str} (h : tokenFrom raw = .ok token) :
    ∃ random check, token = patPrefix ++ random ++ check ∧ random.length = randomChars ∧
      (∀ c ∈ random, c ∈ base62Alphabet) ∧ checksum (patPrefix ++ random) = .ok check := by
  obtain ⟨random, hrandom, h⟩ := bind_eq_ok.mp h
  obtain ⟨check, hcheck, h⟩ := bind_eq_ok.mp h
  obtain ⟨hlen, hmem⟩ := base62_eq_ok hrandom
  exact ⟨random, check, (Except.ok.inj h).symm, hlen, hmem, hcheck⟩

/-- What `generate` returns passes `is_well_formed`. -/
theorem isWellFormed_of_tokenFrom {raw : Bytes} {token : Str} (h : tokenFrom raw = .ok token) :
    isWellFormed token = .ok true := by
  obtain ⟨random, check, rfl, hlen, hrandom, hcheck⟩ := tokenFrom_eq_ok h
  obtain ⟨hclen, hcmem⟩ := checksum_eq_ok hcheck
  have hbody : (patPrefix ++ random).length = tokenLength - checksumChars := by
    rw [List.length_append, hlen]
    unfold tokenLength
    omega
  have hlength : (patPrefix ++ random ++ check).length = tokenLength := by
    rw [List.length_append, hbody, hclen]
    unfold tokenLength
    omega
  have hpre : patPrefix.isPrefixOf (patPrefix ++ random ++ check) = true := by
    rw [List.isPrefixOf_iff_prefix, List.append_assoc]
    exact List.prefix_append _ _
  have htail : ((patPrefix ++ random ++ check).drop patPrefix.length).any
      (fun c => !base62Alphabet.contains c) = false := by
    rw [List.append_assoc, List.drop_left, List.any_eq_false]
    intro c hc
    have hm : c ∈ base62Alphabet := (List.mem_append.mp hc).elim (hrandom c) (hcmem c)
    simp [hm]
  unfold isWellFormed
  rw [if_neg (by rw [hlength, hpre]; simp)]
  dsimp only
  rw [htail, if_neg (by decide), ← hbody, List.take_left, List.drop_left, hcheck, ok_bind]
  unfold compareDigest
  rw [isAscii_of_base62 hcmem, beq_self_eq_true]
  rfl

/-- `token_hash`. -/
def tokenHash (token : Str) : Except Exc Bytes := do
  let bytes ← encodeAscii token
  return sha256 bytes

end CimdProxy
