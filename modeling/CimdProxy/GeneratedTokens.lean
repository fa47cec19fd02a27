import CimdProxy.PatFormat
import CimdProxy.Radix
import CimdProxy.Crc

/-! # Generated tokens

What `_base62` writes is the value it was given: it raises exactly when the width is too small, and its
characters read back to the value (`base62_ok_iff`, `base62_error_iff`).  The widths of the format are
large enough for 32 random bytes and for a CRC-32, so `generate` never fails and keeps every bit it
drew (`generate_total`). -/

namespace CimdProxy

open Py Effects

/-! ### Base 62 -/

theorem nodup_base62Alphabet : base62Alphabet.Nodup := by decide +kernel

/-- The value of a digit. -/
def base62Digit (c : Char) : ℕ := base62Alphabet.idxOf c

/-- The number a text denotes, most significant character first. -/
def base62Value (s : Str) : ℕ := Radix.value 62 (s.map base62Digit)

theorem base62Digit_lt {c : Char} (h : c ∈ base62Alphabet) : base62Digit c < 62 :=
  List.idxOf_lt_length_of_mem h

theorem base62Digit_getD {n : ℕ} (h : n < 62) : base62Digit (base62Alphabet.getD n '0') = n := by
  have hlt : n < base62Alphabet.length := h
  unfold base62Digit
  rw [List.getD_eq_getElem _ _ hlt]
  exact nodup_base62Alphabet.idxOf_getElem n hlt

theorem getD_base62Digit {c : Char} (h : c ∈ base62Alphabet) :
    base62Alphabet.getD (base62Digit c) '0' = c := by
  have hlt : base62Digit c < base62Alphabet.length := base62Digit_lt h
  rw [List.getD_eq_getElem _ _ hlt]
  exact List.getElem_idxOf hlt

/-- Texts of one length are determined by the number they denote. -/
theorem base62Value_inj {s t : Str} (hlen : s.length = t.length) (hs : ∀ c ∈ s, c ∈ base62Alphabet)
    (ht : ∀ c ∈ t, c ∈ base62Alphabet) (h : base62Value s = base62Value t) : s = t := by
  have hdigits : s.map base62Digit = t.map base62Digit := by
    refine Radix.value_inj (by norm_num) ?_ ?_ ?_ h
    · rw [List.length_map, List.length_map, hlen]
    · simpa using fun c hc => base62Digit_lt (hs c hc)
    · simpa using fun c hc => base62Digit_lt (ht c hc)
  have hread : ∀ u : Str, (∀ c ∈ u, c ∈ base62Alphabet) →
      (u.map base62Digit).map (fun n => base62Alphabet.getD n '0') = u := by
    intro u hu
    rw [List.map_map]
    exact (List.map_congr_left fun c hc => getD_base62Digit (hu c hc)).trans (List.map_id u)
  rw [← hread s hs, ← hread t ht, hdigits]

theorem base62Value_lt {s : Str} (hs : ∀ c ∈ s, c ∈ base62Alphabet) :
    base62Value s < 62 ^ s.length := by
  have h : ∀ d ∈ s.map base62Digit, d < 62 := by simpa using fun c hc => base62Digit_lt (hs c hc)
  have := Radix.value_lt (by norm_num) h
  rwa [List.length_map] at this

theorem base62Loop_rest (value width : ℕ) : (base62Loop value width).2 = value / 62 ^ width := by
  induction width generalizing value with
  | zero => simp [base62Loop]
  | succ width ih =>
      rw [pow_succ, Nat.mul_comm, ← Nat.div_div_eq_div_mul]
      exact ih (value / 62)

theorem base62Loop_value (value width : ℕ) :
    Nat.ofDigits 62 ((base62Loop value width).1.map base62Digit) = value % 62 ^ width := by
  induction width generalizing value with
  | zero => simp [base62Loop, Nat.mod_one]
  | succ width ih =>
      have hdigit : base62Digit (base62Alphabet.getD (value % 62) '0') = value % 62 :=
        base62Digit_getD (Nat.mod_lt _ (by norm_num))
      rw [base62Loop, List.map_cons, Nat.ofDigits_cons, hdigit, ih, pow_succ, Nat.mul_comm (62 ^ width),
        Nat.mod_mul]

theorem base62_eq (value width : ℕ) : base62 value width =
    if 62 ^ width ≤ value then .error (.valueError "value does not fit the requested width")
    else .ok (base62Loop value width).1.reverse := by
  have hpos : 0 < 62 ^ width := by positivity
  unfold base62
  dsimp only
  rw [base62Loop_rest]
  by_cases h : 62 ^ width ≤ value
  · rw [if_pos h, if_pos (Nat.div_pos h hpos).ne']
  · rw [if_neg h, if_neg]
    rw [not_not]
    exact Nat.div_eq_of_lt (Nat.lt_of_not_le h)

theorem base62_error_iff {value width : ℕ} :
    base62 value width = .error (.valueError "value does not fit the requested width") ↔
      62 ^ width ≤ value := by
  rw [base62_eq]
  by_cases h : 62 ^ width ≤ value
  · simp [h]
  · simp [h]

/-- What a successful `_base62` has written. -/
theorem base62_ok_iff {value width : ℕ} {s : Str} : base62 value width = .ok s ↔
    s.length = width ∧ (∀ c ∈ s, c ∈ base62Alphabet) ∧ base62Value s = value := by
  constructor
  · intro h
    obtain ⟨hlen, hmem⟩ := base62_eq_ok h
    refine ⟨hlen, hmem, ?_⟩
    rw [base62_eq] at h
    split_ifs at h with hle
    rw [← Except.ok.inj h, base62Value, Radix.value_eq_ofDigits, List.map_reverse, List.reverse_reverse,
      base62Loop_value]
    exact Nat.mod_eq_of_lt (Nat.lt_of_not_le hle)
  · rintro ⟨rfl, hmem, rfl⟩
    rw [base62_eq, if_neg (base62Value_lt hmem).not_ge]
    obtain ⟨hlen, hmem'⟩ := base62Loop_chars (base62Value s) s.length
    congr 1
    refine base62Value_inj (by rw [List.length_reverse, hlen]) ?_ hmem ?_
    · exact fun c hc => hmem' c (List.mem_reverse.mp hc)
    · rw [base62Value, Radix.value_eq_ofDigits, List.map_reverse, List.reverse_reverse,
        base62Loop_value]
      exact Nat.mod_eq_of_lt (base62Value_lt hmem)

/-! ### The widths of the format -/

theorem crcByte_eq_step : crcByte = Crc.step 0xEDB88320 := rfl

theorem crc32_lt (m : Bytes) : crc32 m < 2 ^ 32 := by
  have hpoly : 0xEDB88320 < 2 ^ (31 + 1) := by norm_num
  have hfull : 0xFFFFFFFF < 2 ^ (31 + 1) := by norm_num
  have hrun := Crc.fold_lt hpoly (by norm_num) hfull m
  rw [← crcByte_eq_step] at hrun
  exact Nat.xor_lt_two_pow hrun hfull

theorem fromBytes_eq_value (b : Bytes) : fromBytes b = Radix.value 256 (b.map UInt8.toNat) := by
  rw [fromBytes, Radix.value, List.foldl_map]

theorem fromBytes_lt (b : Bytes) : fromBytes b < 256 ^ b.length := by
  have h : ∀ d ∈ b.map UInt8.toNat, d < 256 := by simpa using fun x _ => x.toNat_lt
  have := Radix.value_lt (by norm_num) h
  rwa [List.length_map, ← fromBytes_eq_value] at this

theorem fromBytes_inj {a b : Bytes} (hlen : a.length = b.length) (h : fromBytes a = fromBytes b) :
    a = b := by
  rw [fromBytes_eq_value, fromBytes_eq_value] at h
  refine List.map_injective_iff.mpr (fun x y hxy => UInt8.toNat_inj.mp hxy) ?_
  refine Radix.value_inj (by norm_num) (by rw [List.length_map, List.length_map, hlen]) ?_ ?_ h
  · simpa using fun x _ => x.toNat_lt
  · simpa using fun x _ => x.toNat_lt

/-- `_checksum` of text in ASCII. -/
theorem checksum_of_ascii {body : Str} (h : isAscii body = true) :
    checksum body = .ok (base62Loop (crc32 (utf8 body)) checksumChars).1.reverse := by
  have hlt : crc32 (utf8 body) < 62 ^ checksumChars :=
    (crc32_lt _).trans (by unfold checksumChars; norm_num)
  unfold checksum encodeAscii
  rw [if_pos h, ok_bind, base62_eq, if_neg hlt.not_ge]

theorem exists_tokenFrom {raw : Bytes} (h : raw.length = randomBytes) :
    ∃ token, tokenFrom raw = .ok token := by
  have hlt : fromBytes raw < 62 ^ randomChars := by
    have hraw := fromBytes_lt raw
    rw [h] at hraw
    -- 43 digits hold 256 bits
    exact hraw.trans_le (by unfold randomBytes randomChars; norm_num)
  have hrandom := base62_eq (fromBytes raw) randomChars
  rw [if_neg hlt.not_ge] at hrandom
  have hascii : isAscii (patPrefix ++ (base62Loop (fromBytes raw) randomChars).1.reverse) = true := by
    rw [isAscii, List.all_append, Bool.and_eq_true]
    exact ⟨by decide +kernel, isAscii_of_base62 (base62_eq_ok hrandom).2⟩
  have hcheck := checksum_of_ascii hascii
  unfold tokenFrom
  rw [hrandom, ok_bind]
  dsimp only
  rw [hcheck, ok_bind]
  exact ⟨_, rfl⟩

theorem tokenFrom_inj {raw raw' : Bytes} {token : Str} (hlen : raw.length = raw'.length)
    (h : tokenFrom raw = .ok token) (h' : tokenFrom raw' = .ok token) : raw = raw' := by
  obtain ⟨random, hrandom, h⟩ := bind_eq_ok.mp h
  obtain ⟨random', hrandom', h'⟩ := bind_eq_ok.mp h'
  obtain ⟨check, -, h⟩ := bind_eq_ok.mp h
  obtain ⟨check', -, h'⟩ := bind_eq_ok.mp h'
  obtain ⟨hr, -, hv⟩ := base62_ok_iff.mp hrandom
  obtain ⟨hr', -, hv'⟩ := base62_ok_iff.mp hrandom'
  have htext : patPrefix ++ random ++ check = patPrefix ++ random' ++ check' :=
    (Except.ok.inj h).trans (Except.ok.inj h').symm
  rw [List.append_assoc, List.append_assoc] at htext
  obtain ⟨rfl, -⟩ := List.append_inj (List.append_cancel_left htext) (hr.trans hr'.symm)
  exact fromBytes_inj hlen (hv.symm.trans hv')

theorem tokenFrom_length {raw : Bytes} {token : Str} (h : tokenFrom raw = .ok token) :
    token.length = tokenLength := by
  obtain ⟨random, check, rfl, hlen, -, hcheck⟩ := tokenFrom_eq_ok h
  rw [List.length_append, List.length_append, hlen, (checksum_eq_ok hcheck).1]
  rfl

theorem eval_generate (ω : (o : Op) → Reply o) :
    generate.eval ω = tokenFrom (ω (.tokenBytes randomBytes)).val := by
  change (Prog.lift (tokenFrom (ω (.tokenBytes randomBytes)).val) : Run Str).eval ω = _
  exact Prog.eval_lift _ _

/-- **Generation never fails and loses no randomness.**  `_base62` raises exactly when the value needs
more digits than the width, and its digits read back to the value; so 32 random bytes always give a
token of 57 characters that `is_well_formed` accepts, and different bytes give different tokens. -/
theorem generate_total :
    (∀ value width, (base62 value width = .error (.valueError "value does not fit the requested width") ↔
        62 ^ width ≤ value) ∧
      (value < 62 ^ width → ∃ s, base62 value width = .ok s ∧ s.length = width ∧
        (∀ c ∈ s, c ∈ base62Alphabet) ∧ base62Value s = value)) ∧
    (∀ ω : (o : Op) → Reply o, ∃ token, generate.eval ω = .ok token ∧ token.length = 57 ∧
      isWellFormed token = .ok true) ∧
    ∀ ω ω' : (o : Op) → Reply o, generate.eval ω = generate.eval ω' →
      ω (.tokenBytes randomBytes) = ω' (.tokenBytes randomBytes) := by
  refine ⟨fun value width => ⟨base62_error_iff, fun h => ?_⟩, fun ω => ?_, fun ω ω' h => ?_⟩
  · have hs := base62_eq value width
    rw [if_neg h.not_ge] at hs
    exact ⟨_, hs, base62_ok_iff.mp hs⟩
  · obtain ⟨token, htoken⟩ := exists_tokenFrom (ω (.tokenBytes randomBytes)).property
    rw [eval_generate]
    exact ⟨token, htoken, tokenFrom_length htoken, isWellFormed_of_tokenFrom htoken⟩
  · obtain ⟨token, htoken⟩ := exists_tokenFrom (ω (.tokenBytes randomBytes)).property
    rw [eval_generate, eval_generate, htoken] at h
    have hlen := (ω (.tokenBytes randomBytes)).property.trans
      (ω' (.tokenBytes randomBytes)).property.symm
    exact Subtype.ext (tokenFrom_inj hlen htoken h.symm)

end CimdProxy
