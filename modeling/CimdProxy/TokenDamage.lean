import CimdProxy.GeneratedTokens
import CimdProxy.Provenance
import CimdProxy.Creation

/-! # Damaged tokens

The checksum of a personal access token is a CRC-32, written with six digits that determine it.
`damaged_refused`: a well-formed token that is changed within four consecutive characters before the
checksum, or within the checksum, is not well formed any more, and an exchange refuses it before it asks
the database. -/

namespace CimdProxy

open Py Effects

/-! ### What a well-formed token is -/

/-- The characters a checksum is taken over. -/
def bodyLength : ℕ := tokenLength - checksumChars

/-- The conditions of `is_well_formed`. -/
structure WellFormed (token : Str) : Prop where
  length : token.length = tokenLength
  isPrefix : patPrefix <+: token
  alphabet : ∀ c ∈ token.drop patPrefix.length, c ∈ base62Alphabet
  checks : checksum (token.take bodyLength) = .ok (token.drop bodyLength)

theorem isAscii_of_alphabet {token : Str} (hp : patPrefix <+: token)
    (h : ∀ c ∈ token.drop patPrefix.length, c ∈ base62Alphabet) : isAscii token = true := by
  obtain ⟨rest, rfl⟩ := hp
  rw [List.drop_left] at h
  rw [isAscii, List.all_append, Bool.and_eq_true]
  exact ⟨by decide +kernel, isAscii_of_base62 h⟩

theorem WellFormed.ascii {token : Str} (h : WellFormed token) : isAscii token = true :=
  isAscii_of_alphabet h.isPrefix h.alphabet

theorem isAscii_of_subset {s t : Str} (h : s ⊆ t) (ht : isAscii t = true) : isAscii s = true :=
  List.all_eq_true.mpr (fun c hc => List.all_eq_true.mp ht c (h hc))

/-- `is_well_formed` never raises, and accepts only what meets the conditions. -/
theorem isWellFormed_cases (token : Str) :
    isWellFormed token = .ok false ∨ (isWellFormed token = .ok true ∧ WellFormed token) := by
  by_cases hstart : token.length ≠ tokenLength || !patPrefix.isPrefixOf token
  · exact .inl (if_pos hstart)
  by_cases hout : (token.drop patPrefix.length).any (fun c => !base62Alphabet.contains c) = true
  · refine .inl ?_
    unfold isWellFormed
    rw [if_neg hstart]
    exact if_pos hout
  obtain ⟨hlen, hp⟩ : token.length = tokenLength ∧ patPrefix <+: token := by
    simpa using hstart
  have halphabet : ∀ c ∈ token.drop patPrefix.length, c ∈ base62Alphabet := by simpa using hout
  have hascii := isAscii_of_alphabet hp halphabet
  have hbody := checksum_of_ascii (isAscii_of_subset (List.take_subset bodyLength token) hascii)
  have hcheck := isAscii_of_base62 (checksum_eq_ok hbody).2
  have htail := isAscii_of_subset (List.drop_subset bodyLength token) hascii
  have heq : isWellFormed token = .ok
      ((base62Loop (crc32 (utf8 (token.take bodyLength))) checksumChars).1.reverse ==
        token.drop bodyLength) := by
    unfold isWellFormed
    rw [if_neg hstart]
    dsimp only
    rw [if_neg hout]
    change (checksum (token.take bodyLength) >>= fun computed =>
      compareDigest computed (token.drop bodyLength)) = _
    rw [hbody, ok_bind]
    unfold compareDigest
    rw [hcheck, htail]
    rfl
  rw [heq]
  by_cases hsame : (base62Loop (crc32 (utf8 (token.take bodyLength))) checksumChars).1.reverse =
      token.drop bodyLength
  · rw [beq_iff_eq.mpr hsame]
    exact .inr ⟨rfl, hlen, hp, halphabet, hbody.trans (congrArg _ hsame)⟩
  · rw [beq_eq_false_iff_ne.mpr hsame]
    exact .inl rfl

/-! ### Damage -/

/-- The texts differ only at positions from `i` on, `k` of them. -/
def DiffersWithin (s t : Str) (i k : ℕ) : Prop := ∀ j, s[j]? ≠ t[j]? → i ≤ j ∧ j < i + k

theorem DiffersWithin.take {s t : Str} {i k n : ℕ} (h : DiffersWithin s t i k) (hn : n ≤ i) :
    s.take n = t.take n := by
  refine List.ext_getElem? (fun j => ?_)
  rw [List.getElem?_take, List.getElem?_take]
  split_ifs with hj
  · by_contra hne
    have := (h j hne).1
    omega
  · rfl

theorem DiffersWithin.drop {s t : Str} {i k n : ℕ} (h : DiffersWithin s t i k) (hn : i + k ≤ n) :
    s.drop n = t.drop n := by
  refine List.ext_getElem? (fun j => ?_)
  rw [List.getElem?_drop, List.getElem?_drop]
  by_contra hne
  have := (h _ hne).2
  omega

theorem DiffersWithin.of_take {s t : Str} {i k : ℕ} (h : DiffersWithin s t i k) (n : ℕ) :
    DiffersWithin (s.take n) (t.take n) i k := by
  intro j hj
  apply h
  rw [List.getElem?_take, List.getElem?_take] at hj
  split_ifs at hj
  · exact hj
  · exact absurd rfl hj

theorem eq_of_take_drop {s t : Str} {n : ℕ} (ht : s.take n = t.take n) (hd : s.drop n = t.drop n) :
    s = t := by
  rw [← List.take_append_drop n s, ht, hd, List.take_append_drop]

theorem length_utf8 {s : Str} (h : isAscii s = true) : (utf8 s).length = s.length := by
  induction s with
  | nil => rfl
  | cons c s ih =>
      obtain ⟨hc, hs⟩ : isAsciiChar c = true ∧ isAscii s = true := by simpa [isAscii] using h
      have hbyte : utf8Char c = [UInt8.ofNat c.toNat] := if_pos (by simpa [isAsciiChar] using hc)
      have happend : utf8 (c :: s) = utf8Char c ++ utf8 s := rfl
      rw [happend, List.length_append, ih hs, hbyte, List.length_singleton, List.length_cons,
        Nat.add_comm]

theorem utf8_injective {s t : Str} (h : utf8 s = utf8 t) : s = t := by
  have := utf8Decode_utf8 s
  rw [h, utf8Decode_utf8] at this
  exact (Option.some.inj this).symm

/-- Damage of four characters changes the CRC. -/
theorem crc32_ne {a b : Str} (ha : isAscii a = true) (hb : isAscii b = true)
    (hlen : a.length = b.length) (hne : a ≠ b) {i : ℕ} (h : DiffersWithin a b i 4) :
    crc32 (utf8 a) ≠ crc32 (utf8 b) := by
  have hsplit : ∀ s : Str, s = s.take i ++ (s.drop i).take 4 ++ s.drop (i + 4) := fun s => by
    rw [List.append_assoc, ← List.drop_drop, List.take_append_drop, List.take_append_drop]
  have hbytes : ∀ s : Str, utf8 s =
      utf8 (s.take i) ++ utf8 ((s.drop i).take 4) ++ utf8 (s.drop (i + 4)) := fun s => by
    conv_lhs => rw [hsplit s]
    simp only [utf8, List.flatMap_append]
  have hfront := h.take le_rfl
  have hback := h.drop le_rfl
  have hpart : ∀ s : Str, (s.drop i).take 4 ⊆ s := fun s c hc =>
    List.drop_subset i s (List.take_subset 4 _ hc)
  have hmidA := isAscii_of_subset (hpart a) ha
  have hmidB := isAscii_of_subset (hpart b) hb
  have hmid : (utf8 ((a.drop i).take 4)).length = (utf8 ((b.drop i).take 4)).length := by
    rw [length_utf8 hmidA, length_utf8 hmidB]
    simp [hlen]
  have hmidne : utf8 ((a.drop i).take 4) ≠ utf8 ((b.drop i).take 4) := by
    intro heq
    apply hne
    rw [hsplit a, hsplit b, hfront, hback, utf8_injective heq]
  have hshort : 8 * (utf8 ((a.drop i).take 4)).length ≤ 31 + 1 := by
    rw [length_utf8 hmidA, List.length_take]
    omega
  have htop : 2 ^ 31 ≤ 0xEDB88320 := by norm_num
  have hpoly : 0xEDB88320 < 2 ^ (31 + 1) := by norm_num
  have hrun := Crc.fold_burst_ne htop hpoly 0xFFFFFFFF
    (utf8 (a.take i)) (utf8 (a.drop (i + 4))) hmid hmidne hshort
  intro hcrc
  apply hrun
  rw [← hbytes a, hfront, hback, ← hbytes b, ← crcByte_eq_step]
  exact Nat.xor_left_injective hcrc

theorem checksum_inj {a b check : Str} (ha : checksum a = .ok check) (hb : checksum b = .ok check) :
    crc32 (utf8 a) = crc32 (utf8 b) := by
  have hvalue : ∀ s : Str, checksum s = .ok check → base62Value check = crc32 (utf8 s) := by
    intro s h
    obtain ⟨bytes, hbytes, h⟩ := bind_eq_ok.mp h
    unfold encodeAscii at hbytes
    split_ifs at hbytes
    obtain rfl := Except.ok.inj hbytes
    exact (base62_ok_iff.mp h).2.2
  exact (hvalue a ha).symm.trans (hvalue b hb)

/-- Two well-formed tokens do not differ by local damage. -/
theorem WellFormed.eq_of_local {token damaged : Str} (ht : WellFormed token) (hd : WellFormed damaged)
    (hlocal : (∃ i, i + 4 ≤ 51 ∧ DiffersWithin damaged token i 4) ∨ DiffersWithin damaged token 51 6) :
    damaged = token := by
  have hcheck : checksum (damaged.take 51) = .ok (damaged.drop 51) := hd.checks
  have hcheck' : checksum (token.take 51) = .ok (token.drop 51) := ht.checks
  rcases hlocal with ⟨i, hi, hdiff⟩ | hdiff
  · -- the checksums agree, so the CRCs of the bodies do
    have hdrop := hdiff.drop hi
    rw [hdrop] at hcheck
    by_contra hne
    refine crc32_ne ?_ ?_ ?_ ?_ (hdiff.of_take 51) (checksum_inj hcheck hcheck')
    · exact isAscii_of_subset (List.take_subset 51 _) hd.ascii
    · exact isAscii_of_subset (List.take_subset 51 _) ht.ascii
    · rw [List.length_take, List.length_take, hd.length, ht.length]
    · exact fun htake => hne (eq_of_take_drop htake hdrop)
  · have htake := hdiff.take le_rfl
    rw [htake, hcheck'] at hcheck
    exact eq_of_take_drop htake (Except.ok.inj hcheck).symm

/-- A text that is not well formed is refused before the exchange makes any call. -/
theorem exchange_of_malformed [Platform] (svc : PatService) {p : PatService.ExchangeParams}
    {token : Str} (hp : p.subjectToken = some token) (hw : isWellFormed token = .ok false) :
    ∃ e, svc.exchange p = .raise e ∧
      (token ≠ [] → p.subjectTokenType = some accessTokenType →
        (p.requestedTokenType = none ∨ p.requestedTokenType = some accessTokenType) →
        e = invalidGrant "subject_token is not a valid personal access token") := by
  obtain ⟨e, he, hgrant⟩ : ∃ e, PatService.checkExchange p = .error e ∧
      (token ≠ [] → p.subjectTokenType = some accessTokenType →
        (p.requestedTokenType = none ∨ p.requestedTokenType = some accessTokenType) →
        e = invalidGrant "subject_token is not a valid personal access token") := by
    unfold PatService.checkExchange
    rw [hp]
    cases token with
    | nil => exact ⟨_, rfl, fun h => absurd rfl h⟩
    | cons c rest =>
        dsimp only
        by_cases htype : p.subjectTokenType ≠ some accessTokenType
        · rw [if_pos htype]
          exact ⟨_, rfl, fun _ h => absurd h htype⟩
        by_cases hreq : p.requestedTokenType ≠ none ∧ p.requestedTokenType ≠ some accessTokenType
        · rw [if_neg htype, if_pos hreq]
          exact ⟨_, rfl, fun _ _ h => absurd h (by tauto)⟩
        · rw [if_neg htype, if_neg hreq, hw]
          exact ⟨_, rfl, fun _ _ _ => rfl⟩
  refine ⟨e, ?_, hgrant⟩
  unfold PatService.exchange
  rw [he]
  rfl

/-- **The checksum catches local damage**, and an exchange refuses a damaged token without asking the
database for it. -/
theorem damaged_refused [Platform] (svc : PatService) (token damaged : Str)
    (hw : isWellFormed token = .ok true) (hlen : damaged.length = token.length) (hne : damaged ≠ token)
    (hlocal : (∃ i, i + 4 ≤ 51 ∧ DiffersWithin damaged token i 4) ∨ DiffersWithin damaged token 51 6) :
    isWellFormed damaged = .ok false ∧
    ∀ p : PatService.ExchangeParams, p.subjectToken = some damaged →
      ∃ e, svc.exchange p = .raise e ∧
        (p.subjectTokenType = some accessTokenType →
          (p.requestedTokenType = none ∨ p.requestedTokenType = some accessTokenType) →
          e = invalidGrant "subject_token is not a valid personal access token") := by
  obtain hf | ⟨-, ht⟩ := isWellFormed_cases token
  · rw [hw] at hf
    cases hf
  have hrefused : isWellFormed damaged = .ok false := by
    refine (isWellFormed_cases damaged).resolve_right (fun hd => hne ?_)
    exact ht.eq_of_local hd.2 hlocal
  have hnil : damaged ≠ [] := by
    intro h
    rw [h, ht.length] at hlen
    cases hlen
  refine ⟨hrefused, fun p hp => ?_⟩
  obtain ⟨e, he, hgrant⟩ := exchange_of_malformed svc hp hrefused
  exact ⟨e, he, hgrant hnil⟩

/-- The token of 32 zero bytes with two characters mistyped. -/
def mistypedToken : Str := "kmb_pat_00001020000000000000000000000000000000000004FrgRx"

theorem differsWithin_of_take_drop {s t : Str} {i k : ℕ} (ht : s.take i = t.take i)
    (hd : s.drop (i + k) = t.drop (i + k)) : DiffersWithin s t i k := by
  intro j hj
  constructor
  · by_contra hlt
    apply hj
    rw [← List.getElem?_take_of_lt (Nat.lt_of_not_le hlt), ht, List.getElem?_take_of_lt (Nat.lt_of_not_le hlt)]
  · by_contra hle
    obtain ⟨m, rfl⟩ := Nat.exists_eq_add_of_le (Nat.le_of_not_lt hle)
    apply hj
    rw [← List.getElem?_drop, hd, List.getElem?_drop]

theorem damaged_refused_mistyped :
    letI := Platform.plain
    isWellFormed mistypedToken = .ok false := by
  let := Platform.plain
  have hok : (isWellFormed zeroToken).toOption = some true := by decide +kernel
  have hw : isWellFormed zeroToken = .ok true := by
    cases h : isWellFormed zeroToken with
    | error e => rw [h] at hok; cases hok
    | ok b => rw [h] at hok; rw [Option.some.inj hok]
  have hdiff : DiffersWithin mistypedToken zeroToken 12 4 :=
    differsWithin_of_take_drop (by decide +kernel) (by decide +kernel)
  exact (damaged_refused patService zeroToken mistypedToken hw (by decide +kernel) (by decide +kernel)
    (.inl ⟨12, by norm_num, hdiff⟩)).1

end CimdProxy
