import CimdProxy.Digest
import CimdProxy.Radix

/-! # Reading base64url and big-endian numbers

`base64UrlDecode` reads unpadded base64url, `ofBigEndian` a number; they undo `base64Url` and
`bigEndian`. -/

namespace Py

/-! ### base64url -/

/-- The value of a character of the alphabet. -/
def base64Val (c : Char) : Option ℕ :=
  if base64Alphabet.idxOf c < 64 then some (base64Alphabet.idxOf c) else none

/-- The bytes that unpadded base64url text encodes. -/
def base64UrlDecode : Str → Option Bytes
  | [] => some []
  | [_] => none
  | [a, b] => do
      let x ← base64Val a
      let y ← base64Val b
      return [UInt8.ofNat (4 * x + y / 16)]
  | [a, b, c] => do
      let x ← base64Val a
      let y ← base64Val b
      let z ← base64Val c
      return [UInt8.ofNat (4 * x + y / 16), UInt8.ofNat (y % 16 * 16 + z / 4)]
  | a :: b :: c :: d :: rest => do
      let x ← base64Val a
      let y ← base64Val b
      let z ← base64Val c
      let w ← base64Val d
      let bytes ← base64UrlDecode rest
      return UInt8.ofNat (4 * x + y / 16) :: UInt8.ofNat (y % 16 * 16 + z / 4) ::
        UInt8.ofNat (z % 4 * 64 + w) :: bytes

theorem base64Val_base64Char (n : ℕ) : base64Val (base64Char n) = some (n % 64) := by
  have h : ∀ k, k < 64 → base64Val (base64Alphabet.getD k 'A') = some k := by decide +kernel
  exact h (n % 64) (Nat.mod_lt _ (by norm_num))

theorem uint8_eq {a : UInt8} {n : ℕ} (h : n = a.toNat) : UInt8.ofNat n = a := by
  rw [h]
  exact UInt8.ofNat_toNat

/-- Decoding undoes encoding. -/
theorem base64UrlDecode_base64Url : ∀ m : Bytes, base64UrlDecode (base64Url m) = some m
  | [] => rfl
  | [a] => by
      have ha := a.toNat_lt
      simp only [base64Url, base64UrlDecode, base64Val_base64Char, Option.bind_eq_bind, Option.bind_some,
        Option.pure_def, Option.some.injEq, List.cons.injEq, and_true]
      exact uint8_eq (by omega)
  | [a, b] => by
      have ha := a.toNat_lt
      have hb := b.toNat_lt
      simp only [base64Url, base64UrlDecode, base64Val_base64Char, Option.bind_eq_bind, Option.bind_some,
        Option.pure_def, Option.some.injEq, List.cons.injEq, and_true]
      exact ⟨uint8_eq (by omega), uint8_eq (by omega)⟩
  | a :: b :: c :: rest => by
      have ha := a.toNat_lt
      have hb := b.toNat_lt
      have hc := c.toNat_lt
      simp only [base64Url, base64UrlDecode, base64Val_base64Char, base64UrlDecode_base64Url rest,
        Option.bind_eq_bind, Option.bind_some, Option.pure_def, Option.some.injEq, List.cons.injEq,
        and_true]
      exact ⟨uint8_eq (by omega), uint8_eq (by omega), uint8_eq (by omega)⟩

theorem base64Url_ne_dot : ∀ (m : Bytes), '.' ∉ base64Url m := by
  have hchar : ∀ n, base64Char n ≠ '.' := fun n => by
    have h : ∀ k, k < 64 → base64Alphabet.getD k 'A' ≠ '.' := by decide +kernel
    exact h (n % 64) (Nat.mod_lt _ (by norm_num))
  intro m
  induction m using base64Url.induct with
  | case1 => simp [base64Url]
  | case2 a => simp [base64Url, (hchar _).symm]
  | case3 a b => simp [base64Url, (hchar _).symm]
  | case4 a b c rest ih => simp [base64Url, (hchar _).symm, ih]

/-! ### Big-endian numbers -/

/-- The number of big-endian bytes. -/
def ofBigEndian (b : Bytes) : ℕ := Radix.value 256 (b.map UInt8.toNat)

theorem ofBigEndian_bigEndian (k : ℕ) {n : ℕ} (h : n < 256 ^ k) : ofBigEndian (bigEndian k n) = n := by
  induction k generalizing n with
  | zero =>
      rw [pow_zero, Nat.lt_one_iff] at h
      rw [h]
      rfl
  | succ k ih =>
      have hdiv : n / 256 < 256 ^ k := by
        rw [pow_succ] at h
        exact Nat.div_lt_of_lt_mul (by rwa [Nat.mul_comm])
      have hdigit : Radix.value 256 [(UInt8.ofNat (n % 256)).toNat] = n % 256 := by
        have hmod : n % 256 < 256 := Nat.mod_lt _ (by norm_num)
        simp [Radix.value, Nat.mod_eq_of_lt hmod]
      have hrest := ih hdiv
      unfold ofBigEndian at hrest ⊢
      rw [bigEndian, List.map_append, Radix.value_append, hrest, List.map_singleton, hdigit]
      simp [Nat.div_add_mod]

/-- The first byte is zero only if one byte less is enough. -/
theorem bigEndian_head {k n : ℕ} (h : 256 ^ k ≤ n) (hn : n < 256 ^ (k + 1)) :
    (bigEndian (k + 1) n).head? ≠ some 0 := by
  intro hzero
  have hvalue := ofBigEndian_bigEndian (k + 1) hn
  have hlen := length_bigEndian (k + 1) n
  cases hb : bigEndian (k + 1) n with
  | nil => rw [hb] at hzero; cases hzero
  | cons b rest =>
      rw [hb] at hzero hvalue hlen
      obtain rfl := Option.some.inj hzero
      have hrest : ∀ d ∈ rest.map UInt8.toNat, d < 256 := by simpa using fun x _ => x.toNat_lt
      have hlt := Radix.value_lt (by norm_num) hrest
      rw [List.length_map, Nat.succ.inj hlen] at hlt
      have hskip : ofBigEndian (0 :: rest) = Radix.value 256 (rest.map UInt8.toNat) := by
        simp [ofBigEndian, Radix.value]
      omega

end Py
