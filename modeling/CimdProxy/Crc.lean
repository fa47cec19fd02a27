import Mathlib

/-! # Bit-reflected cyclic redundancy checks

The register of a reflected CRC is shifted right once for each bit of the message, and the polynomial
is added whenever a bit falls out.  `fold_eq` turns a run over a message into shifts of one number, the
message with its first byte lowest.  A shift is linear and, when the polynomial has its top bit, has no
kernel below `2 ^ w`; so messages that differ within `w` consecutive bits leave different registers
(`fold_burst_ne`), whatever stands around the difference. -/

namespace Crc

/-- One shift of the register. -/
def shift (poly x : ℕ) : ℕ := if x % 2 = 1 then (x >>> 1) ^^^ poly else x >>> 1

/-- The register after one more byte. -/
def step (poly s : ℕ) (b : UInt8) : ℕ := (shift poly)^[8] (s ^^^ b.toNat)

/-- A message as a number, its first byte lowest. -/
def pack : List UInt8 → ℕ
  | [] => 0
  | b :: bs => b.toNat ^^^ (pack bs <<< 8)

variable {poly : ℕ}

/-! ### Shifts -/

theorem shift_of_odd {x : ℕ} (h : x % 2 = 1) : shift poly x = (x >>> 1) ^^^ poly := if_pos h

theorem shift_of_even {x : ℕ} (h : x % 2 = 0) : shift poly x = x >>> 1 :=
  if_neg (by rw [h]; exact zero_ne_one)

/-- A shift is linear. -/
theorem shift_xor (x y : ℕ) : shift poly (x ^^^ y) = shift poly x ^^^ shift poly y := by
  have hmod : (x ^^^ y) % 2 = (x + y) % 2 := Nat.xor_mod_two_eq
  rcases Nat.mod_two_eq_zero_or_one x with hx | hx
  · rcases Nat.mod_two_eq_zero_or_one y with hy | hy
    · rw [shift_of_even hx, shift_of_even hy, shift_of_even (by omega), Nat.shiftRight_xor_distrib]
    · rw [shift_of_even hx, shift_of_odd hy, shift_of_odd (by omega), Nat.shiftRight_xor_distrib,
        Nat.xor_assoc]
  · rcases Nat.mod_two_eq_zero_or_one y with hy | hy
    · rw [shift_of_odd hx, shift_of_even hy, shift_of_odd (by omega), Nat.shiftRight_xor_distrib,
        Nat.xor_right_comm]
    · rw [shift_of_odd hx, shift_of_odd hy, shift_of_even (by omega), Nat.shiftRight_xor_distrib,
        Nat.xor_assoc, Nat.xor_comm poly, Nat.xor_assoc, Nat.xor_self, Nat.xor_zero]

theorem iterate_shift_xor (k x y : ℕ) :
    (shift poly)^[k] (x ^^^ y) = (shift poly)^[k] x ^^^ (shift poly)^[k] y := by
  induction k generalizing x y with
  | zero => rfl
  | succ k ih => rw [Function.iterate_succ_apply, shift_xor, ih]; rfl

/-- Shifting out zeros undoes a shift to the left. -/
theorem iterate_shift_shiftLeft (k x : ℕ) : (shift poly)^[k] (x <<< k) = x := by
  induction k with
  | zero => rfl
  | succ k ih =>
      have heven : (x <<< (k + 1)) % 2 = 0 := by
        rw [Nat.shiftLeft_succ]
        omega
      rw [Function.iterate_succ_apply, shift_of_even heven, Nat.shiftLeft_succ,
        Nat.shiftRight_one, Nat.mul_div_cancel_left _ (by norm_num), ih]

/-! ### The width of the register -/

section Width

variable {w : ℕ} (hpoly : poly < 2 ^ (w + 1))
include hpoly

theorem shift_lt {x : ℕ} (hx : x < 2 ^ (w + 1)) : shift poly x < 2 ^ (w + 1) := by
  have hhalf : x >>> 1 < 2 ^ (w + 1) := (Nat.shiftRight_le x 1).trans_lt hx
  unfold shift
  split_ifs
  · exact Nat.xor_lt_two_pow hhalf hpoly
  · exact hhalf

theorem iterate_shift_lt (k : ℕ) {x : ℕ} (hx : x < 2 ^ (w + 1)) :
    (shift poly)^[k] x < 2 ^ (w + 1) := by
  induction k generalizing x with
  | zero => exact hx
  | succ k ih =>
      rw [Function.iterate_succ_apply]
      exact ih (shift_lt hpoly hx)

theorem fold_lt (hw : 8 ≤ w + 1) {s : ℕ} (hs : s < 2 ^ (w + 1)) (bs : List UInt8) :
    bs.foldl (step poly) s < 2 ^ (w + 1) := by
  induction bs generalizing s with
  | nil => exact hs
  | cons b bs ih =>
      have hb : b.toNat < 2 ^ (w + 1) := b.toNat_lt.trans_le (Nat.pow_le_pow_right (by norm_num) hw)
      rw [List.foldl_cons]
      exact ih (iterate_shift_lt hpoly 8 (Nat.xor_lt_two_pow hs hb))

omit hpoly in
/-- With the top bit in the polynomial, a nonzero register does not become zero. -/
theorem shift_ne_zero (htop : 2 ^ w ≤ poly) {x : ℕ} (hx : x < 2 ^ (w + 1)) (h0 : x ≠ 0) :
    shift poly x ≠ 0 := by
  have hhalf : x >>> 1 = x / 2 := Nat.shiftRight_one x
  rw [pow_succ] at hx
  rcases Nat.mod_two_eq_zero_or_one x with hx2 | hx2
  · rw [shift_of_even hx2]
    omega
  · rw [shift_of_odd hx2]
    intro h
    have := Nat.xor_eq_zero_iff.mp h
    omega

theorem iterate_shift_ne_zero (htop : 2 ^ w ≤ poly) (k : ℕ) {x : ℕ} (hx : x < 2 ^ (w + 1))
    (h0 : x ≠ 0) : (shift poly)^[k] x ≠ 0 := by
  induction k generalizing x with
  | zero => exact h0
  | succ k ih =>
      rw [Function.iterate_succ_apply]
      exact ih (shift_lt hpoly hx) (shift_ne_zero htop hx h0)

end Width

/-! ### Messages -/

theorem pack_lt (bs : List UInt8) : pack bs < 2 ^ (8 * bs.length) := by
  induction bs with
  | nil => simp [pack]
  | cons b bs ih =>
      have hb : b.toNat < 2 ^ (8 * (bs.length + 1)) :=
        b.toNat_lt.trans_le (Nat.pow_le_pow_right (by norm_num) (by omega))
      refine Nat.xor_lt_two_pow hb ?_
      rw [Nat.shiftLeft_eq, List.length_cons, Nat.mul_add, pow_add]
      exact Nat.mul_lt_mul_of_pos_right ih (by norm_num)

theorem pack_inj {as bs : List UInt8} (hlen : as.length = bs.length) (h : pack as = pack bs) :
    as = bs := by
  induction as generalizing bs with
  | nil => exact (List.length_eq_zero_iff.mp hlen.symm).symm
  | cons a as ih =>
      cases bs with
      | nil => cases hlen
      | cons b bs =>
          rw [pack, pack] at h
          have hlow : a.toNat = b.toNat := by
            have hz : ∀ (c : UInt8) (n : ℕ), (c.toNat ^^^ n <<< 8) % 2 ^ 8 = c.toNat := fun c n => by
              rw [Nat.xor_mod_two_pow, Nat.shiftLeft_eq, Nat.mul_mod_left, Nat.xor_zero]
              exact Nat.mod_eq_of_lt c.toNat_lt
            have := congrArg (fun n => n % 2 ^ 8) h
            simpa only [hz] using this
          have hhigh : pack as = pack bs := by
            have := congrArg (fun n => n >>> 8) h
            have hz : ∀ c : UInt8, c.toNat >>> 8 = 0 := fun c => by
              rw [Nat.shiftRight_eq_div_pow]
              exact Nat.div_eq_of_lt c.toNat_lt
            simpa [Nat.shiftRight_xor_distrib, hz, Nat.shiftLeft_shiftRight] using this
          rw [UInt8.toNat_inj.mp hlow, ih (Nat.succ.inj hlen) hhigh]

/-- A run over a message is a number of shifts. -/
theorem fold_eq (s : ℕ) (bs : List UInt8) :
    bs.foldl (step poly) s = (shift poly)^[8 * bs.length] (s ^^^ pack bs) := by
  induction bs generalizing s with
  | nil => simp [pack]
  | cons b bs ih =>
      rw [List.foldl_cons, ih, List.length_cons, Nat.mul_succ, Function.iterate_add_apply, pack,
        ← Nat.xor_assoc, iterate_shift_xor 8, iterate_shift_shiftLeft]
      rfl

theorem xor_cancel_right (a b c : ℕ) : (a ^^^ c) ^^^ (b ^^^ c) = a ^^^ b := by
  rw [Nat.xor_comm b, Nat.xor_assoc, Nat.xor_xor_cancel_left]

/-- The same message keeps registers apart by their shifted difference. -/
theorem fold_xor_fold (s s' : ℕ) (bs : List UInt8) :
    bs.foldl (step poly) s ^^^ bs.foldl (step poly) s' = (shift poly)^[8 * bs.length] (s ^^^ s') := by
  rw [fold_eq, fold_eq, ← iterate_shift_xor, xor_cancel_right]

/-- **Bursts are detected.** -/
theorem fold_burst_ne {w : ℕ} (htop : 2 ^ w ≤ poly) (hpoly : poly < 2 ^ (w + 1)) (s : ℕ)
    (front back : List UInt8) {as bs : List UInt8} (hlen : as.length = bs.length) (hne : as ≠ bs)
    (hshort : 8 * as.length ≤ w + 1) :
    (front ++ as ++ back).foldl (step poly) s ≠ (front ++ bs ++ back).foldl (step poly) s := by
  have hdiff : pack as ^^^ pack bs ≠ 0 := fun h0 => hne (pack_inj hlen (Nat.xor_eq_zero_iff.mp h0))
  have hlt : pack as ^^^ pack bs < 2 ^ (w + 1) := by
    have hw := Nat.pow_le_pow_right (n := 2) (by norm_num) hshort
    have hb := pack_lt bs
    rw [← hlen] at hb
    exact Nat.xor_lt_two_pow ((pack_lt as).trans_le hw) (hb.trans_le hw)
  -- after the burst the registers differ by its shifted difference, and the rest shifts that on
  have hburst : as.foldl (step poly) (front.foldl (step poly) s) ^^^
      bs.foldl (step poly) (front.foldl (step poly) s) =
      (shift poly)^[8 * as.length] (pack as ^^^ pack bs) := by
    rw [fold_eq _ as, fold_eq _ bs, ← hlen, ← iterate_shift_xor, Nat.xor_comm _ (pack as),
      Nat.xor_comm _ (pack bs), xor_cancel_right]
  intro h
  simp only [List.foldl_append] at h
  have hzero := Nat.xor_eq_zero_iff.mpr h
  rw [fold_xor_fold, hburst, ← Function.iterate_add_apply] at hzero
  exact iterate_shift_ne_zero hpoly htop _ hlt hdiff hzero

end Crc
