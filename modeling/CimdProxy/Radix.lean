import Mathlib

/-! # Fixed-width numerals

Digits to a base, most significant first, as encoders write them: the value of a list of digits, its
bound, and that digits of one length are determined by their value. -/

namespace Radix

/-- The value of digits, most significant first. -/
def value (b : ℕ) (ds : List ℕ) : ℕ := ds.foldl (fun n d => b * n + d) 0

theorem foldl_eq (b a : ℕ) (ds : List ℕ) :
    ds.foldl (fun n d => b * n + d) a = b ^ ds.length * a + Nat.ofDigits b ds.reverse := by
  induction ds generalizing a with
  | nil => simp
  | cons d ds ih =>
      rw [List.foldl_cons, ih, Nat.ofDigits_reverse_cons, List.length_cons, pow_succ]
      ring

theorem value_eq_ofDigits (b : ℕ) (ds : List ℕ) : value b ds = Nat.ofDigits b ds.reverse := by
  unfold value
  rw [foldl_eq, Nat.mul_zero, Nat.zero_add]

theorem value_lt {b : ℕ} (hb : 1 < b) {ds : List ℕ} (h : ∀ d ∈ ds, d < b) :
    value b ds < b ^ ds.length := by
  rw [value_eq_ofDigits, ← List.length_reverse]
  exact Nat.ofDigits_lt_base_pow_length hb (fun d hd => h d (List.mem_reverse.mp hd))

theorem value_append (b : ℕ) (xs ys : List ℕ) :
    value b (xs ++ ys) = b ^ ys.length * value b xs + value b ys := by
  rw [value_eq_ofDigits, value_eq_ofDigits, value_eq_ofDigits, List.reverse_append,
    Nat.ofDigits_append, List.length_reverse, Nat.add_comm]

/-- Digits of one length are determined by their value. -/
theorem value_inj {b : ℕ} (hb : 1 < b) {xs ys : List ℕ} (hlen : xs.length = ys.length)
    (hx : ∀ d ∈ xs, d < b) (hy : ∀ d ∈ ys, d < b) (h : value b xs = value b ys) : xs = ys := by
  rw [value_eq_ofDigits, value_eq_ofDigits] at h
  refine List.reverse_injective (Nat.ofDigits_inj_of_len_eq hb ?_ ?_ ?_ h)
  · rw [List.length_reverse, List.length_reverse, hlen]
  · exact fun d hd => hx d (List.mem_reverse.mp hd)
  · exact fun d hd => hy d (List.mem_reverse.mp hd)

end Radix
