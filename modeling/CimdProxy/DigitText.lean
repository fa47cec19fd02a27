import CimdProxy.Text

/-! # Digit strings

What `int` makes of text that consists of decimal digits, in any script: the number it denotes, unless
there are more digits than `int` converts (`intOf_of_decimal`).  The digits of a number denote it
(`Denotes.toDigits`). -/

namespace Py

section Digits

variable [UnicodeData]

/-- What the Unicode database guarantees of decimal digits: they are digits, and not white space. -/
structure LawfulDigits : Prop where
  digit : ∀ c v, UnicodeData.decimal c = some v → UnicodeData.isDigit c = true
  notSpace : ∀ c v, UnicodeData.decimal c = some v → isSpace c = false

/-- The number that decimal digits denote after the number `acc`. -/
def decimalFrom (acc : ℕ) (s : Str) : Option ℕ :=
  s.foldlM (fun acc c => (digitVal c).map (fun d => 10 * acc + d)) acc

/-- The text is a digit string for the number. -/
def Denotes (s : Str) (n : ℕ) : Prop := s ≠ [] ∧ decimalFrom 0 s = some n

theorem isSome_digitVal_of_decimalFrom {acc : ℕ} {s : Str} {n : ℕ} (h : decimalFrom acc s = some n) :
    ∀ c ∈ s, (digitVal c).isSome = true := by
  induction s generalizing acc with
  | nil => exact fun c hc => nomatch hc
  | cons c s ih =>
      unfold decimalFrom at h
      rw [List.foldlM_cons] at h
      cases hv : digitVal c with
      | none => rw [hv] at h; cases h
      | some v =>
          rw [hv] at h
          intro x hx
          rcases List.mem_cons.mp hx with rfl | hx
          · rw [hv]; rfl
          · exact ih h x hx

theorem ne_of_isSome_digitVal {c d : Char} (h : (digitVal c).isSome = true) (hd : isAsciiChar d = true)
    (hdigit : d.isDigit = false) : c ≠ d := by
  rintro rfl
  unfold digitVal at h
  rw [if_pos hd, hdigit] at h
  cases h

theorem Denotes.not_underscore {s : Str} {n : ℕ} (h : Denotes s n) : '_' ∉ s := fun hm =>
  ne_of_isSome_digitVal (isSome_digitVal_of_decimalFrom h.2 _ hm) (by decide) (by decide) rfl

theorem digitVal_of_isDigit {c : Char} (h : c.isDigit = true) : digitVal c = some (c.toNat - 48) := by
  have hn : 48 ≤ c.toNat ∧ c.toNat ≤ 57 := by
    simpa [Char.isDigit, UInt32.le_iff_toNat_le] using h
  have hascii : isAsciiChar c = true := by
    unfold isAsciiChar
    exact decide_eq_true (by omega)
  unfold digitVal
  rw [if_pos hascii, if_pos h]

/-- The digits of a number denote it. -/
theorem Denotes.toDigits (n : ℕ) : Denotes (Nat.toDigits 10 n) n := by
  have hall : ∀ c ∈ Nat.toDigits 10 n, c.isDigit = true := fun c hc =>
    Nat.isDigit_of_mem_toDigits (by norm_num) (by norm_num) hc
  have hfold : ∀ (s : Str) (acc : ℕ), (∀ c ∈ s, c.isDigit = true) →
      decimalFrom acc s = some (Nat.ofDigitChars 10 s acc) := by
    intro s
    induction s with
    | nil => exact fun acc _ => rfl
    | cons c s ih =>
        intro acc hs
        unfold decimalFrom
        rw [List.foldlM_cons, digitVal_of_isDigit (hs c List.mem_cons_self), Nat.ofDigitChars_cons]
        exact ih _ (fun x hx => hs x (List.mem_cons_of_mem _ hx))
  refine ⟨Nat.toDigits_ne_nil, ?_⟩
  rw [hfold _ 0 hall, Nat.ofDigitChars_ten_toDigits]

omit [UnicodeData] in
theorem strip_eq_self {s : Str} (h : ∀ c ∈ s, isSpace c = false) : strip s = s := by
  have hdrop : s.dropWhile isSpace = s := by
    cases s with
    | nil => rfl
    | cons c t => exact List.dropWhile_cons_of_neg (by rw [h c List.mem_cons_self]; simp)
  unfold strip
  rw [hdrop, List.rdropWhile_eq_self_iff]
  intro hne
  rw [h _ (List.getLast_mem hne)]
  simp

theorem intOf_of_unsigned {s : Str} (hs : strip s = s) (hminus : ∀ t, s ≠ '-' :: t)
    (hplus : ∀ t, s ≠ '+' :: t) : intOf s =
      if maxStrDigits < (s.filter (· != '_')).length then none
      else (digitsVal s).map (fun n => (n : ℤ)) := by
  unfold intOf
  rw [hs]
  cases s with
  | nil => rfl
  | cons c t =>
      simp

section Lawful

variable (hd : LawfulDigits)
include hd

theorem LawfulDigits.not_isSpace {c : Char} (h : (digitVal c).isSome = true) : isSpace c = false := by
  unfold digitVal at h
  by_cases ha : isAsciiChar c = true
  · rw [if_pos ha] at h
    by_cases hc : c.isDigit = true
    · have hn : 48 ≤ c.toNat ∧ c.toNat ≤ 57 := by
        simpa [Char.isDigit, UInt32.le_iff_toNat_le] using hc
      unfold isSpace
      simp
      omega
    · rw [if_neg hc] at h
      cases h
  · rw [if_neg ha] at h
    obtain ⟨v, hv⟩ := Option.isSome_iff_exists.mp h
    exact hd.notSpace c v hv

theorem LawfulDigits.isDigitText {s : Str} (hne : s ≠ []) (h : ∀ c ∈ s, (digitVal c).isSome = true) :
    isDigitText s = true := by
  unfold Py.isDigitText
  rw [Bool.and_eq_true, List.all_eq_true]
  refine ⟨by simpa using hne, fun c hc => ?_⟩
  have hv := h c hc
  unfold digitVal at hv
  by_cases ha : isAsciiChar c = true
  · rw [if_pos ha] at hv ⊢
    by_contra hno
    rw [if_neg hno] at hv
    cases hv
  · rw [if_neg ha] at hv ⊢
    obtain ⟨v, hv⟩ := Option.isSome_iff_exists.mp hv
    exact hd.digit c v hv

/-- What `int` makes of a digit string. -/
theorem LawfulDigits.intOf_eq {s : Str} {n : ℕ} (h : Denotes s n) :
    intOf s = if maxStrDigits < s.length then none else some (n : ℤ) := by
  obtain ⟨hne, hval⟩ := h
  have hall := isSome_digitVal_of_decimalFrom hval
  have hno : ∀ d : Char, isAsciiChar d = true → d.isDigit = false → d ∉ s := fun d ha hdigit hm =>
    ne_of_isSome_digitVal (hall d hm) ha hdigit rfl
  have hstrip : strip s = s := strip_eq_self (fun c hc => hd.not_isSpace (hall c hc))
  have hunder : '_' ∉ s := Denotes.not_underscore ⟨hne, hval⟩
  have hfilter : s.filter (· != '_') = s := by
    rw [List.filter_eq_self]
    intro c hc
    simpa using fun h : c = '_' => hunder (h ▸ hc)
  have hgroups : digitsVal s = some n := by
    unfold digitsVal
    have hsplit : s.splitOn '_' = [s] := by
      rw [List.splitOn_eq_splitOnP]
      refine List.splitOnP_eq_singleton (fun c hc => ?_)
      simpa using fun h : c = '_' => hunder (h ▸ hc)
    have hempty : s.isEmpty = false := by simpa using hne
    rw [hsplit]
    dsimp only
    rw [if_neg (by simp [hempty]), List.flatten_singleton]
    exact hval
  rw [intOf_of_unsigned hstrip, hfilter, hgroups]
  · rfl
  · rintro t rfl
    exact hno '-' (by decide) (by decide) List.mem_cons_self
  · rintro t rfl
    exact hno '+' (by decide) (by decide) List.mem_cons_self

end Lawful

end Digits

end Py
