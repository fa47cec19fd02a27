import CimdProxy.Json

/-! # Reading back what was written

`scanOnce_encode` follows the writer: for every value, the scanner run on its text followed by
any text that cannot continue a number returns the value and that text.  The fuel it needs is
at most the length of the text.  `loads_dumps` is the statement about `json.dumps` and
`json.loads`; `get?_sortMembers` says that sorting does not move a member's value. -/

namespace Py.Json

/-! ### Strings -/

theorem hexVal_hexDigit : ∀ n, n < 16 → hexVal (hexDigit n) = some n := by decide

theorem hexText_four (u : ℕ) : hexText 4 u =
    [hexDigit (u / 16 / 16 / 16 % 16), hexDigit (u / 16 / 16 % 16), hexDigit (u / 16 % 16),
      hexDigit (u % 16)] := rfl

theorem hex4_hexText {u : ℕ} (hu : u < 65536) :
    hex4 (hexDigit (u / 16 / 16 / 16 % 16)) (hexDigit (u / 16 / 16 % 16)) (hexDigit (u / 16 % 16))
      (hexDigit (u % 16)) = some u := by
  simp only [hex4, hexVal_hexDigit _ (Nat.mod_lt _ (by norm_num : 0 < 16)), Option.bind_eq_bind,
    Option.bind_some, Option.pure_def, Option.some.injEq]
  omega

/-- A `\u` escape is read as its code unit. -/
theorem scanUnits_escape {u : ℕ} (hu : u < 65536) (rest : Str) :
    scanUnits ('\\' :: 'u' :: hexText 4 u ++ rest) =
      (scanUnits rest).map (fun p => (u :: p.1, p.2)) := by
  rw [hexText_four]
  simp only [List.cons_append, List.nil_append]
  rw [scanUnits]
  simp only [Char.reduceEq, if_false, if_true, hex4_hexText hu]
  cases scanUnits rest <;> rfl

theorem utf16_lt (c : Char) : ∀ u ∈ utf16 c, u < 65536 := by
  have hv : c.toNat < 0xD800 ∨ (0xDFFF < c.toNat ∧ c.toNat < 0x110000) := c.valid
  intro u hu
  simp only [utf16] at hu
  split at hu
  · simp at hu; omega
  · simp at hu; omega

theorem scanUnits_escapes (us : List ℕ) (hus : ∀ u ∈ us, u < 65536) (rest : Str) :
    scanUnits (us.flatMap (fun u => '\\' :: 'u' :: hexText 4 u) ++ rest) =
      (scanUnits rest).map (fun p => (us ++ p.1, p.2)) := by
  induction us with
  | nil => cases h : scanUnits rest <;> simp [h]
  | cons u us ih =>
      have h := scanUnits_escape (hus u (by simp))
        (us.flatMap (fun u => '\\' :: 'u' :: hexText 4 u) ++ rest)
      rw [List.flatMap_cons, List.append_assoc, h, ih (fun v hv => hus v (by simp [hv]))]
      cases scanUnits rest <;> rfl

/-- A one-letter escape is read as the code point it stands for. -/
theorem scanUnits_letter {e : Char} {u : ℕ} (he : e ≠ 'u') (hv : escapeVal e = some u) (rest : Str) :
    scanUnits ('\\' :: e :: rest) = (scanUnits rest).map (fun p => (u :: p.1, p.2)) := by
  rw [scanUnits.eq_def]
  simp only [Char.reduceEq, if_false, if_true, he, hv]
  cases scanUnits rest <;> rfl

theorem utf16_of_lt {c : Char} (h : c.toNat < 0x10000) : utf16 c = [c.toNat] := by
  simp [utf16, h]

theorem scanUnits_escapeChar (c : Char) (rest : Str) :
    scanUnits (escapeChar c ++ rest) = (scanUnits rest).map (fun p => (utf16 c ++ p.1, p.2)) := by
  have letter : ∀ (e : Char) (u : ℕ), c.toNat = u → u < 0x10000 → e ≠ 'u' → escapeVal e = some u →
      scanUnits (['\\', e] ++ rest) = (scanUnits rest).map (fun p => (utf16 c ++ p.1, p.2)) := by
    intro e u hu hlt he hv
    rw [utf16_of_lt (by omega), hu]
    exact scanUnits_letter he hv rest
  unfold escapeChar
  split_ifs with h1 h2 h3 h4 h5 h6 h7 h8
  · exact letter _ 34 (by rw [h1]; rfl) (by norm_num) (by decide) (by decide)
  · exact letter _ 92 (by rw [h2]; rfl) (by norm_num) (by decide) (by decide)
  · exact letter _ 10 (by rw [h3]; rfl) (by norm_num) (by decide) (by decide)
  · exact letter _ 13 (by rw [h4]; rfl) (by norm_num) (by decide) (by decide)
  · exact letter _ 9 (by rw [h5]; rfl) (by norm_num) (by decide) (by decide)
  · exact letter _ 12 h6 (by norm_num) (by decide) (by decide)
  · exact letter _ 8 h7 (by norm_num) (by decide) (by decide)
  · rw [utf16_of_lt (by omega), List.singleton_append, scanUnits.eq_def]
    simp only [h1, h2, if_false, show ¬ c.toNat < 32 by omega]
    cases scanUnits rest <;> rfl
  · exact scanUnits_escapes _ (utf16_lt c) rest

/-- The code units of a character are joined to the character again. -/
theorem joinUnits_utf16 (c : Char) (us : List ℕ) :
    joinUnits (utf16 c ++ us) = (joinUnits us).map (c :: ·) := by
  have hv : c.toNat < 0xD800 ∨ (0xDFFF < c.toNat ∧ c.toNat < 0x110000) := c.valid
  by_cases h : c.toNat < 0x10000
  · rw [utf16_of_lt h, List.singleton_append, joinUnits.eq_def]
    simp only [show ¬ (0xD800 ≤ c.toNat ∧ c.toNat < 0xDC00) by omega,
      show ¬ (0xDC00 ≤ c.toNat ∧ c.toNat < 0xE000) by omega, if_false, Char.ofNat_toNat]
  · have h1 : (c.toNat - 0x10000) / 0x400 < 0x400 := by omega
    have h2 : (c.toNat - 0x10000) % 0x400 < 0x400 := Nat.mod_lt _ (by norm_num)
    have hc : 0x10000 + (0xD800 + (c.toNat - 0x10000) / 0x400 - 0xD800) * 0x400 +
        (0xDC00 + (c.toNat - 0x10000) % 0x400 - 0xDC00) = c.toNat := by omega
    simp only [utf16, h, if_false, List.cons_append, List.nil_append]
    rw [joinUnits.eq_def]
    simp only [show 0xD800 ≤ 0xD800 + (c.toNat - 0x10000) / 0x400 ∧
        0xD800 + (c.toNat - 0x10000) / 0x400 < 0xDC00 by omega,
      show 0xDC00 ≤ 0xDC00 + (c.toNat - 0x10000) % 0x400 ∧
        0xDC00 + (c.toNat - 0x10000) % 0x400 < 0xE000 by omega, if_true, and_self, hc,
      Char.ofNat_toNat]

theorem scanString_quote (s r : Str) :
    scanString (s.flatMap escapeChar ++ '"' :: r) = some (s, r) := by
  have hu : scanUnits (s.flatMap escapeChar ++ '"' :: r) = some (s.flatMap utf16, r) := by
    induction s with
    | nil => simp [scanUnits.eq_def]
    | cons c s ih =>
        rw [List.flatMap_cons, List.append_assoc, scanUnits_escapeChar, ih]
        simp
  have hj : joinUnits (s.flatMap utf16) = some s := by
    clear hu
    induction s with
    | nil => simp [joinUnits]
    | cons c s ih => rw [List.flatMap_cons, joinUnits_utf16, ih]; rfl
  simp [scanString, hu, hj]

/-! ### Numbers -/

/-- Text that cannot continue a number. -/
def NumberEnd (r : Str) : Prop :=
  ∀ c t, r = c :: t → c.isDigit = false ∧ c ≠ '.' ∧ c ≠ 'e' ∧ c ≠ 'E' ∧ c ≠ '-' ∧ c ≠ '+'

theorem numberEnd_nil : NumberEnd [] := by
  intro c t h
  cases h

theorem numberEnd_comma (r : Str) : NumberEnd (',' :: r) := by
  rintro c t h
  cases h
  decide

theorem numberEnd_bracket (r : Str) : NumberEnd (']' :: r) := by
  rintro c t h
  cases h
  decide

theorem numberEnd_brace (r : Str) : NumberEnd ('}' :: r) := by
  rintro c t h
  cases h
  decide

theorem span_digits_append {r : Str} (hr : NumberEnd r) (s : Str) :
    (s ++ r).takeWhile Char.isDigit = s.takeWhile Char.isDigit ∧
    (s ++ r).dropWhile Char.isDigit = s.dropWhile Char.isDigit ++ r := by
  induction s with
  | nil =>
      cases r with
      | nil => simp
      | cons c t => simp [(hr c t rfl).1]
  | cons c s ih =>
      by_cases hc : c.isDigit
      · simp [hc, ih.1, ih.2]
      · simp [hc]

theorem scanInt_append {r : Str} (hr : NumberEnd r) {s i s' : Str}
    (h : scanInt s = some (i, s')) : scanInt (s ++ r) = some (i, s' ++ r) := by
  cases s with
  | nil => simp [scanInt] at h
  | cons c s =>
      obtain ⟨h1, h2⟩ := span_digits_append hr s
      simp only [List.cons_append, scanInt, h1, h2] at h ⊢
      split_ifs at h ⊢
      · obtain ⟨rfl, rfl⟩ := Prod.mk.inj (Option.some.inj h); rfl
      · obtain ⟨rfl, rfl⟩ := Prod.mk.inj (Option.some.inj h); rfl

theorem scanFrac_append {r : Str} (hr : NumberEnd r) (s : Str) :
    scanFrac (s ++ r) = ((scanFrac s).1, (scanFrac s).2 ++ r) := by
  match s with
  | [] =>
      match r with
      | [] => rfl
      | [c] => rfl
      | c :: d :: t => simp [scanFrac, (hr c _ rfl).2.1]
  | [p] =>
      match r with
      | [] => rfl
      | d :: t => simp [scanFrac, (hr d t rfl).1]
  | p :: d :: s =>
      obtain ⟨h1, h2⟩ := span_digits_append hr s
      simp only [List.cons_append, scanFrac, h1, h2]
      split_ifs <;> rfl

theorem scanExp_append {r : Str} (hr : NumberEnd r) (s : Str) :
    scanExp (s ++ r) = ((scanExp s).1, (scanExp s).2 ++ r) := by
  match s with
  | [] =>
      match r with
      | [] => rfl
      | [c] => rfl
      | c :: d :: t => simp [scanExp, (hr c _ rfl).2.2.1, (hr c _ rfl).2.2.2.1]
  | [e] =>
      match r with
      | [] => rfl
      | d :: t =>
          obtain ⟨h1, -, -, -, h5, h6⟩ := hr d t rfl
          simp [scanExp, h1, h5, h6]
  | [e, d] =>
      match r with
      | [] => simp
      | d' :: t =>
          obtain ⟨h1, -, -, -, h5, h6⟩ := hr d' t rfl
          simp only [List.cons_append, List.nil_append, scanExp, h1]
          simp only [List.takeWhile_cons, List.dropWhile_cons, h1]
          split_ifs <;> simp_all
  | e :: d :: d' :: s =>
      obtain ⟨h1, h2⟩ := span_digits_append hr s
      have h3 := span_digits_append hr (d' :: s)
      simp only [List.cons_append] at h3
      simp only [List.cons_append, scanExp, h1, h2, h3.1, h3.2]
      split_ifs <;> rfl

theorem scanUnsigned_append {r : Str} (hr : NumberEnd r) {neg : Bool} {s s' : Str} {v : Json}
    (h : scanUnsigned neg s = .ok (v, s')) : scanUnsigned neg (s ++ r) = .ok (v, s' ++ r) := by
  unfold scanUnsigned at h ⊢
  cases hi : scanInt s with
  | none => rw [hi] at h; cases h
  | some p =>
      obtain ⟨i, t⟩ := p
      rw [hi] at h
      rw [scanInt_append hr hi]
      dsimp only at h ⊢
      rw [scanFrac_append hr t]
      dsimp only
      rw [scanExp_append hr]
      split_ifs at h ⊢
      all_goals
        obtain ⟨rfl, rfl⟩ := Prod.mk.inj (Except.ok.inj h)
        rfl

/-- Reading a number does not depend on text that cannot continue it. -/
theorem scanNumber_append {r : Str} (hr : NumberEnd r) {s s' : Str} {v : Json}
    (h : scanNumber s = .ok (v, s')) : scanNumber (s ++ r) = .ok (v, s' ++ r) := by
  cases s with
  | nil => cases h
  | cons c s =>
      simp only [scanNumber, List.cons_append] at h ⊢
      split_ifs at h ⊢
      · exact scanUnsigned_append hr h
      · exact scanUnsigned_append hr h

/-- The first character of a number. -/
theorem scanNumber_head {c : Char} {s : Str} {p : Json × Str} (h : scanNumber (c :: s) = .ok p) :
    c = '-' ∨ c.isDigit = true := by
  by_cases hc : c = '-'
  · exact .inl hc
  · right
    by_contra hd
    have h0 : c ≠ '0' := by rintro rfl; exact hd (by decide)
    have hi : scanInt (c :: s) = none := by simp [scanInt, h0, hd]
    simp [scanNumber, hc, scanUnsigned, hi] at h

theorem toDigits_head_ne_zero {m : ℕ} (hm : m ≠ 0) : ∀ t, Nat.toDigits 10 m ≠ '0' :: t := by
  induction m using Nat.strong_induction_on with
  | _ m ih =>
      intro t h
      by_cases hlt : m < 10
      · rw [Nat.toDigits_of_lt_base hlt] at h
        have : ∀ m, m < 10 → m ≠ 0 → Nat.digitChar m ≠ '0' := by decide
        exact this m hlt hm (List.cons.inj h).1
      · rw [Nat.toDigits_of_base_le (by norm_num) (by omega)] at h
        cases hd : Nat.toDigits 10 (m / 10) with
        | nil => exact Nat.toDigits_ne_nil hd
        | cons d ds =>
            rw [hd] at h
            have hd0 : d = '0' := (List.cons.inj h).1
            rw [hd0] at hd
            exact ih (m / 10) (by omega) (by omega) ds hd

theorem scanInt_toDigits (m : ℕ) : scanInt (Nat.toDigits 10 m) = some (Nat.toDigits 10 m, []) := by
  have hall : ∀ c ∈ Nat.toDigits 10 m, c.isDigit = true := fun c hc =>
    Nat.isDigit_of_mem_toDigits (by norm_num) (by norm_num) hc
  cases hd : Nat.toDigits 10 m with
  | nil => exact absurd hd Nat.toDigits_ne_nil
  | cons d ds =>
      rw [hd] at hall
      have hds : ∀ c ∈ ds, c.isDigit = true := fun c hc => hall c (List.mem_cons_of_mem _ hc)
      by_cases hm : m = 0
      · subst hm
        rw [Nat.toDigits_zero] at hd
        obtain ⟨rfl, rfl⟩ := List.cons.inj hd
        decide
      · have h0 : d ≠ '0' := by rintro rfl; exact toDigits_head_ne_zero hm ds hd
        simp only [scanInt, h0, if_false, hall d (by simp), if_true,
          List.takeWhile_eq_self_iff.mpr hds, List.dropWhile_eq_nil_iff.mpr hds]

theorem scanUnsigned_toDigits (neg : Bool) {m : ℕ}
    (hm : (Nat.toDigits 10 m).length ≤ maxStrDigits) :
    scanUnsigned neg (Nat.toDigits 10 m) = .ok (.int (if neg then -(m : ℤ) else m), []) := by
  simp [scanUnsigned, scanInt_toDigits, scanFrac, scanExp, Nat.not_lt.mpr hm]

theorem scanNumber_intText {n : ℤ} (hn : (Nat.toDigits 10 n.natAbs).length ≤ maxStrDigits) :
    scanNumber (intText n) = .ok (.int n, []) := by
  cases n with
  | ofNat m =>
      have h := scanUnsigned_toDigits (m := m) false hn
      simp only [intText]
      cases hd : Nat.toDigits 10 m with
      | nil => exact absurd hd Nat.toDigits_ne_nil
      | cons d ds =>
          have hdig : d.isDigit = true :=
            Nat.isDigit_of_mem_toDigits (by norm_num) (by norm_num) (hd ▸ List.mem_cons_self)
          have hne : d ≠ '-' := by rintro rfl; revert hdig; decide
          rw [hd] at h
          simpa [scanNumber, hne] using h
  | negSucc m =>
      simp only [intText, scanNumber, if_true]
      rw [scanUnsigned_toDigits (m := m + 1) true hn]
      simp [Int.negSucc_eq]

/-! ### Values -/

mutual
/-- What a value read from JSON is: the keys of a dict differ, a float is a float literal, an
integer has no more digits than Python converts. -/
def WF : Json → Prop
  | .int n => (Nat.toDigits 10 n.natAbs).length ≤ maxStrDigits
  | .float l => scanNumber l = .ok (.float l, [])
  | .arr xs => WFElems xs
  | .obj ms => (ms.map Prod.fst).Nodup ∧ WFMembers ms
  | _ => True
def WFElems : List Json → Prop
  | [] => True
  | x :: xs => WF x ∧ WFElems xs
def WFMembers : List (Str × Json) → Prop
  | [] => True
  | (_, v) :: ms => WF v ∧ WFMembers ms
end

theorem skipSpace_cons {c : Char} (hc : isJsonSpace c = false) (r : Str) :
    skipSpace (c :: r) = c :: r := by
  simp [skipSpace, hc]

/-- A number starts with a character that starts nothing else. -/
theorem scanOnce_number {n : ℕ} {s : Str} {p : Json × Str} (h : scanNumber s = .ok p) :
    scanOnce (n + 1) s = .ok p := by
  cases s with
  | nil => simp [scanNumber] at h
  | cons c s =>
      have hne : c ≠ '"' ∧ c ≠ '[' ∧ c ≠ '{' ∧ c ≠ 'n' ∧ c ≠ 't' ∧ c ≠ 'f' := by
        rcases scanNumber_head h with rfl | hd
        · decide
        · refine ⟨?_, ?_, ?_, ?_, ?_, ?_⟩ <;> (rintro rfl; revert hd; decide)
      obtain ⟨h1, h2, h3, h4, h5, h6⟩ := hne
      simp only [scanOnce, h1, h2, h3, h4, h5, h6, if_false]
      exact h

/-- The first character of a value is neither white space nor a closing bracket. -/
theorem encode_head {v : Json} (hv : WF v) : ∃ c t, encode v = c :: t ∧ isJsonSpace c = false ∧ c ≠ ']' := by
  have num : ∀ {s : Str} {p : Json × Str}, scanNumber s = .ok p →
      ∃ c t, s = c :: t ∧ isJsonSpace c = false ∧ c ≠ ']' := by
    intro s p h
    cases s with
    | nil => simp [scanNumber] at h
    | cons c s =>
        refine ⟨c, s, rfl, ?_⟩
        rcases scanNumber_head h with rfl | hd
        · decide
        · have : ∀ c : Char, c.isDigit = true → c ≠ ' ' ∧ c ≠ '\t' ∧ c ≠ '\n' ∧ c ≠ '\r' ∧ c ≠ ']' := by
            intro c hd
            refine ⟨?_, ?_, ?_, ?_, ?_⟩ <;> (rintro rfl; revert hd; decide)
          obtain ⟨h1, h2, h3, h4, h5⟩ := this c hd
          exact ⟨by simp [isJsonSpace, h1, h2, h3, h4], h5⟩
  cases v with
  | null => exact ⟨_, _, rfl, by decide, by decide⟩
  | bool b => cases b <;> exact ⟨_, _, rfl, by decide, by decide⟩
  | int n => exact num (scanNumber_intText hv)
  | float l => exact num hv
  | str s => exact ⟨_, _, rfl, by decide, by decide⟩
  | arr xs => cases xs <;> exact ⟨_, _, rfl, by decide, by decide⟩
  | obj ms => cases ms <;> exact ⟨_, _, rfl, by decide, by decide⟩

theorem encodeMore_head (xs : List Json) : ∃ c t, encodeMore xs = c :: t ∧ (c = ']' ∨ c = ',') := by
  cases xs with
  | nil => exact ⟨']', [], rfl, .inl rfl⟩
  | cons x xs => exact ⟨',', _, rfl, .inr rfl⟩

theorem encodeMoreMembers_head (ms : List (Str × Json)) :
    ∃ c t, encodeMoreMembers ms = c :: t ∧ (c = '}' ∨ c = ',') := by
  cases ms with
  | nil => exact ⟨'}', [], rfl, .inl rfl⟩
  | cons m ms => exact ⟨',', _, rfl, .inr rfl⟩

theorem encodeMore_follow (xs : List Json) (r : Str) :
    NumberEnd (encodeMore xs ++ r) ∧ skipSpace (encodeMore xs ++ r) = encodeMore xs ++ r := by
  obtain ⟨c, t, h, hc⟩ := encodeMore_head xs
  rw [h, List.cons_append]
  rcases hc with rfl | rfl
  · exact ⟨numberEnd_bracket _, skipSpace_cons (by decide) _⟩
  · exact ⟨numberEnd_comma _, skipSpace_cons (by decide) _⟩

theorem encodeMoreMembers_follow (ms : List (Str × Json)) (r : Str) :
    NumberEnd (encodeMoreMembers ms ++ r) ∧
      skipSpace (encodeMoreMembers ms ++ r) = encodeMoreMembers ms ++ r := by
  obtain ⟨c, t, h, hc⟩ := encodeMoreMembers_head ms
  rw [h, List.cons_append]
  rcases hc with rfl | rfl
  · exact ⟨numberEnd_brace _, skipSpace_cons (by decide) _⟩
  · exact ⟨numberEnd_comma _, skipSpace_cons (by decide) _⟩

theorem skipSpace_encode {v : Json} (hv : WF v) (r : Str) :
    skipSpace (encode v ++ r) = encode v ++ r := by
  obtain ⟨c, t, h, hc, -⟩ := encode_head hv
  rw [h, List.cons_append]
  exact skipSpace_cons hc _

theorem set_of_not_mem {d : Dict} {k : Str} {v : Json} (h : k ∉ d.map Prod.fst) :
    Dict.set d k v = d ++ [(k, v)] := by
  induction d with
  | nil => rfl
  | cons m d ih =>
      simp only [List.map_cons, List.mem_cons, not_or] at h
      have hm : (m.1 == k) = false := by simpa using fun he => h.1 he.symm
      simp [Dict.set, hm, ih h.2]

/-- A dict made from members with different keys is these members. -/
theorem ofPairs_of_nodup {ms : List (Str × Json)} (h : (ms.map Prod.fst).Nodup) :
    Dict.ofPairs ms = ms := by
  have key : ∀ (ms d : List (Str × Json)), ((d ++ ms).map Prod.fst).Nodup →
      ms.foldl (fun d m => Dict.set d m.1 m.2) d = d ++ ms := by
    intro ms
    induction ms with
    | nil => intro d _; simp
    | cons m ms ih =>
        intro d hd
        have hm : m.1 ∉ d.map Prod.fst := by
          rw [List.map_append, List.nodup_append] at hd
          exact fun hmem => hd.2.2 _ hmem _ (by simp) rfl
        rw [List.foldl_cons, set_of_not_mem hm, ih]
        · simp
        · simpa using hd
  exact key ms [] (by simpa using h)

mutual
theorem scanOnce_encode : ∀ (v : Json) (n : ℕ) (r : Str), WF v → (encode v).length ≤ n →
    NumberEnd r → scanOnce n (encode v ++ r) = .ok (v, r)
  | .null, n, r, _, hn, _ => by
      obtain ⟨n, rfl⟩ : ∃ k, n = k + 1 := ⟨n - 1, by simp [encode] at hn; omega⟩
      simp [encode, scanOnce]
  | .bool true, n, r, _, hn, _ => by
      obtain ⟨n, rfl⟩ : ∃ k, n = k + 1 := ⟨n - 1, by simp [encode] at hn; omega⟩
      simp [encode, scanOnce]
  | .bool false, n, r, _, hn, _ => by
      obtain ⟨n, rfl⟩ : ∃ k, n = k + 1 := ⟨n - 1, by simp [encode] at hn; omega⟩
      simp [encode, scanOnce]
  | .int i, n, r, hv, hn, hr => by
      have h := scanNumber_intText hv
      obtain ⟨n, rfl⟩ : ∃ k, n = k + 1 := by
        refine ⟨n - 1, ?_⟩
        cases ht : intText i with
        | nil => rw [ht] at h; simp [scanNumber] at h
        | cons c t => simp [encode, ht] at hn; omega
      simp only [encode]
      exact scanOnce_number (by simpa using scanNumber_append hr h)
  | .float l, n, r, hv, hn, hr => by
      have h : scanNumber l = .ok (.float l, []) := hv
      obtain ⟨n, rfl⟩ : ∃ k, n = k + 1 := by
        refine ⟨n - 1, ?_⟩
        cases l with
        | nil => simp [scanNumber] at h
        | cons c t => simp [encode] at hn; omega
      simp only [encode]
      exact scanOnce_number (by simpa using scanNumber_append hr h)
  | .str s, n, r, _, hn, _ => by
      obtain ⟨n, rfl⟩ : ∃ k, n = k + 1 := ⟨n - 1, by simp [encode, quote] at hn; omega⟩
      simp only [encode, quote, List.cons_append, List.append_assoc, List.nil_append, scanOnce,
        if_true, scanString_quote, orDecode, Except.map]
  | .arr [], n, r, _, hn, _ => by
      obtain ⟨n, rfl⟩ : ∃ k, n = k + 1 := ⟨n - 1, by simp [encode] at hn; omega⟩
      simp [encode, scanOnce, skipSpace, isJsonSpace]
  | .arr (x :: xs), n, r, hv, hn, hr => by
      obtain ⟨n, rfl⟩ : ∃ k, n = k + 1 := ⟨n - 1, by simp [encode] at hn; omega⟩
      simp only [encode, List.length_cons, List.length_append] at hn
      obtain ⟨hfol, hskip⟩ := encodeMore_follow xs r
      have hx := scanOnce_encode x n (encodeMore xs ++ r) hv.1 (by omega) hfol
      have hxs := scanMore_encode xs n r hv.2 (by omega)
      obtain ⟨c, t, hc, hsp, hne⟩ := encode_head hv.1
      simp only [encode, List.cons_append, List.append_assoc, scanOnce, Char.reduceEq, if_false,
        if_true, skipSpace_encode hv.1]
      split
      · next heq =>
          rw [hc, List.cons_append] at heq
          exact absurd (List.cons.inj heq).1 hne
      · rw [hx]
        simp only [ok_bind, hskip, hxs]
        rfl
  | .obj [], n, r, _, hn, _ => by
      obtain ⟨n, rfl⟩ : ∃ k, n = k + 1 := ⟨n - 1, by simp [encode] at hn; omega⟩
      simp [encode, scanOnce, skipSpace, isJsonSpace]
  | .obj ((k, v) :: ms), n, r, hv, hn, hr => by
      obtain ⟨n, rfl⟩ : ∃ k, n = k + 1 := ⟨n - 1, by simp [encode] at hn; omega⟩
      simp only [encode, quote, List.length_cons, List.length_append, List.length_nil] at hn
      obtain ⟨hfol, hskip⟩ := encodeMoreMembers_follow ms r
      obtain ⟨n, rfl⟩ : ∃ k, n = k + 1 := ⟨n - 1, by omega⟩
      have hval := scanOnce_encode v n (encodeMoreMembers ms ++ r) hv.2.1 (by omega) hfol
      have hms := scanMoreMembers_encode ms (n + 1) r hv.2.2 (by omega)
      have hm : scanMember (n + 1) (quote k ++ ':' :: (encode v ++ (encodeMoreMembers ms ++ r))) =
          .ok ((k, v), encodeMoreMembers ms ++ r) := by
        simp only [quote, List.cons_append, List.append_assoc, List.nil_append, scanMember, if_true,
          scanString_quote, orDecode, ok_bind,
          skipSpace_cons (show isJsonSpace ':' = false by decide), skipSpace_encode hv.2.1, hval]
        rfl
      simp only [encode, List.cons_append, List.append_assoc, scanOnce, Char.reduceEq, if_false,
        if_true]
      have hq : skipSpace (quote k ++ ':' :: (encode v ++ (encodeMoreMembers ms ++ r))) =
          quote k ++ ':' :: (encode v ++ (encodeMoreMembers ms ++ r)) := by
        rw [quote, List.cons_append]
        exact skipSpace_cons (by decide) _
      rw [hq]
      split
      · next heq =>
          rw [quote, List.cons_append] at heq
          exact absurd (List.cons.inj heq).1 (by decide)
      · rw [hm]
        simp only [ok_bind, hskip, hms, ofPairs_of_nodup hv.1]
        rfl
theorem scanMore_encode : ∀ (xs : List Json) (n : ℕ) (r : Str), WFElems xs →
    (encodeMore xs).length ≤ n → scanMore n (encodeMore xs ++ r) = .ok (xs, r)
  | [], n, r, _, hn => by
      obtain ⟨n, rfl⟩ : ∃ k, n = k + 1 := ⟨n - 1, by simp [encodeMore] at hn; omega⟩
      simp [encodeMore, scanMore]
  | x :: xs, n, r, hv, hn => by
      obtain ⟨n, rfl⟩ : ∃ k, n = k + 1 := ⟨n - 1, by simp [encodeMore] at hn; omega⟩
      simp only [encodeMore, List.length_cons, List.length_append] at hn
      obtain ⟨hfol, hskip⟩ := encodeMore_follow xs r
      have hx := scanOnce_encode x n (encodeMore xs ++ r) hv.1 (by omega) hfol
      have hxs := scanMore_encode xs n r hv.2 (by omega)
      simp only [encodeMore, List.cons_append, List.append_assoc, scanMore, Char.reduceEq, if_false,
        if_true, skipSpace_encode hv.1, hx, ok_bind, hskip, hxs]
      rfl
theorem scanMoreMembers_encode : ∀ (ms : List (Str × Json)) (n : ℕ) (r : Str), WFMembers ms →
    (encodeMoreMembers ms).length ≤ n → scanMoreMembers n (encodeMoreMembers ms ++ r) = .ok (ms, r)
  | [], n, r, _, hn => by
      obtain ⟨n, rfl⟩ : ∃ k, n = k + 1 := ⟨n - 1, by simp [encodeMoreMembers] at hn; omega⟩
      simp [encodeMoreMembers, scanMoreMembers]
  | (k, v) :: ms, n, r, hv, hn => by
      obtain ⟨n, rfl⟩ : ∃ k, n = k + 1 := ⟨n - 1, by simp [encodeMoreMembers] at hn; omega⟩
      simp only [encodeMoreMembers, quote, List.length_cons, List.length_append,
        List.length_nil] at hn
      obtain ⟨hfol, hskip⟩ := encodeMoreMembers_follow ms r
      obtain ⟨n, rfl⟩ : ∃ k, n = k + 1 := ⟨n - 1, by omega⟩
      have hval := scanOnce_encode v n (encodeMoreMembers ms ++ r) hv.1 (by omega) hfol
      have hms := scanMoreMembers_encode ms (n + 1) r hv.2 (by omega)
      simp only [encodeMoreMembers, quote, List.cons_append, List.append_assoc, List.nil_append,
        scanMoreMembers, Char.reduceEq, if_false, if_true,
        skipSpace_cons (show isJsonSpace '"' = false by decide), scanMember, scanString_quote, orDecode,
        ok_bind,
        skipSpace_cons (show isJsonSpace ':' = false by decide), skipSpace_encode hv.1, hval,
        pure_eq_ok, hskip, hms]
end

theorem loads_encode {v : Json} (hv : WF v) : loads (encode v) = .ok v := by
  have h := scanOnce_encode v ((encode v).length + 1) [] hv (by omega) numberEnd_nil
  have hs := skipSpace_encode hv []
  rw [List.append_nil] at h hs
  unfold loads
  rw [hs, h]
  rfl

/-! ### Sorting by key -/

theorem insertMember_perm (k : Str) (v : Json) (d : Dict) : (insertMember k v d).Perm ((k, v) :: d) := by
  induction d with
  | nil => exact List.Perm.refl _
  | cons m d ih =>
      unfold insertMember
      split_ifs
      · exact List.Perm.refl _
      · exact (ih.cons m).trans (List.Perm.swap _ _ _)

/-- Sorting permutes the members and sorts inside their values. -/
theorem sortMembers_perm : ∀ d : Dict,
    (sortMembers d).Perm (d.map (fun m => (m.1, sortKeys m.2)))
  | [] => by simp [sortMembers]
  | (k, v) :: d => by
      rw [sortMembers, List.map_cons]
      exact (insertMember_perm _ _ _).trans ((sortMembers_perm d).cons _)

theorem wfMembers_iff : ∀ d : Dict, WFMembers d ↔ ∀ m ∈ d, WF m.2
  | [] => by simp [WFMembers]
  | (k, v) :: d => by simp [WFMembers, wfMembers_iff d]

mutual
theorem wf_sortKeys : ∀ {v : Json}, WF v → WF (sortKeys v)
  | .null, h => h
  | .bool _, h => h
  | .int _, h => h
  | .float _, h => h
  | .str _, h => h
  | .arr xs, h => @wfElems_sortElems xs h
  | .obj ms, h => by
      have hp := sortMembers_perm ms
      have hk := hp.map Prod.fst
      rw [List.map_map] at hk
      refine ⟨hk.nodup_iff.mpr ?_, ?_⟩
      · exact h.1
      · rw [wfMembers_iff]
        intro m hm
        obtain ⟨m', hm', rfl⟩ := List.mem_map.mp (hp.mem_iff.mp hm)
        exact wfMembers_sorted h.2 m' hm'
theorem wfElems_sortElems : ∀ {xs : List Json}, WFElems xs → WFElems (sortElems xs)
  | [], _ => trivial
  | _ :: _, h => ⟨wf_sortKeys h.1, wfElems_sortElems h.2⟩
theorem wfMembers_sorted : ∀ {ms : Dict}, WFMembers ms → ∀ m ∈ ms, WF (sortKeys m.2)
  | (_, _) :: _, h, m, hm => by
      rcases List.mem_cons.mp hm with rfl | hm
      · exact wf_sortKeys h.1
      · exact wfMembers_sorted h.2 m hm
end

mutual
theorem digitsFit_of_wf : ∀ {v : Json}, WF v → digitsFit v = true
  | .null, _ => rfl
  | .bool _, _ => rfl
  | .int _, h => decide_eq_true h
  | .float _, _ => rfl
  | .str _, _ => rfl
  | .arr _, h => digitsFitElems_of_wf h
  | .obj _, h => digitsFitMembers_of_wf h.2
theorem digitsFitElems_of_wf : ∀ {xs : List Json}, WFElems xs → digitsFitElems xs = true
  | [], _ => rfl
  | _ :: _, h => by rw [digitsFitElems, digitsFit_of_wf h.1, digitsFitElems_of_wf h.2]; rfl
theorem digitsFitMembers_of_wf : ∀ {ms : List (Str × Json)}, WFMembers ms →
    digitsFitMembers ms = true
  | [], _ => rfl
  | (_, _) :: _, h => by rw [digitsFitMembers, digitsFit_of_wf h.1, digitsFitMembers_of_wf h.2]; rfl
end

/-- **What `json.dumps` wrote, `json.loads` reads back**, members in key order. -/
theorem loads_dumps {v : Json} (hv : WF v) :
    ∃ t, dumps v = some t ∧ loads t = .ok (sortKeys v) :=
  ⟨encode (sortKeys v), by rw [dumps, if_pos (digitsFit_of_wf hv)], loads_encode (wf_sortKeys hv)⟩

end Py.Json

namespace Py.Dict

open Py.Json

theorem get?_eq_some_of_mem {d : Dict} (hd : (d.map Prod.fst).Nodup) {k : Str} {v : Json}
    (h : (k, v) ∈ d) : d.get? k = some v := by
  induction d with
  | nil => cases h
  | cons m d ih =>
      rw [List.map_cons, List.nodup_cons] at hd
      rcases List.mem_cons.mp h with rfl | h
      · simp [get?]
      · have hne : m.1 ≠ k := by
          rintro rfl
          exact hd.1 (List.mem_map.mpr ⟨_, h, rfl⟩)
        have := ih hd.2 h
        simpa [get?, hne] using this

theorem mem_of_get? {d : Dict} {k : Str} {v : Json} (h : d.get? k = some v) : (k, v) ∈ d := by
  unfold get? at h
  obtain ⟨m, hm, rfl⟩ := Option.map_eq_some_iff.mp h
  have hk : m.1 = k := by simpa using List.find?_some hm
  rw [← hk]
  exact List.mem_of_find?_eq_some hm

theorem get?_eq_none {d : Dict} {k : Str} : d.get? k = none ↔ k ∉ d.map Prod.fst := by
  unfold get?
  rw [Option.map_eq_none_iff, List.find?_eq_none]
  simp only [List.mem_map, not_exists, not_and, beq_iff_eq]

theorem get?_pop {d : Dict} {k k' : Str} (h : k ≠ k') : (d.pop k').get? k = d.get? k := by
  unfold pop get?
  congr 1
  induction d with
  | nil => rfl
  | cons m d ih =>
      by_cases hm : m.1 = k'
      · have hne : (m.1 == k) = false := by
          rw [hm]
          exact beq_eq_false_iff_ne.mpr h.symm
        rw [List.filter_cons_of_neg (by simp [hm]), List.find?_cons_of_neg (by simp [hne]), ih]
      · rw [List.filter_cons_of_pos (by simpa using hm), List.find?_cons, List.find?_cons, ih]

theorem get?_set {d : Dict} {k k' : Str} (h : k ≠ k') (v : Json) : (d.set k' v).get? k = d.get? k := by
  induction d with
  | nil => simp [set, get?, h.symm]
  | cons m d ih =>
      unfold set
      split_ifs with hm
      · have hne : m.1 ≠ k := by
          rw [eq_of_beq hm]
          exact h.symm
        simp [get?, h.symm, hne]
      · by_cases hk : m.1 = k
        · simp [get?, hk]
        · simpa [get?, hk] using ih

/-- Lookup does not see the order of the members. -/
theorem get?_perm {d e : Dict} (hd : (d.map Prod.fst).Nodup) (h : d.Perm e) (k : Str) :
    d.get? k = e.get? k := by
  have he : (e.map Prod.fst).Nodup := (h.map Prod.fst).nodup_iff.mp hd
  cases hk : e.get? k with
  | none =>
      rw [get?_eq_none] at hk ⊢
      exact fun hm => hk ((h.map Prod.fst).mem_iff.mp hm)
  | some v => exact get?_eq_some_of_mem hd (h.mem_iff.mpr (mem_of_get? hk))

/-- Sorting does not move a member's value. -/
theorem get?_sortMembers {d : Dict} (hd : (d.map Prod.fst).Nodup) (k : Str) :
    get? (sortMembers d) k = (d.get? k).map sortKeys := by
  have hp := sortMembers_perm d
  have hk := hp.map Prod.fst
  rw [List.map_map] at hk
  rw [get?_perm (hk.nodup_iff.mpr hd) hp]
  clear hp hk hd
  induction d with
  | nil => rfl
  | cons m d ih =>
      by_cases hm : m.1 = k
      · simp [get?, hm]
      · simpa [get?, hm] using ih

end Py.Dict
