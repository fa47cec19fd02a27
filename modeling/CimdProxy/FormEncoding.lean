import CimdProxy.Json

/-! # UTF-8 and form encoding

`utf8` and `utf8Decode` are `str.encode("utf-8")` and `bytes.decode("utf-8")`, the latter in its
strict form and in the form that puts U+FFFD for what is malformed.  Over them stand
`quote_plus`, `urlencode` and `parse_qsl` of `urllib.parse`.  The main result is
`parseQsl_urlencode`: parsing what `urlencode` wrote gives back every pair with its exact value. -/

namespace Py

/-! ### UTF-8 -/

/-- The bytes of one character. -/
def utf8Char (c : Char) : Bytes :=
  let n := c.toNat
  if n < 0x80 then [UInt8.ofNat n]
  else if n < 0x800 then [UInt8.ofNat (0xC0 + n / 64), UInt8.ofNat (0x80 + n % 64)]
  else if n < 0x10000 then
    [UInt8.ofNat (0xE0 + n / 4096), UInt8.ofNat (0x80 + n / 64 % 64), UInt8.ofNat (0x80 + n % 64)]
  else
    [UInt8.ofNat (0xF0 + n / 262144), UInt8.ofNat (0x80 + n / 4096 % 64),
      UInt8.ofNat (0x80 + n / 64 % 64), UInt8.ofNat (0x80 + n % 64)]

/-- `s.encode("utf-8")`. -/
def utf8 (s : Str) : Bytes := s.flatMap utf8Char

/-- A continuation byte. -/
def isCont (b : UInt8) : Bool := 0x80 ≤ b.toNat && b.toNat < 0xC0

/-- What may follow the lead byte of three, shutting out long forms and surrogates. -/
def isSecondOfThree (b₀ b₁ : UInt8) : Bool :=
  if b₀.toNat = 0xE0 then 0xA0 ≤ b₁.toNat && b₁.toNat < 0xC0
  else if b₀.toNat = 0xED then 0x80 ≤ b₁.toNat && b₁.toNat < 0xA0
  else isCont b₁

/-- What may follow the lead byte of four, shutting out long forms and values past U+10FFFF. -/
def isSecondOfFour (b₀ b₁ : UInt8) : Bool :=
  if b₀.toNat = 0xF0 then 0x90 ≤ b₁.toNat && b₁.toNat < 0xC0
  else if b₀.toNat = 0xF4 then 0x80 ≤ b₁.toNat && b₁.toNat < 0x90
  else isCont b₁

/-- The characters of a byte string; `none` for each longest malformed piece. -/
def utf8Pieces : Bytes → List (Option Char)
  | [] => []
  | b₀ :: r₀ =>
      if b₀.toNat < 0x80 then some (Char.ofNat b₀.toNat) :: utf8Pieces r₀
      else if 0xC2 ≤ b₀.toNat ∧ b₀.toNat < 0xE0 then
        match r₀ with
        | [] => [none]
        | b₁ :: r₁ =>
            if isCont b₁ then
              some (Char.ofNat ((b₀.toNat - 0xC0) * 64 + (b₁.toNat - 0x80))) :: utf8Pieces r₁
            else none :: utf8Pieces (b₁ :: r₁)
      else if 0xE0 ≤ b₀.toNat ∧ b₀.toNat < 0xF0 then
        match r₀ with
        | [] => [none]
        | b₁ :: r₁ =>
            if isSecondOfThree b₀ b₁ then
              match r₁ with
              | [] => [none]
              | b₂ :: r₂ =>
                  if isCont b₂ then
                    some (Char.ofNat ((b₀.toNat - 0xE0) * 4096 + (b₁.toNat - 0x80) * 64 +
                      (b₂.toNat - 0x80))) :: utf8Pieces r₂
                  else none :: utf8Pieces (b₂ :: r₂)
            else none :: utf8Pieces (b₁ :: r₁)
      else if 0xF0 ≤ b₀.toNat ∧ b₀.toNat < 0xF5 then
        match r₀ with
        | [] => [none]
        | b₁ :: r₁ =>
            if isSecondOfFour b₀ b₁ then
              match r₁ with
              | [] => [none]
              | b₂ :: r₂ =>
                  if isCont b₂ then
                    match r₂ with
                    | [] => [none]
                    | b₃ :: r₃ =>
                        if isCont b₃ then
                          some (Char.ofNat ((b₀.toNat - 0xF0) * 262144 +
                            (b₁.toNat - 0x80) * 4096 + (b₂.toNat - 0x80) * 64 +
                            (b₃.toNat - 0x80))) :: utf8Pieces r₃
                        else none :: utf8Pieces (b₃ :: r₃)
                  else none :: utf8Pieces (b₂ :: r₂)
            else none :: utf8Pieces (b₁ :: r₁)
      else none :: utf8Pieces r₀

/-- `b.decode("utf-8")`; `none` is the `UnicodeDecodeError`. -/
def utf8Decode (b : Bytes) : Option Str := (utf8Pieces b).mapM id

/-- `b.decode("utf-8", "replace")`. -/
def utf8DecodeReplace (b : Bytes) : Str :=
  (utf8Pieces b).map (fun c => c.getD (Char.ofNat 0xFFFD))

/-! ### Quoting -/

/-- The characters `quote` never touches. -/
def isAlwaysSafe (c : Char) : Bool :=
  isAsciiChar c && (c.isAlphanum || c == '_' || c == '.' || c == '-' || c == '~')

def hexDigitUpper (n : ℕ) : Char := (Nat.digitChar n).toUpper

/-- `"%{:02X}".format(b)`. -/
def percentByte (b : UInt8) : Str :=
  ['%', hexDigitUpper (b.toNat / 16), hexDigitUpper (b.toNat % 16)]

def quoteChar (c : Char) : Str :=
  if isAlwaysSafe c then [c] else (utf8Char c).flatMap percentByte

/-- `quote_plus(s)`. -/
def quotePlus (s : Str) : Str := s.flatMap (fun c => if c = ' ' then ['+'] else quoteChar c)

def encodePair (p : Str × Str) : Str := quotePlus p.1 ++ '=' :: quotePlus p.2

/-- `urlencode(pairs)`. -/
def urlencode (pairs : List (Str × Str)) : Str := join "&" (pairs.map encodePair)

/-! ### Parsing -/

/-- `unquote_to_bytes(s)`. -/
def unquoteToBytes : Str → Bytes
  | [] => []
  | c :: rest =>
      if c = '%' then
        match rest with
        | a :: b :: rest' =>
            match Json.hexVal a, Json.hexVal b with
            | some h, some l => UInt8.ofNat (16 * h + l) :: unquoteToBytes rest'
            | _, _ => utf8Char c ++ unquoteToBytes (a :: b :: rest')
        | [a] => utf8Char c ++ unquoteToBytes [a]
        | [] => utf8Char c
      else utf8Char c ++ unquoteToBytes rest

/-- `unquote(s)`: escapes are decoded within each run of ASCII characters. -/
def unquote (s : Str) : Str :=
  if s.contains '%' then
    (s.splitBy (fun a b => isAsciiChar a == isAsciiChar b)).flatMap
      (fun run => if isAscii run then utf8DecodeReplace (unquoteToBytes run) else run)
  else s

def plusToSpace (s : Str) : Str := s.map (fun c => if c = '+' then ' ' else c)

/-- `unquote_plus(s)`. -/
def unquotePlus (s : Str) : Str := unquote (plusToSpace s)

def parseField (field : Str) : Option (Str × Str) :=
  if field.isEmpty then none
  else
    let (name, _, value) := partition '=' field
    some (unquotePlus name, unquotePlus value)

/-- `parse_qsl(qs, keep_blank_values=True)`. -/
def parseQsl (qs : Str) : List (Str × Str) := (qs.splitOn '&').filterMap parseField

/-! ### UTF-8 round trip -/

theorem toNat_ofNat_of_lt {n : ℕ} (h : n < 256) : (UInt8.ofNat n).toNat = n := by
  simp [Nat.mod_eq_of_lt h]

theorem utf8Pieces_utf8Char (c : Char) (r : Bytes) :
    utf8Pieces (utf8Char c ++ r) = some c :: utf8Pieces r := by
  have hv : c.toNat < 0xD800 ∨ (0xDFFF < c.toNat ∧ c.toNat < 0x110000) := c.valid
  unfold utf8Char
  dsimp only
  split_ifs with h1 h2 h3
  · rw [List.singleton_append, utf8Pieces.eq_def]
    simp only [toNat_ofNat_of_lt (show c.toNat < 256 by omega), h1, if_true, Char.ofNat_toNat]
  · rw [List.cons_append, List.singleton_append, utf8Pieces.eq_def]
    simp only [toNat_ofNat_of_lt (show 0xC0 + c.toNat / 64 < 256 by omega),
      toNat_ofNat_of_lt (show 0x80 + c.toNat % 64 < 256 by omega), isCont]
    rw [if_neg (by omega), if_pos (by omega), if_pos (by simp; omega),
      show (0xC0 + c.toNat / 64 - 0xC0) * 64 + (0x80 + c.toNat % 64 - 0x80) = c.toNat by omega,
      Char.ofNat_toNat]
  · have e0 := toNat_ofNat_of_lt (show 0xE0 + c.toNat / 4096 < 256 by omega)
    have e1 := toNat_ofNat_of_lt (show 0x80 + c.toNat / 64 % 64 < 256 by omega)
    have e2 := toNat_ofNat_of_lt (show 0x80 + c.toNat % 64 < 256 by omega)
    have hsnd : isSecondOfThree (UInt8.ofNat (0xE0 + c.toNat / 4096))
        (UInt8.ofNat (0x80 + c.toNat / 64 % 64)) = true := by
      unfold isSecondOfThree isCont
      rw [e0, e1]
      split_ifs <;> simp <;> omega
    have hcont : isCont (UInt8.ofNat (0x80 + c.toNat % 64)) = true := by
      unfold isCont
      rw [e2]
      simp
      omega
    simp only [List.cons_append, List.nil_append]
    rw [utf8Pieces.eq_def]
    simp only [hsnd, hcont, if_true, e0, e1, e2]
    rw [if_neg (by omega), if_neg (by omega), if_pos (by omega),
      show (0xE0 + c.toNat / 4096 - 0xE0) * 4096 + (0x80 + c.toNat / 64 % 64 - 0x80) * 64 +
        (0x80 + c.toNat % 64 - 0x80) = c.toNat by omega, Char.ofNat_toNat]
  · have e0 := toNat_ofNat_of_lt (show 0xF0 + c.toNat / 262144 < 256 by omega)
    have e1 := toNat_ofNat_of_lt (show 0x80 + c.toNat / 4096 % 64 < 256 by omega)
    have e2 := toNat_ofNat_of_lt (show 0x80 + c.toNat / 64 % 64 < 256 by omega)
    have e3 := toNat_ofNat_of_lt (show 0x80 + c.toNat % 64 < 256 by omega)
    have hsnd : isSecondOfFour (UInt8.ofNat (0xF0 + c.toNat / 262144))
        (UInt8.ofNat (0x80 + c.toNat / 4096 % 64)) = true := by
      unfold isSecondOfFour isCont
      rw [e0, e1]
      split_ifs <;> simp <;> omega
    have hcont : ∀ k, k < 64 → isCont (UInt8.ofNat (0x80 + k)) = true := by
      intro k hk
      unfold isCont
      rw [toNat_ofNat_of_lt (by omega)]
      simp
      omega
    simp only [List.cons_append, List.nil_append]
    rw [utf8Pieces.eq_def]
    simp only [hsnd, hcont _ (Nat.mod_lt _ (by norm_num : 0 < 64)), if_true, e0, e1, e2, e3]
    rw [if_neg (by omega), if_neg (by omega), if_neg (by omega), if_pos (by omega),
      show (0xF0 + c.toNat / 262144 - 0xF0) * 262144 + (0x80 + c.toNat / 4096 % 64 - 0x80) * 4096 +
        (0x80 + c.toNat / 64 % 64 - 0x80) * 64 + (0x80 + c.toNat % 64 - 0x80) = c.toNat by omega,
      Char.ofNat_toNat]

theorem utf8Pieces_utf8 (s : Str) : utf8Pieces (utf8 s) = s.map some := by
  induction s with
  | nil => rfl
  | cons c s ih => rw [utf8, List.flatMap_cons, utf8Pieces_utf8Char, ← utf8, ih, List.map_cons]

/-- Decoding undoes encoding. -/
theorem utf8Decode_utf8 (s : Str) : utf8Decode (utf8 s) = some s := by
  rw [utf8Decode, utf8Pieces_utf8]
  induction s with
  | nil => rfl
  | cons c s ih => simp [ih]

theorem utf8DecodeReplace_utf8 (s : Str) : utf8DecodeReplace (utf8 s) = s := by
  rw [utf8DecodeReplace, utf8Pieces_utf8]
  induction s with
  | nil => rfl
  | cons c s ih => simp

/-! ### What quoted text looks like -/

/-- The characters of `quote_plus` text. -/
def isQuoted (c : Char) : Bool := isAlwaysSafe c || c == '%' || c == '+'

theorem hexDigitUpper_spec : ∀ n, n < 16 →
    isAlwaysSafe (hexDigitUpper n) = true ∧ Json.hexVal (hexDigitUpper n) = some n := by decide

theorem isAlwaysSafe_ascii {c : Char} (h : isAlwaysSafe c = true) : c.toNat < 128 := by
  unfold isAlwaysSafe isAsciiChar at h
  simp at h
  exact h.1

theorem isQuoted_of_safe {c : Char} (h : isAlwaysSafe c = true) : isQuoted c = true := by
  simp [isQuoted, h]

theorem byte_lt (b : UInt8) : b.toNat / 16 < 16 ∧ b.toNat % 16 < 16 := by
  have := b.toNat_lt_size
  simp only [UInt8.size] at this
  omega

theorem isQuoted_percentByte (b : UInt8) : ∀ c ∈ percentByte b, isQuoted c = true := by
  obtain ⟨h1, h2⟩ := byte_lt b
  intro c hc
  simp only [percentByte, List.mem_cons, List.not_mem_nil, or_false] at hc
  rcases hc with rfl | rfl | rfl
  · decide
  · exact isQuoted_of_safe (hexDigitUpper_spec _ h1).1
  · exact isQuoted_of_safe (hexDigitUpper_spec _ h2).1

theorem isQuoted_quotePlus (s : Str) : ∀ c ∈ quotePlus s, isQuoted c = true := by
  intro c hc
  obtain ⟨x, -, hx⟩ := List.mem_flatMap.mp hc
  split_ifs at hx with h
  · rw [List.mem_singleton.mp hx]
    decide
  · unfold quoteChar at hx
    split_ifs at hx with hs
    · rw [List.mem_singleton.mp hx]
      exact isQuoted_of_safe hs
    · obtain ⟨b, -, hb⟩ := List.mem_flatMap.mp hx
      exact isQuoted_percentByte b c hb

theorem isQuoted_ascii {c : Char} (h : isQuoted c = true) : isAsciiChar c = true := by
  simp only [isQuoted, Bool.or_eq_true, beq_iff_eq] at h
  rcases h with (h | rfl) | rfl
  · simpa [isAsciiChar] using isAlwaysSafe_ascii h
  · decide
  · decide

/-- Quoted text has no delimiter in it. -/
theorem not_mem_quotePlus {c : Char} (hc : isQuoted c = false) (s : Str) : c ∉ quotePlus s := by
  intro h
  rw [isQuoted_quotePlus s c h] at hc
  cases hc

theorem isQuoted_encodePair {p : Str × Str} {c : Char} (hc : c ∈ encodePair p) :
    isQuoted c = true ∨ c = '=' := by
  simp only [encodePair, List.mem_append, List.mem_cons] at hc
  rcases hc with h | rfl | h
  · exact .inl (isQuoted_quotePlus _ c h)
  · exact .inr rfl
  · exact .inl (isQuoted_quotePlus _ c h)

theorem join_cons_cons (sep a b : Str) (l : List Str) :
    join sep (a :: b :: l) = a ++ (sep ++ join sep (b :: l)) := by
  simp [join, List.intercalate, List.intersperse]

theorem mem_join {sep : Str} {parts : List Str} {c : Char} (h : c ∈ join sep parts) :
    c ∈ sep ∨ ∃ p ∈ parts, c ∈ p := by
  induction parts with
  | nil => simp [join] at h
  | cons a l ih =>
      cases l with
      | nil =>
          right
          exact ⟨a, by simp, by simpa [join] using h⟩
      | cons b l =>
          rw [join_cons_cons] at h
          rcases List.mem_append.mp h with h | h
          · exact .inr ⟨a, by simp, h⟩
          · rcases List.mem_append.mp h with h | h
            · exact .inl h
            · rcases ih h with h | ⟨p, hp, hc⟩
              · exact .inl h
              · exact .inr ⟨p, List.mem_cons_of_mem _ hp, hc⟩

/-- The characters of form-encoded text. -/
theorem isQuoted_urlencode {ps : List (Str × Str)} {c : Char} (hc : c ∈ urlencode ps) :
    isQuoted c = true ∨ c = '=' ∨ c = '&' := by
  rcases mem_join hc with h | ⟨f, hf, hc⟩
  · exact .inr (.inr (List.mem_singleton.mp h))
  · obtain ⟨p, -, rfl⟩ := List.mem_map.mp hf
    rcases isQuoted_encodePair hc with h | h
    · exact .inl h
    · exact .inr (.inl h)

/-! ### Reading quoted text -/

theorem unquoteToBytes_percentByte (b : UInt8) (r : Str) :
    unquoteToBytes (percentByte b ++ r) = b :: unquoteToBytes r := by
  obtain ⟨h1, h2⟩ := byte_lt b
  have hb : 16 * (b.toNat / 16) + b.toNat % 16 = b.toNat := by omega
  simp only [percentByte, List.cons_append, List.nil_append]
  rw [unquoteToBytes.eq_def]
  simp only [if_true, (hexDigitUpper_spec _ h1).2, (hexDigitUpper_spec _ h2).2, hb]
  simp

theorem unquoteToBytes_percentBytes (bs : Bytes) (r : Str) :
    unquoteToBytes (bs.flatMap percentByte ++ r) = bs ++ unquoteToBytes r := by
  induction bs with
  | nil => rfl
  | cons b bs ih =>
      rw [List.flatMap_cons, List.append_assoc, unquoteToBytes_percentByte, ih, List.cons_append]

theorem unquoteToBytes_of_ne {c : Char} (hc : c ≠ '%') (r : Str) :
    unquoteToBytes (c :: r) = utf8Char c ++ unquoteToBytes r := by
  rw [unquoteToBytes.eq_def]
  simp only [hc, if_false]

theorem plusToSpace_eq_self {s : Str} (h : '+' ∉ s) : plusToSpace s = s := by
  unfold plusToSpace
  conv_rhs => rw [← List.map_id s]
  refine List.map_congr_left fun c hc => ?_
  have : c ≠ '+' := by rintro rfl; exact h hc
  simp [this]

theorem plus_not_mem_percentBytes (bs : Bytes) : '+' ∉ bs.flatMap percentByte := by
  intro h
  obtain ⟨b, -, hb⟩ := List.mem_flatMap.mp h
  obtain ⟨h1, h2⟩ := byte_lt b
  have hne : ∀ n, n < 16 → '+' ≠ hexDigitUpper n := by decide
  simp only [percentByte, List.mem_cons, List.not_mem_nil, or_false] at hb
  rcases hb with h | h | h
  · exact absurd h (by decide)
  · exact hne _ h1 h
  · exact hne _ h2 h

theorem unquoteToBytes_quotePlus (s : Str) :
    unquoteToBytes (plusToSpace (quotePlus s)) = utf8 s := by
  induction s with
  | nil => rfl
  | cons c s ih =>
      rw [quotePlus, List.flatMap_cons, plusToSpace, List.map_append, ← plusToSpace, ← plusToSpace,
        ← quotePlus, utf8, List.flatMap_cons, ← utf8]
      split_ifs with hc
      · subst hc
        simp only [plusToSpace, List.map_cons, List.map_nil, if_true, List.singleton_append]
        rw [unquoteToBytes_of_ne (by decide), ← plusToSpace, ih]
      · unfold quoteChar
        split_ifs with hs
        · have hplus : c ≠ '+' := by rintro rfl; revert hs; decide
          have hpct : c ≠ '%' := by rintro rfl; revert hs; decide
          rw [plusToSpace_eq_self (s := [c]) (by simpa using Ne.symm hplus), List.singleton_append,
            unquoteToBytes_of_ne hpct, ih]
        · rw [plusToSpace_eq_self (plus_not_mem_percentBytes _), unquoteToBytes_percentBytes, ih]

theorem unquote_of_ascii {s : Str} (hs : isAscii s = true) (hp : '%' ∈ s) :
    unquote s = utf8DecodeReplace (unquoteToBytes s) := by
  have hne : s ≠ [] := List.ne_nil_of_mem hp
  have hchain : s.IsChain (fun a b => (isAsciiChar a == isAsciiChar b) = true) := by
    rw [isAscii, List.all_eq_true] at hs
    refine List.Pairwise.isChain (List.pairwise_of_forall_mem_list fun a ha b hb => ?_)
    rw [hs a ha, hs b hb]
    rfl
  rw [unquote, if_pos (by simpa using hp), List.splitBy_of_isChain hne hchain]
  simp [hs]

/-- Text without escapes is what it decodes to. -/
theorem unquoteToBytes_of_not_mem {s : Str} (h : '%' ∉ s) : unquoteToBytes s = utf8 s := by
  induction s with
  | nil => rfl
  | cons c s ih =>
      have hc : c ≠ '%' := by rintro rfl; exact h (by simp)
      rw [unquoteToBytes_of_ne hc, ih (fun hm => h (by simp [hm]))]
      rfl

/-- **Reading undoes quoting.** -/
theorem unquotePlus_quotePlus (s : Str) : unquotePlus (quotePlus s) = s := by
  have hascii : isAscii (plusToSpace (quotePlus s)) = true := by
    rw [isAscii, List.all_eq_true]
    intro c hc
    obtain ⟨x, hx, rfl⟩ := List.mem_map.mp hc
    have := isQuoted_ascii (isQuoted_quotePlus s x hx)
    split_ifs
    · decide
    · exact this
  have hb := unquoteToBytes_quotePlus s
  unfold unquotePlus
  by_cases hp : '%' ∈ plusToSpace (quotePlus s)
  · rw [unquote_of_ascii hascii hp, hb, utf8DecodeReplace_utf8]
  · rw [unquoteToBytes_of_not_mem hp] at hb
    rw [unquote, if_neg (by simpa using hp)]
    have h1 := utf8DecodeReplace_utf8 (plusToSpace (quotePlus s))
    rw [hb, utf8DecodeReplace_utf8] at h1
    exact h1.symm

theorem parseField_encodePair (p : Str × Str) : parseField (encodePair p) = some p := by
  have hne : (encodePair p).isEmpty = false := by simp [encodePair]
  have hpart : partition '=' (encodePair p) = (quotePlus p.1, true, quotePlus p.2) :=
    partition_append (not_mem_quotePlus (by decide) _) _
  simp only [parseField, hne, Bool.false_eq_true, if_false, hpart, unquotePlus_quotePlus]

theorem amp_not_mem_encodePair (p : Str × Str) : '&' ∉ encodePair p := by
  intro h
  rcases isQuoted_encodePair h with h | h
  · exact absurd h (by decide)
  · exact absurd h (by decide)

/-- The fields of form-encoded text. -/
theorem splitOn_urlencode {ps : List (Str × Str)} (hps : ps ≠ []) :
    (urlencode ps).splitOn '&' = ps.map encodePair := by
  refine List.splitOn_intercalate (x := '&') ?_ (by simpa using hps)
  intro l hl
  obtain ⟨p, -, rfl⟩ := List.mem_map.mp hl
  exact amp_not_mem_encodePair p

/-- **Parsing form-encoded pairs gives these pairs, each with its exact value.** -/
theorem parseQsl_urlencode (ps : List (Str × Str)) : parseQsl (urlencode ps) = ps := by
  by_cases hps : ps = []
  · subst hps
    decide
  · rw [parseQsl, splitOn_urlencode hps, List.filterMap_map]
    have : (parseField ∘ encodePair) = some := by
      funext p
      exact parseField_encodePair p
    rw [this, List.filterMap_some]

end Py
