import Mathlib

/-! # Text as Python handles it

Strings are lists of Unicode scalar values (`Str`); byte strings are lists of `UInt8`.  The
definitions below are the string methods the proxy relies on, under the names Python gives
them.  What depends on the Unicode database outside ASCII (case mapping, normalisation, which
characters are printable or decimal digits) is the class `UnicodeData`: nothing is assumed of
it, and it is never consulted for ASCII text.

Lone surrogates, which a Python string can hold, are not Unicode scalar values and do not
occur here. -/

namespace Py

/-- A Python string. -/
abbrev Str : Type := List Char

/-- A Python byte string. -/
abbrev Bytes : Type := List UInt8

instance : Coe String Str := ⟨String.toList⟩

instance lawfulBEqStr : LawfulBEq Str := inferInstance

/-- What the Unicode database says about text outside ASCII. -/
class UnicodeData where
  lower : Str → Str
  upper : Str → Str
  nfkc : Str → Str
  isPrintable : Char → Bool
  isDigit : Char → Bool
  decimal : Char → Option ℕ

/-- A database that leaves text outside ASCII alone. -/
@[reducible] def UnicodeData.inert : UnicodeData where
  lower := id
  upper := id
  nfkc := id
  isPrintable := fun _ => true
  isDigit := fun _ => false
  decimal := fun _ => none

/-! ### Results -/

section Results

variable {ε α β : Type}

@[simp] theorem ok_bind (a : α) (f : α → Except ε β) : (Except.ok a >>= f) = f a := rfl

@[simp] theorem error_bind (e : ε) (f : α → Except ε β) :
    ((Except.error e : Except ε α) >>= f) = .error e := rfl

@[simp] theorem pure_eq_ok (a : α) : (pure a : Except ε α) = .ok a := rfl

theorem bind_eq_ok {x : Except ε α} {f : α → Except ε β} {b : β} :
    (x >>= f) = .ok b ↔ ∃ a, x = .ok a ∧ f a = .ok b := by
  cases x with
  | error e => simp
  | ok a => simp

theorem bind_eq_error {x : Except ε α} {f : α → Except ε β} {e : ε} :
    (x >>= f) = .error e ↔ x = .error e ∨ ∃ a, x = .ok a ∧ f a = .error e := by
  cases x with
  | error e' => simp
  | ok a => simp

theorem mapM_eq_ok {f : α → Except ε β} {l : List α} {r : List β} :
    l.mapM f = .ok r ↔ List.Forall₂ (fun a b => f a = .ok b) l r := by
  induction l generalizing r with
  | nil => simp [List.mapM_nil, eq_comm]
  | cons a l ih =>
      rw [List.mapM_cons]
      simp only [bind_eq_ok, ih, pure_eq_ok, Except.ok.injEq, List.forall₂_cons_left_iff]
      constructor
      · rintro ⟨b, hb, bs, hbs, rfl⟩
        exact ⟨b, bs, hb, hbs, rfl⟩
      · rintro ⟨b, bs, hb, hbs, rfl⟩
        exact ⟨b, hb, bs, hbs, rfl⟩

theorem exists_of_mem_right {r : α → β → Prop} {as : List α} {bs : List β}
    (h : List.Forall₂ r as bs) {b : β} (hb : b ∈ bs) : ∃ a ∈ as, r a b := by
  induction h with
  | nil => cases hb
  | cons hr _ ih =>
      rcases List.mem_cons.mp hb with rfl | hb
      · exact ⟨_, List.mem_cons_self, hr⟩
      · obtain ⟨a, ha, hr⟩ := ih hb
        exact ⟨a, List.mem_cons_of_mem _ ha, hr⟩

theorem exists_of_mem_left {r : α → β → Prop} {as : List α} {bs : List β}
    (h : List.Forall₂ r as bs) {a : α} (ha : a ∈ as) : ∃ b ∈ bs, r a b :=
  exists_of_mem_right h.flip ha

end Results

/-! ### Characters -/

def isAsciiChar (c : Char) : Bool := decide (c.toNat < 128)

/-- `s.isascii()`. -/
def isAscii (s : Str) : Bool := s.all isAsciiChar

/-- The characters `str.isspace` accepts, which `strip` and `split` take as whitespace. -/
def isSpace (c : Char) : Bool :=
  let n := c.toNat
  decide (9 ≤ n ∧ n ≤ 13) || decide (28 ≤ n ∧ n ≤ 32) || n == 0x85 || n == 0xA0 || n == 0x1680 ||
    decide (0x2000 ≤ n ∧ n ≤ 0x200A) || n == 0x2028 || n == 0x2029 || n == 0x202F ||
    n == 0x205F || n == 0x3000

/-- `s.lower()`. -/
def lower [UnicodeData] (s : Str) : Str :=
  if isAscii s then s.map Char.toLower else UnicodeData.lower s

/-- `s.upper()`. -/
def upper [UnicodeData] (s : Str) : Str :=
  if isAscii s then s.map Char.toUpper else UnicodeData.upper s

/-- `s.isdigit()`: not empty, and digits only. -/
def isDigitText [UnicodeData] (s : Str) : Bool :=
  !s.isEmpty && s.all (fun c => if isAsciiChar c then c.isDigit else UnicodeData.isDigit c)

/-! ### Taking text apart -/

/-- `s.partition(c)` for a one-character separator: the part before the first `c`, whether
there is one, and the part after it. -/
def partition (c : Char) (s : Str) : Str × Bool × Str :=
  match s.dropWhile (· != c) with
  | [] => (s, false, [])
  | _ :: rest => (s.takeWhile (· != c), true, rest)

/-- `s.rpartition(c)[2]`: the part after the last `c`, all of `s` when there is none. -/
def afterLast (c : Char) (s : Str) : Str := s.rtakeWhile (· != c)

/-- `s.strip()`. -/
def strip (s : Str) : Str := (s.dropWhile isSpace).rdropWhile isSpace

/-- `s.rstrip("/")`. -/
def rstripSlash (s : Str) : Str := s.rdropWhile (· == '/')

/-- `s.split()`: split at runs of whitespace. -/
def splitWs (s : Str) : List Str := (s.splitOnP isSpace).filter (fun w => !w.isEmpty)

/-- `sep.join(parts)`. -/
def join (sep : Str) (parts : List Str) : Str := sep.intercalate parts

/-- `part in s` for strings. -/
def contains (part : Str) : Str → Bool
  | [] => part.isEmpty
  | c :: s => part.isPrefixOf (c :: s) || contains part s

/-! ### Numbers and quoting -/

/-- `str(n)` for an integer. -/
def intText : ℤ → Str
  | .ofNat n => Nat.toDigits 10 n
  | .negSucc n => '-' :: Nat.toDigits 10 (n + 1)

def hexDigit (n : ℕ) : Char := Nat.digitChar n

/-- The last `w` hexadecimal digits of `n`. -/
def hexText : ℕ → ℕ → Str
  | 0, _ => []
  | w + 1, n => hexText w (n / 16) ++ [hexDigit (n % 16)]

/-- One character inside `repr(s)`, for the surrounding quote `q`. -/
def reprChar [UnicodeData] (q c : Char) : Str :=
  if c == q || c == '\\' then ['\\', c]
  else if c == '\n' then "\\n"
  else if c == '\r' then "\\r"
  else if c == '\t' then "\\t"
  else if c.toNat < 32 || c.toNat == 127 then "\\x" ++ hexText 2 c.toNat
  else if c.toNat < 127 then [c]
  else if UnicodeData.isPrintable c then [c]
  else if c.toNat < 0x100 then "\\x" ++ hexText 2 c.toNat
  else if c.toNat < 0x10000 then "\\u" ++ hexText 4 c.toNat
  else "\\U" ++ hexText 8 c.toNat

/-- `repr(s)` of a string. -/
def pyRepr [UnicodeData] (s : Str) : Str :=
  let q := if s.contains '\'' && !s.contains '"' then '"' else '\''
  q :: s.flatMap (reprChar q) ++ [q]

/-- `repr(x)` of an optional string. -/
def reprOpt [UnicodeData] : Option Str → Str
  | none => "None"
  | some s => pyRepr s

/-- `repr(xs)` of a list of strings. -/
def reprList [UnicodeData] (xs : List Str) : Str := "[" ++ join ", " (xs.map pyRepr) ++ "]"

/-- The value of a decimal digit in any script. -/
def digitVal [UnicodeData] (c : Char) : Option ℕ :=
  if isAsciiChar c then (if c.isDigit then some (c.toNat - 48) else none)
  else UnicodeData.decimal c

/-- Digits with single underscores between them. -/
def digitsVal [UnicodeData] (s : Str) : Option ℕ :=
  let groups := s.splitOn '_'
  if groups.any List.isEmpty then none
  else groups.flatten.foldlM (fun acc c => (digitVal c).map (fun d => 10 * acc + d)) 0

/-- The digit limit of `int` on text (`sys.int_info.default_max_str_digits`). -/
def maxStrDigits : ℕ := 4300

/-- `int(s)`; `none` is the `ValueError`. -/
def intOf [UnicodeData] (s : Str) : Option ℤ :=
  let t := strip s
  let (neg, body) := match t with
    | '-' :: rest => (true, rest)
    | '+' :: rest => (false, rest)
    | _ => (false, t)
  if maxStrDigits < (body.filter (· != '_')).length then none
  else (digitsVal body).map (fun n => if neg then -(n : ℤ) else (n : ℤ))

/-! ### Facts about the parts -/

theorem partition_append {c : Char} {a : Str} (ha : c ∉ a) (b : Str) :
    partition c (a ++ c :: b) = (a, true, b) := by
  have hd : (a ++ c :: b).dropWhile (· != c) = c :: b := by
    rw [List.dropWhile_append_of_pos (by intro x hx; simp; rintro rfl; exact ha hx)]
    simp
  have ht : (a ++ c :: b).takeWhile (· != c) = a := by
    rw [List.takeWhile_append_of_pos (by intro x hx; simp; rintro rfl; exact ha hx)]
    simp
  simp only [partition, hd, ht]

theorem partition_of_not_mem {c : Char} {s : Str} (h : c ∉ s) : partition c s = (s, false, []) := by
  have hd : s.dropWhile (· != c) = [] := by
    rw [List.dropWhile_eq_nil_iff]
    intro x hx
    simp
    rintro rfl
    exact h hx
  simp only [partition, hd]

/-- Every string either lacks the separator or splits at its first occurrence. -/
theorem partition_cases (c : Char) (s : Str) :
    (c ∉ s ∧ partition c s = (s, false, [])) ∨
    (∃ a b, c ∉ a ∧ s = a ++ c :: b ∧ partition c s = (a, true, b)) := by
  by_cases h : c ∈ s
  · obtain ⟨a, b, rfl, ha⟩ := List.eq_append_cons_of_mem h
    exact .inr ⟨a, b, ha, rfl, partition_append ha b⟩
  · exact .inl ⟨h, partition_of_not_mem h⟩

/-! Splitting at whitespace undoes joining with blanks. -/

/-- A word: not empty, and without whitespace. -/
def IsWord (w : Str) : Prop := w ≠ [] ∧ ∀ c ∈ w, isSpace c = false

/-- No piece of a split holds a separator. -/
theorem not_of_mem_splitOnP {p : Char → Bool} {s w : Str} (h : w ∈ s.splitOnP p) :
    ∀ c ∈ w, p c = false := by
  induction s generalizing w with
  | nil =>
      rw [List.splitOnP_nil, List.mem_singleton] at h
      subst h
      exact fun c hc => nomatch hc
  | cons x xs ih =>
      rw [List.splitOnP_cons_eq_if_modifyHead] at h
      split_ifs at h with hx
      · rcases List.mem_cons.mp h with rfl | h
        · exact fun c hc => nomatch hc
        · exact ih h
      · cases hxs : xs.splitOnP p with
        | nil => exact absurd hxs (List.splitOnP_ne_nil _ _)
        | cons v vs =>
            rw [hxs, List.modifyHead_cons] at h
            rcases List.mem_cons.mp h with rfl | h
            · intro c hc
              rcases List.mem_cons.mp hc with rfl | hc
              · simpa using hx
              · exact ih (by rw [hxs]; exact List.mem_cons_self) c hc
            · exact ih (by rw [hxs]; exact List.mem_cons_of_mem _ h)

theorem isWord_of_mem_splitWs {s w : Str} (h : w ∈ splitWs s) : IsWord w := by
  obtain ⟨hm, hne⟩ := List.mem_filter.mp h
  exact ⟨by simpa using hne, not_of_mem_splitOnP hm⟩

theorem splitOnP_join {w : Str} {ws : List Str} (h : ∀ v ∈ w :: ws, IsWord v) :
    (join " " (w :: ws)).splitOnP isSpace = w :: ws := by
  induction ws generalizing w with
  | nil =>
      have hjoin : join " " [w] = w := by simp [join, List.intercalate]
      rw [hjoin]
      exact List.splitOnP_eq_singleton (h w List.mem_cons_self).2
  | cons v vs ih =>
      have hjoin : join " " (w :: v :: vs) = w ++ ' ' :: join " " (v :: vs) := by
        simp [join, List.intercalate]
      rw [hjoin, List.splitOnP_append_cons_of_forall_mem (h w List.mem_cons_self).2 ' ' (by decide),
        ih (fun u hu => h u (List.mem_cons_of_mem _ hu))]

theorem splitWs_join {ws : List Str} (h : ∀ w ∈ ws, IsWord w) : splitWs (join " " ws) = ws := by
  cases ws with
  | nil => rfl
  | cons w ws =>
      unfold splitWs
      rw [splitOnP_join h, List.filter_eq_self]
      intro v hv
      simpa using (h v hv).1

theorem rstripSlash_append_replicate (s : Str) :
    ∃ k, s = rstripSlash s ++ List.replicate k '/' := by
  refine ⟨(s.rtakeWhile (· == '/')).length, ?_⟩
  have h : s.rtakeWhile (· == '/') = List.replicate (s.rtakeWhile (· == '/')).length '/' := by
    rw [List.eq_replicate_iff]
    exact ⟨rfl, fun b hb => by simpa using List.mem_rtakeWhile_imp hb⟩
  rw [← h]
  exact List.rdropWhile_append_rtakeWhile.symm

theorem rstripSlash_not_endsWith (s t : Str) : rstripSlash s ≠ t ++ ['/'] := by
  intro h
  have hne : rstripSlash s ≠ [] := by rw [h]; simp
  have := List.rdropWhile_last_not (· == '/') s hne
  simp [rstripSlash] at h
  simp [h] at this

theorem contains_iff {part s : Str} : contains part s = true ↔ ∃ a b, s = a ++ part ++ b := by
  induction s with
  | nil =>
      simp only [contains, List.isEmpty_iff]
      constructor
      · rintro rfl
        exact ⟨[], [], rfl⟩
      · rintro ⟨a, b, h⟩
        simp at h
        exact h.2.1
  | cons c s ih =>
      simp only [contains, Bool.or_eq_true, ih, List.isPrefixOf_iff_prefix]
      constructor
      · rintro (⟨b, hb⟩ | ⟨a, b, rfl⟩)
        · exact ⟨[], b, by simpa using hb.symm⟩
        · exact ⟨c :: a, b, by simp⟩
      · rintro ⟨a, b, h⟩
        cases a with
        | nil => exact .inl ⟨b, by simpa using h.symm⟩
        | cons x a =>
            simp only [List.cons_append, List.cons.injEq] at h
            exact .inr ⟨a, b, h.2⟩

theorem rstripSlash_append_slash (s : Str) : rstripSlash (s ++ ['/']) = rstripSlash s := by
  unfold rstripSlash
  rw [List.rdropWhile_concat_pos _ _ _ (by decide)]

/-- A string without a trailing slash is left alone. -/
theorem rstripSlash_eq_self {s : Str} (h : ∀ t, s ≠ t ++ ['/']) : rstripSlash s = s := by
  obtain ⟨k, hk⟩ := rstripSlash_append_replicate s
  cases k with
  | zero => simpa using hk.symm
  | succ k =>
      rw [List.replicate_succ', ← List.append_assoc] at hk
      exact absurd hk (h _)

end Py
