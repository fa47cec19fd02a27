import CimdProxy.Fetcher

/-! # How long a document is kept

The directives of a `Cache-Control` value as their documentation reads them, against `choose_ttl`, which
takes the first directive that starts with `max-age` and looks for `no-store` and `no-cache` anywhere in
the text, in this order.  `documented_iff` says for which headers and limits the two agree. -/

namespace CimdProxy

open Py

variable [Platform]

/-! ### The documented lifetime -/

/-- The directives, trimmed and in lower case. -/
def directives (cacheControl : Str) : List Str := ((lower cacheControl).splitOn ',').map strip

/-- A directive is named by what stands before its value. -/
def directiveName (directive : Str) : Str := strip (partition '=' directive).1

/-- The decimal value of a directive, in quotes or not. -/
def directiveNumber (directive : Str) : Option ℤ :=
  intOf (stripQuotes (strip (partition '=' directive).2.2))

/-- A directive that is not to keep the document. -/
def ForcesMinimum (cacheControl : Str) : Prop :=
  ∃ d ∈ directives cacheControl, directiveName d = "no-store" ∨ directiveName d = "no-cache"

/-- The value of the first `max-age` directive that has one. -/
def maxAge (cacheControl : Str) : Option ℤ :=
  (directives cacheControl).findSome? (fun d =>
    if directiveName d = "max-age" then directiveNumber d else none)

/-- A lifetime between the limits. -/
def clampTtl (minTtl maxTtl base : ℤ) : ℤ := max minTtl (min base maxTtl)

/-- The rules for the lifetime of a document with this header. -/
structure Documented (cacheControl : Str) (minTtl maxTtl : ℤ) (defaultTtl : Option ℤ) (ttl : ℤ) :
    Prop where
  bounded : minTtl ≤ ttl ∧ ttl ≤ maxTtl
  forced : ForcesMinimum cacheControl → ttl = minTtl
  aged : ¬ ForcesMinimum cacheControl → ∀ n, maxAge cacheControl = some n →
    ttl = clampTtl minTtl maxTtl n
  default : ¬ ForcesMinimum cacheControl → maxAge cacheControl = none →
    ttl = clampTtl minTtl maxTtl (defaultTtl.getD minTtl)

/-! ### What the code reads -/

/-- The number of the first directive that starts with `max-age`. -/
def leadingNumber (cacheControl : Str) : Option ℤ :=
  ((directives cacheControl).find? (("max-age" : Str).isPrefixOf ·)).bind directiveNumber

/-- `no-store` or `no-cache` is part of the header. -/
def Mentioned (cacheControl : Str) : Prop :=
  contains "no-store" (lower cacheControl) = true ∨ contains "no-cache" (lower cacheControl) = true

theorem extractMaxAge_lower (cacheControl : Str) :
    extractMaxAge (lower cacheControl) = leadingNumber cacheControl := by
  unfold extractMaxAge leadingNumber directives
  split
  · next h => rw [h, Option.bind_none]
  · next d h =>
      rw [h, Option.bind_some]
      rfl

/-- What `choose_ttl` brings between the limits. -/
theorem chooseTtl_cases (cacheControl : Str) (minTtl maxTtl : ℤ) (defaultTtl : Option ℤ) :
    (∃ n, leadingNumber cacheControl = some n ∧
      chooseTtl (some cacheControl) minTtl maxTtl defaultTtl = clampTtl minTtl maxTtl n) ∨
    (leadingNumber cacheControl = none ∧ Mentioned cacheControl ∧
      chooseTtl (some cacheControl) minTtl maxTtl defaultTtl = clampTtl minTtl maxTtl minTtl) ∨
    (leadingNumber cacheControl = none ∧ ¬ Mentioned cacheControl ∧
      chooseTtl (some cacheControl) minTtl maxTtl defaultTtl =
        clampTtl minTtl maxTtl (defaultTtl.getD minTtl)) := by
  have hbase : chooseTtl (some cacheControl) minTtl maxTtl defaultTtl =
      clampTtl minTtl maxTtl (baseFromDirective (lower cacheControl) defaultTtl minTtl) := rfl
  rw [hbase]
  unfold baseFromDirective
  rw [extractMaxAge_lower]
  cases leadingNumber cacheControl with
  | some n => exact .inl ⟨n, rfl, rfl⟩
  | none =>
      right
      by_cases hm : Mentioned cacheControl
      · have hm' := hm
        rw [Mentioned, ← Bool.or_eq_true] at hm'
        exact .inl ⟨rfl, hm, by rw [if_pos hm']⟩
      · have hm' := hm
        rw [Mentioned, ← Bool.or_eq_true] at hm'
        exact .inr ⟨rfl, hm, by rw [if_neg hm']⟩

/-! ### A directive is part of the header -/

section Parts

omit [Platform]

theorem infix_strip (s : Str) : strip s <:+: s :=
  (List.rdropWhile_prefix _ _).isInfix.trans (List.dropWhile_suffix _).isInfix

theorem prefix_partition_fst (c : Char) (s : Str) : (partition c s).1 <+: s := by
  rcases partition_cases c s with ⟨-, h⟩ | ⟨a, b, -, rfl, h⟩
  · rw [h]
  · rw [h]
    exact List.prefix_append _ _

theorem infix_intercalate {w : Str} (sep : Str) : ∀ {ws : List Str}, w ∈ ws → w <:+: sep.intercalate ws
  | [v], h => by
      rw [List.mem_singleton.mp h, List.intercalate_singleton]
  | v :: v' :: ws, h => by
      rw [List.intercalate_cons_cons]
      rcases List.mem_cons.mp h with rfl | h
      · exact (List.prefix_append _ _).isInfix.trans (List.prefix_append _ _).isInfix
      · exact (infix_intercalate sep h).trans (List.suffix_append _ _).isInfix

/-- A piece of a split is a part of the text. -/
theorem infix_of_mem_splitOn {c : Char} {s w : Str} (h : w ∈ s.splitOn c) : w <:+: s := by
  have hw := infix_intercalate [c] h
  rwa [List.intercalate_splitOn] at hw

end Parts

theorem directiveName_infix {cacheControl d : Str} (h : d ∈ directives cacheControl) :
    directiveName d <:+: lower cacheControl := by
  obtain ⟨raw, hraw, rfl⟩ := List.mem_map.mp h
  have hname : directiveName (strip raw) <:+: strip raw :=
    (infix_strip _).trans (prefix_partition_fst _ _).isInfix
  exact hname.trans ((infix_strip raw).trans (infix_of_mem_splitOn hraw))

theorem ForcesMinimum.mentioned {cacheControl : Str} (h : ForcesMinimum cacheControl) :
    Mentioned cacheControl := by
  obtain ⟨d, hd, hname⟩ := h
  obtain ⟨a, b, hab⟩ := directiveName_infix hd
  rcases hname with hname | hname
  · exact .inl (contains_iff.mpr ⟨a, b, by rw [← hab, hname]⟩)
  · exact .inr (contains_iff.mpr ⟨a, b, by rw [← hab, hname]⟩)

/-! ### When the two agree -/

/-- Two numbers of seconds that the limits make the same. -/
def SameWithin (minTtl maxTtl a b : ℤ) : Prop :=
  minTtl = maxTtl ∨ a = b ∨ (a ≤ minTtl ∧ b ≤ minTtl) ∨ (maxTtl ≤ a ∧ maxTtl ≤ b)

omit [Platform] in
theorem clampTtl_eq_iff {minTtl maxTtl : ℤ} (h : minTtl ≤ maxTtl) (a b : ℤ) :
    clampTtl minTtl maxTtl a = clampTtl minTtl maxTtl b ↔ SameWithin minTtl maxTtl a b := by
  unfold clampTtl SameWithin
  omega

omit [Platform] in
theorem clampTtl_bounded {minTtl maxTtl : ℤ} (h : minTtl ≤ maxTtl) (a : ℤ) :
    minTtl ≤ clampTtl minTtl maxTtl a ∧ clampTtl minTtl maxTtl a ≤ maxTtl := by
  unfold clampTtl
  omega

omit [Platform] in
theorem clampTtl_min {minTtl maxTtl : ℤ} (h : minTtl ≤ maxTtl) : clampTtl minTtl maxTtl minTtl = minTtl := by
  unfold clampTtl
  omega

/-- The headers and limits for which the code keeps to the documentation.  Next to `no-store` or
`no-cache`, the first directive that starts with `max-age` may not have a number above the minimum.
Without them, that directive has to carry the number of the first `max-age` directive that has one; when
it has no number, nothing else may mention `no-store` or `no-cache`, or carry a `max-age`. Numbers count
as equal when the limits make them so. -/
def ReadAsDocumented (cacheControl : Str) (minTtl maxTtl : ℤ) (defaultTtl : Option ℤ) : Prop :=
  (ForcesMinimum cacheControl → ∀ n, leadingNumber cacheControl = some n → minTtl = maxTtl ∨ n ≤ minTtl) ∧
  (¬ ForcesMinimum cacheControl →
    match leadingNumber cacheControl, maxAge cacheControl with
    | some n, some m => SameWithin minTtl maxTtl n m
    | some n, none => SameWithin minTtl maxTtl n (defaultTtl.getD minTtl)
    | none, some m =>
        (Mentioned cacheControl → SameWithin minTtl maxTtl minTtl m) ∧
        (¬ Mentioned cacheControl → SameWithin minTtl maxTtl (defaultTtl.getD minTtl) m)
    | none, none => Mentioned cacheControl → SameWithin minTtl maxTtl minTtl (defaultTtl.getD minTtl))

/-- The documented lifetime of a header that forces the minimum. -/
theorem documented_of_forced {cacheControl : Str} {minTtl maxTtl : ℤ} {defaultTtl : Option ℤ} {ttl : ℤ}
    (hforced : ForcesMinimum cacheControl) (hbounded : minTtl ≤ ttl ∧ ttl ≤ maxTtl) :
    Documented cacheControl minTtl maxTtl defaultTtl ttl ↔ ttl = minTtl := by
  constructor
  · intro h
    exact h.forced hforced
  · intro h
    exact ⟨hbounded, fun _ => h, fun hn => absurd hforced hn, fun hn => absurd hforced hn⟩

/-- The documented lifetime of any other header. -/
theorem documented_of_not_forced {cacheControl : Str} {minTtl maxTtl : ℤ} {defaultTtl : Option ℤ} {ttl : ℤ}
    (hforced : ¬ ForcesMinimum cacheControl) (hbounded : minTtl ≤ ttl ∧ ttl ≤ maxTtl) :
    Documented cacheControl minTtl maxTtl defaultTtl ttl ↔
      ttl = clampTtl minTtl maxTtl ((maxAge cacheControl).getD (defaultTtl.getD minTtl)) := by
  cases hm : maxAge cacheControl with
  | some m =>
      constructor
      · intro h
        exact h.aged hforced m hm
      · intro h
        refine ⟨hbounded, fun hf => absurd hf hforced, fun _ n hn => ?_, fun _ hn => ?_⟩
        · rw [hm] at hn
          rw [h, ← Option.some.inj hn, Option.getD_some]
        · rw [hm] at hn
          cases hn
  | none =>
      constructor
      · intro h
        exact h.default hforced hm
      · intro h
        refine ⟨hbounded, fun hf => absurd hf hforced, fun _ n hn => ?_, fun _ _ => h⟩
        rw [hm] at hn
        cases hn

/-- **When the lifetime follows the documented rules.** -/
theorem documented_iff (cacheControl : Str) {minTtl maxTtl : ℤ} (defaultTtl : Option ℤ)
    (hmax : minTtl ≤ maxTtl) :
    Documented cacheControl minTtl maxTtl defaultTtl
        (chooseTtl (some cacheControl) minTtl maxTtl defaultTtl) ↔
      ReadAsDocumented cacheControl minTtl maxTtl defaultTtl := by
  have hbounded : minTtl ≤ chooseTtl (some cacheControl) minTtl maxTtl defaultTtl ∧
      chooseTtl (some cacheControl) minTtl maxTtl defaultTtl ≤ maxTtl := clampTtl_bounded hmax _
  unfold ReadAsDocumented
  by_cases hforced : ForcesMinimum cacheControl
  · rw [documented_of_forced hforced hbounded]
    simp only [hforced, forall_const, not_true_eq_false, false_implies, and_true]
    rcases chooseTtl_cases cacheControl minTtl maxTtl defaultTtl with ⟨n, hn, httl⟩ | ⟨hn, -, httl⟩ |
      ⟨-, hno, -⟩
    · rw [httl, hn]
      simp only [Option.some.injEq, forall_eq']
      unfold clampTtl
      omega
    · rw [httl, hn]
      exact iff_of_true (clampTtl_min hmax) nofun
    · exact absurd hforced.mentioned hno
  · rw [documented_of_not_forced hforced hbounded]
    simp only [hforced, false_implies, not_false_eq_true, forall_const, true_and]
    rcases chooseTtl_cases cacheControl minTtl maxTtl defaultTtl with ⟨n, hn, httl⟩ | ⟨hn, hmention, httl⟩ |
      ⟨hn, hno, httl⟩
    · rw [httl, hn, clampTtl_eq_iff hmax]
      cases maxAge cacheControl with
      | some m => rfl
      | none => rfl
    · rw [httl, hn, clampTtl_eq_iff hmax]
      cases maxAge cacheControl with
      | some m => simp [hmention]
      | none => simp [hmention]
    · rw [httl, hn, clampTtl_eq_iff hmax]
      cases maxAge cacheControl with
      | some m => simp [hno]
      | none => simp [hno, SameWithin]

omit [Platform] in
/-- Blanks and upper case. -/
theorem documented_spaced :
    letI := Platform.plain
    Documented "Public,  Max-Age = 1200 " 300 86400 none
      (chooseTtl (some "Public,  Max-Age = 1200 ") 300 86400 none) := by
  let := Platform.plain
  have hforced : ¬ ForcesMinimum "Public,  Max-Age = 1200 " := by
    rintro ⟨d, hd, hname⟩
    have hall : ∀ d ∈ directives "Public,  Max-Age = 1200 ",
        directiveName d ≠ "no-store".toList ∧ directiveName d ≠ "no-cache".toList := by
      decide +kernel
    exact hname.elim (hall d hd).1 (hall d hd).2
  have hleading : leadingNumber "Public,  Max-Age = 1200 " = some 1200 := by decide +kernel
  have hage : maxAge "Public,  Max-Age = 1200 " = some 1200 := by decide +kernel
  refine (documented_iff _ none (by decide)).mpr ⟨fun hf => absurd hf hforced, fun _ => ?_⟩
  rw [hleading, hage]
  exact .inr (.inl rfl)

omit [Platform] in
/-- `max-age` next to `no-store`: the code keeps the document for twenty minutes. -/
theorem noStore_outlived :
    letI := Platform.plain
    ¬ Documented "no-store, max-age=1200" 300 86400 none
      (chooseTtl (some "no-store, max-age=1200") 300 86400 none) := by
  let := Platform.plain
  intro h
  have hforced : ForcesMinimum "no-store, max-age=1200" := ⟨"no-store", by decide +kernel, .inl (by decide +kernel)⟩
  have hkept : chooseTtl (some "no-store, max-age=1200") 300 86400 none = 1200 := by decide +kernel
  have hminimum := h.forced hforced
  rw [hkept] at hminimum
  cases hminimum

end CimdProxy
