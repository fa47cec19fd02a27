import CimdProxy.UrlSpelling

/-! # Authorities put together from their parts

The converse of reading a host and a port out of an authority: when the parts, written down again,
are an authority that reads the same.  An address with a port always is, with the address in brackets
when it has a colon (`hostinfo_address`).  A host as `hostname` gives it is, without brackets, when it
holds no colon and no bracket (`HostLaws.isNetloc_hostText`); this rests on what lower-casing does to
delimiters, `HostLaws`. -/

namespace Py

/-! ### What an address is written with -/

/-- The characters of an address without a scope. -/
def isAddressChar (c : Char) : Bool := (Json.hexVal c).isSome || c == ':' || c == '.'

theorem eq_or_mem_of_mem_intercalate {c d : Char} {ws : List Str} (h : c ∈ [d].intercalate ws) :
    c = d ∨ ∃ w ∈ ws, c ∈ w := by
  induction ws with
  | nil => simp at h
  | cons w ws ih =>
      cases ws with
      | nil =>
          rw [List.intercalate_singleton] at h
          exact .inr ⟨w, List.mem_cons_self, h⟩
      | cons v ws =>
          rw [List.intercalate_cons_cons, List.mem_append, List.mem_append, List.mem_singleton] at h
          rcases h with (h | h) | h
          · exact .inr ⟨w, List.mem_cons_self, h⟩
          · exact .inl h
          · exact (ih h).imp id (fun ⟨u, hu, hc⟩ => ⟨u, List.mem_cons_of_mem _ hu, hc⟩)

/-- A character of a text is the separator, or in one of the pieces. -/
theorem eq_or_mem_of_mem {c d : Char} {s : Str} (h : c ∈ s) : c = d ∨ ∃ w ∈ s.splitOn d, c ∈ w := by
  apply eq_or_mem_of_mem_intercalate
  rwa [List.intercalate_splitOn]

theorem isAddressChar_of_isDigit {c : Char} (h : c.isDigit = true) : isAddressChar c = true := by
  simp [isAddressChar, Json.hexVal, h]

theorem digits_of_parseOctet {s : Str} {n : ℕ} (h : parseOctet s = some n) :
    ∀ c ∈ s, c.isDigit = true := by
  unfold parseOctet at h
  split_ifs at h with h1
  simp only [Bool.or_eq_true, Bool.not_eq_true', not_or, Bool.not_eq_false] at h1
  exact fun c hc => List.all_eq_true.mp h1.1.2 c hc

/-- An IPv4 address is written with digits and dots. -/
theorem chars_of_ipv4Int {s : Str} {n : ℕ} (h : ipv4Int s = some n) :
    ∀ c ∈ s, c.isDigit = true ∨ c = '.' := by
  unfold ipv4Int at h
  split at h
  · next a b c d hs =>
      simp only [Option.bind_eq_bind, Option.bind_eq_some_iff] at h
      obtain ⟨na, ha, nb, hb, nc, hc, nd, hd, -⟩ := h
      intro x hx
      rcases eq_or_mem_of_mem (d := '.') hx with rfl | ⟨w, hw, hxw⟩
      · exact .inr rfl
      · rw [hs] at hw
        simp only [List.mem_cons, List.not_mem_nil, or_false] at hw
        left
        rcases hw with rfl | rfl | rfl | rfl
        · exact digits_of_parseOctet ha x hxw
        · exact digits_of_parseOctet hb x hxw
        · exact digits_of_parseOctet hc x hxw
        · exact digits_of_parseOctet hd x hxw
  · cases h

theorem foldlM_hexVal {s : Str} {acc n : ℕ}
    (h : s.foldlM (fun acc c => (Json.hexVal c).map (fun d => 16 * acc + d)) acc = some n) :
    ∀ c ∈ s, (Json.hexVal c).isSome = true := by
  induction s generalizing acc with
  | nil => exact fun c hc => nomatch hc
  | cons x s ih =>
      rw [List.foldlM_cons, Option.bind_eq_bind, Option.bind_eq_some_iff] at h
      obtain ⟨m, hm, h⟩ := h
      obtain ⟨v, hv, -⟩ := Option.map_eq_some_iff.mp hm
      intro c hc
      rcases List.mem_cons.mp hc with rfl | hc
      · rw [hv]
        rfl
      · exact ih h c hc

theorem chars_of_hextetsInt {parts : List Str} {acc n : ℕ} (h : hextetsInt acc parts = some n) :
    ∀ w ∈ parts, ∀ c ∈ w, (Json.hexVal c).isSome = true := by
  induction parts generalizing acc with
  | nil => exact fun w hw => nomatch hw
  | cons p parts ih =>
      unfold hextetsInt at h
      rw [List.foldlM_cons, Option.bind_eq_bind, Option.bind_eq_some_iff] at h
      obtain ⟨m, hm, h⟩ := h
      obtain ⟨v, hv, -⟩ := Option.map_eq_some_iff.mp hm
      intro w hw
      rcases List.mem_cons.mp hw with rfl | hw
      · unfold parseHextet at hv
        split_ifs at hv
        exact foldlM_hexVal hv
      · exact ih h w hw

/-- The parts of an IPv6 address are hextets, or empty. -/
theorem chars_of_hextetParts {parts : List Str} {n : ℕ} {empties : List ℕ}
    (he : ∀ k ∈ empties, parts[k]? = some []) (h : hextetParts parts empties = some n) :
    ∀ w ∈ parts, ∀ c ∈ w, (Json.hexVal c).isSome = true := by
  unfold hextetParts at h
  dsimp only at h
  split at h
  · split_ifs at h
    exact chars_of_hextetsInt h
  · next k =>
      have hk := he k (List.mem_singleton_self k)
      have hkn : k < parts.length := (List.getElem?_eq_some_iff.mp hk).1
      generalize hhi : (if (parts.head? == some []) = true then 0 else k) = hi at h
      generalize hlo : (if (parts.getLast? == some []) = true then 0 else parts.length - k - 1) = lo at h
      split at h
      · cases h
      next hends =>
      rw [if_neg ?_] at h
      swap
      · intro h8
        rw [if_pos h8] at h
        cases h
      obtain ⟨m, hfront, hback⟩ := Option.bind_eq_some_iff.mp h
      simp only [Bool.or_eq_true, Bool.and_eq_true, decide_eq_true_eq, not_or, not_and, not_not,
        beq_iff_eq] at hends hhi hlo
      intro w hw
      obtain ⟨i, hi'⟩ := List.getElem?_of_mem hw
      have hin : i < parts.length := (List.getElem?_eq_some_iff.mp hi').1
      have hempty : parts[i]? = some [] → ∀ c ∈ w, (Json.hexVal c).isSome = true := by
        intro h0 c hc
        rw [hi'] at h0
        rw [Option.some.inj h0] at hc
        cases hc
      -- a part stands in front of the gap, behind it, or is empty
      by_cases hlt : i < hi
      · exact chars_of_hextetsInt hfront w (List.mem_of_getElem? (by rw [List.getElem?_take_of_lt hlt, hi']))
      by_cases hge : parts.length - lo ≤ i
      · refine chars_of_hextetsInt hback w (List.mem_of_getElem? (i := i - (parts.length - lo)) ?_)
        rw [List.getElem?_drop, Nat.add_sub_cancel' hge, hi']
      apply hempty
      have hlast : parts.getLast? = some [] → parts[parts.length - 1]? = some [] := by
        rw [List.getLast?_eq_getElem?]
        exact id
      by_cases hi0 : i = k
      · rw [hi0, hk]
      have hbehind : k < i → parts[i]? = some [] := by
        intro hki
        by_cases hl : parts.getLast? = some []
        · have h2 := hends.2 hl
          obtain rfl : i = parts.length - 1 := by omega
          exact hlast hl
        · rw [if_neg hl] at hlo
          omega
      by_cases hhead : parts.head? = some []
      · have hk1 := hends.1 hhead
        rcases Nat.lt_or_ge k i with hki | hki
        · exact hbehind hki
        · obtain rfl : i = 0 := by omega
          rwa [List.head?_eq_getElem?] at hhead
      · rw [if_neg hhead] at hhi
        exact hbehind (by omega)
  · cases h

/-- An IPv6 address without a scope is written with hexadecimal digits, colons and dots. -/
theorem chars_of_ipv6Int {s : Str} {n : ℕ} (hscope : '%' ∉ s) (h : ipv6Int s = some n) :
    ∀ c ∈ s, isAddressChar c = true := by
  unfold ipv6Int at h
  split_ifs at h
  rw [partition_of_not_mem hscope] at h
  dsimp only at h
  rw [if_neg (by simp)] at h
  unfold ipv6IntFromString at h
  dsimp only at h
  split at h
  · cases h
  have key : ∀ parts : List Str, (if 9 < parts.length then none else hextetParts parts
      ((List.range parts.length).filter
        (fun i => decide (1 ≤ i) && decide (i + 1 < parts.length) && parts[i]? == some []))) = some n →
      ∀ w ∈ parts, ∀ c ∈ w, (Json.hexVal c).isSome = true := by
    intro parts h
    split_ifs at h
    refine chars_of_hextetParts (fun k hk => ?_) h
    simp only [List.mem_filter, Bool.and_eq_true, beq_iff_eq] at hk
    exact hk.2.2
  have hsome : ∀ {w : Str} {c : Char}, (∀ c ∈ w, (Json.hexVal c).isSome = true) → c ∈ w →
      isAddressChar c = true := fun h hc => by simp [isAddressChar, h _ hc]
  intro c hc
  rcases eq_or_mem_of_mem (d := ':') hc with rfl | ⟨w, hw, hcw⟩
  · decide
  generalize s.splitOn ':' = parts at h hw
  have hne : parts ≠ [] := List.ne_nil_of_mem hw
  rw [List.getLast?_eq_some_getLast hne] at h
  dsimp only at h
  by_cases hdot : (parts.getLast hne).contains '.' = true
  · rw [if_pos hdot] at h
    obtain ⟨parts', hp, h⟩ := Option.bind_eq_some_iff.mp h
    obtain ⟨v, hv, rfl⟩ := Option.map_eq_some_iff.mp hp
    -- the last part is an IPv4 address, the others are parts of the address
    rw [← List.dropLast_append_getLast hne] at hw
    rcases List.mem_append.mp hw with hw | hw
    · exact hsome (key _ h w (List.mem_append_left _ hw)) hcw
    · rw [List.mem_singleton.mp hw] at hcw
      rcases chars_of_ipv4Int hv c hcw with hd | rfl
      · exact isAddressChar_of_isDigit hd
      · decide
  · rw [if_neg hdot] at h
    exact hsome (key _ h w hw) hcw

/-- An address is written with hexadecimal digits, colons and dots. -/
theorem chars_of_ipAddress {s : Str} {a : IpAddress} (hscope : '%' ∉ s) (h : ipAddress s = some a) :
    ∀ c ∈ s, isAddressChar c = true := by
  unfold ipAddress at h
  split at h
  · next n hn =>
      intro c hc
      rcases chars_of_ipv4Int hn c hc with hd | rfl
      · exact isAddressChar_of_isDigit hd
      · decide
  · obtain ⟨n, hn, -⟩ := Option.map_eq_some_iff.mp h
    exact chars_of_ipv6Int hscope hn

/-- So it holds none of the delimiters of a URL. -/
theorem isAddressChar_spec {c : Char} (h : isAddressChar c = true) :
    isAsciiChar c = true ∧ isNetlocEnd c = false ∧ isUnsafeUrlByte c = false ∧ c ≠ '@' ∧ c ≠ '[' ∧
      c ≠ ']' ∧ c ≠ '%' ∧ c ≠ 'v' := by
  have hlt : c.toNat < 128 := by
    simp only [isAddressChar, Bool.or_eq_true, beq_iff_eq] at h
    rcases h with (h | rfl) | rfl
    · unfold Json.hexVal at h
      split_ifs at h with h1 h2 h3
      · simp only [Char.isDigit, Bool.and_eq_true, decide_eq_true_eq, UInt32.le_iff_toNat_le] at h1
        have := h1.2
        have h9 : '9'.val.toNat = 57 := rfl
        have hc : c.toNat = c.val.toNat := rfl
        omega
      · have := UInt32.le_iff_toNat_le.mp (Char.le_def.mp h2.2)
        have hf : 'f'.val.toNat = 102 := rfl
        have hc : c.toNat = c.val.toNat := rfl
        omega
      · have := UInt32.le_iff_toNat_le.mp (Char.le_def.mp h3.2)
        have hf : 'F'.val.toNat = 70 := rfl
        have hc : c.toNat = c.val.toNat := rfl
        omega
      · cases h
    · decide
    · decide
  have key : ∀ n, n < 128 → isAddressChar (Char.ofNat n) = true →
      isAsciiChar (Char.ofNat n) = true ∧ isNetlocEnd (Char.ofNat n) = false ∧
      isUnsafeUrlByte (Char.ofNat n) = false ∧ Char.ofNat n ≠ '@' ∧ Char.ofNat n ≠ '[' ∧
      Char.ofNat n ≠ ']' ∧ Char.ofNat n ≠ '%' ∧ Char.ofNat n ≠ 'v' := by
    decide +kernel
  have := key c.toNat hlt
  rw [Char.ofNat_toNat] at this
  exact this h

/-! ### Lower-casing a host -/

/-- What the Unicode database has for lower-casing and for compatibility forms, as far as the
delimiters of an authority go: neither brings one in. -/
structure HostLaws [UnicodeData] : Prop where
  lower_lower : ∀ s, lower (lower s) = lower s
  lower_ne_nil : ∀ s, s ≠ [] → lower s ≠ []
  mem_lower : ∀ s (c : Char), isAsciiChar c = true → c.isAlpha = false → (c ∈ lower s ↔ c ∈ s)
  nfkc_ascii : ∀ s, isAscii s = true → UnicodeData.nfkc s = s
  mem_nfkc : ∀ d ∈ ("/?#@:" : Str), ∀ s, d ∈ UnicodeData.nfkc s ↔ ∃ c ∈ s, d ∈ UnicodeData.nfkc [c]
  mem_nfkc_lower : ∀ d ∈ ("/?#@:" : Str), ∀ s, d ∈ UnicodeData.nfkc (lower s) → d ∈ UnicodeData.nfkc s

variable [UnicodeData]

/-- The host as `hostname` gives it: in lower case up to a zone. -/
def hostText (name : Str) : Str :=
  lower (partition '%' name).1 ++ if (partition '%' name).2.1 then '%' :: (partition '%' name).2.2 else []

theorem hostname_eq (r : SplitResult) :
    r.hostname = if r.hostinfo.1.isEmpty then none else some (hostText r.hostinfo.1) := rfl

theorem hostText_cases (name : Str) :
    ('%' ∉ name ∧ hostText name = lower name) ∨
    ∃ a zone, '%' ∉ a ∧ name = a ++ '%' :: zone ∧ hostText name = lower a ++ '%' :: zone := by
  rcases partition_cases '%' name with ⟨hn, he⟩ | ⟨a, zone, ha, hname, he⟩
  · exact .inl ⟨hn, by rw [hostText, he]; exact List.append_nil _⟩
  · exact .inr ⟨a, zone, ha, hname, by rw [hostText, he]; rfl⟩

theorem isAscii_lower {s : Str} (h : isAscii s = true) : isAscii (lower s) = true := by
  have key : ∀ n, n < 128 → isAsciiChar (Char.ofNat n).toLower = true := by decide +kernel
  rw [lower, if_pos h, isAscii, List.all_eq_true]
  intro c hc
  obtain ⟨x, hx, rfl⟩ := List.mem_map.mp hc
  have := key x.toNat (of_decide_eq_true (List.all_eq_true.mp h x hx))
  rwa [Char.ofNat_toNat] at this

theorem isAscii_hostText {name : Str} (h : isAscii name = true) : isAscii (hostText name) = true := by
  rcases hostText_cases name with ⟨-, he⟩ | ⟨a, zone, -, rfl, he⟩
  · rw [he]
    exact isAscii_lower h
  · rw [isAscii, List.all_append, Bool.and_eq_true] at h
    rw [he, isAscii, List.all_append, Bool.and_eq_true]
    exact ⟨isAscii_lower h.1, h.2⟩

omit [UnicodeData] in
theorem mem_of_names {name netloc : Str} (h : NamesHost name netloc) {c : Char} (hc : c ∈ name) :
    c ∈ netloc := by
  cases h with
  | bare _ _ _ => exact List.mem_append_left _ hc
  | bracketed _ _ => exact List.mem_cons_of_mem _ (List.mem_append_left _ hc)

/-- The name of a host holds no closing bracket. -/
theorem close_not_mem {name netloc : Str} (h : NamesHost name netloc)
    (hb : checkBrackets netloc = .ok ()) : ']' ∉ name := by
  cases h with
  | @bare port _ _ hopen =>
      intro hm
      have hclose : ']' ∈ name ++ port := List.mem_append_left _ hm
      unfold checkBrackets at hb
      simp [hopen, hclose] at hb
  | bracketed hname _ => exact hname

namespace HostLaws

variable (laws : HostLaws)
include laws

theorem mem_hostText {name : Str} {c : Char} (ha : isAsciiChar c = true) (hc : c.isAlpha = false) :
    c ∈ hostText name ↔ c ∈ name := by
  rcases hostText_cases name with ⟨-, he⟩ | ⟨a, zone, -, rfl, he⟩
  · rw [he, laws.mem_lower _ _ ha hc]
  · rw [he, List.mem_append, List.mem_append, laws.mem_lower _ _ ha hc]

theorem hostText_ne_nil {name : Str} (h : name ≠ []) : hostText name ≠ [] := by
  rcases hostText_cases name with ⟨-, he⟩ | ⟨a, zone, -, -, he⟩
  · rw [he]
    exact laws.lower_ne_nil name h
  · rw [he]
    simp

theorem hostText_hostText (name : Str) : hostText (hostText name) = hostText name := by
  have hpercent : ∀ {s : Str}, '%' ∉ s → '%' ∉ lower s :=
    fun h hm => h ((laws.mem_lower _ _ (by decide) (by decide)).mp hm)
  rcases hostText_cases name with ⟨hn, he⟩ | ⟨a, zone, ha, -, he⟩
  · rw [he]
    rcases hostText_cases (lower name) with ⟨-, he'⟩ | ⟨a, zone, -, hn', -⟩
    · rw [he', laws.lower_lower]
    · exact absurd (by rw [hn']; simp) (hpercent hn)
  · rw [he, hostText, partition_append (hpercent ha)]
    simp only [if_true, laws.lower_lower]

theorem nfkc_hostText {name netloc : Str} (h : NamesHost name netloc) (hcolon : ':' ∉ name)
    (hat : '@' ∉ netloc) (hn : IsNetloc netloc) {d : Char} (hd : d ∈ ("/?#@:" : Str)) {c : Char}
    (hc : c ∈ hostText name) (hdc : d ∈ UnicodeData.nfkc [c]) : isAscii netloc = true := by
  by_contra hascii
  have hnfkc := hn.nfkc
  unfold checkNetloc at hnfkc
  rw [if_neg hascii] at hnfkc
  dsimp only at hnfkc
  set n := netloc.filter (fun c => !(c == '@' || c == ':' || c == '#' || c == '?')) with hn'
  have hdn : d ∈ UnicodeData.nfkc n := by
    have hex : ∃ x ∈ name, d ∈ UnicodeData.nfkc [x] := by
      have hlower : ∀ {s : Str}, c ∈ lower s → ∃ x ∈ s, d ∈ UnicodeData.nfkc [x] := by
        intro s hs
        have := (laws.mem_nfkc d hd (lower s)).mpr ⟨c, hs, hdc⟩
        exact (laws.mem_nfkc d hd s).mp (laws.mem_nfkc_lower d hd s this)
      rcases hostText_cases name with ⟨-, he⟩ | ⟨a, zone, -, rfl, he⟩
      · rw [he] at hc
        exact hlower hc
      · rw [he] at hc
        rcases List.mem_append.mp hc with hc | hc
        · obtain ⟨x, hx, hdx⟩ := hlower hc
          exact ⟨x, List.mem_append_left _ hx, hdx⟩
        · exact ⟨c, List.mem_append_right _ hc, hdc⟩
    obtain ⟨x, hx, hdx⟩ := hex
    refine (laws.mem_nfkc d hd n).mpr ⟨x, List.mem_filter.mpr ⟨mem_of_names h hx, ?_⟩, hdx⟩
    have hend := hn.noEnd x (mem_of_names h hx)
    simp only [isNetlocEnd, Bool.or_eq_false_iff, beq_eq_false_iff_ne] at hend
    have h1 : x ≠ '@' := fun he => hat (he ▸ mem_of_names h hx)
    have h2 : x ≠ ':' := fun he => hcolon (he ▸ hx)
    simp [h1, h2, hend.1.2, hend.2]
  split at hnfkc
  · next heq =>
      -- the filtered authority is its own compatibility form, and has no delimiter left
      rw [← heq] at hdn
      obtain ⟨hmem, hkept⟩ := List.mem_filter.mp hdn
      have hslash := hn.noEnd d hmem
      simp only [isNetlocEnd, Bool.or_eq_false_iff, beq_eq_false_iff_ne] at hslash
      simp only [Bool.not_eq_true', Bool.or_eq_false_iff, beq_eq_false_iff_ne] at hkept
      have hdelim : d ∈ ['/', '?', '#', '@', ':'] := hd
      simp only [List.mem_cons, List.not_mem_nil, or_false] at hdelim
      rcases hdelim with rfl | rfl | rfl | rfl | rfl
      · exact hslash.1.1 rfl
      · exact hslash.1.2 rfl
      · exact hslash.2 rfl
      · exact hkept.1.1.1 rfl
      · exact hkept.1.1.2 rfl
  · split at hnfkc
    · cases hnfkc
    · next hany =>
        refine hany (List.any_eq_true.mpr ⟨d, hd, ?_⟩)
        rwa [List.contains_eq_mem, decide_eq_true_eq]

/-- The host of an authority, bare and with a port of digits, holds no end of an authority. -/
theorem chars_hostText {name netloc tail : Str} (h : NamesHost name netloc) (hn : IsNetloc netloc)
    (htail : ∀ c ∈ tail, isAddressChar c = true) :
    ∀ c ∈ hostText name ++ tail, isNetlocEnd c = false ∧ isUnsafeUrlByte c = false := by
  -- a delimiter of the host stood in the authority
  have hhost : ∀ {c : Char}, isAsciiChar c = true → c.isAlpha = false → c ∈ hostText name →
      c ∈ netloc := fun ha hc hm => mem_of_names h ((laws.mem_hostText ha hc).mp hm)
  intro c hc
  rcases List.mem_append.mp hc with hc | hc
  · constructor
    · by_contra hend
      simp only [isNetlocEnd, Bool.not_eq_false, Bool.or_eq_true, beq_iff_eq] at hend
      rcases hend with (rfl | rfl) | rfl
      · exact absurd (hn.noEnd _ (hhost (by decide) (by decide) hc)) (by decide)
      · exact absurd (hn.noEnd _ (hhost (by decide) (by decide) hc)) (by decide)
      · exact absurd (hn.noEnd _ (hhost (by decide) (by decide) hc)) (by decide)
    · by_contra hend
      simp only [isUnsafeUrlByte, Bool.not_eq_false, Bool.or_eq_true, beq_iff_eq] at hend
      rcases hend with (rfl | rfl) | rfl
      · exact absurd (hn.safe _ (hhost (by decide) (by decide) hc)) (by decide)
      · exact absurd (hn.safe _ (hhost (by decide) (by decide) hc)) (by decide)
      · exact absurd (hn.safe _ (hhost (by decide) (by decide) hc)) (by decide)
  · obtain ⟨-, h1, h2, -⟩ := isAddressChar_spec (htail c hc)
    exact ⟨h1, h2⟩

/-- It is an authority again when the host holds no colon and no bracket. -/
theorem isNetloc_hostText {name netloc tail : Str} (h : NamesHost name netloc) (hat : '@' ∉ netloc)
    (hn : IsNetloc netloc) (hcolon : ':' ∉ hostText name) (hopen : '[' ∉ hostText name)
    (htail : ∀ c ∈ tail, isAddressChar c = true ∧ (c = ':' ∨ c.isDigit = true)) :
    IsNetloc (hostText name ++ tail) := by
  have hclose : ']' ∉ hostText name := fun hm =>
    close_not_mem h hn.brackets ((laws.mem_hostText (by decide) (by decide)).mp hm)
  have hchars := laws.chars_hostText h hn (fun c hc => (htail c hc).1)
  refine ⟨fun c hc => (hchars c hc).1, fun c hc => (hchars c hc).2, ?_, ?_⟩
  · have h1 : '[' ∉ hostText name ++ tail := by
      rw [List.mem_append, not_or]
      exact ⟨hopen, fun hm => (isAddressChar_spec (htail _ hm).1).2.2.2.2.1 rfl⟩
    have h2 : ']' ∉ hostText name ++ tail := by
      rw [List.mem_append, not_or]
      exact ⟨hclose, fun hm => (isAddressChar_spec (htail _ hm).1).2.2.2.2.2.1 rfl⟩
    rw [checkBrackets, if_neg (by simp [h1, h2]), if_neg (by simp [h1])]
  · unfold checkNetloc
    by_cases hascii : isAscii (hostText name ++ tail) = true
    · rw [if_pos hascii]
    rw [if_neg hascii]
    dsimp only
    split
    · rfl
    refine if_neg (fun hany => hascii ?_)
    obtain ⟨d, hd, hdn⟩ := List.any_eq_true.mp hany
    rw [List.contains_eq_mem, decide_eq_true_eq] at hdn
    obtain ⟨c, hc, hdc⟩ := (laws.mem_nfkc d hd _).mp hdn
    obtain ⟨hc, hkept⟩ := List.mem_filter.mp hc
    have htailAscii : isAscii tail = true :=
      List.all_eq_true.mpr (fun x hx => (isAddressChar_spec (htail x hx).1).1)
    rcases List.mem_append.mp hc with hc | hc
    · have hname := laws.nfkc_hostText h
        (fun hm => hcolon ((laws.mem_hostText (by decide) (by decide)).mpr hm)) hat hn hd hc hdc
      have : isAscii name = true :=
        List.all_eq_true.mpr (fun x hx => List.all_eq_true.mp hname x (mem_of_names h hx))
      rw [isAscii, List.all_append, Bool.and_eq_true]
      exact ⟨isAscii_hostText this, htailAscii⟩
    · -- a digit is its own compatibility form
      have hself : UnicodeData.nfkc [c] = [c] :=
        laws.nfkc_ascii _ (by simp [isAscii, (isAddressChar_spec (htail c hc).1).1])
      rw [hself, List.mem_singleton] at hdc
      subst hdc
      rcases (htail d hc).2 with rfl | hdigit
      · exact absurd hkept (by decide)
      · have hdelim : d ∈ ['/', '?', '#', '@', ':'] := hd
        simp only [List.mem_cons, List.not_mem_nil, or_false] at hdelim
        rcases hdelim with rfl | rfl | rfl | rfl | rfl <;> exact absurd hdigit (by decide)

end HostLaws

omit [UnicodeData] in
/-- A database that leaves text outside ASCII alone obeys the laws. -/
theorem hostLaws_inert : @HostLaws UnicodeData.inert := by
  let := UnicodeData.inert
  have key : ∀ n, n < 128 → (Char.ofNat n).toLower.toLower = (Char.ofNat n).toLower ∧
      ((Char.ofNat n).toLower.isAlpha = false ∨ (Char.ofNat n).isAlpha = false →
        (Char.ofNat n).toLower = Char.ofNat n) := by
    decide +kernel
  have hkey : ∀ c : Char, isAsciiChar c = true → c.toLower.toLower = c.toLower ∧
      (c.toLower.isAlpha = false ∨ c.isAlpha = false → c.toLower = c) := by
    intro c hc
    have := key c.toNat (of_decide_eq_true hc)
    rwa [Char.ofNat_toNat] at this
  have hlower : ∀ s : Str, isAscii s = true ∧ lower s = s.map Char.toLower ∨ lower s = s := by
    intro s
    by_cases h : isAscii s = true
    · exact .inl ⟨h, if_pos h⟩
    · exact .inr (if_neg h)
  have hmem : ∀ s (c : Char), isAsciiChar c = true → c.isAlpha = false → (c ∈ lower s ↔ c ∈ s) := by
    intro s c ha hc
    rcases hlower s with ⟨hs, he⟩ | he
    · rw [he, List.mem_map]
      constructor
      · rintro ⟨x, hx, rfl⟩
        rwa [(hkey x (List.all_eq_true.mp hs x hx)).2 (.inl hc)]
      · exact fun hm => ⟨c, hm, (hkey c ha).2 (.inr hc)⟩
    · rw [he]
  refine ⟨fun s => ?_, fun s hs => ?_, hmem, fun s _ => rfl, fun d _ s => ?_, fun d hd s h => ?_⟩
  · rcases hlower s with ⟨hs, he⟩ | he
    · have hascii := isAscii_lower hs
      rw [lower, if_pos hascii, he, List.map_map]
      exact List.map_congr_left (fun c hc => (hkey c (List.all_eq_true.mp hs c hc)).1)
    · rw [he, he]
  · rcases hlower s with ⟨-, he⟩ | he
    · rw [he]
      simpa using hs
    · rwa [he]
  · constructor
    · exact fun hm => ⟨d, hm, List.mem_singleton_self d⟩
    · rintro ⟨c, hc, hd⟩
      rwa [List.mem_singleton.mp hd]
  · have hdelim : d ∈ ['/', '?', '#', '@', ':'] := hd
    have hall : ['/', '?', '#', '@', ':'].all (fun d => isAsciiChar d && !d.isAlpha) = true := by decide
    have := List.all_eq_true.mp hall d hdelim
    rw [Bool.and_eq_true, Bool.not_eq_true'] at this
    exact (hmem s d this.1 this.2).mp h

/-! ### Reading an authority -/

omit [UnicodeData] in
/-- The host and the port of an authority without brackets. -/
theorem hostinfo_bare {r : SplitResult} (hat : '@' ∉ r.netloc) (hopen : '[' ∉ r.netloc) :
    r.hostinfo = ((partition ':' r.netloc).1,
      if (partition ':' r.netloc).2.2.isEmpty then none else some (partition ':' r.netloc).2.2) := by
  unfold SplitResult.hostinfo
  rw [afterLast_of_not_mem hat]
  dsimp only
  rw [partition_of_not_mem hopen]
  rfl

theorem port_of_hostinfo {r : SplitResult} {n : ℕ} (h : r.hostinfo.2 = some (Nat.toDigits 10 n))
    (hn : n ≤ 65535) : r.port = .ok (some n) := by
  have hdigits : (Nat.toDigits 10 n).all Char.isDigit = true :=
    List.all_eq_true.mpr (fun c hc => Nat.isDigit_of_mem_toDigits (by norm_num) (by norm_num) hc)
  have hlen : (Nat.toDigits 10 n).length ≤ 5 := Nat.toDigits_length 10 n 5 (by norm_num) (by omega)
  unfold SplitResult.port
  rw [h]
  dsimp only
  rw [hdigits, if_neg (by decide), if_neg (by unfold maxStrDigits; omega),
    Nat.ofDigitChars_ten_toDigits, if_neg (by omega)]

omit [UnicodeData] in
theorem hostinfo_bracketed {r : SplitResult} {host ds : Str}
    (hn : r.netloc = '[' :: (host ++ ']' :: ':' :: ds)) (hat : '@' ∉ r.netloc) (hclose : ']' ∉ host) :
    r.hostinfo = (host, if ds.isEmpty then none else some ds) := by
  have hopen := @partition_append '[' [] List.not_mem_nil (host ++ ']' :: ':' :: ds)
  have hport := @partition_append ':' [] List.not_mem_nil ds
  rw [List.nil_append] at hopen hport
  unfold SplitResult.hostinfo
  rw [afterLast_of_not_mem hat, hn]
  dsimp only
  rw [hopen]
  dsimp only
  rw [if_pos rfl, partition_append hclose]
  dsimp only
  rw [hport]

/-- An address with a port, the address in brackets when it has a colon. -/
def addressNetloc (ip ds : Str) : Str :=
  (if ip.contains ':' then '[' :: (ip ++ "]") else ip) ++ ':' :: ds

variable {ip ds : Str} {addr : IpAddress}

omit [UnicodeData] in
theorem mem_addressNetloc {c : Char} (hip : ∀ c ∈ ip, isAddressChar c = true)
    (hds : ∀ c ∈ ds, c.isDigit = true) (h : c ∈ addressNetloc ip ds) :
    isAddressChar c = true ∨ c = '[' ∨ c = ']' := by
  have hrest : c ∈ ':' :: ds → isAddressChar c = true := by
    intro hc
    rcases List.mem_cons.mp hc with rfl | hc
    · decide
    · exact isAddressChar_of_isDigit (hds c hc)
  unfold addressNetloc at h
  rcases List.mem_append.mp h with h | h
  · split at h
    · rcases List.mem_cons.mp h with rfl | h
      · exact .inr (.inl rfl)
      · rcases List.mem_append.mp h with h | h
        · exact .inl (hip c h)
        · exact .inr (.inr (List.mem_singleton.mp h))
    · exact .inl (hip c h)
  · exact .inl (hrest h)

omit [UnicodeData] in
theorem at_not_mem_addressNetloc (hip : ∀ c ∈ ip, isAddressChar c = true)
    (hds : ∀ c ∈ ds, c.isDigit = true) : '@' ∉ addressNetloc ip ds := by
  intro h
  rcases mem_addressNetloc hip hds h with h | h | h
  · exact absurd h (by decide)
  · exact absurd h (by decide)
  · exact absurd h (by decide)

omit [UnicodeData] in
theorem addressNetloc_of_colon (h : ':' ∈ ip) :
    addressNetloc ip ds = '[' :: (ip ++ ']' :: ':' :: ds) := by
  rw [addressNetloc, if_pos (by simpa using h)]
  simp

omit [UnicodeData] in
theorem addressNetloc_of_no_colon (h : ':' ∉ ip) : addressNetloc ip ds = ip ++ ':' :: ds := by
  rw [addressNetloc, if_neg (by simpa using h)]

/-- An address with a colon may stand in brackets. -/
theorem checkBracketedHost_address (ha : ipAddress ip = some addr)
    (hip : ∀ c ∈ ip, isAddressChar c = true) (hcolon : ':' ∈ ip) :
    checkBracketedHost ip = .ok () := by
  unfold checkBracketedHost
  split
  · next rest => exact absurd (hip 'v' List.mem_cons_self) (by decide)
  · rw [ha]
    cases addr with
    | v6 n => rfl
    | v4 n =>
        -- an IPv4 address has no colon
        unfold ipAddress at ha
        cases h4 : ipv4Int ip with
        | some m =>
            rcases chars_of_ipv4Int h4 ':' hcolon with h | h
            · exact absurd h (by decide)
            · exact absurd h (by decide)
        | none =>
            rw [h4] at ha
            obtain ⟨m, -, hm⟩ := Option.map_eq_some_iff.mp ha
            cases hm

theorem isNetloc_address (ha : ipAddress ip = some addr) (hip : ∀ c ∈ ip, isAddressChar c = true)
    (hds : ∀ c ∈ ds, c.isDigit = true) : IsNetloc (addressNetloc ip ds) := by
  have hno : ∀ {c : Char}, isAddressChar c = false → c ∉ ip := by
    intro c hc hm
    rw [hip c hm] at hc
    cases hc
  have hchars : ∀ {P : Char → Prop}, (∀ c, isAddressChar c = true → P c) → P '[' → P ']' →
      ∀ c ∈ addressNetloc ip ds, P c := by
    intro P h h1 h2 c hc
    rcases mem_addressNetloc hip hds hc with hc | rfl | rfl
    · exact h c hc
    · exact h1
    · exact h2
  refine ⟨?_, ?_, ?_, ?_⟩
  · exact hchars (fun c hc => (isAddressChar_spec hc).2.1) (by decide) (by decide)
  · exact hchars (fun c hc => (isAddressChar_spec hc).2.2.1) (by decide) (by decide)
  · by_cases hcolon : ':' ∈ ip
    · have hat := at_not_mem_addressNetloc hip hds
      rw [addressNetloc_of_colon hcolon] at hat ⊢
      have hopen := @partition_append '[' [] List.not_mem_nil (ip ++ ']' :: ':' :: ds)
      rw [List.nil_append] at hopen
      rw [checkBrackets, if_neg (by simp), if_pos (by simp), checkBracketedNetloc,
        afterLast_of_not_mem hat]
      dsimp only
      rw [hopen]
      dsimp only
      rw [if_pos rfl, if_neg (by simp), partition_append (hno (by decide))]
      dsimp only
      rw [if_neg (by simp)]
      exact checkBracketedHost_address ha hip hcolon
    · rw [addressNetloc_of_no_colon hcolon]
      have hds' : ∀ {c : Char}, isAddressChar c = false → c ∉ ds := by
        intro c hc hm
        rw [isAddressChar_of_isDigit (hds c hm)] at hc
        cases hc
      have h1 : '[' ∉ ip ++ ':' :: ds := by simp [hno (show isAddressChar '[' = false by decide),
        hds' (show isAddressChar '[' = false by decide)]
      have h2 : ']' ∉ ip ++ ':' :: ds := by simp [hno (show isAddressChar ']' = false by decide),
        hds' (show isAddressChar ']' = false by decide)]
      rw [checkBrackets, if_neg (by simp [h1, h2]), if_neg (by simp [h1])]
  · have hascii : isAscii (addressNetloc ip ds) = true := List.all_eq_true.mpr
      (hchars (fun c hc => (isAddressChar_spec hc).1) (by decide) (by decide))
    rw [checkNetloc, if_pos hascii]

omit [UnicodeData] in
/-- It reads back as the address and the port. -/
theorem hostinfo_address {r : SplitResult} (hr : r.netloc = addressNetloc ip ds)
    (hip : ∀ c ∈ ip, isAddressChar c = true) (hds : ∀ c ∈ ds, c.isDigit = true) (hne : ds ≠ []) :
    r.hostinfo = (ip, some ds) := by
  have hno : ∀ {c : Char}, isAddressChar c = false → c ∉ ip := by
    intro c hc hm
    rw [hip c hm] at hc
    cases hc
  have hat : '@' ∉ r.netloc := by
    rw [hr]
    exact at_not_mem_addressNetloc hip hds
  have hempty : (if ds.isEmpty then none else some ds) = some ds := if_neg (by simpa using hne)
  by_cases hcolon : ':' ∈ ip
  · rw [hostinfo_bracketed (hr.trans (addressNetloc_of_colon hcolon)) hat (hno (by decide)), hempty]
  · have hopen : '[' ∉ r.netloc := by
      rw [hr, addressNetloc_of_no_colon hcolon]
      intro hm
      rcases List.mem_append.mp hm with hm | hm
      · exact hno (by decide) hm
      · rcases List.mem_cons.mp hm with hm | hm
        · cases hm
        · exact absurd (hds _ hm) (by decide)
    rw [hostinfo_bare hat hopen, hr, addressNetloc_of_no_colon hcolon, partition_append hcolon]
    exact congrArg _ hempty

/-! ### A URL put together -/

/-- An https URL written from its parts splits into them. -/
theorem urlsplit_https {netloc path query : Str} (hn : IsNetloc netloc) (hne : netloc ≠ [])
    (hpath : path = [] ∨ ∃ rest, path = '/' :: rest) (hends : '?' ∉ path ∧ '#' ∉ path)
    (hquery : '#' ∉ query) (hsafe : ∀ c ∈ path ++ query, isUnsafeUrlByte c = false) :
    urlsplit ("https://" ++ (netloc ++ (path ++ if query.isEmpty then [] else '?' :: query))) =
      .ok ⟨"https", netloc, path, query, []⟩ := by
  generalize hq : (if query.isEmpty then [] else '?' :: query) = q
  have hdelim : IsDelimited '?' q query := by
    rw [← hq]
    cases query with
    | nil => exact .inr ⟨rfl, rfl⟩
    | cons c s => exact .inl rfl
  have hhttps : ∀ c ∈ ("https://" : Str), isUnsafeUrlByte c = false := by
    have hall : ("https://" : Str).all (fun c => !isUnsafeUrlByte c) = true := by decide
    intro c hc
    simpa using List.all_eq_true.mp hall c hc
  have hclean : cleanUrl ("https://" ++ (netloc ++ (path ++ q))) =
      "https://" ++ (netloc ++ (path ++ q)) := by
    refine cleanUrl_eq_self (fun c hc => ?_) (fun c t h => ?_)
    · rcases List.mem_append.mp hc with hc | hc
      · exact hhttps c hc
      · rcases List.mem_append.mp hc with hc | hc
        · exact hn.safe c hc
        · rcases List.mem_append.mp hc with hc | hc
          · exact hsafe c (List.mem_append_left _ hc)
          · rcases hdelim with rfl | ⟨rfl, -⟩
            · rcases List.mem_cons.mp hc with rfl | hc
              · decide
              · exact hsafe c (List.mem_append_right _ hc)
            · cases hc
    · obtain rfl : 'h' = c := (List.cons.inj h).1
      decide
  refine (urlsplit_iff_written (p := ⟨"https", netloc, path, query, []⟩)
    (List.cons_ne_nil _ _) hne).mpr ?_
  refine ⟨⟨"https", q, [], ?_, by decide, rfl, hdelim, .inr ⟨rfl, rfl⟩⟩, hn, hpath, hends, hquery⟩
  rw [hclean, List.append_nil]
  rfl

theorem netloc_ne_nil {r : SplitResult} {host : Str} (h : r.hostname = some host) : r.netloc ≠ [] := by
  intro hn
  have hinfo : r.hostinfo.1 = [] := by
    unfold SplitResult.hostinfo
    rw [hn]
    rfl
  rw [hostname_eq, hinfo] at h
  cases h

/-- The path and the query of a split, where they can stand. -/
theorem tail_of_urlsplit {u : Str} {p : SplitResult} (h : urlsplit u = .ok p) (hs : p.scheme ≠ [])
    (hn : p.netloc ≠ []) : (p.path = [] ∨ ∃ rest, p.path = '/' :: rest) ∧
      ('?' ∉ p.path ∧ '#' ∉ p.path) ∧ '#' ∉ p.query ∧
      ∀ c ∈ p.path ++ p.query, isUnsafeUrlByte c = false := by
  have hw := (urlsplit_iff_written hs hn).mp h
  obtain ⟨scheme, query, fragment, hu, -, -, hq, -⟩ := hw.text
  refine ⟨hw.path, hw.pathEnds, hw.queryEnds, fun c hc => @not_unsafe_of_mem_cleanUrl u c ?_⟩
  rw [hu]
  rcases List.mem_append.mp hc with hc | hc
  · simp [hc]
  · rcases hq with rfl | ⟨-, hq⟩
    · simp [hc]
    · rw [hq] at hc
      cases hc

/-- A split of an https URL that is nothing but an authority. -/
theorem netloc_of_https {netloc : Str} {r : SplitResult}
    (hchars : ∀ c ∈ netloc, isNetlocEnd c = false ∧ isUnsafeUrlByte c = false)
    (h : urlsplit ("https://" ++ netloc) = .ok r) :
    r.netloc = netloc ∧ checkBrackets netloc = .ok () := by
  have hclean : cleanUrl ("https://" ++ netloc) = "https" ++ ':' :: '/' :: '/' :: (netloc ++ []) := by
    rw [List.append_nil]
    refine cleanUrl_eq_self (fun c hc => ?_) (fun c t h => ?_)
    · have hall : ("https://" : Str).all (fun c => !isUnsafeUrlByte c) = true := by decide
      rcases List.mem_append.mp hc with hc | hc
      · simpa using List.all_eq_true.mp hall c hc
      · exact (hchars c hc).2
    · obtain rfl : 'h' = c := (List.cons.inj h).1
      decide
  obtain ⟨-, hnetloc, -, hbrackets, -⟩ := splitClean_eq_ok.mp h
  rw [hclean, splitScheme_append_colon (by decide)] at hnetloc
  dsimp only at hnetloc
  rw [splitNetloc_slashes (fun c hc => (hchars c hc).1) (by intro c t ht; cases ht)] at hnetloc
  rw [hnetloc] at hbrackets
  exact ⟨hnetloc, hbrackets⟩

end Py
