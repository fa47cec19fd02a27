import CimdProxy.AcceptedUris

/-! # What the loopback relaxation lets through

`uri_matches_registration` compares the parts of two splits and leaves the port out.  `matches_iff`
says in terms of the two texts when it returns true.  Two texts that differ in a port alone are among
these, and so are many others: `dropsOnlyPort_iff` separates them. -/

namespace CimdProxy

open Py

/-- The loopback hosts as an authority shows them. -/
def hostTexts : List Str := ["127.0.0.1".toList, "[::1]".toList, "localhost".toList]

/-- A port of decimal digits, or none. -/
def IsPort (port : Str) : Prop :=
  port = [] ∨ ∃ digits, port = ':' :: digits ∧ digits ≠ [] ∧ ∀ d ∈ digits, d.isDigit = true

/-- Two loopback URLs with the same text after their ports. -/
def PortVariants (rest a b : Str) : Prop :=
  '#' ∉ rest ∧ ∃ host ∈ hostTexts, ∃ p q, IsPort p ∧ IsPort q ∧
    a = "http://" ++ (host ++ p) ++ rest ∧ b = "http://" ++ (host ++ q) ++ rest

/-- A rest that begins where an authority ends. -/
def EndsAuthority (rest : Str) : Prop := rest = [] ∨ (∃ r, rest = '/' :: r) ∨ ∃ r, rest = '?' :: r

section Relaxation

variable [Platform]

/-- The claim of the relaxation for two texts: it drops the port and nothing else. -/
def DropsOnlyPort (a b : Str) : Prop :=
  (uriMatchesRegistration a b = .ok true → a = b ∨ ∃ rest, PortVariants rest a b) ∧
    ∀ rest, EndsAuthority rest → PortVariants rest a b → uriMatchesRegistration a b = .ok true

/-- The text is a spelling of the host, path and query: the scheme and the host in any case, any text
for a port, an empty query or fragment with its delimiter or without, and whatever `cleanUrl` drops. -/
def SpellsLoopback (u host path query : Str) : Prop :=
  ∃ p, IsWritten u p ∧ p.scheme = "http" ∧ '@' ∉ p.netloc ∧
    (∃ name, NamesHost name p.netloc ∧ '%' ∉ name ∧ lower name = host) ∧
    p.path = path ∧ p.query = query ∧ p.fragment = []

/-- Both texts spell the same loopback URL. -/
def SpellOneLoopback (a b : Str) : Prop :=
  ∃ host path query, isLoopbackHost (some host) = true ∧ SpellsLoopback a host path query ∧
    SpellsLoopback b host path query

omit [Platform] in
theorem loopbackHost_spec {host : Str} (h : isLoopbackHost (some host) = true) :
    host ≠ [] ∧ '%' ∉ host := by
  rcases (isLoopbackHost_some host).mp h with rfl | rfl | rfl <;> decide

theorem spellsLoopback_iff {u host path query : Str} (hl : isLoopbackHost (some host) = true) :
    SpellsLoopback u host path query ↔ ∃ p, urlsplit u = .ok p ∧ p.scheme = "http" ∧
      p.hostname = some host ∧ p.fragment = [] ∧ '@' ∉ p.netloc ∧ p.path = path ∧ p.query = query := by
  obtain ⟨hne, hzone⟩ := loopbackHost_spec hl
  constructor
  · rintro ⟨p, hp, hs, hat, ⟨name, hname, hz, hlower⟩, hpath, hquery, hf⟩
    have hname' : name ≠ [] := by
      rintro rfl
      exact hne hlower.symm
    have hh : p.hostname = some host := by
      rw [hostname_of_names hat hname hname' hz, hlower]
    have hkind : p.scheme = "https" ∨ (p.scheme = "http" ∧ isLoopbackHost p.hostname = true) :=
      .inr ⟨hs, by rw [hh]; exact hl⟩
    obtain ⟨hs', hn⟩ := scheme_netloc_of_accepted (by rw [hh]; rfl) hkind
    exact ⟨p, (urlsplit_iff_written hs' hn).mpr hp, hs, hh, hf, hat, hpath, hquery⟩
  · rintro ⟨p, hp, hs, hh, hf, hat, hpath, hquery⟩
    have hkind : p.scheme = "https" ∨ (p.scheme = "http" ∧ isLoopbackHost p.hostname = true) :=
      .inr ⟨hs, by rw [hh]; exact hl⟩
    obtain ⟨hs', hn⟩ := scheme_netloc_of_accepted (by rw [hh]; rfl) hkind
    have hw := (urlsplit_iff_written hs' hn).mp hp
    obtain ⟨name, hname, -, hz, hlower⟩ := names_of_hostname hw.netloc.brackets hat hh hzone
    exact ⟨p, hw, hs, hat, ⟨name, hname, hz, hlower⟩, hpath, hquery, hf⟩

/-- The comparison of two different texts, part by part. -/
theorem matches_eq_true {a b : Str} (hab : a ≠ b) :
    uriMatchesRegistration a b = .ok true ↔ ∃ r s, urlsplit a = .ok r ∧ urlsplit b = .ok s ∧
      isLoopbackHttp r = true ∧ isLoopbackHttp s = true ∧ r.fragment = [] ∧ s.fragment = [] ∧
      '@' ∉ r.netloc ∧ '@' ∉ s.netloc ∧ r.hostname = s.hostname ∧ r.path = s.path ∧
      r.query = s.query := by
  unfold uriMatchesRegistration
  rw [if_neg hab, bind_eq_ok]
  refine exists_congr fun r => ?_
  rw [splitUrl_eq_ok, bind_eq_ok]
  constructor
  · rintro ⟨hr, s, hs, h⟩
    rw [splitUrl_eq_ok] at hs
    refine ⟨s, hr, hs, ?_⟩
    split at h
    · cases h
    next hl =>
    split at h
    · cases h
    next hf =>
    split at h
    · cases h
    next hat =>
    have heq := Except.ok.inj h
    simp only [Bool.or_eq_true, Bool.not_eq_true', not_or, Bool.not_eq_false,
      List.isEmpty_iff, List.contains_eq_mem, decide_eq_true_eq] at hl hf hat
    simp only [Bool.and_eq_true, beq_iff_eq] at heq
    exact ⟨hl.1, hl.2, hf.1, hf.2, hat.1, hat.2, heq.1.1, heq.1.2, heq.2⟩
  · rintro ⟨s, hr, hs, h1, h2, h3, h4, h5, h6, h7, h8, h9⟩
    refine ⟨hr, s, splitUrl_eq_ok.mpr hs, ?_⟩
    rw [if_neg (by simp [h1, h2]), if_neg (by simp [h3, h4]), if_neg (by simp [h5, h6])]
    simp [h7, h8, h9]

/-- **The comparison returns true exactly on equal texts and on spellings of one loopback URL.** -/
theorem matches_iff {a b : Str} :
    uriMatchesRegistration a b = .ok true ↔ a = b ∨ SpellOneLoopback a b := by
  by_cases hab : a = b
  · simp [uriMatchesRegistration, hab]
  rw [matches_eq_true hab, or_iff_right hab]
  simp only [isLoopbackHttp, Bool.and_eq_true, decide_eq_true_eq]
  constructor
  · rintro ⟨r, s, hr, hs, ⟨hr1, hr2⟩, ⟨hs1, -⟩, hfr, hfs, har, has, hh, hpath, hquery⟩
    cases hhost : r.hostname with
    | none => rw [hhost] at hr2; cases hr2
    | some host =>
        rw [hhost] at hr2 hh
        exact ⟨host, r.path, r.query, hr2,
          (spellsLoopback_iff hr2).mpr ⟨r, hr, hr1, hhost, hfr, har, rfl, rfl⟩,
          (spellsLoopback_iff hr2).mpr ⟨s, hs, hs1, hh.symm, hfs, has, hpath.symm, hquery.symm⟩⟩
  · rintro ⟨host, path, query, hl, ha, hb⟩
    obtain ⟨r, hr, hr1, hr2, hfr, har, hpr, hqr⟩ := (spellsLoopback_iff hl).mp ha
    obtain ⟨s, hs, hs1, hs2, hfs, has, hps, hqs⟩ := (spellsLoopback_iff hl).mp hb
    exact ⟨r, s, hr, hs, ⟨hr1, by rw [hr2]; exact hl⟩, ⟨hs1, by rw [hs2]; exact hl⟩, hfr, hfs, har,
      has, hr2.trans hs2.symm, hpr.trans hps.symm, hqr.trans hqs.symm⟩

/-! ### Two ports -/

omit [Platform] in
theorem IsPort.chars {port : Str} (h : IsPort port) {c : Char} (hc : c ∈ port) :
    c = ':' ∨ c.isDigit = true := by
  rcases h with rfl | ⟨digits, rfl, -, hd⟩
  · cases hc
  · exact (List.mem_cons.mp hc).imp id (hd c)

omit [Platform] in
theorem IsPort.isPortText {port : Str} (h : IsPort port) : IsPortText port := by
  rcases h with rfl | ⟨digits, rfl, -⟩
  · exact .inl rfl
  · exact .inr ⟨digits, rfl⟩

omit [Platform] in
theorem digit_spec {c : Char} (h : c.isDigit = true) : isNetlocEnd c = false ∧
    isC0OrSpace c = false ∧ isAsciiChar c = true ∧ c ≠ '@' ∧ c ≠ '[' ∧ c ≠ ']' := by
  have hlt : c.toNat < 128 := by
    simp only [Char.isDigit, Bool.and_eq_true, decide_eq_true_eq, UInt32.le_iff_toNat_le] at h
    have h1 : '9'.val.toNat = 57 := rfl
    have h2 : c.toNat = c.val.toNat := rfl
    omega
  have key : ∀ n, n < 128 → (Char.ofNat n).isDigit = true → isNetlocEnd (Char.ofNat n) = false ∧
      isC0OrSpace (Char.ofNat n) = false ∧ isAsciiChar (Char.ofNat n) = true ∧
      Char.ofNat n ≠ '@' ∧ Char.ofNat n ≠ '[' ∧ Char.ofNat n ≠ ']' := by
    decide +kernel
  have := key c.toNat hlt
  rw [Char.ofNat_toNat] at this
  exact this h

/-- The host that the text in an authority names. -/
def hostName (host : Str) : Str := host.filter (fun c => c != '[' && c != ']')

omit [Platform] in
theorem hostTexts_chars : hostTexts.all (fun host => host.all fun c =>
    !isNetlocEnd c && !isUnsafeUrlByte c && isAsciiChar c && c != '@') = true := by
  decide +kernel

omit [Platform] in
theorem authority_char {host port : Str} (hh : host ∈ hostTexts) (hp : IsPort port) {c : Char}
    (hc : c ∈ host ++ port) : isNetlocEnd c = false ∧ isUnsafeUrlByte c = false ∧
      isAsciiChar c = true ∧ c ≠ '@' := by
  rcases List.mem_append.mp hc with hc | hc
  · have := List.all_eq_true.mp (List.all_eq_true.mp hostTexts_chars host hh) c hc
    simpa [and_assoc] using this
  · rcases hp.chars hc with rfl | hd
    · decide
    · obtain ⟨h1, h2, h3, h4, -, -⟩ := digit_spec hd
      exact ⟨h1, not_unsafe_of_visible h2, h3, h4⟩

omit [Platform] in
theorem not_mem_port {port : Str} (hp : IsPort port) {c : Char} (hc : c = '[' ∨ c = ']') : c ∉ port := by
  intro hm
  rcases hp.chars hm with rfl | hd
  · rcases hc with hc | hc <;> cases hc
  · obtain ⟨-, -, -, -, h1, h2⟩ := digit_spec hd
    exact hc.elim h1 h2

/-- The port does not decide whether an authority passes the bracket checks. -/
theorem brackets_hostText {host port : Str} (hh : host ∈ hostTexts) (hp : IsPort port) :
    checkBrackets (host ++ port) = .ok () ∧ NamesHost (hostName host) (host ++ port) := by
  have hopen := not_mem_port hp (.inl rfl)
  have hclose := not_mem_port hp (.inr rfl)
  have bare : ∀ h : Str, '[' ∉ h → ']' ∉ h → ':' ∉ h →
      checkBrackets (h ++ port) = .ok () ∧ NamesHost h (h ++ port) := by
    intro h h1 h2 h3
    have hb : '[' ∉ h ++ port := by simp [h1, hopen]
    have hb' : ']' ∉ h ++ port := by simp [h2, hclose]
    refine ⟨?_, .bare h3 hp.isPortText hb⟩
    simp [checkBrackets, hb, hb', -List.mem_append]
  simp only [hostTexts, List.mem_cons, List.not_mem_nil, or_false] at hh
  rcases hh with rfl | rfl | rfl
  · exact bare _ (by decide) (by decide) (by decide)
  · refine ⟨?_, @NamesHost.bracketed "::1" port (by decide) hp.isPortText⟩
    have hat : '@' ∉ ("[::1]" : Str) ++ port := fun h =>
      (authority_char (by decide) hp h).2.2.2 rfl
    have h1 : partition '[' (("[::1]" : Str) ++ port) = ([], true, ("::1" : Str) ++ ']' :: port) :=
      partition_append List.not_mem_nil _
    have h2 : partition ']' (("::1" : Str) ++ ']' :: port) = ("::1".toList, true, port) :=
      partition_append (by decide) _
    have h3 : checkBracketedHost "::1" = .ok () := by rfl
    have hport : (!port.isEmpty && port.head? != some ':') = false := by
      rcases hp.isPortText with rfl | ⟨text, rfl⟩ <;> rfl
    have h4 : checkBracketedNetloc (("[::1]" : Str) ++ port) = .ok () := by
      unfold checkBracketedNetloc
      rw [afterLast_of_not_mem hat, h1]
      dsimp only
      rw [h2]
      dsimp only
      rw [if_pos rfl, if_neg (by decide), hport, if_neg Bool.false_ne_true, h3]
    unfold checkBrackets
    rw [h4]
    simp
  · exact bare _ (by decide) (by decide) (by decide)

theorem isNetloc_hostText {host port : Str} (hh : host ∈ hostTexts) (hp : IsPort port) :
    IsNetloc (host ++ port) where
  noEnd := fun _ hc => (authority_char hh hp hc).1
  safe := fun _ hc => (authority_char hh hp hc).2.1
  brackets := (brackets_hostText hh hp).1
  nfkc := by
    have : isAscii (host ++ port) = true :=
      List.all_eq_true.mpr fun _ hc => (authority_char hh hp hc).2.2.1
    simp [checkNetloc, this]

omit [Platform] in
theorem cleanUrl_loopback {authority rest : Str} (ha : ∀ c ∈ authority, isUnsafeUrlByte c = false)
    (hr : EndsAuthority rest) :
    cleanUrl ("http://" ++ authority ++ rest) =
      "http:" ++ '/' :: '/' :: (authority ++ rest.filter (fun c => !isUnsafeUrlByte c)) := by
  have hself : cleanUrl ("http://" ++ authority) = "http://" ++ authority := by
    refine cleanUrl_eq_self ?_ ?_
    · intro c hc
      rcases List.mem_append.mp hc with hc | hc
      · have hall : ("http://" : Str).all (fun c => !isUnsafeUrlByte c) = true := by decide
        simpa using List.all_eq_true.mp hall c hc
      · exact ha c hc
    · intro c t h
      rw [← (List.cons.inj h).1]
      decide
  rcases hr with rfl | ⟨r, rfl⟩ | ⟨r, rfl⟩
  · rw [List.append_nil, hself, List.filter_nil, List.append_nil]
    rfl
  · rw [cleanUrl_append_cons (by decide), hself, List.filter_cons_of_pos (by decide)]
    exact (List.append_assoc _ _ _)
  · rw [cleanUrl_append_cons (by decide), hself, List.filter_cons_of_pos (by decide)]
    exact (List.append_assoc _ _ _)

/-- What a loopback URL spells does not depend on its port. -/
theorem spells_of_port {host port rest : Str} (hh : host ∈ hostTexts) (hp : IsPort port)
    (hash : '#' ∉ rest) (hr : EndsAuthority rest) :
    isLoopbackHost (some (lower (hostName host))) = true ∧
      SpellsLoopback ("http://" ++ (host ++ port) ++ rest) (lower (hostName host))
        (splitTail (rest.filter fun c => !isUnsafeUrlByte c)).1
        (splitTail (rest.filter fun c => !isUnsafeUrlByte c)).2.1 := by
  have hl : isLoopbackHost (some (lower (hostName host))) = true := by
    simp only [hostTexts, List.mem_cons, List.not_mem_nil, or_false] at hh
    rcases hh with rfl | rfl | rfl <;> rfl
  have hname : hostName host ≠ [] ∧ '%' ∉ hostName host := by
    simp only [hostTexts, List.mem_cons, List.not_mem_nil, or_false] at hh
    rcases hh with rfl | rfl | rfl <;> decide
  refine ⟨hl, (spellsLoopback_iff hl).mpr ?_⟩
  have hnet := isNetloc_hostText hh hp
  have hat : '@' ∉ host ++ port := fun h => (authority_char hh hp h).2.2.2 rfl
  have hend : ∀ c r, rest.filter (fun c => !isUnsafeUrlByte c) = c :: r → isNetlocEnd c = true := by
    intro c r h
    rcases hr with rfl | ⟨r', rfl⟩ | ⟨r', rfl⟩
    · cases h
    · rw [List.filter_cons_of_pos (by decide)] at h
      rw [← (List.cons.inj h).1]
      decide
    · rw [List.filter_cons_of_pos (by decide)] at h
      rw [← (List.cons.inj h).1]
      decide
  have hash' : '#' ∉ rest.filter (fun c => !isUnsafeUrlByte c) :=
    fun h => hash (List.mem_of_mem_filter h)
  refine ⟨⟨"http".toList, host ++ port, _, _, []⟩, ?_, rfl, ?_, rfl, hat, rfl, rfl⟩
  · have hscheme := @splitScheme_append_colon "http" (by decide)
      ('/' :: '/' :: (host ++ port ++ rest.filter fun c => !isUnsafeUrlByte c))
    unfold urlsplit
    rw [cleanUrl_loopback hnet.safe hr, splitClean_eq_ok]
    rw [show ("http:" : Str) = "http" ++ [':'] from rfl, List.append_assoc, List.singleton_append,
      hscheme]
    dsimp only
    rw [splitNetloc_slashes hnet.noEnd hend]
    refine ⟨rfl, rfl, ?_, hnet.brackets, hnet.nfkc⟩
    simp only [splitTail, partition_of_not_mem hash']
  · exact hostname_of_names hat (brackets_hostText hh hp).2 hname.1 hname.2

theorem matches_of_portVariants {rest a b : Str} (hr : EndsAuthority rest)
    (h : PortVariants rest a b) : uriMatchesRegistration a b = .ok true := by
  obtain ⟨hash, host, hh, p, q, hp, hq, rfl, rfl⟩ := h
  obtain ⟨hl, ha⟩ := spells_of_port hh hp hash hr
  obtain ⟨-, hb⟩ := spells_of_port hh hq hash hr
  exact matches_iff.mpr (.inr ⟨_, _, _, hl, ha, hb⟩)

/-- **The relaxation drops the port alone, except on two spellings of one loopback URL** that are
neither equal nor alike up to a port. -/
theorem dropsOnlyPort_iff (a b : Str) : DropsOnlyPort a b ↔
    ¬ (SpellOneLoopback a b ∧ a ≠ b ∧ ∀ rest, ¬ PortVariants rest a b) := by
  constructor
  · rintro ⟨h, -⟩ ⟨hs, hne, hnot⟩
    rcases h (matches_iff.mpr (.inr hs)) with rfl | ⟨rest, hv⟩
    · exact hne rfl
    · exact hnot rest hv
  · intro h
    refine ⟨fun hm => ?_, fun rest hr hv => matches_of_portVariants hr hv⟩
    rcases matches_iff.mp hm with rfl | hs
    · exact .inl rfl
    · by_contra hno
      rw [not_or, not_exists] at hno
      exact h ⟨hs, hno⟩

end Relaxation

/-- Upper case is folded, and a `#` at the end is not seen. -/
theorem relaxation_folds_spelling :
    letI := Platform.plain
    ¬ DropsOnlyPort "HTTP://LOCALHOST/cb#" "http://localhost/cb" := by
  let := Platform.plain
  intro h
  have hm : uriMatchesRegistration "HTTP://LOCALHOST/cb#" "http://localhost/cb" = .ok true := by
    decide +kernel
  rcases h.1 hm with heq | ⟨rest, -, host, -, p, q, -, -, ha, -⟩
  · revert heq
    decide
  · -- the first character of the requested URI is not the one of `http`
    exact absurd (List.cons.inj ha).1 (by decide)

end CimdProxy
