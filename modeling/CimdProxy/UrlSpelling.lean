import CimdProxy.UrlSplit

/-! # How a URL can be spelled

`urlsplit` forgets things: the case of the scheme, the characters that `cleanUrl` drops, and whether
an empty query or fragment was there.  `urlsplit_hash` says what a `#` does to a split,
`exists_empty_fragment` finds it in the text when the split does not show it, and
`urlsplit_iff_written` gives back all texts with the same split.  `names_of_hostname` does the same for
the host of an authority. -/

namespace Py

theorem cleanUrl_append_cons {c : Char} (hc : isC0OrSpace c = false) (s t : Str) :
    cleanUrl (s ++ c :: t) = cleanUrl s ++ c :: t.filter (fun x => !isUnsafeUrlByte x) := by
  have hd : (s ++ c :: t).dropWhile isC0OrSpace = s.dropWhile isC0OrSpace ++ c :: t := by
    rw [List.dropWhile_append, List.dropWhile_cons_of_neg (by simp [hc])]
    split_ifs with h
    · rw [List.isEmpty_iff.mp h, List.nil_append]
    · rfl
  unfold cleanUrl
  rw [hd, List.filter_append, List.filter_cons_of_pos (by simp [not_unsafe_of_visible hc])]

/-! ### A `#` after text without one -/

theorem splitScheme_hash (s f : Str) :
    splitScheme (s ++ '#' :: f) = ((splitScheme s).1, (splitScheme s).2 ++ '#' :: f) := by
  rcases splitScheme_cases s with he | ⟨a, b, rfl, ha, he⟩
  · rw [he]
    rcases splitScheme_cases (s ++ '#' :: f) with h | ⟨a, b, hu, ha, -⟩
    · exact h
    · -- a scheme holds no `#`, so its colon stands in `s` already
      exfalso
      have hne : '#' ∉ a := fun hm => absurd ((isScheme_spec ha).2 _ hm) (by decide)
      obtain ⟨x, rfl⟩ : ∃ x, s = a ++ ':' :: x := by
        rcases List.append_eq_append_iff.mp hu with ⟨x, hx, hy⟩ | ⟨x, hx, hy⟩
        · cases x with
          | nil => cases hy
          | cons y ys =>
              obtain ⟨rfl, -⟩ := List.cons.inj hy
              exact absurd (by rw [hx]; simp) hne
        · cases x with
          | nil => cases hy
          | cons y ys =>
              obtain ⟨rfl, -⟩ := List.cons.inj hy
              exact ⟨ys, hx⟩
      rw [splitScheme_append_colon ha] at he
      exact (isScheme_spec ha).1 (List.map_eq_nil_iff.mp (congrArg Prod.fst he))
  · rw [he, List.append_assoc, List.cons_append]
    exact splitScheme_append_colon ha _

theorem splitNetloc_hash (s f : Str) :
    splitNetloc (s ++ '#' :: f) = ((splitNetloc s).1, (splitNetloc s).2 ++ '#' :: f) := by
  rcases splitNetloc_cases s with ⟨he, hs⟩ | ⟨n, t, rfl, hn, ht, he⟩
  · rw [he]
    rcases splitNetloc_cases (s ++ '#' :: f) with ⟨h, -⟩ | ⟨n, t, hu, -⟩
    · exact h
    · exfalso
      match s, hs, hu with
      | [], _, hu => exact absurd (List.cons.inj hu).1 (by decide)
      | [_], _, hu => exact absurd (List.cons.inj (List.cons.inj hu).2).1 (by decide)
      | x :: y :: r, hs, hu =>
          refine hs r ?_
          rw [(List.cons.inj hu).1, (List.cons.inj (List.cons.inj hu).2).1]
  · rw [he]
    have hend : ∀ c r, t ++ '#' :: f = c :: r → isNetlocEnd c = true := by
      intro c r h
      cases t with
      | nil =>
          rw [← (List.cons.inj h).1]
          decide
      | cons x xs => exact ht c xs (by rw [(List.cons.inj h).1])
    have := splitNetloc_slashes hn hend
    rwa [← List.append_assoc] at this

theorem splitTail_hash {t : Str} (ht : '#' ∉ t) (f : Str) :
    splitTail (t ++ '#' :: f) = ((splitTail t).1, (splitTail t).2.1, f) := by
  simp only [splitTail, partition_append ht, partition_of_not_mem ht]

theorem mem_of_mem_split {s : Str} {c : Char} (h : c ∈ (splitNetloc (splitScheme s).2).2) : c ∈ s := by
  have hs : ∀ c ∈ (splitScheme s).2, c ∈ s := by
    intro c hc
    rcases splitScheme_cases s with he | ⟨a, b, rfl, -, he⟩
    · rwa [he] at hc
    · rw [he] at hc
      simp [show c ∈ b from hc]
  apply hs
  rcases splitNetloc_cases (splitScheme s).2 with ⟨he, -⟩ | ⟨n, t, hu, -, -, he⟩
  · rwa [he] at h
  · rw [he] at h
    rw [hu]
    simp [show c ∈ t from h]

variable [UnicodeData]

theorem splitClean_hash {s : Str} (hs : '#' ∉ s) (f : Str) :
    splitClean (s ++ '#' :: f) = (splitClean s).map fun r => { r with fragment := f } := by
  have ht : '#' ∉ (splitNetloc (splitScheme s).2).2 := fun h => hs (mem_of_mem_split h)
  unfold splitClean
  rw [splitScheme_hash]
  dsimp only
  rw [splitNetloc_hash]
  dsimp only
  rw [splitTail_hash ht]
  cases checkBrackets (splitNetloc (splitScheme s).2).1 with
  | error e => rfl
  | ok _ =>
      simp only [ok_bind]
      cases checkNetloc (splitNetloc (splitScheme s).2).1 with
      | error e => rfl
      | ok _ => rfl

/-- **A `#` adds a fragment and changes nothing else.** -/
theorem urlsplit_hash {u : Str} (hu : '#' ∉ u) (f : Str) :
    urlsplit (u ++ '#' :: f) =
      (urlsplit u).map fun r => { r with fragment := f.filter (fun c => !isUnsafeUrlByte c) } := by
  unfold urlsplit
  rw [cleanUrl_append_cons (by decide)]
  exact splitClean_hash (fun h => hu ((mem_cleanUrl_iff (by decide)).mp h)) _

theorem fragment_eq_nil {u : Str} {p : SplitResult} (h : urlsplit u = .ok p) (hu : '#' ∉ u) :
    p.fragment = [] := by
  obtain ⟨-, -, ht, -, -⟩ := splitClean_eq_ok.mp h
  have hash : '#' ∉ (splitNetloc (splitScheme (cleanUrl u)).2).2 := fun hm =>
    hu ((mem_cleanUrl_iff (by decide)).mp (mem_of_mem_split hm))
  rw [splitTail, partition_of_not_mem hash] at ht
  exact (Prod.mk.inj (Prod.mk.inj ht).2).2

/-- Text that `urlsplit` does not see. -/
def IsInvisible (w : Str) : Prop := ∀ c ∈ w, isUnsafeUrlByte c = true

/-- A `#` with nothing visible after it leaves the split as it was. -/
theorem urlsplit_empty_fragment {v w : Str} (hv : '#' ∉ v) (hw : IsInvisible w) :
    urlsplit (v ++ '#' :: w) = urlsplit v := by
  have hf : w.filter (fun c => !isUnsafeUrlByte c) = [] := by
    rw [List.filter_eq_nil_iff]
    intro c hc
    simp [hw c hc]
  rw [urlsplit_hash hv, hf]
  cases h : urlsplit v with
  | error e => rfl
  | ok p =>
      have := fragment_eq_nil h hv
      obtain ⟨scheme, netloc, path, query, fragment⟩ := p
      dsimp only at this
      subst this
      rfl

/-- When a split shows no fragment, a `#` of the text is its last visible character. -/
theorem exists_empty_fragment {u : Str} {p : SplitResult} (h : urlsplit u = .ok p)
    (hf : p.fragment = []) (hu : '#' ∈ u) :
    ∃ v w, u = v ++ '#' :: w ∧ '#' ∉ v ∧ IsInvisible w := by
  obtain ⟨v, w, rfl, hv⟩ := List.eq_append_cons_of_mem hu
  refine ⟨v, w, rfl, hv, ?_⟩
  rw [urlsplit_hash hv] at h
  cases hs : urlsplit v with
  | error e => rw [hs] at h; cases h
  | ok r =>
      rw [hs] at h
      rw [← Except.ok.inj h] at hf
      intro c hc
      simpa using List.filter_eq_nil_iff.mp hf c hc

/-! ### The text of a split -/

/-- A part behind its delimiter; an empty part may stand without. -/
def IsDelimited (delim : Char) (text part : Str) : Prop :=
  text = delim :: part ∨ (text = [] ∧ part = [])

/-- The text, once cleaned, is written `scheme://netloc path ?query #fragment` with these parts. -/
structure IsWritten (u : Str) (p : SplitResult) : Prop where
  text : ∃ scheme query fragment,
    cleanUrl u = scheme ++ "://" ++ (p.netloc ++ (p.path ++ query ++ fragment)) ∧
      isScheme scheme = true ∧ scheme.map Char.toLower = p.scheme ∧
      IsDelimited '?' query p.query ∧ IsDelimited '#' fragment p.fragment
  netloc : IsNetloc p.netloc
  path : p.path = [] ∨ ∃ rest, p.path = '/' :: rest
  pathEnds : '?' ∉ p.path ∧ '#' ∉ p.path
  queryEnds : '#' ∉ p.query

omit [UnicodeData] in
theorem partition_spec {delim : Char} {s : Str} :
    ∃ text, s = (partition delim s).1 ++ text ∧ IsDelimited delim text (partition delim s).2.2 ∧
      delim ∉ (partition delim s).1 := by
  rcases partition_cases delim s with ⟨hn, he⟩ | ⟨a, b, ha, hs, he⟩
  · exact ⟨[], by rw [he, List.append_nil], by rw [he]; exact .inr ⟨rfl, rfl⟩, by rw [he]; exact hn⟩
  · exact ⟨delim :: b, by rw [he]; exact hs, by rw [he]; exact .inl rfl, by rw [he]; exact ha⟩

omit [UnicodeData] in
theorem partition_delimited {delim : Char} {a text part : Str} (ha : delim ∉ a)
    (ht : IsDelimited delim text part) :
    (partition delim (a ++ text)).1 = a ∧ (partition delim (a ++ text)).2.2 = part := by
  rcases ht with rfl | ⟨rfl, rfl⟩
  · rw [partition_append ha]
    exact ⟨rfl, rfl⟩
  · rw [List.append_nil, partition_of_not_mem ha]
    exact ⟨rfl, rfl⟩

omit [UnicodeData] in
theorem splitTail_spec (t : Str) :
    ∃ query fragment, t = (splitTail t).1 ++ query ++ fragment ∧
      IsDelimited '?' query (splitTail t).2.1 ∧ IsDelimited '#' fragment (splitTail t).2.2 ∧
      '?' ∉ (splitTail t).1 ∧ '#' ∉ (splitTail t).1 ∧ '#' ∉ (splitTail t).2.1 := by
  obtain ⟨fragment, ht, hf, hfront⟩ := @partition_spec '#' t
  obtain ⟨query, hfq, hq, hpath⟩ := @partition_spec '?' (partition '#' t).1
  refine ⟨query, fragment, ?_, hq, hf, hpath, ?_, ?_⟩
  · exact ht.trans (congrArg (· ++ fragment) hfq)
  · intro hm
    exact hfront (by rw [hfq]; exact List.mem_append_left _ hm)
  · intro hm
    refine hfront ?_
    rw [hfq]
    rcases hq with hq | ⟨-, hq⟩
    · rw [hq]
      exact List.mem_append_right _ (List.mem_cons_of_mem _ hm)
    · rw [show (splitTail t).2.1 = [] from hq] at hm
      cases hm

omit [UnicodeData] in
theorem splitTail_text {path query fragment q f : Str} (hpath : '?' ∉ path ∧ '#' ∉ path)
    (hquery : '#' ∉ query) (hq : IsDelimited '?' q query) (hf : IsDelimited '#' f fragment) :
    splitTail (path ++ q ++ f) = (path, query, fragment) := by
  have hfront : '#' ∉ path ++ q := by
    rcases hq with rfl | ⟨rfl, rfl⟩ <;> simp [hpath.2, hquery]
  obtain ⟨h1, h2⟩ := partition_delimited hfront hf
  obtain ⟨h3, h4⟩ := partition_delimited hpath.1 hq
  simp only [splitTail, h1, h2, h3, h4]

/-- **What `urlsplit` finds is what is written**, for URLs with a scheme and an authority. -/
theorem urlsplit_iff_written {u : Str} {p : SplitResult} (hs : p.scheme ≠ []) (hn : p.netloc ≠ []) :
    urlsplit u = .ok p ↔ IsWritten u p := by
  constructor
  · intro h
    obtain ⟨a, t, hu, ha, hscheme, hend, ht, hnet⟩ := urlsplit_parts h hs hn
    obtain ⟨query, fragment, htext, hq, hf, h1, h2, h3⟩ := splitTail_spec t
    rw [← ht] at htext hq hf h1 h2 h3
    refine ⟨⟨a, query, fragment, ?_, ha, hscheme.symm, hq, hf⟩, hnet, ?_, ⟨h1, h2⟩, h3⟩
    · rw [hu, ← htext]
      simp
    · cases hp : p.path with
      | nil => exact .inl rfl
      | cons c rest =>
          -- the tail begins with a delimiter, and a path holds neither of the other two
          have hc := hend c (rest ++ query ++ fragment) (by rw [htext, hp]; rfl)
          simp only [isNetlocEnd, Bool.or_eq_true, beq_iff_eq] at hc
          rw [hp] at h1 h2
          rcases hc with (rfl | rfl) | rfl
          · exact .inr ⟨rest, rfl⟩
          · exact absurd List.mem_cons_self h1
          · exact absurd List.mem_cons_self h2
  · rintro ⟨⟨scheme, query, fragment, hu, ha, hscheme, hq, hf⟩, hnet, hpath, hends, hquery⟩
    have hend : ∀ c r, p.path ++ query ++ fragment = c :: r → isNetlocEnd c = true := by
      intro c r h
      rcases hpath with hp | ⟨rest, hp⟩
      · rw [hp, List.nil_append] at h
        rcases hq with rfl | ⟨rfl, -⟩
        · rw [← (List.cons.inj h).1]
          decide
        · rcases hf with rfl | ⟨rfl, -⟩
          · rw [← (List.cons.inj h).1]
            decide
          · cases h
      · rw [hp] at h
        rw [← (List.cons.inj h).1]
        decide
    have hcolon : cleanUrl u =
        scheme ++ ':' :: '/' :: '/' :: (p.netloc ++ (p.path ++ query ++ fragment)) := by
      rw [hu]
      simp
    unfold urlsplit
    rw [hcolon, splitClean_eq_ok, splitScheme_append_colon ha]
    dsimp only
    rw [splitNetloc_slashes hnet.noEnd hend, splitTail_text hends hquery hq hf]
    exact ⟨hscheme.symm, rfl, rfl, hnet.brackets, hnet.nfkc⟩

/-! ### The host of an authority -/

/-- The text of a port: nothing, or a colon and anything. -/
def IsPortText (port : Str) : Prop := port = [] ∨ ∃ text, port = ':' :: text

/-- An authority without userinfo names its host, in brackets or bare. -/
inductive NamesHost (name : Str) : Str → Prop where
  | bare {port : Str} : ':' ∉ name → IsPortText port → '[' ∉ name ++ port → NamesHost name (name ++ port)
  | bracketed {port : Str} : ']' ∉ name → IsPortText port → NamesHost name ('[' :: (name ++ ']' :: port))

omit [UnicodeData] in
theorem afterLast_of_not_mem {c : Char} {s : Str} (h : c ∉ s) : afterLast c s = s := by
  apply List.rtakeWhile_eq_self_iff.mpr
  intro x hx
  simp only [bne_iff_ne, ne_eq]
  rintro rfl
  exact h hx

omit [UnicodeData] in
theorem hostinfo_of_names {p : SplitResult} {name : Str} (hat : '@' ∉ p.netloc)
    (h : NamesHost name p.netloc) : p.hostinfo.1 = name := by
  unfold SplitResult.hostinfo
  rw [afterLast_of_not_mem hat]
  generalize p.netloc = netloc at h
  cases h with
  | @bare port hname hport hopen =>
      dsimp only
      rw [partition_of_not_mem hopen]
      dsimp only
      rcases hport with rfl | ⟨text, rfl⟩
      · rw [List.append_nil, partition_of_not_mem hname]
        rfl
      · rw [partition_append hname]
        rfl
  | @bracketed port hname hport =>
      have hopen := @partition_append '[' [] List.not_mem_nil (name ++ ']' :: port)
      rw [List.nil_append] at hopen
      dsimp only
      rw [hopen]
      dsimp only
      rw [partition_append hname]
      rfl

/-- The bracket checks leave an authority with a host that can be told. -/
theorem names_of_brackets {netloc : Str} (h : checkBrackets netloc = .ok ()) (hat : '@' ∉ netloc) :
    ∃ name, NamesHost name netloc := by
  unfold checkBrackets at h
  split at h
  · cases h
  next hboth =>
  by_cases hopen : '[' ∈ netloc
  · rw [if_pos (by simpa using hopen)] at h
    have hclose : ']' ∈ netloc := by simpa [hopen] using hboth
    unfold checkBracketedNetloc at h
    rw [afterLast_of_not_mem hat] at h
    rcases partition_cases '[' netloc with ⟨hn, -⟩ | ⟨a, b, -, rfl, he⟩
    · exact absurd hopen hn
    · rw [he] at h
      dsimp only at h
      rw [if_pos rfl] at h
      split at h
      · cases h
      next ha =>
      obtain rfl : a = [] := by simpa using ha
      have hclose' : ']' ∈ b := by simpa using hclose
      rcases partition_cases ']' b with ⟨hn, -⟩ | ⟨name, port, hname, rfl, he'⟩
      · exact absurd hclose' hn
      · rw [he'] at h
        dsimp only at h
        split at h
        · cases h
        next hport =>
        refine ⟨name, .bracketed hname ?_⟩
        cases port with
        | nil => exact .inl rfl
        | cons c text =>
            obtain rfl : c = ':' := by simpa using hport
            exact .inr ⟨text, rfl⟩
  · rcases partition_cases ':' netloc with ⟨hn, -⟩ | ⟨name, text, hname, rfl, -⟩
    · refine ⟨netloc, ?_⟩
      have := @NamesHost.bare netloc [] hn (.inl rfl) (by rwa [List.append_nil])
      rwa [List.append_nil] at this
    · exact ⟨name, .bare hname (.inr ⟨text, rfl⟩) hopen⟩

/-- The host name of an authority that names a host without a zone. -/
theorem hostname_of_names {p : SplitResult} {name : Str} (hat : '@' ∉ p.netloc)
    (h : NamesHost name p.netloc) (hname : name ≠ []) (hzone : '%' ∉ name) :
    p.hostname = some (lower name) := by
  unfold SplitResult.hostname
  rw [hostinfo_of_names hat h]
  dsimp only
  rw [partition_of_not_mem hzone]
  simp [hname]

/-- A host name without a zone is the lower-cased name in the authority. -/
theorem names_of_hostname {p : SplitResult} {host : Str} (hb : checkBrackets p.netloc = .ok ())
    (hat : '@' ∉ p.netloc) (hh : p.hostname = some host) (hzone : '%' ∉ host) :
    ∃ name, NamesHost name p.netloc ∧ name ≠ [] ∧ '%' ∉ name ∧ lower name = host := by
  obtain ⟨name, hn⟩ := names_of_brackets hb hat
  unfold SplitResult.hostname at hh
  rw [hostinfo_of_names hat hn] at hh
  dsimp only at hh
  split at hh
  · cases hh
  next hne =>
  refine ⟨name, hn, by simpa using hne, ?_⟩
  rcases partition_cases '%' name with ⟨hz, he⟩ | ⟨a, zone, -, -, he⟩
  · rw [he] at hh
    refine ⟨hz, ?_⟩
    rw [← Option.some.inj hh]
    exact (List.append_nil _).symm
  · rw [he] at hh
    rw [← Option.some.inj hh] at hzone
    exact absurd (List.mem_append_right _ List.mem_cons_self) hzone

end Py
