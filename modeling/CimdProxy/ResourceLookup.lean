import CimdProxy.Config

/-! # What the resource lookup tolerates

`resourceByUrl` folds a requested root `scheme://authority/` to `scheme://authority` before it looks
for an equal table entry.  The fold goes through `urlsplit` and `urlunsplit`, which change their input
on their own.  The results say exactly when this is harmless:

* `normaliseRequestedUrl_idem`: the fold is idempotent, so the lookup is stable on its own result
  (`resourceByUrl_stable`);
* `resourceByUrl_eq_tolerated_iff`: when the lookup agrees with the rule that only a single final
  slash after a bare root is ignored;
* `written_urls_resolve_iff`: when every URL as it was written in the environment, and the default
  resource, resolve to the entry they configure. -/

namespace CimdProxy

open Py

section Lookup

variable [Platform]

/-! ### Roots -/

theorem isNetloc_nil : IsNetloc ([] : Str) where
  noEnd := by simp
  safe := by simp
  brackets := rfl
  nfkc := rfl

/-- What the parts of a split are. -/
theorem urlsplit_spec {url : Str} {p : SplitResult} (h : urlsplit url = .ok p) :
    (p.scheme = [] ∨ IsLowerScheme p.scheme) ∧ IsNetloc p.netloc := by
  obtain ⟨h1, h2, -, h4, h5⟩ := splitClean_eq_ok.mp h
  have hsub : ∀ c ∈ (splitScheme (cleanUrl url)).2, c ∈ cleanUrl url := by
    intro c hc
    rcases splitScheme_cases (cleanUrl url) with he | ⟨a, b, hu, -, he⟩
    · rw [he] at hc; exact hc
    · rw [he] at hc; rw [hu]; simp [show c ∈ b from hc]
  refine ⟨?_, ?_⟩
  · rcases splitScheme_cases (cleanUrl url) with he | ⟨a, b, -, ha, he⟩
    · rw [he] at h1; exact .inl h1
    · rw [he] at h1; rw [h1]; exact .inr (isLowerScheme_map ha)
  · rcases splitNetloc_cases (splitScheme (cleanUrl url)).2 with ⟨he, -⟩ | ⟨n, t, hb, hne, -, he⟩
    · rw [he] at h2; rw [h2]; exact isNetloc_nil
    · rw [he] at h2
      dsimp only at h2
      refine ⟨by rw [h2]; exact hne, ?_, h4, h5⟩
      intro c hc
      refine not_unsafe_of_mem_cleanUrl (hsub c ?_)
      rw [hb]
      rw [h2] at hc
      simp [hc]

/-- The text of `scheme://authority`. -/
def rootText (scheme netloc : Str) : Str := scheme ++ ':' :: '/' :: '/' :: netloc

/-- What a bare root is folded to. -/
def foldedRoot (p : SplitResult) : Str := urlunsplit { p with path := [] }

omit [Platform] in
theorem foldedRoot_eq {p : SplitResult} (hq : p.query = []) (hf : p.fragment = []) :
    foldedRoot p =
      if p.netloc ≠ [] then
        if p.scheme = [] then '/' :: '/' :: p.netloc else rootText p.scheme p.netloc
      else if p.scheme = [] then []
      else if p.scheme ∈ usesNetloc then rootText p.scheme []
      else p.scheme ++ [':'] := by
  obtain ⟨scheme, netloc, path, query, fragment⟩ := p
  subst hq hf
  by_cases hn : netloc = []
  · subst hn
    by_cases hs : scheme = []
    · subst hs; rfl
    · have hs' : scheme.isEmpty = false := by simpa using hs
      by_cases hm : scheme ∈ usesNetloc
      · simp [foldedRoot, urlunsplit, rootText, hs, hs', hm]
      · simp [foldedRoot, urlunsplit, hs, hs', hm]
  · have hn' : netloc.isEmpty = false := by simpa using hn
    by_cases hs : scheme = []
    · subst hs; simp [foldedRoot, urlunsplit, hn, hn']
    · have hs' : scheme.isEmpty = false := by simpa using hs
      simp [foldedRoot, urlunsplit, rootText, hn, hn', hs, hs']

theorem urlsplit_rootText {scheme netloc : Str} (hs : isScheme scheme = true) (hn : IsNetloc netloc) :
    urlsplit (rootText scheme netloc) = .ok ⟨scheme.map Char.toLower, netloc, [], [], []⟩ := by
  have h := @urlsplit_assemble _ _ _ [] hs hn (by simp) (by simp)
  rwa [List.append_nil] at h

omit [Platform] in
theorem isRootShaped_iff {p : SplitResult} :
    isRootShaped p = true ↔ p.path = ['/'] ∧ p.query = [] ∧ p.fragment = [] := by
  simp [isRootShaped, and_assoc]

theorem urlsplit_slashes {netloc : Str} (hn : IsNetloc netloc) :
    urlsplit ('/' :: '/' :: netloc) = .ok ⟨[], netloc, [], [], []⟩ := by
  have hclean : cleanUrl ('/' :: '/' :: netloc) = '/' :: '/' :: netloc := by
    refine cleanUrl_eq_self ?_ ?_
    · intro c hc
      simp only [List.mem_cons] at hc
      rcases hc with rfl | rfl | hc
      · decide
      · decide
      · exact hn.safe c hc
    · intro c t h
      rw [← (List.cons.inj h).1]
      decide
  have hscheme : splitScheme ('/' :: '/' :: netloc) = ([], '/' :: '/' :: netloc) := by
    rcases splitScheme_cases ('/' :: '/' :: netloc) with h | ⟨a, b, hu, ha, -⟩
    · exact h
    · cases a with
      | nil => cases ha
      | cons x xs =>
          rw [List.cons_append] at hu
          rw [← (List.cons.inj hu).1] at ha
          exact absurd ha (by simp [isScheme])
  unfold urlsplit
  rw [hclean, splitClean_eq_ok, hscheme]
  have h := splitNetloc_slashes hn.noEnd (t := []) (by simp)
  rw [List.append_nil] at h
  dsimp only
  rw [h]
  exact ⟨rfl, rfl, rfl, hn.brackets, hn.nfkc⟩

theorem urlsplit_scheme_colon {scheme : Str} (hs : IsLowerScheme scheme) :
    urlsplit (scheme ++ [':']) = .ok ⟨scheme, [], [], [], []⟩ := by
  obtain ⟨hne, hchars⟩ := isScheme_spec hs.1
  have hclean : cleanUrl (scheme ++ [':']) = scheme ++ [':'] := by
    refine cleanUrl_eq_self ?_ ?_
    · intro c hc
      rcases List.mem_append.mp hc with hc | hc
      · exact (schemeChar_spec (hchars c hc)).1
      · rw [List.mem_singleton.mp hc]; decide
    · intro c t h
      cases scheme with
      | nil => exact absurd rfl hne
      | cons x xs =>
          rw [List.cons_append] at h
          rw [← (List.cons.inj h).1]
          exact (schemeChar_spec (hchars x List.mem_cons_self)).2.1
  unfold urlsplit
  rw [hclean, splitClean_eq_ok, splitScheme_append_colon hs.1]
  exact ⟨hs.2.symm, rfl, rfl, rfl, rfl⟩

/-- A folded root splits into the same scheme and authority and nothing else. -/
theorem urlsplit_foldedRoot {url : Str} {p : SplitResult} (h : urlsplit url = .ok p)
    (hr : isRootShaped p = true) :
    urlsplit (foldedRoot p) = .ok ⟨p.scheme, p.netloc, [], [], []⟩ := by
  obtain ⟨hs, hn⟩ := urlsplit_spec h
  obtain ⟨-, hq, hf⟩ := isRootShaped_iff.mp hr
  rw [foldedRoot_eq hq hf]
  by_cases hnl : p.netloc = []
  · rcases hs with hs | hs
    · simp only [hnl, hs, ne_eq, not_true_eq_false, if_false, if_true]
      rfl
    · have hne : p.scheme ≠ [] := (isScheme_spec hs.1).1
      simp only [hnl, hne, ne_eq, not_true_eq_false, if_false]
      split_ifs
      · rw [urlsplit_rootText hs.1 isNetloc_nil, hs.2]
      · exact urlsplit_scheme_colon hs
  · rcases hs with hs | hs
    · simp only [hnl, hs, ne_eq, not_false_eq_true, if_true]
      exact urlsplit_slashes hn
    · have hne : p.scheme ≠ [] := (isScheme_spec hs.1).1
      simp only [hnl, hne, ne_eq, not_false_eq_true, if_true, if_false]
      rw [urlsplit_rootText hs.1 hn, hs.2]

/-! ### Stability -/

/-- Everything the fold can do. -/
theorem normaliseRequestedUrl_cases {url target : Str}
    (h : normaliseRequestedUrl url = .ok target) :
    (url = [] ∧ target = []) ∨
    ∃ p, urlsplit url = .ok p ∧ url ≠ [] ∧
      ((isRootShaped p = false ∧ target = url) ∨ (isRootShaped p = true ∧ target = foldedRoot p)) := by
  unfold normaliseRequestedUrl splitUrl at h
  by_cases hu : url = []
  · subst hu
    exact .inl ⟨rfl, (Except.ok.inj h).symm⟩
  · right
    have hu' : url.isEmpty = false := by simpa using hu
    simp only [hu', Bool.false_eq_true, if_false] at h
    cases hs : urlsplit url with
    | error e => rw [hs] at h; cases h
    | ok p =>
        rw [hs] at h
        simp only [Except.mapError, ok_bind, pure_eq_ok] at h
        refine ⟨p, rfl, hu, ?_⟩
        by_cases hr : isRootShaped p = true
        · rw [if_pos hr] at h
          exact .inr ⟨hr, (Except.ok.inj h).symm⟩
        · rw [if_neg hr] at h
          exact .inl ⟨by simpa using hr, (Except.ok.inj h).symm⟩

theorem normaliseRequestedUrl_of_split {url : Str} {p : SplitResult} (h : urlsplit url = .ok p) :
    normaliseRequestedUrl url = .ok (if isRootShaped p then foldedRoot p else url) := by
  unfold normaliseRequestedUrl splitUrl
  by_cases hu : url = []
  · subst hu
    have : p = ⟨[], [], [], [], []⟩ := by
      have h0 : urlsplit [] = .ok ⟨[], [], [], [], []⟩ := rfl
      rw [h0] at h
      exact (Except.ok.inj h).symm
    subst this
    rfl
  · have hu' : url.isEmpty = false := by simpa using hu
    simp only [hu', Bool.false_eq_true, if_false, h, Except.mapError, ok_bind, pure_eq_ok]
    split_ifs <;> rfl

/-- The fold is idempotent. -/
theorem normaliseRequestedUrl_idem {url target : Str}
    (h : normaliseRequestedUrl url = .ok target) : normaliseRequestedUrl target = .ok target := by
  rcases normaliseRequestedUrl_cases h with ⟨-, rfl⟩ | ⟨p, hp, -, ⟨hr, rfl⟩ | ⟨hr, rfl⟩⟩
  · rfl
  · exact h
  · rw [normaliseRequestedUrl_of_split (urlsplit_foldedRoot hp hr)]
    rfl

theorem resourceByUrl_eq_ok {cfg : ProxyConfig} {url : Str} {res : Option ResourceEntry} :
    cfg.resourceByUrl url = .ok res ↔
      ∃ target, normaliseRequestedUrl url = .ok target ∧
        res = cfg.resources.find? (fun e => e.url == target) := by
  unfold ProxyConfig.resourceByUrl
  cases h : normaliseRequestedUrl url with
  | error e => simp
  | ok target =>
      simp only [ok_bind, pure_eq_ok, Except.ok.injEq, exists_eq_left']
      exact eq_comm

/-- **The lookup is stable on its own result**: the url of an entry it returned leads back to the
same entry. -/
theorem resourceByUrl_stable {cfg : ProxyConfig} {url : Str} {e : ResourceEntry}
    (h : cfg.resourceByUrl url = .ok (some e)) : cfg.resourceByUrl e.url = .ok (some e) := by
  obtain ⟨target, ht, he⟩ := resourceByUrl_eq_ok.mp h
  have heq : e.url = target := by simpa using List.find?_some he.symm
  rw [resourceByUrl_eq_ok]
  exact ⟨target, by rw [heq]; exact normaliseRequestedUrl_idem ht, he⟩

theorem mem_of_resourceByUrl {cfg : ProxyConfig} {url : Str} {e : ResourceEntry}
    (h : cfg.resourceByUrl url = .ok (some e)) : e ∈ cfg.resources := by
  obtain ⟨target, -, he⟩ := resourceByUrl_eq_ok.mp h
  exact List.mem_of_find?_eq_some he.symm

/-! ### The rule the lookup should follow -/

/-- Whether text is `scheme://authority` with empty path, no query and no fragment. -/
def isRootUrl (s : Str) : Bool :=
  let (scheme, sep, rest) := partition ':' s
  sep && isScheme scheme && ("//" : Str).isPrefixOf rest && (rest.drop 2).all (fun c => !isNetlocEnd c)

/-- The tolerance the lookup is meant to have: the entry's own url, or that url and one slash when
the url is a bare root. -/
def tolerates (u : Str) (e : ResourceEntry) : Bool :=
  u == e.url || (u == e.url ++ ['/'] && isRootUrl e.url)

/-- The first entry within the tolerance. -/
def toleratedLookup (cfg : ProxyConfig) (u : Str) : Option ResourceEntry :=
  cfg.resources.find? (tolerates u)

omit [Platform] in
theorem isRootUrl_iff {s : Str} :
    isRootUrl s = true ↔ ∃ scheme netloc, s = rootText scheme netloc ∧ isScheme scheme = true ∧
      ∀ c ∈ netloc, isNetlocEnd c = false := by
  constructor
  · intro h
    unfold isRootUrl at h
    rcases partition_cases ':' s with ⟨-, he⟩ | ⟨a, b, -, rfl, he⟩
    · rw [he] at h; cases h
    · rw [he] at h
      simp only [Bool.true_and, Bool.and_eq_true, List.all_eq_true, Bool.not_eq_true'] at h
      obtain ⟨⟨ha, hb⟩, hc⟩ := h
      obtain ⟨t, rfl⟩ := List.isPrefixOf_iff_prefix.mp hb
      exact ⟨a, t, rfl, ha, hc⟩
  · rintro ⟨scheme, netloc, rfl, hs, hn⟩
    have hcolon : ':' ∉ scheme := fun h => (schemeChar_spec ((isScheme_spec hs).2 _ h)).2.2 rfl
    unfold isRootUrl rootText
    rw [partition_append hcolon]
    simpa [hs] using hn

/-- A root followed by a slash splits into a bare root, whatever `urlsplit` removed from it. -/
theorem isRootShaped_of_root_slash {s : Str} {p : SplitResult} (hs : isRootUrl s = true)
    (hp : urlsplit (s ++ ['/']) = .ok p) : isRootShaped p = true := by
  obtain ⟨scheme, netloc, rfl, hsch, hn⟩ := isRootUrl_iff.mp hs
  obtain ⟨hne, hchars⟩ := isScheme_spec hsch
  have hfilter : scheme.filter (fun c => !isUnsafeUrlByte c) = scheme := by
    rw [List.filter_eq_self]
    intro c hc
    simp [(schemeChar_spec (hchars c hc)).1]
  have hclean : cleanUrl (rootText scheme netloc ++ ['/']) =
      scheme ++ ':' :: '/' :: '/' :: (netloc.filter (fun c => !isUnsafeUrlByte c) ++ ['/']) := by
    unfold cleanUrl rootText
    have hd : ((scheme ++ ':' :: '/' :: '/' :: netloc) ++ ['/']).dropWhile isC0OrSpace =
        (scheme ++ ':' :: '/' :: '/' :: netloc) ++ ['/'] := by
      cases scheme with
      | nil => exact absurd rfl hne
      | cons x xs =>
          simp [(schemeChar_spec (hchars x List.mem_cons_self)).2.1]
    rw [hd, List.filter_append, List.filter_append, hfilter]
    simp [isUnsafeUrlByte]
  have hn' : ∀ c ∈ netloc.filter (fun c => !isUnsafeUrlByte c), isNetlocEnd c = false :=
    fun c hc => hn c (List.mem_filter.mp hc).1
  obtain ⟨-, -, h3, -, -⟩ := splitClean_eq_ok.mp hp
  rw [hclean, splitScheme_append_colon hsch] at h3
  dsimp only at h3
  rw [splitNetloc_slashes hn' (by intro c r h; rw [← (List.cons.inj h).1]; rfl)] at h3
  obtain ⟨h1, h2⟩ := Prod.mk.inj h3
  obtain ⟨h2, h3⟩ := Prod.mk.inj h2
  rw [isRootShaped_iff]
  exact ⟨h1, h2, h3⟩

/-- The table urls as the loader writes them. -/
def NoTrailingSlash (cfg : ProxyConfig) : Prop := ∀ e ∈ cfg.resources, e.url.getLast? ≠ some '/'

theorem NoTrailingSlash.ne {cfg : ProxyConfig} (h : NoTrailingSlash cfg) {e : ResourceEntry}
    (he : e ∈ cfg.resources) (t : Str) : e.url ≠ t ++ ['/'] := by
  intro heq
  exact h e he (by rw [heq]; simp)

/-- When the lookup follows the rule at `u`: `u` is not a bare root, or it is one letter for letter,
or the table has nothing spelled like the folded root, like `u`, or like `u` without its slash. -/
def FoldsOnlySlash (cfg : ProxyConfig) (u : Str) : Prop :=
  ∀ p, urlsplit u = .ok p →
    isRootShaped p = false ∨
    (p.scheme ≠ [] ∧ p.netloc ≠ [] ∧ u = rootText p.scheme p.netloc ++ ['/']) ∨
    ∀ e ∈ cfg.resources, e.url ≠ foldedRoot p ∧ tolerates u e = false

omit [Platform] in
theorem foldedRoot_of_netloc {p : SplitResult} (hr : isRootShaped p = true) (hs : p.scheme ≠ [])
    (hn : p.netloc ≠ []) : foldedRoot p = rootText p.scheme p.netloc := by
  obtain ⟨-, hq, hf⟩ := isRootShaped_iff.mp hr
  rw [foldedRoot_eq hq hf]
  simp [hs, hn]

/-- A folded root is not the text it was folded from. -/
theorem foldedRoot_ne {u : Str} {p : SplitResult} (hp : urlsplit u = .ok p)
    (hr : isRootShaped p = true) : foldedRoot p ≠ u := by
  intro h
  have h1 := urlsplit_foldedRoot hp hr
  rw [h, hp] at h1
  have h2 := (isRootShaped_iff.mp hr).1
  rw [Except.ok.inj h1] at h2
  cases h2

/-- If the folded root is a bare root `u` itself continues with a slash, `u` is canonical. -/
theorem canonical_of_foldedRoot {u : Str} {p : SplitResult} (hp : urlsplit u = .ok p)
    (hr : isRootShaped p = true) (ht : ∀ t, foldedRoot p ≠ t ++ ['/'])
    (hroot : isRootUrl (foldedRoot p) = true) (hu : u = foldedRoot p ++ ['/']) :
    p.scheme ≠ [] ∧ p.netloc ≠ [] ∧ u = rootText p.scheme p.netloc ++ ['/'] := by
  obtain ⟨hs, -⟩ := urlsplit_spec hp
  obtain ⟨-, hq, hf⟩ := isRootShaped_iff.mp hr
  rw [foldedRoot_eq hq hf] at ht hroot
  by_cases hn : p.netloc = []
  · simp only [hn, ne_eq, not_true_eq_false, if_false] at ht hroot
    split_ifs at ht hroot with h1 h2
    · cases hroot
    · exact absurd (by simp [rootText]) (ht (p.scheme ++ [':', '/']))
    · obtain ⟨a, b, he, ha, -⟩ := isRootUrl_iff.mp hroot
      have hslash : '/' ∉ p.scheme := by
        rcases hs with hs | hs
        · exact absurd hs h1
        · intro h
          exact absurd ((isScheme_spec hs.1).2 _ h) (by decide)
      have : '/' ∈ p.scheme ++ [':'] := by rw [he]; simp [rootText]
      simp at this
      exact absurd this hslash
  · by_cases hsch : p.scheme = []
    · simp only [hn, hsch, ne_eq, not_false_eq_true, if_true] at hroot
      obtain ⟨a, b, he, ha, -⟩ := isRootUrl_iff.mp hroot
      cases a with
      | nil => cases ha
      | cons x xs =>
          simp only [rootText, List.cons_append] at he
          rw [← (List.cons.inj he).1] at ha
          exact absurd ha (by simp [isScheme])
    · exact ⟨hsch, hn, by rw [hu, foldedRoot_of_netloc hr hsch hn]⟩

/-- **When the lookup tolerates exactly the slash after a bare root.**  For a table without trailing
slashes and a text on which the lookup returns, it returns the first entry within the tolerance if
and only if `FoldsOnlySlash` holds. -/
theorem resourceByUrl_eq_tolerated_iff (cfg : ProxyConfig) (u : Str) (res : Option ResourceEntry)
    (hslash : NoTrailingSlash cfg) (hret : cfg.resourceByUrl u = .ok res) :
    res = toleratedLookup cfg u ↔ FoldsOnlySlash cfg u := by
  obtain ⟨target, ht, rfl⟩ := resourceByUrl_eq_ok.mp hret
  unfold toleratedLookup
  constructor
  · intro heq p hp
    by_cases hr : isRootShaped p = true
    · right
      have htarget : target = foldedRoot p := by
        rw [normaliseRequestedUrl_of_split hp, if_pos hr] at ht
        exact (Except.ok.inj ht).symm
      subst htarget
      by_cases hin : ∃ e ∈ cfg.resources, e.url = foldedRoot p
      · -- the lookup answers, so the rule must answer with the same entry
        left
        obtain ⟨e, he, heu⟩ := hin
        have hsome : (cfg.resources.find? (fun e => e.url == foldedRoot p)).isSome = true := by
          rw [List.find?_isSome]
          exact ⟨e, he, by simp [heu]⟩
        obtain ⟨e₀, h0⟩ := Option.isSome_iff_exists.mp hsome
        have hurl : e₀.url = foldedRoot p := by simpa using List.find?_some h0
        rw [h0] at heq
        have htol : tolerates u e₀ = true := List.find?_some heq.symm
        simp only [tolerates, Bool.or_eq_true, beq_iff_eq, Bool.and_eq_true, hurl] at htol
        rcases htol with h | ⟨h, hroot⟩
        · exact absurd h.symm (foldedRoot_ne hp hr)
        · have hmem := List.mem_of_find?_eq_some h0
          exact canonical_of_foldedRoot hp hr (hurl ▸ hslash.ne hmem) hroot h
      · right
        have hnone : cfg.resources.find? (fun e => e.url == foldedRoot p) = none := by
          rw [List.find?_eq_none]
          intro e he hb
          exact hin ⟨e, he, by simpa using hb⟩
        rw [hnone] at heq
        intro e he
        refine ⟨fun h => hin ⟨e, he, h⟩, ?_⟩
        have := List.find?_eq_none.mp heq.symm e he
        simpa using this
    · exact .inl (by simpa using hr)
  · intro hcond
    rcases normaliseRequestedUrl_cases ht with ⟨rfl, rfl⟩ | ⟨p, hp, hu, hcases⟩
    · refine List.find?_congr fun e _ => ?_
      have : ([] : Str) ≠ e.url ++ ['/'] := by simp
      simp only [tolerates, beq_eq_false_iff_ne.mpr this, Bool.false_and, Bool.or_false]
      exact beq_eq_beq.mpr eq_comm
    · rcases hcases with ⟨hr, rfl⟩ | ⟨hr, rfl⟩
      · -- not a bare root: no root url continues to it with a slash
        refine List.find?_congr fun e _ => ?_
        have : (target == e.url ++ ['/'] && isRootUrl e.url) = false := by
          by_contra hc
          simp only [Bool.not_eq_false, Bool.and_eq_true, beq_iff_eq] at hc
          rw [hc.1] at hp
          rw [isRootShaped_of_root_slash hc.2 hp] at hr
          cases hr
        simp only [tolerates, this, Bool.or_false]
        exact beq_eq_beq.mpr eq_comm
      · rcases hcond p hp with h | ⟨hs, hn, hcanon⟩ | hnone
        · rw [h] at hr; cases hr
        · -- a root letter for letter: the folded text is `u` without its slash
          refine List.find?_congr fun e he => ?_
          rw [foldedRoot_of_netloc hr hs hn]
          by_cases heq : e.url = rootText p.scheme p.netloc
          · have hroot : isRootUrl e.url = true := by
              obtain ⟨hsp, hnp⟩ := urlsplit_spec hp
              rw [isRootUrl_iff]
              exact ⟨p.scheme, p.netloc, heq, (hsp.resolve_left hs).1, hnp.noEnd⟩
            simp [tolerates, heq, hcanon, heq ▸ hroot]
          · have h1 : u ≠ e.url := fun h => hslash.ne he _ (h ▸ hcanon)
            have h2 : u ≠ e.url ++ ['/'] := by
              intro h
              rw [hcanon] at h
              exact heq (List.append_cancel_right h).symm
            simp only [tolerates, beq_eq_false_iff_ne.mpr h1, beq_eq_false_iff_ne.mpr h2,
              beq_eq_false_iff_ne.mpr heq, Bool.false_and, Bool.or_false]
        · have h1 : cfg.resources.find? (fun e => e.url == foldedRoot p) = none := by
            rw [List.find?_eq_none]
            intro e he
            simpa using (hnone e he).1
          have h2 : cfg.resources.find? (tolerates u) = none := by
            rw [List.find?_eq_none]
            intro e he
            simpa using (hnone e he).2
          rw [h1, h2]

/-! ### The table side and the request side -/

/-- A url as written that the lookup leads to the entry it configures: no trailing slash unless it is
a bare root, and a bare root letter for letter. -/
def ResolvesAsWritten (w : Str) : Prop :=
  ∃ p, urlsplit w = .ok p ∧
    ((isRootShaped p = false ∧ w.getLast? ≠ some '/') ∨
      (p.scheme ≠ [] ∧ p.netloc ≠ [] ∧ w = rootText p.scheme p.netloc ++ ['/']))

omit [Platform] in
theorem getLast?_ne_slash {s : Str} : s.getLast? ≠ some '/' ↔ ∀ t, s ≠ t ++ ['/'] := by
  constructor
  · intro h t heq
    exact h (by rw [heq]; simp)
  · intro h hl
    obtain ⟨t, ht⟩ := List.getLast?_eq_some_iff.mp hl
    exact h t ht

omit [Platform] in
theorem rootText_not_endsWith {scheme netloc : Str} (hn : netloc ≠ [])
    (he : ∀ c ∈ netloc, isNetlocEnd c = false) (t : Str) : rootText scheme netloc ≠ t ++ ['/'] := by
  intro h
  have hl := congrArg List.getLast? h
  have hlast : (rootText scheme netloc).getLast? = netloc.getLast? := by
    obtain ⟨t, x, rfl⟩ := List.eq_nil_or_concat' netloc |>.resolve_left hn
    unfold rootText
    simp [List.getLast?_append, List.getLast?_cons]
  rw [hlast] at hl
  simp only [List.getLast?_append, List.getLast?_singleton, Option.some_or] at hl
  exact absurd (he '/' (List.mem_of_getLast? hl)) (by decide)

/-- When the folded root of what was written is what the loader put into the table. -/
theorem foldedRoot_eq_rstripSlash {w : Str} {p : SplitResult} (hp : urlsplit w = .ok p)
    (hr : isRootShaped p = true) (hc : contains "://" (rstripSlash w) = true)
    (h : foldedRoot p = rstripSlash w) :
    p.scheme ≠ [] ∧ p.netloc ≠ [] ∧ w = rootText p.scheme p.netloc ++ ['/'] := by
  obtain ⟨hsp, hnp⟩ := urlsplit_spec hp
  obtain ⟨hpath, hq, hf⟩ := isRootShaped_iff.mp hr
  obtain ⟨k, hk⟩ := rstripSlash_append_replicate w
  obtain ⟨a, b, hab⟩ := contains_iff.mp hc
  have hslash : ∀ c ∈ p.scheme, c ≠ '/' := by
    rintro c hcs rfl
    rcases hsp with hs | hs
    · rw [hs] at hcs; cases hcs
    · exact absurd ((isScheme_spec hs.1).2 _ hcs) (by decide)
  rw [← h, foldedRoot_eq hq hf] at hab
  by_cases hn : p.netloc = []
  · -- without an authority nothing is left that the loader accepts
    simp only [hn, ne_eq, not_true_eq_false, if_false] at hab
    split_ifs at hab with h1 h2
    · simp at hab
    · have hend : foldedRoot p = (p.scheme ++ [':', '/']) ++ ['/'] := by
        rw [foldedRoot_eq hq hf]
        simp [hn, h1, h2, rootText]
      rw [h] at hend
      exact absurd hend (rstripSlash_not_endsWith w _)
    · have : '/' ∈ p.scheme ++ [':'] := by rw [hab]; simp
      simp only [List.mem_append, List.mem_singleton, Char.reduceEq, or_false] at this
      exact absurd rfl (hslash _ this)
  · by_cases hs : p.scheme = []
    · -- without a scheme there is no `://`
      simp only [hn, hs, ne_eq, not_false_eq_true, if_true] at hab
      have hno : ∀ c ∈ p.netloc, c ≠ '/' := by
        rintro c hc rfl
        exact absurd (hnp.noEnd _ hc) (by decide)
      match a, hab with
      | [], hab => simp at hab
      | [x], hab => simp at hab
      | x :: y :: a, hab =>
          have : '/' ∈ p.netloc := by
            simp only [List.cons_append, List.cons.injEq] at hab
            rw [hab.2.2]
            simp
          exact absurd rfl (hno _ this)
    · refine ⟨hs, hn, ?_⟩
      have hroot := foldedRoot_of_netloc hr hs hn
      rw [← h, hroot] at hk
      have hscheme := hsp.resolve_left hs
      have htail : ∀ c r, List.replicate k '/' = c :: r → isNetlocEnd c = true := by
        intro c r hcr
        have : c ∈ List.replicate k '/' := by rw [hcr]; simp
        rw [List.eq_of_mem_replicate this]
        rfl
      have hsafe : ∀ c ∈ List.replicate k '/', isUnsafeUrlByte c = false := by
        intro c hcr
        rw [List.eq_of_mem_replicate hcr]
        rfl
      have hsplit := urlsplit_assemble hscheme.1 hnp htail hsafe
      have hw : p.scheme ++ ':' :: '/' :: '/' :: (p.netloc ++ List.replicate k '/') = w := by
        rw [hk]
        simp [rootText]
      rw [hw, hp] at hsplit
      have hp2 : p.path = (splitTail (List.replicate k '/')).1 := by rw [Except.ok.inj hsplit]
      have htl : splitTail (List.replicate k '/') = (List.replicate k '/', [], []) := by
        have h1 : '#' ∉ List.replicate k '/' := by simp [List.mem_replicate]
        have h2 : '?' ∉ List.replicate k '/' := by simp [List.mem_replicate]
        simp [splitTail, partition_of_not_mem h1, partition_of_not_mem h2]
      rw [htl, hpath] at hp2
      rw [hk, show List.replicate k '/' = ['/'] from hp2.symm]

/-- The lookup of what was written gives the url in the table exactly when it resolves as written. -/
theorem normalise_eq_rstripSlash_iff {w : Str} (hc : contains "://" (rstripSlash w) = true) :
    normaliseRequestedUrl w = .ok (rstripSlash w) ↔ ResolvesAsWritten w := by
  constructor
  · intro h
    rcases normaliseRequestedUrl_cases h with ⟨rfl, -⟩ | ⟨p, hp, -, ⟨hr, ht⟩ | ⟨hr, ht⟩⟩
    · exact absurd hc (by decide)
    · refine ⟨p, hp, .inl ⟨hr, ?_⟩⟩
      rw [getLast?_ne_slash, ← ht]
      exact rstripSlash_not_endsWith w
    · exact ⟨p, hp, .inr (foldedRoot_eq_rstripSlash hp hr hc ht.symm)⟩
  · rintro ⟨p, hp, ⟨hr, hl⟩ | ⟨hs, hn, hw⟩⟩
    · rw [normaliseRequestedUrl_of_split hp, hr, rstripSlash_eq_self (getLast?_ne_slash.mp hl)]
      rfl
    · obtain ⟨hsp, hnp⟩ := urlsplit_spec hp
      have hroot : isRootUrl (rootText p.scheme p.netloc) = true :=
        isRootUrl_iff.mpr ⟨_, _, rfl, (hsp.resolve_left hs).1, hnp.noEnd⟩
      have hr : isRootShaped p = true := isRootShaped_of_root_slash hroot (hw ▸ hp)
      rw [normaliseRequestedUrl_of_split hp, if_pos hr, foldedRoot_of_netloc hr hs hn]
      conv_rhs => rw [hw, rstripSlash_append_slash,
        rstripSlash_eq_self (rootText_not_endsWith hn hnp.noEnd)]

/-- A lookup answers with a given url exactly when the table has it and the fold gives it. -/
theorem resourceByUrl_url_iff {cfg : ProxyConfig} {w url : Str}
    (hin : ∃ e ∈ cfg.resources, e.url = url) :
    (∃ e, cfg.resourceByUrl w = .ok (some e) ∧ e.url = url) ↔ normaliseRequestedUrl w = .ok url := by
  constructor
  · rintro ⟨e, he, rfl⟩
    obtain ⟨target, ht, hf⟩ := resourceByUrl_eq_ok.mp he
    have : e.url = target := by simpa using List.find?_some hf.symm
    rw [this, ht]
  · intro h
    obtain ⟨e, he, rfl⟩ := hin
    have hsome : (cfg.resources.find? (fun x => x.url == e.url)).isSome = true := by
      rw [List.find?_isSome]
      exact ⟨e, he, by simp⟩
    obtain ⟨e₀, h0⟩ := Option.isSome_iff_exists.mp hsome
    exact ⟨e₀, resourceByUrl_eq_ok.mpr ⟨_, h, h0.symm⟩, by simpa using List.find?_some h0⟩

/-- What makes the default resource resolve. -/
def DefaultResolves (cfg : ProxyConfig) : Prop :=
  ∃ p, urlsplit cfg.defaultResource = .ok p ∧
    (isRootShaped p = false ∨ ∃ e ∈ cfg.resources, e.url = foldedRoot p)

theorem pickResource_default_iff {cfg : ProxyConfig} (hd : cfg.defaultResource ≠ [])
    (hin : ∃ e ∈ cfg.resources, e.url = cfg.defaultResource) :
    (∃ e, pickResource cfg none = .ok e) ↔ DefaultResolves cfg := by
  have hd' : cfg.defaultResource.isEmpty = false := by simpa using hd
  have hpick : (∃ e, pickResource cfg none = .ok e) ↔
      ∃ e, cfg.resourceByUrl cfg.defaultResource = .ok (some e) := by
    unfold pickResource
    simp only [Option.getD_none, List.isEmpty_nil, if_true, hd', Bool.false_eq_true, if_false]
    cases h : cfg.resourceByUrl cfg.defaultResource with
    | error e => simp
    | ok r => cases r with
      | none => simp
      | some e => simp
  rw [hpick]
  constructor
  · rintro ⟨e, he⟩
    obtain ⟨target, ht, hf⟩ := resourceByUrl_eq_ok.mp he
    rcases normaliseRequestedUrl_cases ht with ⟨h0, -⟩ | ⟨p, hp, -, ⟨hr, -⟩ | ⟨hr, rfl⟩⟩
    · exact absurd h0 hd
    · exact ⟨p, hp, .inl hr⟩
    · exact ⟨p, hp, .inr ⟨e, List.mem_of_find?_eq_some hf.symm, by simpa using List.find?_some hf.symm⟩⟩
  · rintro ⟨p, hp, hcase⟩
    have hn := normaliseRequestedUrl_of_split hp
    rcases hcase with hr | hfold
    · rw [hr] at hn
      obtain ⟨e, he, -⟩ := (resourceByUrl_url_iff hin).mpr hn
      exact ⟨e, he⟩
    · by_cases hr : isRootShaped p = true
      · rw [if_pos hr] at hn
        obtain ⟨e, he, -⟩ := (resourceByUrl_url_iff hfold).mpr hn
        exact ⟨e, he⟩
      · rw [if_neg hr] at hn
        obtain ⟨e, he, -⟩ := (resourceByUrl_url_iff hin).mpr hn
        exact ⟨e, he⟩

/-- **When the table side and the request side agree.**  For every accepted environment, every
`RESOURCE_n_URL` as written resolves to an entry with entry `n`'s url and the default resource
resolves, if and only if every url resolves as written and the default does. -/
theorem written_urls_resolve_iff (env : Env) (files : Files) (cfg : ProxyConfig)
    (h : loadConfig env files = .ok cfg) :
    ((∀ (n : ℕ) (en : ResourceEntry) (raw : Str), cfg.resources[n]? = some en →
        env.get? (resourcePrefix n ++ "URL") = some raw →
        ∃ e, cfg.resourceByUrl (strip raw) = .ok (some e) ∧ e.url = en.url) ∧
      (strip (env.getD "DEFAULT_RESOURCE" "") ≠ [] → ∃ e, pickResource cfg none = .ok e)) ↔
    ((∀ (n : ℕ) (raw : Str), n < cfg.resources.length →
        env.get? (resourcePrefix n ++ "URL") = some raw → ResolvesAsWritten (strip raw)) ∧
      (strip (env.getD "DEFAULT_RESOURCE" "") ≠ [] → DefaultResolves cfg)) := by
  obtain ⟨hres, hdef, hdefin, -⟩ := loadConfig_eq_ok h
  have hentry : ∀ (n : ℕ) (en : ResourceEntry) (raw : Str), cfg.resources[n]? = some en →
      env.get? (resourcePrefix n ++ "URL") = some raw →
      ((∃ e, cfg.resourceByUrl (strip raw) = .ok (some e) ∧ e.url = en.url) ↔
        ResolvesAsWritten (strip raw)) := by
    intro n en raw hn hraw
    obtain ⟨raw', hraw', -, hurl, hc⟩ := loadResource_eq_ok (loadResources_getElem hres hn)
    rw [hraw] at hraw'
    obtain rfl := Option.some.inj hraw'
    rw [resourceByUrl_url_iff ⟨en, List.mem_of_getElem? hn, rfl⟩, hurl]
    exact normalise_eq_rstripSlash_iff (hurl ▸ hc)
  rw [← hdef]
  refine and_congr ?_ (forall_congr' fun hd => pickResource_default_iff hd (hdefin hd))
  constructor
  · intro hall n raw hn hraw
    have hget : cfg.resources[n]? = some cfg.resources[n] := List.getElem?_eq_getElem hn
    exact (hentry n _ raw hget hraw).mp (hall n _ raw hget hraw)
  · intro hall n en raw hn hraw
    exact (hentry n en raw hn hraw).mpr (hall n raw (List.getElem?_eq_some_iff.mp hn).1 hraw)

end Lookup

/-- A table with the one resource `https://log.example`. -/
def logEntry : ResourceEntry :=
  ⟨"https://log.example", "https://id.example/realms/r", "log", "", "", ""⟩

def logConfig : @ProxyConfig Platform.plain :=
  letI := Platform.plain
  ⟨"https://proxy.example", "key", 8080, "0.0.0.0", "INFO", false, 300, 86400, 5120, (5 : ℤ), "", [],
    "", [logEntry], none⟩

theorem noTrailingSlash_logConfig : @NoTrailingSlash Platform.plain logConfig := by
  unfold NoTrailingSlash
  decide

theorem resourceByUrl_eq_tolerated_iff_log :
    letI := Platform.plain
    NoTrailingSlash logConfig ∧ logConfig.resourceByUrl "https://log.example/" = .ok (some logEntry) ∧
      (some logEntry = toleratedLookup logConfig "https://log.example/" ↔
        FoldsOnlySlash logConfig "https://log.example/") :=
  letI := Platform.plain
  ⟨noTrailingSlash_logConfig, by rfl,
    resourceByUrl_eq_tolerated_iff logConfig _ _ noTrailingSlash_logConfig (by rfl)⟩

/-- The lookup folds the letter case of the scheme: `HTTPS://log.example/` is no spelling the rule
tolerates, and the lookup resolves it. -/
theorem resourceByUrl_folds_scheme_case :
    letI := Platform.plain
    NoTrailingSlash logConfig ∧
      logConfig.resourceByUrl "HTTPS://log.example/" = .ok (some logEntry) ∧
      toleratedLookup logConfig "HTTPS://log.example/" = none :=
  letI := Platform.plain
  ⟨noTrailingSlash_logConfig, by rfl, by rfl⟩

/-- An environment with one resource, written with the given url. -/
def oneResource (url : Str) : Env where
  vars := [("PROXY_PUBLIC_URL", "https://proxy.example"), ("PROXY_SECRET_KEY", "key"),
    ("RESOURCE_0_URL", url), ("RESOURCE_0_ISSUER", "https://id.example/realms/r"),
    ("RESOURCE_0_CLIENT_ID", "mcp")]
  nodup := by
    simp only [List.map_cons, List.map_nil]
    decide

def noFiles : Files := fun _ => .error "No such file or directory"

/-- The configuration read from `oneResource` when the table holds `url`. -/
def oneResourceConfig (url : Str) : @ProxyConfig Platform.plain :=
  letI := Platform.plain
  ⟨"https://proxy.example", "key", 8080, "0.0.0.0", "INFO", false, 300, 86400, 5120, (5 : ℤ), "",
    ["openid".toList, "offline_access".toList], "openid offline_access",
    [⟨url, "https://id.example/realms/r", "mcp", "", "", ""⟩], none⟩

theorem written_urls_resolve_iff_root :
    letI := Platform.plain
    loadConfig (oneResource "https://host/") noFiles = .ok (oneResourceConfig "https://host") ∧
    (((∀ (n : ℕ) (en : ResourceEntry) (raw : Str),
          (oneResourceConfig "https://host").resources[n]? = some en →
          (oneResource "https://host/").get? (resourcePrefix n ++ "URL") = some raw →
          ∃ e, (oneResourceConfig "https://host").resourceByUrl (strip raw) = .ok (some e) ∧
            e.url = en.url) ∧
        (strip ((oneResource "https://host/").getD "DEFAULT_RESOURCE" "") ≠ [] →
          ∃ e, pickResource (oneResourceConfig "https://host") none = .ok e)) ↔
      ((∀ (n : ℕ) (raw : Str), n < (oneResourceConfig "https://host").resources.length →
          (oneResource "https://host/").get? (resourcePrefix n ++ "URL") = some raw →
          ResolvesAsWritten (strip raw)) ∧
        (strip ((oneResource "https://host/").getD "DEFAULT_RESOURCE" "") ≠ [] →
          DefaultResolves (oneResourceConfig "https://host")))) :=
  letI := Platform.plain
  ⟨by rfl, written_urls_resolve_iff _ noFiles _ (by rfl)⟩

/-- A table url written with a trailing slash after a path cannot be named as written: the loader
strips the slash and the lookup does not. -/
theorem written_url_not_resolved :
    letI := Platform.plain
    loadConfig (oneResource "https://host/mcp/") noFiles = .ok (oneResourceConfig "https://host/mcp") ∧
      (oneResource "https://host/mcp/").get? (resourcePrefix 0 ++ "URL") =
        some "https://host/mcp/".toList ∧
      (oneResourceConfig "https://host/mcp").resourceByUrl (strip "https://host/mcp/") = .ok none :=
  letI := Platform.plain
  ⟨by rfl, by rfl, by rfl⟩

end CimdProxy
