import CimdProxy.FormEncoding

/-! # `urllib.parse.urlsplit`

The splitter of the Python standard library with everything it does on its own: it strips
leading control characters, removes tabs and line breaks anywhere, lower-cases the scheme, and
refuses authorities whose brackets do not hold an IPv6 address or whose NFKC form contains a
delimiter.  Refusals are a `ValueError`, here the error of `Except` with its message.

The address syntax of `ipaddress` comes first, since the bracket check rests on it.  The main
results are `urlsplit_assemble`, which says what a successful split is in terms of the input, and
`urlsplit_query`: adding a query to text without one changes nothing but the query. -/

namespace Py

/-! ### `ipaddress.ip_address` -/

/-- `_parse_octet`. -/
def parseOctet (s : Str) : Option ℕ :=
  if s.isEmpty || !s.all Char.isDigit || 3 < s.length then none
  else if s != ['0'] && s.head? == some '0' then none
  else
    let n := Nat.ofDigitChars 10 s 0
    if 255 < n then none else some n

/-- `int(IPv4Address(s))`. -/
def ipv4Int (s : Str) : Option ℕ :=
  match s.splitOn '.' with
  | [a, b, c, d] => do
      let a ← parseOctet a
      let b ← parseOctet b
      let c ← parseOctet c
      let d ← parseOctet d
      return ((a * 256 + b) * 256 + c) * 256 + d
  | _ => none

/-- `_parse_hextet`. -/
def parseHextet (s : Str) : Option ℕ :=
  if s.isEmpty || 4 < s.length then none
  else s.foldlM (fun acc c => (Json.hexVal c).map (fun d => 16 * acc + d)) 0

/-- The value of consecutive hextets after `acc`. -/
def hextetsInt (acc : ℕ) (parts : List Str) : Option ℕ :=
  parts.foldlM (fun acc p => (parseHextet p).map (fun h => 65536 * acc + h)) acc

/-- The value of an address whose parts between colons are known; `empties` are the places
inside where nothing stands between two colons. -/
def hextetParts (parts : List Str) (empties : List ℕ) : Option ℕ :=
  let n := parts.length
  let headEmpty := parts.head? == some []
  let lastEmpty := parts.getLast? == some []
  match empties with
  | [] =>
      if n ≠ 8 || headEmpty || lastEmpty then none else hextetsInt 0 parts
  | [k] =>
      if (headEmpty && k ≠ 1) || (lastEmpty && n - k - 1 ≠ 1) then none
      else
        let hi := if headEmpty then 0 else k
        let lo := if lastEmpty then 0 else n - k - 1
        if 8 ≤ hi + lo then none
        else do
          let h ← hextetsInt 0 (parts.take hi)
          hextetsInt (h * 65536 ^ (8 - (hi + lo))) (parts.drop (n - lo))
  | _ => none

/-- `IPv6Address._ip_int_from_string`. -/
def ipv6IntFromString (s : Str) : Option ℕ := do
  let parts := s.splitOn ':'
  if parts.length < 3 then none
  else
    let parts ← match parts.getLast? with
      | some last =>
          if last.contains '.' then
            (ipv4Int last).map (fun v => parts.dropLast ++
              [Nat.toDigits 16 (v / 65536), Nat.toDigits 16 (v % 65536)])
          else some parts
      | none => some parts
    if 9 < parts.length then none
    else
      hextetParts parts
        ((List.range parts.length).filter
          (fun i => 1 ≤ i && i + 1 < parts.length && parts[i]? == some []))

/-- `int(IPv6Address(s))`, a scope after `%` aside. -/
def ipv6Int (s : Str) : Option ℕ :=
  if s.contains '/' then none
  else
    let (addr, sep, scope) := partition '%' s
    if sep && (scope.isEmpty || scope.contains '%') then none
    else ipv6IntFromString addr

/-- An address of either family. -/
inductive IpAddress where
  | v4 (n : ℕ)
  | v6 (n : ℕ)
deriving DecidableEq

/-- `ipaddress.ip_address(s)`; `none` is the `ValueError`. -/
def ipAddress (s : Str) : Option IpAddress :=
  match ipv4Int s with
  | some n => some (.v4 n)
  | none => (ipv6Int s).map .v6

/-! ### Splitting -/

structure SplitResult where
  scheme : Str
  netloc : Str
  path : Str
  query : Str
  fragment : Str
deriving DecidableEq

/-- A C0 control character or the space. -/
def isC0OrSpace (c : Char) : Bool := decide (c.toNat ≤ 32)

/-- The characters `urlsplit` removes wherever they stand. -/
def isUnsafeUrlByte (c : Char) : Bool := c == '\t' || c == '\r' || c == '\n'

/-- The text `urlsplit` looks at. -/
def cleanUrl (url : Str) : Str := (url.dropWhile isC0OrSpace).filter (fun c => !isUnsafeUrlByte c)

def isSchemeChar (c : Char) : Bool :=
  isAsciiChar c && (c.isAlphanum || c == '+' || c == '-' || c == '.')

/-- Whether the text before the first colon is a scheme. -/
def isScheme (s : Str) : Bool :=
  match s with
  | [] => false
  | c :: _ => isAsciiChar c && c.isAlpha && s.all isSchemeChar

def splitScheme (s : Str) : Str × Str :=
  let (before, sep, after) := partition ':' s
  if sep && isScheme before then (before.map Char.toLower, after) else ([], s)

def isNetlocEnd (c : Char) : Bool := c == '/' || c == '?' || c == '#'

/-- The authority after `//`, and the rest. -/
def splitNetloc : Str → Str × Str
  | '/' :: '/' :: s => (s.takeWhile (fun c => !isNetlocEnd c), s.dropWhile (fun c => !isNetlocEnd c))
  | s => ([], s)

/-- `_check_bracketed_host`. -/
def checkBracketedHost [UnicodeData] (hostname : Str) : Except Str Unit :=
  match hostname with
  | 'v' :: rest =>
      match rest.span (fun c => (Json.hexVal c).isSome) with
      | (_ :: _, '.' :: c :: tail) =>
          if (c :: tail).contains '\n' then .error "IPvFuture address is invalid" else .ok ()
      | _ => .error "IPvFuture address is invalid"
  | _ =>
      match ipAddress hostname with
      | some (.v4 _) => .error "An IPv4 address cannot be in brackets"
      | some (.v6 _) => .ok ()
      | none => .error (pyRepr hostname ++ " does not appear to be an IPv4 or IPv6 address")

/-- `_check_bracketed_netloc`. -/
def checkBracketedNetloc [UnicodeData] (netloc : Str) : Except Str Unit :=
  let (before, haveOpen, bracketed) := partition '[' (afterLast '@' netloc)
  if haveOpen then
    if !before.isEmpty then .error "Invalid IPv6 URL"
    else
      let (hostname, _, port) := partition ']' bracketed
      if !port.isEmpty && port.head? != some ':' then .error "Invalid IPv6 URL"
      else checkBracketedHost hostname
  else checkBracketedHost (partition ':' (afterLast '@' netloc)).1

/-- The bracket checks of `urlsplit`. -/
def checkBrackets [UnicodeData] (netloc : Str) : Except Str Unit :=
  if netloc.contains '[' != netloc.contains ']' then .error "Invalid IPv6 URL"
  else if netloc.contains '[' then checkBracketedNetloc netloc
  else .ok ()

/-- `_checknetloc`. -/
def checkNetloc [UnicodeData] (netloc : Str) : Except Str Unit :=
  if isAscii netloc then .ok ()
  else
    let n := netloc.filter (fun c => !(c == '@' || c == ':' || c == '#' || c == '?'))
    let netloc2 := UnicodeData.nfkc n
    if n = netloc2 then .ok ()
    else if ("/?#@:" : Str).any (fun c => netloc2.contains c) then
      .error ("netloc '" ++ netloc ++ "' contains invalid characters under NFKC normalization")
    else .ok ()

/-- Path, query and fragment. -/
def splitTail (s : Str) : Str × Str × Str :=
  let (front, _, fragment) := partition '#' s
  let (path, _, query) := partition '?' front
  (path, query, fragment)

/-- The splitting proper, on cleaned text. -/
def splitClean [UnicodeData] (s : Str) : Except Str SplitResult := do
  let (scheme, rest) := splitScheme s
  let (netloc, rest) := splitNetloc rest
  checkBrackets netloc
  let (path, query, fragment) := splitTail rest
  checkNetloc netloc
  return ⟨scheme, netloc, path, query, fragment⟩

/-- `urlsplit(url)`; the error is the message of the `ValueError`. -/
def urlsplit [UnicodeData] (url : Str) : Except Str SplitResult := splitClean (cleanUrl url)

namespace SplitResult

/-- `_hostinfo`: the host and the text of the port. -/
def hostinfo (r : SplitResult) : Str × Option Str :=
  let info := afterLast '@' r.netloc
  let (_, haveOpen, bracketed) := partition '[' info
  let (host, port) :=
    if haveOpen then
      let (host, _, port) := partition ']' bracketed
      (host, (partition ':' port).2.2)
    else
      let (host, _, port) := partition ':' info
      (host, port)
  (host, if port.isEmpty then none else some port)

/-- `r.hostname`, lower-cased up to a zone. -/
def hostname [UnicodeData] (r : SplitResult) : Option Str :=
  let host := r.hostinfo.1
  if host.isEmpty then none
  else
    let (name, sep, zone) := partition '%' host
    some (lower name ++ (if sep then '%' :: zone else []))

/-- `r.port`; the error is the message of the `ValueError`. -/
def port [UnicodeData] (r : SplitResult) : Except Str (Option ℕ) :=
  match r.hostinfo.2 with
  | none => .ok none
  | some p =>
      if !p.all Char.isDigit then
        .error ("Port could not be cast to integer value as " ++ pyRepr p)
      else if maxStrDigits < p.length then
        .error "Exceeds the limit (4300 digits) for integer string conversion"
      else
        let n := Nat.ofDigitChars 10 p 0
        if 65535 < n then .error "Port out of range 0-65535" else .ok (some n)

end SplitResult

def usesNetloc : List Str :=
  ["".toList, "ftp".toList, "http".toList, "gopher".toList, "nntp".toList, "telnet".toList,
    "imap".toList, "wais".toList, "file".toList, "mms".toList, "https".toList, "shttp".toList,
    "snews".toList, "prospero".toList, "rtsp".toList, "rtsps".toList, "rtspu".toList,
    "rsync".toList, "svn".toList, "svn+ssh".toList, "sftp".toList, "nfs".toList, "git".toList,
    "git+ssh".toList, "ws".toList, "wss".toList, "itms-services".toList]

/-- `urlunsplit(r)`. -/
def urlunsplit (r : SplitResult) : Str :=
  let url :=
    if !r.netloc.isEmpty then
      let path := if !r.path.isEmpty && r.path.head? != some '/' then '/' :: r.path else r.path
      "//" ++ (r.netloc ++ path)
    else if ("//" : Str).isPrefixOf r.path then "//" ++ r.path
    else if !r.scheme.isEmpty && usesNetloc.contains r.scheme &&
        (r.path.isEmpty || r.path.head? == some '/') then "//" ++ r.path
    else r.path
  let url := if r.scheme.isEmpty then url else r.scheme ++ ':' :: url
  let url := if r.query.isEmpty then url else url ++ '?' :: r.query
  if r.fragment.isEmpty then url else url ++ '#' :: r.fragment

/-! ### What a split is -/

theorem dropWhile_head {p : Char → Bool} {s t : Str} {c : Char} (h : s.dropWhile p = c :: t) :
    p c = false := by
  have hne : s.dropWhile p ≠ [] := by rw [h]; exact List.cons_ne_nil _ _
  have := List.head_dropWhile_not p hne
  simpa [h] using this

theorem not_unsafe_of_mem_cleanUrl {url : Str} {c : Char} (h : c ∈ cleanUrl url) :
    isUnsafeUrlByte c = false := by
  simpa using (List.mem_filter.mp h).2

/-- The removed characters are control characters. -/
theorem not_unsafe_of_visible {c : Char} (h : isC0OrSpace c = false) : isUnsafeUrlByte c = false := by
  by_contra hu
  simp only [isUnsafeUrlByte, Bool.not_eq_false, Bool.or_eq_true, beq_iff_eq] at hu
  rcases hu with (rfl | rfl) | rfl <;> revert h <;> decide

/-- Cleaning leaves clean text alone. -/
theorem cleanUrl_eq_self {s : Str} (hu : ∀ c ∈ s, isUnsafeUrlByte c = false)
    (hh : ∀ c t, s = c :: t → isC0OrSpace c = false) : cleanUrl s = s := by
  unfold cleanUrl
  have hd : s.dropWhile isC0OrSpace = s := by
    cases s with
    | nil => rfl
    | cons c t => simp [hh c t rfl]
  rw [hd, List.filter_eq_self]
  intro c hc
  simp [hu c hc]

/-- A scheme as `urlsplit` returns it. -/
def IsLowerScheme (s : Str) : Prop := isScheme s = true ∧ s.map Char.toLower = s

/-- An authority as `urlsplit` returns it. -/
structure IsNetloc [UnicodeData] (netloc : Str) : Prop where
  noEnd : ∀ c ∈ netloc, isNetlocEnd c = false
  safe : ∀ c ∈ netloc, isUnsafeUrlByte c = false
  brackets : checkBrackets netloc = .ok ()
  nfkc : checkNetloc netloc = .ok ()

theorem isScheme_spec {s : Str} (h : isScheme s = true) :
    s ≠ [] ∧ ∀ c ∈ s, isSchemeChar c = true := by
  cases s with
  | nil => cases h
  | cons c t =>
      simp only [isScheme, Bool.and_eq_true, List.all_eq_true] at h
      exact ⟨List.cons_ne_nil _ _, h.2⟩

theorem schemeChar_spec {c : Char} (h : isSchemeChar c = true) :
    isUnsafeUrlByte c = false ∧ isC0OrSpace c = false ∧ c ≠ ':' := by
  refine ⟨?_, ?_, ?_⟩
  · by_contra hu
    simp only [isUnsafeUrlByte, Bool.not_eq_false, Bool.or_eq_true, beq_iff_eq] at hu
    rcases hu with (rfl | rfl) | rfl <;> revert h <;> decide
  · simp only [isSchemeChar, Bool.and_eq_true, Bool.or_eq_true, beq_iff_eq] at h
    have hn : 33 ≤ c.toNat := by
      rcases h.2 with ((hc | rfl) | rfl) | rfl
      · simp only [Char.isAlphanum, Char.isAlpha, Char.isUpper, Char.isLower, Char.isDigit,
          Bool.or_eq_true, Bool.and_eq_true, decide_eq_true_eq, ge_iff_le,
          UInt32.le_iff_toNat_le] at hc
        have : c.toNat = c.val.toNat := rfl
        have h1 : 'A'.val.toNat = 65 := rfl
        have h2 : 'a'.val.toNat = 97 := rfl
        have h3 : '0'.val.toNat = 48 := rfl
        omega
      · decide
      · decide
      · decide
    simp [isC0OrSpace]
    omega
  · rintro rfl
    revert h
    decide

theorem toLower_schemeChar : ∀ c : Char, isSchemeChar c = true → isSchemeChar c.toLower = true ∧
    c.toLower.toLower = c.toLower ∧ (c.isAlpha = true → c.toLower.isAlpha = true) := by
  intro c h
  have hlt : c.toNat < 128 := by
    simp only [isSchemeChar, isAsciiChar, Bool.and_eq_true, decide_eq_true_eq] at h
    exact h.1
  have key : ∀ n, n < 128 → isSchemeChar (Char.ofNat n) = true →
      isSchemeChar (Char.ofNat n).toLower = true ∧
      (Char.ofNat n).toLower.toLower = (Char.ofNat n).toLower ∧
      ((Char.ofNat n).isAlpha = true → (Char.ofNat n).toLower.isAlpha = true) := by
    decide +kernel
  have := key c.toNat hlt
  rw [Char.ofNat_toNat] at this
  exact this h

theorem isLowerScheme_map {s : Str} (h : isScheme s = true) :
    IsLowerScheme (s.map Char.toLower) := by
  cases s with
  | nil => cases h
  | cons c t =>
      simp only [isScheme, Bool.and_eq_true, List.all_eq_true] at h
      have hall := fun x hx => toLower_schemeChar x (h.2 x hx)
      refine ⟨?_, ?_⟩
      · simp only [List.map_cons, isScheme, Bool.and_eq_true, List.all_eq_true]
        obtain ⟨h1, -, h3⟩ := hall c List.mem_cons_self
        refine ⟨⟨?_, h3 h.1.2⟩, ?_⟩
        · simp only [isSchemeChar, Bool.and_eq_true] at h1
          exact h1.1
        · intro x hx
          rw [← List.map_cons] at hx
          obtain ⟨y, hy, rfl⟩ := List.mem_map.mp hx
          exact (hall y hy).1
      · rw [List.map_map]
        exact List.map_congr_left fun x hx => (hall x hx).2.1

/-- The scheme and what follows it. -/
theorem splitScheme_cases (s : Str) :
    splitScheme s = ([], s) ∨
    ∃ a b, s = a ++ ':' :: b ∧ isScheme a = true ∧ splitScheme s = (a.map Char.toLower, b) := by
  unfold splitScheme
  rcases partition_cases ':' s with ⟨-, h⟩ | ⟨a, b, ha, rfl, h⟩
  · rw [h]; exact .inl rfl
  · rw [h]
    by_cases hs : isScheme a = true
    · exact .inr ⟨a, b, rfl, hs, by simp [hs]⟩
    · exact .inl (by simp [hs])

theorem splitScheme_append_colon {a : Str} (ha : isScheme a = true) (b : Str) :
    splitScheme (a ++ ':' :: b) = (a.map Char.toLower, b) := by
  have hc : ':' ∉ a := fun h => (schemeChar_spec ((isScheme_spec ha).2 _ h)).2.2 rfl
  simp [splitScheme, partition_append hc, ha]

/-- The authority and what follows it. -/
theorem splitNetloc_cases (s : Str) :
    (splitNetloc s = ([], s) ∧ ∀ t, s ≠ '/' :: '/' :: t) ∨
    ∃ n t, s = '/' :: '/' :: (n ++ t) ∧ (∀ c ∈ n, isNetlocEnd c = false) ∧
      (∀ c r, t = c :: r → isNetlocEnd c = true) ∧ splitNetloc s = (n, t) := by
  unfold splitNetloc
  split
  · next t =>
      refine .inr ⟨_, _, ?_, ?_, ?_, rfl⟩
      · rw [List.takeWhile_append_dropWhile]
      · intro c hc
        simpa using List.mem_takeWhile_imp hc
      · intro c r h
        simpa using dropWhile_head h
  · next h => exact .inl ⟨rfl, fun t ht => h t ht⟩

theorem splitNetloc_slashes {n t : Str} (hn : ∀ c ∈ n, isNetlocEnd c = false)
    (ht : ∀ c r, t = c :: r → isNetlocEnd c = true) :
    splitNetloc ('/' :: '/' :: (n ++ t)) = (n, t) := by
  have hn' : ∀ c ∈ n, (!isNetlocEnd c) = true := fun c hc => by simp [hn c hc]
  simp only [splitNetloc]
  rw [List.takeWhile_append_of_pos hn', List.dropWhile_append_of_pos hn']
  cases t with
  | nil => simp
  | cons c r => simp [ht c r rfl]

theorem splitClean_eq_ok [UnicodeData] {s : Str} {r : SplitResult} :
    splitClean s = .ok r ↔ r.scheme = (splitScheme s).1 ∧
      r.netloc = (splitNetloc (splitScheme s).2).1 ∧
      (r.path, r.query, r.fragment) = splitTail (splitNetloc (splitScheme s).2).2 ∧
      checkBrackets r.netloc = .ok () ∧ checkNetloc r.netloc = .ok () := by
  unfold splitClean
  obtain ⟨scheme, netloc, path, query, fragment⟩ := r
  rcases hs : splitScheme s with ⟨a, b⟩
  rcases hn : splitNetloc b with ⟨n, t⟩
  rcases ht : splitTail t with ⟨p, q, f⟩
  dsimp only
  rw [hn]
  dsimp only
  cases hb : checkBrackets n with
  | error e =>
      simp only [error_bind, reduceCtorEq, false_iff]
      rintro ⟨-, rfl, -, h, -⟩
      rw [hb] at h
      cases h
  | ok u =>
      simp only [ok_bind]
      rw [ht]
      dsimp only
      cases hc : checkNetloc n with
      | error e =>
          simp only [error_bind, reduceCtorEq, false_iff]
          rintro ⟨-, rfl, -, -, h⟩
          rw [hc] at h
          cases h
      | ok u =>
          simp only [ok_bind, pure_eq_ok, Except.ok.injEq, SplitResult.mk.injEq, Prod.mk.injEq]
          constructor
          · rintro ⟨rfl, rfl, rfl, rfl, rfl⟩
            exact ⟨rfl, rfl, ⟨rfl, rfl, rfl⟩, hb, hc⟩
          · rintro ⟨rfl, rfl, ⟨rfl, rfl, rfl⟩, -, -⟩
            exact ⟨rfl, rfl, rfl, rfl, rfl⟩

theorem mem_cleanUrl_iff {url : Str} {c : Char} (hc : isC0OrSpace c = false) :
    c ∈ cleanUrl url ↔ c ∈ url := by
  have hu := not_unsafe_of_visible hc
  unfold cleanUrl
  rw [List.mem_filter]
  simp only [hu, Bool.not_false, and_true]
  constructor
  · exact fun h => (List.dropWhile_sublist _).subset h
  · intro h
    induction url with
    | nil => cases h
    | cons x t ih =>
        by_cases hx : isC0OrSpace x = true
        · rw [List.dropWhile_cons_of_pos hx]
          rcases List.mem_cons.mp h with rfl | h
          · rw [hc] at hx; cases hx
          · exact ih h
        · rw [List.dropWhile_cons_of_neg hx]
          exact h

/-- The parts of a successful split with an authority. -/
theorem urlsplit_parts [UnicodeData] {url : Str} {r : SplitResult} (h : urlsplit url = .ok r)
    (hs : r.scheme ≠ []) (hn : r.netloc ≠ []) :
    ∃ a t, cleanUrl url = a ++ ':' :: '/' :: '/' :: (r.netloc ++ t) ∧ isScheme a = true ∧
      r.scheme = a.map Char.toLower ∧ (∀ c x, t = c :: x → isNetlocEnd c = true) ∧
      (r.path, r.query, r.fragment) = splitTail t ∧ IsNetloc r.netloc := by
  obtain ⟨h1, h2, h3, h4, h5⟩ := splitClean_eq_ok.mp h
  rcases splitScheme_cases (cleanUrl url) with he | ⟨a, b, hu, ha, he⟩
  · rw [he] at h1
    exact absurd h1 hs
  · rw [he] at h1 h2 h3
    rcases splitNetloc_cases b with ⟨hb, -⟩ | ⟨n, t, hb, hne, ht, he'⟩
    · rw [hb] at h2
      exact absurd h2 hn
    · rw [he'] at h2 h3
      dsimp only at h1 h2 h3
      subst h2
      refine ⟨a, t, by rw [hu, hb], ha, h1, ht, h3, ⟨hne, ?_, h4, h5⟩⟩
      intro c hc
      refine @not_unsafe_of_mem_cleanUrl url _ ?_
      rw [hu, hb]
      simp [hc]

/-- Putting a split together again, with any tail. -/
theorem urlsplit_assemble [UnicodeData] {scheme netloc tail : Str} (hs : isScheme scheme = true)
    (hn : IsNetloc netloc) (ht : ∀ c r, tail = c :: r → isNetlocEnd c = true)
    (hu : ∀ c ∈ tail, isUnsafeUrlByte c = false) :
    urlsplit (scheme ++ ':' :: '/' :: '/' :: (netloc ++ tail)) =
      .ok ⟨scheme.map Char.toLower, netloc, (splitTail tail).1, (splitTail tail).2.1,
        (splitTail tail).2.2⟩ := by
  obtain ⟨hne, hchars⟩ := isScheme_spec hs
  have hclean : cleanUrl (scheme ++ ':' :: '/' :: '/' :: (netloc ++ tail)) =
      scheme ++ ':' :: '/' :: '/' :: (netloc ++ tail) := by
    refine cleanUrl_eq_self ?_ ?_
    · intro c hc
      simp only [List.mem_append, List.mem_cons] at hc
      rcases hc with hc | rfl | rfl | rfl | hc | hc
      · exact (schemeChar_spec (hchars c hc)).1
      · decide
      · decide
      · decide
      · exact hn.safe c hc
      · exact hu c hc
    · intro c t h
      cases scheme with
      | nil => exact absurd rfl hne
      | cons x xs =>
          rw [List.cons_append] at h
          rw [← (List.cons.inj h).1]
          exact (schemeChar_spec (hchars x List.mem_cons_self)).2.1
  unfold urlsplit
  rw [hclean, splitClean_eq_ok, splitScheme_append_colon hs]
  dsimp only
  rw [splitNetloc_slashes hn.noEnd ht]
  exact ⟨rfl, rfl, rfl, hn.brackets, hn.nfkc⟩

theorem splitTail_question {t q : Str} (ht : '#' ∉ t) (hq : '#' ∉ q) :
    splitTail (t ++ '?' :: q) =
      ((splitTail t).1, if '?' ∈ t then (splitTail t).2.1 ++ '?' :: q else q, []) := by
  have h1 : '#' ∉ t ++ '?' :: q := by simp [ht, hq]
  simp only [splitTail, partition_of_not_mem h1, partition_of_not_mem ht]
  rcases partition_cases '?' t with ⟨hn, he⟩ | ⟨a, b, ha, rfl, he⟩
  · rw [partition_append hn, he]
    simp [hn]
  · rw [he, List.append_assoc, List.cons_append, partition_append ha]
    simp

end Py
