import CimdProxy.PatSettings
import CimdProxy.FrontDoor
import CimdProxy.Base64

/-! # Assertions and the published keys agree

What an upstream reads from an assertion and from the key set of a configured signer.
`assertion_readable`: an assertion has three parts; the claims say what the caller asked for, for at most
a minute; and the key the header names is in the set once, with the numbers of the key that signed. -/

namespace CimdProxy

open Py Effects

/-! ### Reading -/

/-- The JSON value in a part of an assertion. -/
def readPart (s : Str) : Option Json := do
  let bytes ← base64UrlDecode s
  let text ← utf8Decode bytes
  (Json.loads text).toOption

theorem readPart_encode {v : Json} (h : Json.WF v) : readPart (base64Url (utf8 v.encode)) = some v := by
  unfold readPart
  rw [base64UrlDecode_base64Url, Option.bind_eq_bind, Option.bind_some, utf8Decode_utf8,
    Option.bind_eq_bind, Option.bind_some, Json.loads_encode h]
  rfl

/-- The number in a member of a published key, and its bytes. -/
def readNumber (m : Dict) (name : Str) : Option Bytes :=
  match Dict.get? m name with
  | some (.str s) => base64UrlDecode s
  | _ => none

/-- The entries of a published key set. -/
def jwksEntries : Json → List Dict
  | .obj d =>
      match Dict.get? d "keys" with
      | some (.arr xs) => xs.filterMap (fun x => match x with
          | .obj m => some m
          | _ => none)
      | _ => []
  | _ => []

theorem toBytes_lt (n : ℕ) : n < 256 ^ ((n.size + 7) / 8) := by
  have h := Nat.lt_size_self n
  have hle : n.size ≤ 8 * ((n.size + 7) / 8) := by omega
  calc n < 2 ^ n.size := h
    _ ≤ 2 ^ (8 * ((n.size + 7) / 8)) := Nat.pow_le_pow_right (by norm_num) hle
    _ = 256 ^ ((n.size + 7) / 8) := by rw [pow_mul]; norm_num

theorem ofBigEndian_toBytes (n : ℕ) : ofBigEndian (toBytes n) = n :=
  ofBigEndian_bigEndian _ (toBytes_lt n)

/-- The encoding of a number is minimal. -/
theorem toBytes_head (n : ℕ) : (toBytes n).head? ≠ some 0 := by
  have hlt := toBytes_lt n
  unfold toBytes
  cases hk : (n.size + 7) / 8 with
  | zero => exact fun h => nomatch h
  | succ k =>
      rw [hk] at hlt
      refine bigEndian_head ?_ hlt
      have hsize : 8 * k < n.size := by omega
      calc 256 ^ k = 2 ^ (8 * k) := by rw [pow_mul]; norm_num
        _ ≤ n := Nat.lt_size.mp hsize

section Signer

variable [Platform]

/-- The members of a published key. -/
def publicMembers (k : SigningKey) : Dict :=
  [("kty", .str "RSA"), ("use", .str "sig"), ("alg", .str "RS256"), ("kid", .str k.kid),
    ("n", .str (base64Url (toBytes (Platform.modulus k.privateKey)))),
    ("e", .str (base64Url (toBytes (Platform.exponent k.privateKey))))]

theorem jwksEntries_jwks (s : AssertionSigner) : jwksEntries s.jwks = s.keys.map publicMembers := by
  change (s.keys.map SigningKey.publicJwk).filterMap _ = _
  rw [List.filterMap_map]
  exact congrFun List.filterMap_eq_map' s.keys

/-- The published entry is of the key. -/
structure PublishedAs (key : SigningKey) (m : Dict) : Prop where
  kid : Dict.get? m "kid" = some (.str key.kid)
  modulus : ∃ b, readNumber m "n" = some b ∧ ofBigEndian b = Platform.modulus key.privateKey ∧
    b.head? ≠ some 0
  exponent : ∃ b, readNumber m "e" = some b ∧ ofBigEndian b = Platform.exponent key.privateKey ∧
    b.head? ≠ some 0

/-- What an upstream reads from an assertion and the key set. -/
structure Readable (s : AssertionSigner) (subject audience assertion : Str) : Prop where
  read : ∃ (h c signature : Str) (header claims : Dict) (key : SigningKey) (iat exp : ℤ),
    assertion.splitOn '.' = [h, c, signature] ∧
    readPart h = some (.obj header) ∧ readPart c = some (.obj claims) ∧
    Dict.get? claims "sub" = some (.str subject) ∧ Dict.get? claims "aud" = some (.str audience) ∧
    Dict.get? claims "iss" = some (.str s.issuer) ∧
    Dict.get? claims "iat" = some (.int iat) ∧ Dict.get? claims "exp" = some (.int exp) ∧
    0 < exp - iat ∧ exp - iat ≤ 60 ∧
    Dict.get? header "kid" = some (.str key.kid) ∧
    base64UrlDecode signature = some (Platform.sign key.privateKey (utf8 (h ++ '.' :: c))) ∧
    (jwksEntries s.jwks).countP (fun m => isStr (Dict.get? m "kid") key.kid) = 1 ∧
    ∀ m ∈ jwksEntries s.jwks, Dict.get? m "kid" = some (.str key.kid) → PublishedAs key m

theorem publishedAs_publicMembers (k : SigningKey) : PublishedAs k (publicMembers k) where
  kid := rfl
  modulus := ⟨_, base64UrlDecode_base64Url _, ofBigEndian_toBytes _, toBytes_head _⟩
  exponent := ⟨_, base64UrlDecode_base64Url _, ofBigEndian_toBytes _, toBytes_head _⟩

/-- With different names, the entry of a key is the only one under its name. -/
theorem jwks_unique {s : AssertionSigner} (hn : (s.keys.map SigningKey.kid).Nodup) {key : SigningKey}
    (hk : key ∈ s.keys) :
    (jwksEntries s.jwks).countP (fun m => isStr (Dict.get? m "kid") key.kid) = 1 ∧
    ∀ m ∈ jwksEntries s.jwks, Dict.get? m "kid" = some (.str key.kid) → PublishedAs key m := by
  rw [jwksEntries_jwks]
  constructor
  · rw [List.countP_map]
    exact countP_eq_one hn (List.mem_map_of_mem hk)
  · intro m hm hkid
    obtain ⟨k, hk', rfl⟩ := List.mem_map.mp hm
    have hsame : k.kid = key.kid := Json.str.inj (Option.some.inj hkid)
    obtain rfl := List.inj_on_of_nodup_map hn hk' hk hsame
    exact publishedAs_publicMembers k

theorem activeKey_mem (s : AssertionSigner) : s.activeKey ∈ s.keys :=
  List.mem_of_find?_eq_some (Option.some_get s.active).symm

omit [Platform] in
theorem splitOn_parts {a b c : Str} (ha : '.' ∉ a) (hb : '.' ∉ b) (hc : '.' ∉ c) :
    (a ++ '.' :: b ++ '.' :: c).splitOn '.' = [a, b, c] := by
  have hno : ∀ {s : Str}, '.' ∉ s → ∀ x ∈ s, (x == '.') = false := by
    intro s hs x hx
    simpa using fun h : x = '.' => hs (h ▸ hx)
  rw [List.splitOn_eq_splitOnP, List.append_assoc, List.cons_append,
    List.splitOnP_append_cons_of_forall_mem (hno ha) '.' rfl,
    List.splitOnP_append_cons_of_forall_mem (hno hb) '.' rfl,
    List.splitOnP_eq_singleton (hno hc)]

/-- What the signer writes can be read. -/
theorem readable_assertion (s : AssertionSigner) (hn : (s.keys.map SigningKey.kid).Nodup)
    (subject audience : Str) {lifetime now : ℤ} (hl : 0 < lifetime ∧ lifetime ≤ 60)
    (hiat : (Nat.toDigits 10 now.natAbs).length ≤ maxStrDigits)
    (hexp : (Nat.toDigits 10 (now + lifetime).natAbs).length ≤ maxStrDigits) (jti : Uuid) :
    Readable s subject audience (s.assertion subject audience lifetime now jti) := by
  obtain ⟨hcount, hpublished⟩ := jwks_unique hn (activeKey_mem s)
  have hheader : Json.WF (.obj [("alg", .str "RS256"), ("typ", .str "JWT"),
      ("kid", .str s.activeKey.kid)]) := by
    refine ⟨by simp only [List.map_cons, List.map_nil]; decide, ?_⟩
    simp [Json.WFMembers, Json.WF]
  have hclaims : Json.WF (.obj [("iss", .str s.issuer), ("sub", .str subject), ("aud", .str audience),
      ("iat", .int now), ("exp", .int (now + lifetime)), ("jti", .str (uuidText jti))]) := by
    refine ⟨by simp only [List.map_cons, List.map_nil]; decide, ?_⟩
    simp [Json.WFMembers, Json.WF, hiat, hexp]
  refine ⟨⟨_, _, _, _, _, s.activeKey, now, now + lifetime, ?_, readPart_encode hheader,
    readPart_encode hclaims, rfl, rfl, rfl, rfl, rfl, by omega, by omega, rfl,
    base64UrlDecode_base64Url _, hcount, hpublished⟩⟩
  exact splitOn_parts (base64Url_ne_dot _) (base64Url_ne_dot _) (base64Url_ne_dot _)

/-- **Assertions and the published keys agree.**  Every assertion a configured signer makes for a
permitted lifetime is readable, for every subject and audience; other lifetimes are refused. -/
theorem assertion_readable (env : Env) (files : Files) (cfg : ProxyConfig) (pat : PatConfig)
    (h : loadConfig env files = .ok cfg) (hpat : cfg.pat = some pat) (subject audience : Str)
    (lifetime : ℤ) (ω : (o : Op) → Reply o) :
    (0 < lifetime ∧ lifetime ≤ maxAssertionLifetime →
      ∃ assertion, (pat.signer.sign subject audience lifetime).eval ω = .ok assertion ∧
        Readable pat.signer subject audience assertion) ∧
    (¬ (0 < lifetime ∧ lifetime ≤ maxAssertionLifetime) →
      ∃ e, (pat.signer.sign subject audience lifetime).eval ω = .error e) := by
  obtain ⟨-, -, -, hloaded⟩ := loadConfig_eq_ok h
  rw [hpat] at hloaded
  have hsigner : SignerLoaded env files pat.signer := by
    rcases loadPat_cases hloaded with ⟨hnone, -⟩ | ⟨pat', hsome, hp⟩
    · cases hnone
    · obtain rfl := Option.some.inj hsome
      exact hp.signer
  constructor
  · intro hl
    have hmax : lifetime ≤ 60 := hl.2
    refine ⟨pat.signer.assertion subject audience lifetime (ω .time).whole (ω .uuid4), ?_, ?_⟩
    · unfold AssertionSigner.sign
      rw [if_neg (not_not.mpr hl)]
      rfl
    · refine readable_assertion _ hsigner.distinct _ _ ⟨hl.1, hmax⟩ ?_ ?_ _
      · have := (ω .time).digits_whole_add (k := 0) (by norm_num)
        rwa [Int.add_zero] at this
      · exact (ω .time).digits_whole_add (by rw [abs_of_pos hl.1]; omega)
  · intro hl
    unfold AssertionSigner.sign
    rw [if_pos hl]
    exact ⟨_, rfl⟩

end Signer

/-- The published set and an assertion of the proxy of the sample environment. -/
theorem assertion_readable_patEnv :
    letI := Platform.plain
    ∃ pat, patConfig.pat = some pat ∧
      ∃ assertion, Readable pat.signer "alice" "https://id.example/realms/r" assertion := by
  let := Platform.plain
  have hsome : patConfig.pat.isSome = true := by decide +kernel
  obtain ⟨pat, hpat⟩ := Option.isSome_iff_exists.mp hsome
  obtain ⟨assertion, -, hread⟩ := (assertion_readable patEnv patFiles patConfig pat
    (Except.eq_value _ _) hpat "alice" "https://id.example/realms/r" 60 idleReply).1 (by decide)
  exact ⟨pat, hpat, assertion, hread⟩

end CimdProxy
