import CimdProxy.Assertion

/-! # Configuration

`config.py`: the resource table, the lookup `resourceByUrl` that maps a requested resource to its
entry, and `loadConfig`, which reads everything from the environment and fails on every missing or
malformed value.  The checks of `loadConfig` are kept in the order of the source, with their
messages.  An environment is a list of variables with different names, in the order the mapping
lists them; the file system is a function from paths to contents or to the text of the `OSError`. -/

namespace CimdProxy

open Py

variable [Platform]

/-! ### The configuration -/

structure ResourceEntry where
  url : Str
  issuer : Str
  clientId : Str
  clientSecret : Str
  patClientId : Str
  patClientSecret : Str
deriving DecidableEq

def ResourceEntry.acceptsPat (e : ResourceEntry) : Bool := !e.patClientId.isEmpty

structure PatConfig where
  databaseUrl : Str
  databaseSchema : Str
  realmIssuer : Str
  idpAlias : Str
  adminClientId : Str
  adminClientSecret : Str
  scopes : List Str
  signer : AssertionSigner

structure ProxyConfig where
  publicUrl : Str
  secretKey : Str
  port : ℤ
  bindHost : Str
  logLevel : Str
  cimdDebug : Bool
  cimdCacheTtlMin : ℤ
  cimdCacheTtlMax : ℤ
  cimdMaxBytes : ℤ
  cimdFetchTimeout : Platform.Float
  defaultResource : Str
  scopesSupported : List Str
  defaultScope : Str
  resources : List ResourceEntry
  pat : Option PatConfig

def ProxyConfig.knownResources (cfg : ProxyConfig) : List Str := cfg.resources.map ResourceEntry.url

/-! ### The lookup -/

/-- `urlsplit` with its `ValueError`. -/
def splitUrl (url : Str) : Except Exc SplitResult := (urlsplit url).mapError .valueError

/-- Whether a split URL is a bare root: the path `/` and nothing after it. -/
def isRootShaped (parts : SplitResult) : Bool :=
  decide (parts.path = ['/']) && parts.query.isEmpty && parts.fragment.isEmpty

/-- `_normalise_requested_url`. -/
def normaliseRequestedUrl (url : Str) : Except Exc Str :=
  if url.isEmpty then .ok url
  else do
    let parts ← splitUrl url
    if isRootShaped parts then return urlunsplit { parts with path := [] } else return url

/-- `ProxyConfig.resource_by_url`. -/
def ProxyConfig.resourceByUrl (cfg : ProxyConfig) (url : Str) : Except Exc (Option ResourceEntry) := do
  let target ← normaliseRequestedUrl url
  return cfg.resources.find? (fun e => e.url == target)

/-- `_pick_resource` of `authorize.py`. -/
def pickResource (cfg : ProxyConfig) (resource : Option Str) : Except Exc ResourceEntry := do
  let given := resource.getD []
  let chosen := if given.isEmpty then cfg.defaultResource else given
  if chosen.isEmpty then
    .error (invalidTarget ("missing 'resource' parameter and no DEFAULT_RESOURCE is set; " ++
      "known resources: " ++ reprList cfg.knownResources))
  else
    match ← cfg.resourceByUrl chosen with
    | some entry => return entry
    | none =>
        .error (invalidTarget ("resource " ++ pyRepr chosen ++ " is not a known target; " ++
          "known resources: " ++ reprList cfg.knownResources))

/-! ### Reading the environment -/

structure Env where
  vars : List (Str × Str)
  nodup : (vars.map Prod.fst).Nodup

def Env.keys (env : Env) : List Str := env.vars.map Prod.fst

/-- `env.get(name)`. -/
def Env.get? (env : Env) (name : Str) : Option Str :=
  (env.vars.find? (fun v => v.1 == name)).map Prod.snd

/-- `env.get(name, default)`. -/
def Env.getD (env : Env) (name default : Str) : Str := (env.get? name).getD default

/-- `_required`. -/
def required (env : Env) (name : Str) : Except Exc Str :=
  match env.get? name with
  | some value =>
      if (strip value).isEmpty then .error (.config (name ++ " is required")) else .ok (strip value)
  | none => .error (.config (name ++ " is required"))

/-- `_int`. -/
def intVar (raw name : Str) : Except Exc ℤ :=
  match intOf raw with
  | some n => .ok n
  | none => .error (.config (name ++ " must be an integer, got " ++ pyRepr raw))

/-- `_float`. -/
def floatVar (raw name : Str) : Except Exc Platform.Float :=
  match Platform.floatOf raw with
  | some x => .ok x
  | none => .error (.config (name ++ " must be a number, got " ++ pyRepr raw))

/-- `_bool`. -/
def boolVar (raw name : Str) : Except Exc Bool :=
  let lowered := lower (strip raw)
  if lowered ∈ ["true".toList, "1".toList, "yes".toList, "on".toList] then .ok true
  else if lowered ∈ ["false".toList, "0".toList, "no".toList, "off".toList, "".toList] then .ok false
  else .error (.config (name ++ " must be a boolean, got " ++ pyRepr raw))

/-- `_parse_scope_list`. -/
def parseScopeList (raw : Str) : List Str := splitWs raw

/-- `_parse_scope_string`. -/
def parseScopeString (raw : Str) : Str := join " " (splitWs raw)

def sortNames (names : List Str) : List Str :=
  names.insertionSort (fun a b => Json.keyLe a b = true)

/-! ### The resource table -/

/-- `_pat_client`. -/
def patClient (env : Env) (pre : Str) : Except Exc (Str × Str) :=
  let clientId := strip (env.getD (pre ++ "PAT_CLIENT_ID") "")
  let clientSecret := strip (env.getD (pre ++ "PAT_CLIENT_SECRET") "")
  if clientId.isEmpty != clientSecret.isEmpty then
    .error (.config (pre ++ "PAT_CLIENT_ID and " ++ pre ++
      "PAT_CLIENT_SECRET are set together or not at all; " ++
      "the JWT Authorization Grant needs a confidential client"))
  else .ok (clientId, clientSecret)

/-- `RESOURCE_{index}_`. -/
def resourcePrefix (index : ℕ) : Str := "RESOURCE_" ++ intText index ++ "_"

/-- The table index a variable name mentions: `none` when it mentions none, an error when the
digits are not a number. -/
def resourceIndex (key : Str) : Except Exc (Option ℤ) :=
  if ("RESOURCE_" : Str).isPrefixOf key then
    let (idx, sep, _) := partition '_' (key.drop 9)
    if sep && isDigitText idx then
      match intOf idx with
      | some n => .ok (some n)
      | none => .error (.valueError ("invalid literal for int() with base 10: " ++ pyRepr idx))
    else .ok none
  else .ok none

/-- The highest index any variable mentions, `-1` for none. -/
def highestSeen (env : Env) : Except Exc ℤ :=
  env.keys.foldlM (fun highest key => do
    match ← resourceIndex key with
    | some n => return if highest < n then n else highest
    | none => return highest) (-1)

/-- One turn of the loop in `_load_resources`. -/
def loadResource (env : Env) (index : ℕ) : Except Exc ResourceEntry := do
  let pre := resourcePrefix index
  if !env.keys.any (fun k => pre.isPrefixOf k) then
    .error (.config ("RESOURCE table has a gap at index " ++ intText index ++
      "; set higher indices are ignored"))
  else
    let url := rstripSlash (← required env (pre ++ "URL"))
    let issuer := rstripSlash (← required env (pre ++ "ISSUER"))
    let clientId ← required env (pre ++ "CLIENT_ID")
    let clientSecret := env.getD (pre ++ "CLIENT_SECRET") ""
    let (patClientId, patClientSecret) ← patClient env pre
    if !contains "://" url then
      .error (.config (pre ++ "URL " ++ pyRepr url ++ " is not a URL"))
    else if !contains "://" issuer then
      .error (.config (pre ++ "ISSUER " ++ pyRepr issuer ++ " is not a URL"))
    else return ⟨url, issuer, clientId, clientSecret, patClientId, patClientSecret⟩

/-- `_load_resources`. -/
def loadResources (env : Env) : Except Exc (List ResourceEntry) := do
  let highest ← highestSeen env
  (List.range (highest + 1).toNat).mapM (loadResource env)

/-! ### Personal access tokens -/

/-- The file system: contents, or the text of the `OSError`. -/
abbrev Files : Type := Str → Except Str Bytes

def signingKeyVar (index : ℕ) (field : Str) : Str :=
  "PAT_SIGNING_KEY_" ++ intText index ++ "_" ++ field

/-- Whether the loop in `_load_signer` reads this index. -/
def hasSigningKey (env : Env) (index : ℕ) : Bool :=
  env.keys.contains (signingKeyVar index "KID") || env.keys.contains (signingKeyVar index "FILE")

/-- One turn of that loop. -/
def loadSigningKey (env : Env) (files : Files) (index : ℕ) : Except Exc SigningKey := do
  let kid ← required env (signingKeyVar index "KID")
  let path ← required env (signingKeyVar index "FILE")
  match files path with
  | .error e => .error (.config (signingKeyVar index "FILE" ++ " cannot be read: " ++ e))
  | .ok pem =>
      match SigningKey.fromPem kid pem with
      | .error (.signingKey msg) => .error (.config msg)
      | r => r

/-- The index in a name that matches `^PAT_SIGNING_KEY_\d+_`. -/
def signingKeyIndex (key : Str) : Except Exc (Option ℤ) :=
  if ("PAT_SIGNING_KEY_" : Str).isPrefixOf key then
    let (idx, sep, _) := partition '_' (key.drop 16)
    if sep && !idx.isEmpty && idx.all (fun c => (digitVal c).isSome) then
      match intOf idx with
      | some n => .ok (some n)
      | none => .error (.valueError ("Exceeds the limit (4300 digits) for integer string conversion"))
    else .ok none
  else .ok none

/-- The names whose index is `index` or higher. -/
def higherSigningKeys (env : Env) (index : ℕ) : Except Exc (List Str) :=
  env.keys.filterMapM (fun key => do
    match ← signingKeyIndex key with
    | some n => return if (index : ℤ) ≤ n then some key else none
    | none => return none)

/-- `_load_signer`.  The loop stops at the first index that is not set, which is at most the number
of variables. -/
def loadSigner (env : Env) (files : Files) (publicUrl : Str) : Except Exc AssertionSigner := do
  let indices := (List.range (env.vars.length + 1)).takeWhile (hasSigningKey env)
  let keys ← indices.mapM (loadSigningKey env files)
  let higher ← higherSigningKeys env indices.length
  if !higher.isEmpty then
    .error (.config ("PAT_SIGNING_KEY table has a gap at index " ++ intText indices.length ++ ": " ++
      join ", " (sortNames higher)))
  else if keys.isEmpty then
    .error (.config "PAT_SIGNING_KEY_0_KID and PAT_SIGNING_KEY_0_FILE are required")
  else if ¬ (keys.map SigningKey.kid).Nodup then
    .error (.config "PAT_SIGNING_KEY_n_KID values must be unique")
  else
    let given := strip (env.getD "PAT_ASSERTION_ISSUER" "")
    let issuer := if given.isEmpty then publicUrl else given
    match AssertionSigner.make issuer keys (← required env "PAT_SIGNING_KID") with
    | .error (.signingKey msg) => .error (.config msg)
    | r => r

/-- `_SCHEMA_NAME.match`. -/
def isSchemaName (s : Str) : Bool :=
  match s with
  | [] => false
  | c :: rest =>
      (isAsciiChar c && (c.isLower || c == '_')) && decide (rest.length ≤ 62) &&
        rest.all (fun c => isAsciiChar c && (c.isLower || c.isDigit || c == '_'))

/-- The variables that may not be set while personal access tokens are off. -/
def strayPatKeys (env : Env) : List Str :=
  (env.vars.filter (fun v =>
    (("PAT_" : Str).isPrefixOf v.1 || contains "_PAT_CLIENT_" v.1) && !(strip v.2).isEmpty)).map
    Prod.fst

def checkPatIssuers (realmIssuer : Str) : List ResourceEntry → Except Exc Unit
  | [] => .ok ()
  | e :: es =>
      if e.issuer ≠ realmIssuer then
        .error (.config ("resource " ++ pyRepr e.url ++
          " accepts personal access tokens but its issuer " ++ pyRepr e.issuer ++
          " is not PAT_REALM_ISSUER " ++ pyRepr realmIssuer))
      else checkPatIssuers realmIssuer es

/-- `_load_pat`. -/
def loadPat (env : Env) (files : Files) (publicUrl : Str) (resources : List ResourceEntry) :
    Except Exc (Option PatConfig) := do
  let databaseUrl := strip (env.getD "PAT_DATABASE_URL" "")
  if databaseUrl.isEmpty then
    let stray := strayPatKeys env
    if !stray.isEmpty then
      .error (.config (join ", " (sortNames stray) ++ " set but PAT_DATABASE_URL is not; " ++
        "personal access tokens are either fully configured or off"))
    else return none
  else
    let schema := strip (env.getD "PAT_DATABASE_SCHEMA" "cimd_proxy")
    if !isSchemaName schema then
      .error (.config ("PAT_DATABASE_SCHEMA " ++ pyRepr schema ++
        " is not a plain lower-case identifier"))
    else
      let realmIssuer := rstripSlash (← required env "PAT_REALM_ISSUER")
      let scopes := parseScopeList (← required env "PAT_SCOPES")
      let patResources := resources.filter ResourceEntry.acceptsPat
      if patResources.isEmpty then
        .error (.config ("PAT_DATABASE_URL is set but no RESOURCE_n_PAT_CLIENT_ID is; " ++
          "a personal access token could not name any resource"))
      else
        checkPatIssuers realmIssuer patResources
        let idpAlias ← required env "PAT_IDP_ALIAS"
        let adminClientId ← required env "PAT_ADMIN_CLIENT_ID"
        let adminClientSecret ← required env "PAT_ADMIN_CLIENT_SECRET"
        let signer ← loadSigner env files publicUrl
        return some ⟨databaseUrl, schema, realmIssuer, idpAlias, adminClientId, adminClientSecret,
          scopes, signer⟩

/-! ### The whole configuration -/

/-- The checks on the numbers of the CIMD cache and fetcher. -/
def loadCimd (env : Env) : Except Exc (ℤ × ℤ × ℤ × Platform.Float) := do
  let ttlMin ← intVar (env.getD "CIMD_CACHE_TTL_MIN" "300") "CIMD_CACHE_TTL_MIN"
  let ttlMax ← intVar (env.getD "CIMD_CACHE_TTL_MAX" "86400") "CIMD_CACHE_TTL_MAX"
  if ttlMin ≤ 0 || ttlMax ≤ 0 then
    .error (.config "CIMD_CACHE_TTL_MIN and CIMD_CACHE_TTL_MAX must be positive")
  else if ttlMax < ttlMin then
    .error (.config "CIMD_CACHE_TTL_MIN must be <= CIMD_CACHE_TTL_MAX")
  else
    let maxBytes ← intVar (env.getD "CIMD_MAX_BYTES" "5120") "CIMD_MAX_BYTES"
    if maxBytes ≤ 0 then .error (.config "CIMD_MAX_BYTES must be positive")
    else
      let timeout ← floatVar (env.getD "CIMD_FETCH_TIMEOUT" "5") "CIMD_FETCH_TIMEOUT"
      if !Platform.isPositive timeout then .error (.config "CIMD_FETCH_TIMEOUT must be positive")
      else return (ttlMin, ttlMax, maxBytes, timeout)

def orElse (s default : Str) : Str := if s.isEmpty then default else s

/-- `load_config`. -/
def loadConfig (env : Env) (files : Files) : Except Exc ProxyConfig := do
  let publicUrl := rstripSlash (← required env "PROXY_PUBLIC_URL")
  let secretKey ← required env "PROXY_SECRET_KEY"
  let port ← intVar (env.getD "PROXY_PORT" "8080") "PROXY_PORT"
  let bindHost := orElse (strip (env.getD "PROXY_BIND_HOST" "0.0.0.0")) "0.0.0.0"
  let logLevel := orElse (upper (strip (env.getD "LOG_LEVEL" "INFO"))) "INFO"
  let cimdDebug ← boolVar (env.getD "CIMD_DEBUG" "false") "CIMD_DEBUG"
  let (ttlMin, ttlMax, maxBytes, timeout) ← loadCimd env
  let defaultResource := strip (env.getD "DEFAULT_RESOURCE" "")
  let scopesSupported := parseScopeList (env.getD "PROXY_SCOPES_SUPPORTED" "openid offline_access")
  let defaultScope := parseScopeString (env.getD "PROXY_DEFAULT_SCOPE" "openid offline_access")
  let resources ← loadResources env
  if !defaultResource.isEmpty && !resources.any (fun r => r.url == defaultResource) then
    .error (.config ("DEFAULT_RESOURCE " ++ pyRepr defaultResource ++
      " is not present in the RESOURCE_n table"))
  else
    let pat ← loadPat env files publicUrl resources
    return ⟨publicUrl, secretKey, port, bindHost, logLevel, cimdDebug, ttlMin, ttlMax, maxBytes,
      timeout, defaultResource, scopesSupported, defaultScope, resources, pat⟩

/-! ### What a loaded configuration is -/

omit [Platform] in
theorem required_eq_ok {env : Env} {name w : Str} :
    required env name = .ok w ↔ ∃ raw, env.get? name = some raw ∧ w = strip raw ∧ w ≠ [] := by
  unfold required
  cases h : env.get? name with
  | none => simp
  | some raw =>
      by_cases hr : strip raw = []
      · simp [hr]
      · have hr' : (strip raw).isEmpty = false := by simpa using hr
        simp only [hr', Bool.false_eq_true, if_false, Except.ok.injEq, Option.some.injEq,
          exists_eq_left']
        constructor
        · rintro rfl
          exact ⟨rfl, hr⟩
        · rintro ⟨rfl, -⟩
          rfl

theorem loadResource_eq_ok {env : Env} {index : ℕ} {e : ResourceEntry}
    (h : loadResource env index = .ok e) :
    ∃ raw, env.get? (resourcePrefix index ++ "URL") = some raw ∧ strip raw ≠ [] ∧
      e.url = rstripSlash (strip raw) ∧ contains "://" e.url = true := by
  unfold loadResource at h
  dsimp only at h
  split_ifs at h
  obtain ⟨w, hw, h⟩ := bind_eq_ok.mp h
  obtain ⟨issuer, -, h⟩ := bind_eq_ok.mp h
  obtain ⟨clientId, -, h⟩ := bind_eq_ok.mp h
  obtain ⟨⟨pid, psec⟩, -, h⟩ := bind_eq_ok.mp h
  obtain ⟨raw, hraw, rfl, hne⟩ := required_eq_ok.mp hw
  dsimp only at h
  split_ifs at h with h1 h2
  rw [← Except.ok.inj h]
  exact ⟨raw, hraw, hne, rfl, by simpa using h1⟩

/-- What `loadConfig` has checked. -/
theorem loadConfig_eq_ok {env : Env} {files : Files} {cfg : ProxyConfig}
    (h : loadConfig env files = .ok cfg) :
    loadResources env = .ok cfg.resources ∧
    cfg.defaultResource = strip (env.getD "DEFAULT_RESOURCE" "") ∧
    (cfg.defaultResource ≠ [] → ∃ e ∈ cfg.resources, e.url = cfg.defaultResource) ∧
    loadPat env files cfg.publicUrl cfg.resources = .ok cfg.pat := by
  unfold loadConfig at h
  obtain ⟨publicUrl, -, h⟩ := bind_eq_ok.mp h
  obtain ⟨secretKey, -, h⟩ := bind_eq_ok.mp h
  obtain ⟨port, -, h⟩ := bind_eq_ok.mp h
  obtain ⟨cimdDebug, -, h⟩ := bind_eq_ok.mp h
  obtain ⟨⟨ttlMin, ttlMax, maxBytes, timeout⟩, -, h⟩ := bind_eq_ok.mp h
  obtain ⟨resources, hres, h⟩ := bind_eq_ok.mp h
  split_ifs at h with hdef
  obtain ⟨pat, hpat, h⟩ := bind_eq_ok.mp h
  rw [← Except.ok.inj h]
  refine ⟨hres, rfl, ?_, hpat⟩
  intro hne
  dsimp only at hne ⊢
  have hne' : (strip (env.getD "DEFAULT_RESOURCE" "")).isEmpty = false := by simpa using hne
  simp only [hne', Bool.not_false, Bool.true_and, Bool.not_eq_true', Bool.not_eq_false,
    List.any_eq_true, beq_iff_eq] at hdef
  exact hdef

/-- The entries of a loaded table, by index. -/
theorem loadResources_getElem {env : Env} {rs : List ResourceEntry} (h : loadResources env = .ok rs)
    {n : ℕ} {e : ResourceEntry} (hn : rs[n]? = some e) : loadResource env n = .ok e := by
  unfold loadResources at h
  obtain ⟨highest, -, h⟩ := bind_eq_ok.mp h
  have hf := mapM_eq_ok.mp h
  obtain ⟨hlt, rfl⟩ := List.getElem?_eq_some_iff.mp hn
  have hlen := hf.length_eq
  have := List.forall₂_iff_get.mp hf
  have h2 := this.2 n (by omega) hlt
  simpa using h2

end CimdProxy
