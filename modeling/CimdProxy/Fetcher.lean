import CimdProxy.RedirectUri

/-! # Client metadata documents

`fetcher.py`, `cache.py` and `cimd_service.py`: the shape of a client-id URL, the guard on the
addresses its host resolves to, the pinned GET, the rules for the document, and the service that
puts a cache in front of all that.  The cache itself is part of the world.

`FetchedIn` says where a document comes from: a GET pinned to a checked address of the URL's host,
answered with a body that passes every rule.  `sat_obtain` is the specification of the service. -/

namespace CimdProxy

open Py Effects

variable [Platform]

def fetchError (msg : Str) : Exc := .fetch .fetchError msg

def ssrfRefused (msg : Str) : Exc := .fetch .ssrfRefused msg

def documentInvalid (msg : Str) : Exc := .fetch .documentInvalid msg

/-! ### The client-id URL -/

structure ParsedClientIdUrl where
  scheme : Str
  hostname : Str
  port : ℕ
  path : Str
  query : Str

def ParsedClientIdUrl.authority (p : ParsedClientIdUrl) : Str :=
  let default := if p.scheme = "https" then 443 else 80
  if p.port = default then p.hostname else p.hostname ++ ':' :: intText p.port

/-- `parse_client_id_url`. -/
def parseClientIdUrl (url : Str) : Except Exc ParsedClientIdUrl :=
  if url.isEmpty then .error (ssrfRefused "client_id is empty")
  else do
    let split ← splitUrl url
    if split.scheme ≠ "https" then .error (ssrfRefused "client_id must use https")
    else if !split.fragment.isEmpty then
      .error (ssrfRefused "client_id must not carry a fragment")
    else if split.netloc.contains '@' then
      .error (ssrfRefused "client_id must not carry a userinfo component")
    else
      match split.hostname with
      | none => .error (ssrfRefused "client_id has no host")
      | some hostname =>
          if split.path.isEmpty || decide (split.path = ['/']) then
            .error (ssrfRefused "client_id must have a non-empty path")
          else do
            let port ← split.port.mapError .valueError
            return ⟨split.scheme, hostname, port.getD 443, split.path, split.query⟩

/-! ### Addresses -/

def forbiddenZones : List Str :=
  ["is_private".toList, "is_loopback".toList, "is_link_local".toList, "is_reserved".toList,
    "is_multicast".toList, "is_unspecified".toList]

/-- The loop of `resolve_and_check_ips`; the addresses kept so far are those seen. -/
def checkIps (hostname : Str) : List Str → List Str → Except Exc (List Str)
  | ips, [] => .ok ips
  | ips, address :: rest =>
      let rawIp := (partition '%' address).1
      if ips.contains rawIp then checkIps hostname ips rest
      else
        match ipAddress rawIp with
        | none => .error (.valueError
            (pyRepr rawIp ++ " does not appear to be an IPv4 or IPv6 address"))
        | some addr =>
            match forbiddenZones.find? (fun attr => Platform.ipAttr attr addr) with
            | some attr => .error (ssrfRefused ("host " ++ pyRepr hostname ++ " resolves to " ++
                rawIp ++ " (" ++ attr ++ "); refusing"))
            | none => checkIps hostname (ips ++ [rawIp]) rest

/-- `resolve_and_check_ips`. -/
def resolveAndCheckIps (hostname : Str) : Run (List Str) := do
  match ← ask (.getaddrinfo hostname) with
  | .gaierror => .raise (ssrfRefused ("cannot resolve host " ++ pyRepr hostname))
  | .unicodeError msg => .raise (.valueError msg)
  | .infos [] => .raise (ssrfRefused ("cannot resolve host " ++ pyRepr hostname))
  | .infos (a :: as) => .lift (checkIps hostname [] (a :: as))

/-! ### The document -/

def forbiddenMethods : List Str :=
  ["client_secret_post".toList, "client_secret_basic".toList, "client_secret_jwt".toList]

/-- The loop of `_usable_redirect_uris`: the kept entries and the messages of the dropped ones. -/
def sortUris : List Str → Except Exc (List Str × List Str)
  | [] => .ok ([], [])
  | uri :: uris =>
      match acceptRegistered uri with
      | .ok () => (sortUris uris).map (fun p => (uri :: p.1, p.2))
      | .error (.redirectUriRefused msg) => (sortUris uris).map (fun p => (p.1, msg :: p.2))
      | .error e => .error e

/-- `_usable_redirect_uris`. -/
def usableRedirectUris (uris : List Str) : Except Exc (List Str) := do
  let (kept, dropped) ← sortUris uris
  if kept.isEmpty then
    .error (documentInvalid
      ("CIMD document lists no usable redirect_uris entry: " ++ join "; " dropped))
  else return kept

/-- The symmetric method a document asks for, if any. -/
def forbiddenMethod (document : Dict) : Option Str :=
  match document.get? "token_endpoint_auth_method" with
  | some (.str method) => if forbiddenMethods.contains method then some method else none
  | _ => none

/-- `validate_document`. -/
def validateDocument (url : Str) (document : Json) : Except Exc CimdDocument :=
  match document with
  | .obj d =>
      match Dict.get? d "client_id" with
      | some (.str clientId) =>
          if clientId ≠ url then
            .error (documentInvalid "client_id in document does not match the URL byte-for-byte")
          else if Dict.has d "client_secret" then
            .error (documentInvalid "CIMD document must not carry client_secret")
          else if Dict.has d "client_secret_expires_at" then
            .error (documentInvalid "CIMD document must not carry client_secret_expires_at")
          else
            match forbiddenMethod d with
            | some method => .error (documentInvalid ("token_endpoint_auth_method " ++
                pyRepr method ++ " relies on a shared symmetric secret"))
            | none =>
                match Dict.get? d "redirect_uris" with
                | some (.arr (x :: xs)) =>
                    match Json.nonEmptyStrs (x :: xs) with
                    | some uris => do
                        let kept ← usableRedirectUris uris
                        return ⟨clientId, kept, d, none⟩
                    | none => .error (documentInvalid
                        "every redirect_uris entry must be a non-empty string")
                | _ => .error (documentInvalid
                    "CIMD document must carry a non-empty redirect_uris array")
      | _ => .error (documentInvalid "CIMD document has no client_id")
  | _ => .error (documentInvalid "CIMD document is not a JSON object")

/-! ### The fetch -/

structure FetchResult where
  document : CimdDocument
  resolvedIp : Str

/-- The URL that dials an address directly. -/
def pinnedUrl (parsed : ParsedClientIdUrl) (pinnedIp : Str) : Str :=
  let hostForUrl := if pinnedIp.contains ':' then '[' :: pinnedIp ++ "]" else pinnedIp
  let base := parsed.scheme ++ "://" ++ hostForUrl ++ ":" ++ intText parsed.port ++ parsed.path
  if parsed.query.isEmpty then base else base ++ '?' :: parsed.query

/-- What becomes of a body. -/
def readDocument (url : Str) (body : Bytes) (cacheControl : Option Str) : Except Exc CimdDocument :=
  match utf8Decode body with
  | none => .error (documentInvalid "CIMD document is not valid JSON")
  | some text =>
      match Json.loads text with
      | .error .decode => .error (documentInvalid "CIMD document is not valid JSON")
      | .error .digits =>
          .error (.valueError "Exceeds the limit (4300 digits) for integer string conversion")
      | .ok payload => do
          let doc ← validateDocument url payload
          return { doc with cacheControl := cacheControl }

/-- `_fetch_pinned`. -/
def fetchPinned (maxBytes : ℤ) (url : Str) (parsed : ParsedClientIdUrl) (pinnedIp : Str) :
    Run FetchResult := do
  match ← ask (.pinnedGet (pinnedUrl parsed pinnedIp) parsed.authority parsed.hostname) with
  | .httpError text => .raise (fetchError ("cannot fetch CIMD document: " ++ text))
  | .raised msg => .raise (.library msg)
  | .response status body cacheControl =>
      if status ≠ 200 then
        .raise (fetchError ("upstream returned HTTP " ++ intText status ++ " for CIMD document"))
      else if maxBytes < body.length then
        .raise (fetchError ("CIMD document exceeds max_bytes (" ++ intText maxBytes ++ ")"))
      else do
        let doc ← .lift (readDocument url body cacheControl)
        return ⟨doc, pinnedIp⟩

/-- `CimdFetcher.fetch`. -/
def fetch (maxBytes : ℤ) (url : Str) : Run FetchResult := do
  let parsed ← .lift (parseClientIdUrl url)
  match ← resolveAndCheckIps parsed.hostname with
  | [] => .raise (.library "list index out of range")
  | pinnedIp :: _ => fetchPinned maxBytes url parsed pinnedIp

/-! ### The time-to-live -/

/-- `s.strip('"')`. -/
def stripQuotes (s : Str) : Str := (s.dropWhile (· == '"')).rdropWhile (· == '"')

/-- `_extract_max_age`. -/
def extractMaxAge (cacheControlLower : Str) : Option ℤ :=
  match ((cacheControlLower.splitOn ',').map strip).find? (("max-age" : Str).isPrefixOf ·) with
  | none => none
  | some directive => intOf (stripQuotes (strip (partition '=' directive).2.2))

/-- `_base_from_directive`. -/
def baseFromDirective (cacheControlLower : Str) (defaultTtl : Option ℤ) (minTtl : ℤ) : ℤ :=
  match extractMaxAge cacheControlLower with
  | some maxAge => maxAge
  | none =>
      if contains "no-store" cacheControlLower || contains "no-cache" cacheControlLower then minTtl
      else defaultTtl.getD minTtl

/-- `choose_ttl`. -/
def chooseTtl (cacheControl : Option Str) (minTtl maxTtl : ℤ) (defaultTtl : Option ℤ) : ℤ :=
  let base := match cacheControl with
    | none => defaultTtl.getD minTtl
    | some cc => baseFromDirective (lower cc) defaultTtl minTtl
  max minTtl (min base maxTtl)

/-! ### The service -/

/-- `CimdService.obtain`. -/
def obtain (cfg : ProxyConfig) (clientIdUrl : Str) : Run CimdDocument := do
  let (_, cached) ← ask (.cacheGet clientIdUrl)
  match cached with
  | some doc => return doc
  | none => do
      let result ← fetch cfg.cimdMaxBytes clientIdUrl
      let ttl := chooseTtl result.document.cacheControl cfg.cimdCacheTtlMin cfg.cimdCacheTtlMax none
      let _ ← ask (.cachePut clientIdUrl result.document ttl)
      return result.document

/-! ### What a fetched document is -/

/-- The document was listed and passed the rules for this URL. -/
structure Vetted (url : Str) (doc : CimdDocument) : Prop where
  clientId : Dict.get? doc.raw "client_id" = some (.str url)
  listed : ∃ xs uris, Dict.get? doc.raw "redirect_uris" = some (.arr xs) ∧
    Json.nonEmptyStrs xs = some uris ∧ ∀ u ∈ doc.redirectUris, u ∈ uris
  accepted : ∀ u ∈ doc.redirectUris, acceptRegistered u = .ok ()

theorem sortUris_kept : ∀ {uris kept dropped : List Str}, sortUris uris = .ok (kept, dropped) →
    ∀ u ∈ kept, u ∈ uris ∧ acceptRegistered u = .ok ()
  | [], kept, dropped, h => by
      obtain ⟨rfl, -⟩ := Prod.mk.inj (Except.ok.inj h)
      exact fun u hu => nomatch hu
  | uri :: uris, kept, dropped, h => by
      have more : ∀ {k d}, sortUris uris = .ok (k, d) → ∀ u ∈ k, u ∈ uri :: uris ∧
          acceptRegistered u = .ok () := fun hs u hu =>
        ⟨List.mem_cons_of_mem _ (sortUris_kept hs u hu).1, (sortUris_kept hs u hu).2⟩
      rw [sortUris] at h
      split at h
      · next ha =>
          cases hs : sortUris uris with
          | error e => rw [hs] at h; cases h
          | ok p =>
              rw [hs] at h
              obtain ⟨rfl, -⟩ := Prod.mk.inj (Except.ok.inj h)
              intro u hu
              rcases List.mem_cons.mp hu with rfl | hu
              · exact ⟨List.mem_cons_self, ha⟩
              · exact more hs u hu
      · cases hs : sortUris uris with
        | error e => rw [hs] at h; cases h
        | ok p =>
            rw [hs] at h
            obtain ⟨rfl, -⟩ := Prod.mk.inj (Except.ok.inj h)
            exact more hs
      · cases h

theorem usableRedirectUris_eq_ok {uris kept : List Str} (h : usableRedirectUris uris = .ok kept) :
    ∀ u ∈ kept, u ∈ uris ∧ acceptRegistered u = .ok () := by
  unfold usableRedirectUris at h
  obtain ⟨⟨k, d⟩, hs, h⟩ := bind_eq_ok.mp h
  dsimp only at h
  split_ifs at h
  rw [← Except.ok.inj h]
  exact sortUris_kept hs

theorem vetted_of_validateDocument {url : Str} {payload : Json} {doc : CimdDocument}
    (h : validateDocument url payload = .ok doc) : payload = .obj doc.raw ∧ Vetted url doc := by
  unfold validateDocument at h
  split at h
  · next d =>
      split at h
      · next clientId hid =>
          split_ifs at h with h1 h2 h3
          split at h
          · cases h
          · split at h
            · next x xs hxs =>
                split at h
                · next uris huris =>
                    obtain ⟨kept, hk, h⟩ := bind_eq_ok.mp h
                    rw [← Except.ok.inj h]
                    have hu := usableRedirectUris_eq_ok hk
                    refine ⟨rfl, ⟨?_, ⟨_, uris, hxs, huris, fun u m => (hu u m).1⟩,
                      fun u m => (hu u m).2⟩⟩
                    rw [← not_ne_iff.mp h1]
                    exact hid
                · cases h
            · cases h
      · cases h
  · cases h

/-- A body that became a document is JSON, and the document is vetted. -/
theorem vetted_of_readDocument {url : Str} {body : Bytes} {cacheControl : Option Str}
    {doc : CimdDocument} (h : readDocument url body cacheControl = .ok doc) :
    ∃ text, utf8Decode body = some text ∧ Json.loads text = .ok (.obj doc.raw) ∧ Vetted url doc := by
  unfold readDocument at h
  split at h
  · cases h
  · next text ht =>
      split at h
      · cases h
      · cases h
      · next payload hp =>
          obtain ⟨d, hd, hdoc⟩ := bind_eq_ok.mp h
          obtain ⟨hraw, hv⟩ := vetted_of_validateDocument hd
          rw [← Except.ok.inj hdoc]
          exact ⟨text, ht, hraw ▸ hp, ⟨hv.clientId, hv.listed, hv.accepted⟩⟩

/-- A program with the trace `t` fetched this document from its URL. -/
def FetchedIn (t : Trace proxyOps) (url : Str) (doc : CimdDocument) : Prop :=
  ∃ parsed ip body cacheControl, parseClientIdUrl url = .ok parsed ∧
    did (.pinnedGet (pinnedUrl parsed ip) parsed.authority parsed.hostname)
      (GetOutcome.response 200 body cacheControl) ∈ t ∧
    readDocument url body cacheControl = .ok doc

theorem FetchedIn.mono {t t' : Trace proxyOps} {url : Str} {doc : CimdDocument}
    (h : FetchedIn t url doc) (ht : t <:+ t') : FetchedIn t' url doc := by
  obtain ⟨parsed, ip, body, cc, hp, hm, hr⟩ := h
  exact ⟨parsed, ip, body, cc, hp, ht.subset hm, hr⟩

/-- What the validation of a request may do: read, and remember what it fetched. -/
def Reads (t : Trace proxyOps) : Op → Prop
  | .cachePut key value _ => FetchedIn t key value
  | .time => True
  | .tokenBytes _ => True
  | .fernetDecrypt _ _ => True
  | .cacheGet _ => True
  | .getaddrinfo _ => True
  | .pinnedGet _ _ _ => True
  | _ => False

theorem Reads.not_seal {t : Trace proxyOps} {o : Op} (h : Reads t o) : o.isSeal = false := by
  cases o with
  | fernetEncrypt blob => exact absurd h id
  | _ => rfl

/-- What a fetch asks for. -/
def Fetching : Op → Prop
  | .getaddrinfo _ => True
  | .pinnedGet _ _ _ => True
  | _ => False

theorem Fetching.reads {t : Trace proxyOps} {o : Op} (h : Fetching o) : Reads t o := by
  cases o with
  | getaddrinfo host => trivial
  | pinnedGet url authority host => trivial
  | _ => exact absurd h id

theorem sat_fetch (maxBytes : ℤ) (url : Str) (t : Trace proxyOps) :
    (fetch maxBytes url).Sat (fun _ o => Fetching o)
      (fun t' x => ∀ res, x = .ok res → FetchedIn t' url res.document) t := by
  refine Prog.Sat.lift_bind (fun parsed hp => ?_) (fun e _ r h => nomatch h)
  refine Prog.Sat.bind (P := fun _ _ => True) ?_ ?_ (fun t' e _ _ r h => nomatch h)
  · refine sat_ask_bind trivial (fun r => ?_)
    rcases r with (_ | ⟨a, as⟩) | _ | msg
    · trivial
    · exact (Prog.sat_lift _ _).mpr trivial
    · trivial
    · trivial
  · intro t' ips _ _
    cases ips with
    | nil => exact fun r h => nomatch h
    | cons ip rest =>
        refine sat_ask_bind trivial (fun r => ?_)
        rcases r with ⟨status, body, cc⟩ | text | msg
        · dsimp only
          split_ifs with h1 h2
          · exact fun r h => nomatch h
          · exact fun r h => nomatch h
          · refine Prog.Sat.lift_bind (fun doc hd => ?_) (fun e _ r h => nomatch h)
            intro res hres
            rw [← Except.ok.inj hres]
            refine ⟨parsed, ip, body, cc, hp, ?_, hd⟩
            rw [← not_ne_iff.mp h1]
            exact List.mem_cons_self
        · exact fun r h => nomatch h
        · exact fun r h => nomatch h

/-- The document was fetched just now, or it was in the cache. -/
def ObtainedIn (t : Trace proxyOps) (url : Str) (doc : CimdDocument) : Prop :=
  FetchedIn t url doc ∨ ∃ now : ℚ, did (.cacheGet url) (now, some doc) ∈ t

theorem ObtainedIn.mono {t t' : Trace proxyOps} {url : Str} {doc : CimdDocument}
    (h : ObtainedIn t url doc) (ht : t <:+ t') : ObtainedIn t' url doc := by
  rcases h with h | ⟨now, h⟩
  · exact .inl (h.mono ht)
  · exact .inr ⟨now, ht.subset h⟩

/-- **The service returns only what it fetched or had remembered.** -/
theorem sat_obtain (cfg : ProxyConfig) (url : Str) (t : Trace proxyOps) :
    (obtain cfg url).Sat Reads (fun t' x => ∀ doc, x = .ok doc → ObtainedIn t' url doc) t := by
  refine sat_ask_bind trivial (fun r => ?_)
  obtain ⟨now, cached⟩ := r
  cases cached with
  | some doc =>
      intro d hd
      rw [← Except.ok.inj hd]
      exact .inr ⟨now, List.mem_cons_self⟩
  | none =>
      refine Prog.Sat.bind (P := fun t' x => ∀ res, x = .ok res → FetchedIn t' url res.document)
        ((sat_fetch _ _ _).mono (fun _ _ h => h.reads) (fun _ _ h => h)) ?_ (fun t' e _ _ d h => nomatch h)
      intro t' res _ hres
      have hf := hres res rfl
      refine sat_ask_bind hf (fun r d hd => ?_)
      rw [← Except.ok.inj hd]
      exact .inl (hf.mono (List.suffix_cons _ _))

end CimdProxy
