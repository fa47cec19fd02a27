import CimdProxy.Conduct
import CimdProxy.Pkce
import CimdProxy.ResourceLookup

/-! # `GET /authorize`

`authorize.py`: the request is validated in the order of the source, sealed into an
`AuthorizeEnvelope`, and forwarded to the authorization endpoint of the chosen resource.
`sat_authorize` is its specification: it seals only validated requests, and a request it sealed for
ends in the redirect. -/

namespace CimdProxy.Authorize

open Py Effects

variable [Platform]

def envelopeTtlSeconds : ℤ := 600

structure AuthorizeParams where
  responseType : Option Str
  clientId : Option Str
  redirectUri : Option Str
  codeChallenge : Option Str
  codeChallengeMethod : Option Str
  state : Option Str
  resource : Option Str
  scope : Option Str

inductive Via where
  | cimd
  | dcr
deriving DecidableEq

structure Validated where
  clientId : Str
  redirectUri : Str
  codeChallenge : Str
  state : Str
  scope : Str
  resourceEntry : ResourceEntry
  document : Option CimdDocument
  via : Via

/-- `_require_present`, with the three parameters it guarantees. -/
def requirePresent (params : AuthorizeParams) : Except Exc (Str × Str × Str) :=
  match params.responseType with
  | none => .error (invalidRequest "missing response_type")
  | some responseType =>
      if responseType ≠ "code" then
        .error (invalidRequest ("unsupported response_type: " ++ pyRepr responseType))
      else
        match params.clientId, params.redirectUri, params.codeChallenge with
        | none, _, _ => .error (invalidRequest "missing client_id")
        | some _, none, _ => .error (invalidRequest "missing redirect_uri")
        | some _, some _, none => .error (invalidRequest "missing code_challenge")
        | some clientId, some redirectUri, some codeChallenge =>
            .ok (clientId, redirectUri, codeChallenge)

/-- `_load_document`. -/
def loadDocument (cfg : ProxyConfig) (clientId : Str) : Run CimdDocument := do
  match ← (obtain cfg clientId).attempt with
  | .ok document => return document
  | .error (.fetch _ msg) => .raise (invalidClient msg)
  | .error e => .raise e

/-- `_validate_cimd`. -/
def validateCimd (cfg : ProxyConfig) (clientId : Str) :
    Run (List Str × Option CimdDocument × Via) := do
  let document ← loadDocument cfg clientId
  return (document.redirectUris, some document, .cimd)

/-- `_validate_dcr`. -/
def validateDcr (clientId : Str) : Run (List Str × Option CimdDocument × Via) := do
  match ← (openRegistration clientId).attempt with
  | .ok envelope => return (envelope.redirectUris, none, .dcr)
  | .error (.envelope _) =>
      .raise (invalidClient "client_id is neither a https URL nor a valid registration envelope")
  | .error e => .raise e

/-- Whether a client id is a URL. -/
def isCimd (clientId : Str) : Bool := ("https://" : Str).isPrefixOf clientId

/-- `any(uri_matches_registration(redirect_uri, r) for r in redirect_uris)`. -/
def matchesAny (redirectUri : Str) : List Str → Except Exc Bool
  | [] => .ok false
  | registered :: rest => do
      if ← uriMatchesRegistration redirectUri registered then return true
      else matchesAny redirectUri rest

def notRegistered : Via → Exc
  | .cimd => invalidRequest "redirect_uri is not registered in the CIMD document"
  | .dcr => invalidRequest "redirect_uri is not registered on the DCR registration"

/-- `s or default`. -/
def orDefault (s : Option Str) (default : Str) : Str :=
  match s with
  | some (c :: rest) => c :: rest
  | _ => default

/-- `_validate`. -/
def validate (cfg : ProxyConfig) (params : AuthorizeParams) : Run Validated := do
  let (clientId, redirectUri, codeChallenge) ← .lift (requirePresent params)
  let entry ← .lift (pickResource cfg params.resource)
  if params.codeChallengeMethod ≠ some "S256".toList then
    .raise (invalidRequest ("code_challenge_method must be 'S256', got " ++
      reprOpt params.codeChallengeMethod))
  else do
    let (redirectUris, document, via) ←
      if isCimd clientId then validateCimd cfg clientId else validateDcr clientId
    let registered ← .lift (matchesAny redirectUri redirectUris)
    if !registered then .raise (notRegistered via)
    else return { clientId, redirectUri, codeChallenge
                  state := params.state.getD []
                  scope := orDefault params.scope cfg.defaultScope
                  resourceEntry := entry, document, via }

/-- The envelope sealed for a validated request. -/
def Validated.envelope (v : Validated) (cid upstreamVerifier : Str) (now : ℤ) : AuthorizeEnvelope where
  correlationId := cid
  clientId := v.clientId
  redirectUri := v.redirectUri
  state := v.state
  resource := v.resourceEntry.url
  clientCodeChallenge := v.codeChallenge
  upstreamVerifier := upstreamVerifier
  scope := v.scope
  exp := now + envelopeTtlSeconds

def callbackUrl (cfg : ProxyConfig) : Str := cfg.publicUrl ++ "/callback"

/-- The upstream URL of a validated request. -/
def Validated.target (v : Validated) (cfg : ProxyConfig) (upstreamChallenge envelopeStr : Str) : Str :=
  authorizeUrl v.resourceEntry.issuer ++ '?' :: urlencode
    [("response_type", "code"), ("client_id", v.resourceEntry.clientId),
      ("redirect_uri", callbackUrl cfg), ("code_challenge", upstreamChallenge),
      ("code_challenge_method", "S256"), ("state", envelopeStr), ("scope", v.scope)]

/-- `_build_upstream_url`. -/
def buildUpstreamUrl (cfg : ProxyConfig) (v : Validated) (cid : Str) : Run (Str × Str) := do
  let upstreamVerifier ← makeVerifier
  let upstreamChallenge ← .lift (deriveChallenge upstreamVerifier)
  let now ← wholeTime
  let envelopeStr ← pack (.authorize (v.envelope cid upstreamVerifier now))
  return (v.target cfg upstreamChallenge envelopeStr, envelopeStr)

/-- `_render_authorize_error`. -/
def renderAuthorizeError (error description : Str) (status : ℕ) : Response :=
  .text status ("error=" ++ error ++ "\nerror_description=" ++ description ++ "\n")

/-- `authorize`. -/
def authorize (cfg : ProxyConfig) (params : AuthorizeParams) : Run Response := do
  let cid ← newCorrelationId
  match ← (validate cfg params).attempt with
  | .error (.oauth error description status) =>
      return renderAuthorizeError error description status
  | .error e => .raise e
  | .ok validated => do
      let (target, _) ← buildUpstreamUrl cfg validated cid
      return .redirect 302 target

/-! ### What the endpoint does -/

/-- Where the registered URIs of a client come from. -/
def RegisteredIn (t : Trace proxyOps) (clientId : Str) (uris : List Str) : Prop :=
  (isCimd clientId = true ∧ ∃ doc, ObtainedIn t clientId doc ∧ uris = doc.redirectUris) ∨
  (isCimd clientId = false ∧ ∃ e, Opened t clientId (.registration e) ∧ uris = e.redirectUris)

/-- What `validate` has checked. -/
structure Validates (cfg : ProxyConfig) (params : AuthorizeParams) (t : Trace proxyOps)
    (v : Validated) : Prop where
  present : requirePresent params = .ok (v.clientId, v.redirectUri, v.codeChallenge)
  entry : pickResource cfg params.resource = .ok v.resourceEntry
  registered : ∃ uris, RegisteredIn t v.clientId uris ∧ matchesAny v.redirectUri uris = .ok true

theorem Validates.mono {cfg : ProxyConfig} {params : AuthorizeParams} {t t' : Trace proxyOps}
    {v : Validated} (h : Validates cfg params t v) (ht : t <:+ t') : Validates cfg params t' v := by
  obtain ⟨hp, he, uris, hr, hm⟩ := h
  refine ⟨hp, he, uris, ?_, hm⟩
  rcases hr with ⟨hc, doc, hd, hu⟩ | ⟨hc, e, ho, hu⟩
  · exact .inl ⟨hc, doc, hd.mono ht, hu⟩
  · exact .inr ⟨hc, e, ho.mono ht, hu⟩

theorem sat_validateCimd (cfg : ProxyConfig) (clientId : Str) (t : Trace proxyOps) :
    (validateCimd cfg clientId).Sat Reads
      (fun t' x => ∀ r, x = .ok r → ∃ doc, ObtainedIn t' clientId doc ∧ r.1 = doc.redirectUris) t := by
  refine Prog.Sat.bind (P := fun t' x => ∀ doc, x = .ok doc → ObtainedIn t' clientId doc) ?_ ?_
    (fun t' e _ _ r h => nomatch h)
  · refine Prog.Sat.attempt_bind (sat_obtain cfg clientId t) (fun t' x _ h => ?_)
    split
    · next doc =>
        intro d hd
        rw [← Except.ok.inj hd]
        exact h doc rfl
    · exact fun d hd => nomatch hd
    · exact fun d hd => nomatch hd
  · intro t' doc _ h r hr
    rw [← Except.ok.inj hr]
    exact ⟨doc, h doc rfl, rfl⟩

theorem sat_validateDcr (clientId : Str) (t : Trace proxyOps) :
    (validateDcr clientId).Sat Reads
      (fun t' x => ∀ r, x = .ok r →
        ∃ e, Opened t' clientId (.registration e) ∧ r.1 = e.redirectUris) t := by
  refine Prog.Sat.attempt_bind (sat_openRegistration trivial) (fun t' x _ h => ?_)
  split
  · next e =>
      intro r hr
      rw [← Except.ok.inj hr]
      exact ⟨e, h.2 e rfl, rfl⟩
  · exact fun r hr => nomatch hr
  · exact fun r hr => nomatch hr

theorem sat_validate (cfg : ProxyConfig) (params : AuthorizeParams) (t : Trace proxyOps) :
    (validate cfg params).Sat Reads (fun t' x => ∀ v, x = .ok v → Validates cfg params t' v) t := by
  refine Prog.Sat.lift_bind (fun p hp => ?_) (fun e _ v h => nomatch h)
  obtain ⟨clientId, redirectUri, codeChallenge⟩ := p
  refine Prog.Sat.lift_bind (fun entry he => ?_) (fun e _ v h => nomatch h)
  dsimp only
  split_ifs with hmethod hcimd
  · exact fun v h => nomatch h
  all_goals
    refine Prog.Sat.bind (P := fun t' x => ∀ r, x = .ok r → RegisteredIn t' clientId r.1) ?_ ?_
      (fun t' e _ _ v h => nomatch h)
  · refine (sat_validateCimd cfg clientId t).mono (fun _ _ h => h) (fun t' x h r hr => ?_)
    obtain ⟨doc, hd, hu⟩ := h r hr
    exact .inl ⟨hcimd, doc, hd, hu⟩
  rotate_left
  · refine (sat_validateDcr clientId t).mono (fun _ _ h => h) (fun t' x h r hr => ?_)
    obtain ⟨e, ho, hu⟩ := h r hr
    exact .inr ⟨by simpa using hcimd, e, ho, hu⟩
  all_goals
    rintro t' ⟨uris, document, via⟩ _ hr
    refine Prog.Sat.lift_bind (fun registered hm => ?_) (fun e _ v h => nomatch h)
    cases registered with
    | false => exact fun v h => nomatch h
    | true =>
        intro v hv
        rw [← Except.ok.inj hv]
        exact ⟨hp, he, uris, hr _ rfl, hm⟩

/-- What a request seals. -/
def Mints (cfg : ProxyConfig) (params : AuthorizeParams) (t : Trace proxyOps) (e : Envelope) : Prop :=
  ∃ (v : Validated) (cid verifier : Str) (now : Seconds),
    e = .authorize (v.envelope cid verifier now.whole) ∧ Validates cfg params t v

/-- A request that sealed its envelope ends in the redirect that carries it. -/
def Concludes (cfg : ProxyConfig) (params : AuthorizeParams) (t : Trace proxyOps)
    (x : Except Exc Response) : Prop :=
  ∀ (blob : Bytes) (token : FernetToken), did (.fernetEncrypt blob) token ∈ t →
    ∃ (v : Validated) (cid verifier challenge : Str) (now : Seconds), Validates cfg params t v ∧
      (Envelope.authorize (v.envelope cid verifier now.whole)).blob = some blob ∧
      deriveChallenge verifier = .ok challenge ∧
      x = .ok (.redirect 302 (v.target cfg challenge token.text))

theorem Concludes.of_noSeal {cfg : ProxyConfig} {params : AuthorizeParams} {t : Trace proxyOps}
    (ht : NoSeal t) (x : Except Exc Response) : Concludes cfg params t x :=
  fun _ _ h => absurd h (ht.not_mem _ rfl)

/-- **The specification of `/authorize`.** -/
theorem sat_authorize (cfg : ProxyConfig) (params : AuthorizeParams) :
    (authorize cfg params).Sat (Conduct (Mints cfg params) Reads) (Concludes cfg params) [] := by
  refine Prog.Sat.bind (P := fun t' _ => NoSeal t') ?_ ?_ (fun t' e _ ht => .of_noSeal ht _)
  · refine sat_ask_bind (Conduct.act .nil rfl trivial) (fun r => ?_)
    exact Free.nil.cons rfl _
  intro t cid _ ht
  refine Prog.Sat.attempt_bind (sat_reads (sat_validate cfg params t) ht (fun _ _ h => h)) ?_
  rintro t x _ ⟨ht, hx⟩
  split
  · exact .of_noSeal ht _
  · exact .of_noSeal ht _
  · next v =>
      have hv := hx v rfl
      rw [Prog.bind_eq, Prog.sat_bind]
      -- the verifier, its challenge, the clock, and then the seal
      refine sat_ask_bind (Conduct.act ht rfl trivial) (fun raw => ?_)
      have ht₁ : NoSeal (did (.tokenBytes 96) raw :: t) := ht.cons rfl _
      refine Prog.Sat.lift_bind (fun challenge hch => ?_) (fun e _ => .of_noSeal ht₁ _)
      refine sat_wholeTime_bind (Conduct.act ht₁ rfl trivial) (fun now => ?_)
      have ht₂ : NoSeal (did .time now :: did (.tokenBytes 96) raw :: t) := ht₁.cons rfl _
      have hsuf : t <:+ did .time now :: did (.tokenBytes 96) raw :: t :=
        (List.suffix_cons _ _).trans (List.suffix_cons _ _)
      refine sat_pack_bind ?_ ?_ (fun msg _ => .of_noSeal ht₂ _)
      · exact fun blob hb => Conduct.seal ht₂ (Envelope.wf_authorize _) hb
          ⟨v, _, _, now, rfl, hv.mono hsuf⟩
      · intro blob token hb blob' token' hm
        rcases List.mem_cons.mp hm with he | hm
        · cases he
          exact ⟨v, _, _, challenge, now, hv.mono (hsuf.trans (List.suffix_cons _ _)), hb, hch, rfl⟩
        · exact absurd hm (ht₂.not_mem _ rfl)

end CimdProxy.Authorize
