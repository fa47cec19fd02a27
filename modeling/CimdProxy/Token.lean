import CimdProxy.PatConduct

/-! # `POST /token`

`token.py`: redemption of a code, refresh, and the exchange of a personal access token.  On the first
two the upstream's answer is relayed, with its refresh token sealed into a `RefreshEnvelope`.
`sat_token` is its specification. -/

namespace CimdProxy.Token

open Py Effects

variable [Platform]

structure TokenForm where
  grantType : Option Str
  code : Option Str
  codeVerifier : Option Str
  redirectUri : Option Str
  clientId : Option Str
  refreshToken : Option Str
  scope : Option Str
  subjectToken : Option Str
  subjectTokenType : Option Str
  requestedTokenType : Option Str
  resource : Option Str

/-- The request `_post_form` sends. -/
def formRequest (url : Str) (form : List (Str × Json)) : HttpRequest :=
  ⟨.post, url, form, none, none, none⟩

/-- `_post_form`. -/
def postForm (url : Str) (form : List (Str × Json)) : Run (ℕ × BodyJson) := do
  match ← ask (.http (formRequest url form)) with
  | .response status body => return (status, body)
  | .httpError _ text => .raise (serverError ("upstream unreachable: " ++ text))
  | .raised msg => .raise (.library msg)

/-- What `"refresh_token" in payload` and the uses after it raise for a payload that is no object. -/
def nonObjectError : Json → Exc
  | .str s =>
      if contains "refresh_token" s then
        .typeError "string indices must be integers, not 'str'"
      else .attributeError "'str' object has no attribute 'get'"
  | .arr xs =>
      if xs.any (fun x => isStr (some x) "refresh_token") then
        .typeError "list indices must be integers or slices, not str"
      else .attributeError "'list' object has no attribute 'get'"
  | _ => .typeError "argument is not iterable"

/-- `_finalise_upstream_response`. -/
def finaliseUpstreamResponse (resource : Str) (reply : ℕ × BodyJson) : Run Response :=
  match reply.2 with
  | .invalid _ => .raise (serverError "upstream token response is not valid JSON")
  | .value payload =>
      if 400 ≤ reply.1 then
        match payload.val with
        | .obj d => .ret (.json reply.1 (.obj d) [])
        | _ => .raise (.attributeError "object has no attribute 'get'")
      else
        match payload.val with
        | .obj d =>
            match Dict.get? d "refresh_token" with
            | some upstream => do
                let envelope ← pack (.refresh ⟨resource, upstream⟩)
                return .json 200 (.obj (Dict.set d "refresh_token" (.str envelope))) []
            | none => .ret (.json 200 (.obj d) [])
        | v => .raise (nonObjectError v)

/-- `form["client_secret"] = …` for a confidential client. -/
def secretField (entry : ResourceEntry) : List (Str × Json) :=
  if entry.clientSecret.isEmpty then [] else [("client_secret".toList, .str entry.clientSecret)]

/-- The form that redeems a code. -/
def authCodeForm (cfg : ProxyConfig) (env : CodeEnvelope) (entry : ResourceEntry) : List (Str × Json) :=
  [("grant_type".toList, .str "authorization_code"), ("code".toList, .str env.upstreamCode),
    ("redirect_uri".toList, .str (cfg.publicUrl ++ "/callback")),
    ("code_verifier".toList, .str env.upstreamVerifier),
    ("client_id".toList, .str entry.clientId)] ++ secretField entry

/-- The checks on an opened code at the second `now`. -/
def checkCode (form : TokenForm) (codeVerifier : Str) (env : CodeEnvelope) (now : ℤ) :
    Except Exc Unit :=
  if env.exp ≤ now then .error (invalidGrant "code envelope expired")
  else if form.redirectUri.isSome ∧ form.redirectUri ≠ some env.redirectUri then
    .error (invalidGrant "redirect_uri does not match the redirect_uri from /authorize")
  else if form.clientId.isSome ∧ form.clientId ≠ some env.clientId then
    .error (invalidGrant "client_id does not match the client_id from /authorize")
  else do
    if ← verifyChallenge codeVerifier env.clientCodeChallenge then return ()
    else .error (invalidGrant "PKCE code_verifier does not match code_challenge")

/-- The entry a sealed resource routes to. -/
def sealedEntry (cfg : ProxyConfig) (resource refusing : Str) : Except Exc ResourceEntry := do
  match ← cfg.resourceByUrl resource with
  | some entry => return entry
  | none => .error (serverError ("resource " ++ pyRepr resource ++ " is no longer configured; " ++
      refusing))

/-- `_handle_auth_code`. -/
def handleAuthCode (cfg : ProxyConfig) (form : TokenForm) : Run Response :=
  match form.code, form.codeVerifier with
  | none, _ => .raise (invalidRequest "missing code")
  | some _, none => .raise (invalidRequest "missing code_verifier")
  | some code, some codeVerifier => do
      match ← (openCode code).attempt with
      | .error (.envelope msg) =>
          .raise (invalidGrant ("code envelope invalid or expired: " ++ msg))
      | .error e => .raise e
      | .ok env => do
          let now ← wholeTime
          .lift (checkCode form codeVerifier env now)
          let entry ← .lift (sealedEntry cfg env.resource "refusing token exchange")
          let reply ← postForm (tokenUrl entry.issuer) (authCodeForm cfg env entry)
          finaliseUpstreamResponse entry.url reply

/-- The form that refreshes. -/
def refreshForm (form : TokenForm) (env : RefreshEnvelope) (entry : ResourceEntry) :
    List (Str × Json) :=
  [("grant_type".toList, .str "refresh_token"), ("refresh_token".toList, env.upstreamRefreshToken),
    ("client_id".toList, .str entry.clientId)] ++ secretField entry ++
  match form.scope with
  | some (c :: s) => [("scope".toList, .str (c :: s))]
  | _ => []

/-- `_handle_refresh`. -/
def handleRefresh (cfg : ProxyConfig) (form : TokenForm) : Run Response :=
  match form.refreshToken with
  | none => .raise (invalidRequest "missing refresh_token")
  | some refreshToken => do
      match ← (openRefresh refreshToken).attempt with
      | .error (.envelope msg) => .raise (invalidGrant ("refresh_token envelope invalid: " ++ msg))
      | .error e => .raise e
      | .ok env => do
          let entry ← .lift (sealedEntry cfg env.resource "refusing refresh")
          let reply ← postForm (tokenUrl entry.issuer) (refreshForm form env entry)
          finaliseUpstreamResponse entry.url reply

/-- The grants named in an error. -/
def allowedGrants (svc : Option PatService) : Str :=
  if svc.isSome then "'authorization_code', 'refresh_token' or '" ++ tokenExchange ++ "'"
  else "'authorization_code' or 'refresh_token'"

def TokenForm.exchangeParams (form : TokenForm) : PatService.ExchangeParams :=
  ⟨form.subjectToken, form.subjectTokenType, form.requestedTokenType, form.resource⟩

/-- The answer to an exchange. -/
def exchangeAnswer (payload : Dict) : Response :=
  .json 200 (.obj payload) [("Cache-Control".toList, "no-store".toList)]

/-- The exchange as `/token` answers it. -/
def handleExchange (svc : PatService) (form : TokenForm) : Run Response := do
  let payload ← svc.exchange form.exchangeParams
  return exchangeAnswer payload

def refuseGrant (svc : Option PatService) (form : TokenForm) : Exc :=
  match form.grantType with
  | some (c :: s) => unsupportedGrantType ("grant_type must be " ++ allowedGrants svc ++ ", got " ++
      pyRepr (c :: s))
  | _ => invalidRequest ("missing grant_type; supported: " ++ allowedGrants svc)

/-- The part of `token` inside its `try`. -/
def dispatch (cfg : ProxyConfig) (svc : Option PatService) (form : TokenForm) : Run Response :=
  if form.grantType = some "authorization_code".toList then handleAuthCode cfg form
  else if form.grantType = some "refresh_token".toList then handleRefresh cfg form
  else
    match svc with
    | some svc =>
        if form.grantType = some tokenExchange then handleExchange svc form
        else .raise (refuseGrant (some svc) form)
    | none => .raise (refuseGrant none form)

theorem dispatch_exchange (cfg : ProxyConfig) (svc : PatService) {form : TokenForm}
    (h : form.grantType = some tokenExchange) :
    dispatch cfg (some svc) form = handleExchange svc form := by
  unfold dispatch
  rw [h, if_neg (by decide), if_neg (by decide)]
  exact if_pos rfl

/-- `token`. -/
def token (cfg : ProxyConfig) (svc : Option PatService) (form : TokenForm) : Run Response := do
  match ← (dispatch cfg svc form).attempt with
  | .ok r => return r
  | .error (.oauth error description status) => return .json status (errorBody error description) []
  | .error e => .raise e

/-- The `except OAuthError` clause of `token`. -/
def caught : Except Exc Response → Except Exc Response
  | .error (.oauth error description status) => .ok (.json status (errorBody error description) [])
  | x => x

omit [Platform] in
theorem caught_error {e : Exc}
    (he : ∀ error description status, e ≠ .oauth error description status) :
    caught (.error e) = .error e := by
  cases e with
  | oauth error description status => exact absurd rfl (he error description status)
  | _ => rfl

theorem token_eq (cfg : ProxyConfig) (svc : Option PatService) (form : TokenForm) :
    token cfg svc form = (dispatch cfg svc form).attempt.bind (fun x => .lift (caught x)) := by
  unfold token
  simp only [Prog.bind_eq]
  congr 1
  funext x
  rcases x with e | r
  · cases e <;> rfl
  · rfl

/-! ### What the endpoint does -/

/-- What the redemption of a code has checked. -/
structure Redeems (cfg : ProxyConfig) (form : TokenForm) (t : Trace proxyOps) (env : CodeEnvelope)
    (entry : ResourceEntry) : Prop where
  code : ∃ code, form.code = some code ∧ Opened t code (.code env)
  checked : ∃ (verifier : Str) (now : Seconds), form.codeVerifier = some verifier ∧
    did .time now ∈ t ∧ checkCode form verifier env now.whole = .ok ()
  entry : cfg.resourceByUrl env.resource = .ok (some entry)

/-- What a refresh has checked. -/
structure Refreshes (cfg : ProxyConfig) (form : TokenForm) (t : Trace proxyOps)
    (env : RefreshEnvelope) (entry : ResourceEntry) : Prop where
  token : ∃ token, form.refreshToken = some token ∧ Opened t token (.refresh env)
  entry : cfg.resourceByUrl env.resource = .ok (some entry)

/-- The request that redeems a code at an entry. -/
def redeemRequest (cfg : ProxyConfig) (env : CodeEnvelope) (entry : ResourceEntry) : HttpRequest :=
  formRequest (tokenUrl entry.issuer) (authCodeForm cfg env entry)

/-- The request that refreshes at an entry. -/
def refreshRequest (form : TokenForm) (env : RefreshEnvelope) (entry : ResourceEntry) : HttpRequest :=
  formRequest (tokenUrl entry.issuer) (refreshForm form env entry)

/-- A program with the trace `t` has good reason to send `r` to the token endpoint of `entry`. -/
def Asks (cfg : ProxyConfig) (form : TokenForm) (t : Trace proxyOps) (entry : ResourceEntry)
    (r : HttpRequest) : Prop :=
  (∃ env, Redeems cfg form t env entry ∧ r = redeemRequest cfg env entry) ∨
  (∃ env, Refreshes cfg form t env entry ∧ r = refreshRequest form env entry)

theorem Asks.mono {cfg : ProxyConfig} {form : TokenForm} {t t' : Trace proxyOps}
    {entry : ResourceEntry} {r : HttpRequest} (h : Asks cfg form t entry r) (ht : t <:+ t') :
    Asks cfg form t' entry r := by
  rcases h with ⟨env, ⟨⟨code, hc, ho⟩, ⟨verifier, now, hv, hm, hcheck⟩, he⟩, hr⟩ |
    ⟨env, ⟨⟨token, hc, ho⟩, he⟩, hr⟩
  · exact .inl ⟨env, ⟨⟨code, hc, ho.mono ht⟩, ⟨verifier, now, hv, ht.subset hm, hcheck⟩, he⟩, hr⟩
  · exact .inr ⟨env, ⟨⟨token, hc, ho.mono ht⟩, he⟩, hr⟩

/-- A successful answer: a JSON object with a status below 400. -/
def Answers (r : HttpRequest) (d : Dict) (c : Call proxyOps) : Prop :=
  ∃ (status : ℕ) (payload : JsonValue),
    c = did (.http r) (HttpOutcome.response status (.value payload)) ∧ status < 400 ∧
    payload.val = .obj d

/-- What a request seals: the refresh token of a successful answer. -/
def Mints (cfg : ProxyConfig) (form : TokenForm) (t : Trace proxyOps) (e : Envelope) : Prop :=
  ∃ entry r d v c, e = .refresh ⟨entry.url, v⟩ ∧ Asks cfg form t entry r ∧ c ∈ t ∧
    Answers r d c ∧ Dict.get? d "refresh_token" = some v

/-- The clock was read at most once. -/
def OneReading (t : Trace proxyOps) : Prop :=
  ∀ now now' : Seconds, did .time now ∈ t → did .time now' ∈ t → now' = now

def Acts (cfg : ProxyConfig) (svc : Option PatService) (form : TokenForm) (t : Trace proxyOps)
    (o : Op) : Prop :=
  Reads t o ∨
  (form.grantType ≠ some tokenExchange ∧
    ∃ r entry, o = .http r ∧ Asks cfg form t entry r ∧ OneReading t) ∨
  (∃ s, svc = some s ∧ form.grantType = some tokenExchange ∧
    s.ExchangeActs form.exchangeParams t o)

/-- The answer `d` is handed on, its refresh token sealed for `entry`. -/
def Relays (t : Trace proxyOps) (entry : ResourceEntry) (d : Dict) (x : Except Exc Response) : Prop :=
  (Dict.get? d "refresh_token" = none ∧ x = .ok (.json 200 (.obj d) [])) ∨
  ∃ (v : Json) (blob : Bytes) (token : FernetToken), Dict.get? d "refresh_token" = some v ∧
    (Envelope.refresh ⟨entry.url, v⟩).WF ∧ (Envelope.refresh ⟨entry.url, v⟩).blob = some blob ∧
    did (.fernetEncrypt blob) token ∈ t ∧
    x = .ok (.json 200 (.obj (Dict.set d "refresh_token" (.str token.text))) [])

/-- What the interactive grants conclude. -/
def Relayed (cfg : ProxyConfig) (form : TokenForm) (t : Trace proxyOps) (x : Except Exc Response) :
    Prop :=
  ∀ r d c, c ∈ t → Answers r d c → ∃ entry, Asks cfg form t entry r ∧ Relays t entry d x

theorem Relayed.of_free {cfg : ProxyConfig} {form : TokenForm} {t : Trace proxyOps}
    (h : Free Op.isHttp t) (x : Except Exc Response) : Relayed cfg form t x := by
  rintro r d c hc ⟨s, payload, rfl, -, -⟩
  exact absurd hc (h.not_mem _ rfl)

/-- How a request ends: successful answers are relayed, a revoked token is refused, and an exchange
succeeds only when it was granted and recorded. -/
structure Concludes (cfg : ProxyConfig) (form : TokenForm) (t : Trace proxyOps)
    (x : Except Exc Response) : Prop where
  relays : form.grantType ≠ some tokenExchange → Relayed cfg form t x
  refuses : form.grantType = some tokenExchange →
    ∀ hash record, did (.findByHash hash) (.ok (some record)) ∈ t → record.revokedAt.isSome = true →
      x = .ok (.json 400 (errorBody "invalid_grant" "the personal access token is revoked") [])
  succeeds : form.grantType = some tokenExchange → ∀ d, x = .ok (exchangeAnswer d) →
    PatService.ExchangeConcludes t (.ok d)

omit [Platform] in
theorem sat_postForm {Q : Trace proxyOps → Op → Prop} {t : Trace proxyOps} {url : Str}
    {form : List (Str × Json)} (hq : Q t (.http (formRequest url form))) :
    (postForm url form).Sat Q (fun t' x => ∃ r : HttpOutcome,
      t' = did (.http (formRequest url form)) r :: t ∧
        (∀ s b, r = .response s b → x = .ok (s, b)) ∧ ∀ s b, x = .ok (s, b) → r = .response s b) t := by
  refine sat_ask_bind hq (fun r => ?_)
  rcases r with ⟨status, body⟩ | ⟨name, text⟩ | msg
  · refine ⟨_, rfl, fun s b h => ?_, fun s b h => ?_⟩
    · obtain ⟨rfl, rfl⟩ := HttpOutcome.response.inj h
      rfl
    · obtain ⟨rfl, rfl⟩ := Prod.mk.inj (Except.ok.inj h)
      rfl
  · refine ⟨_, rfl, ?_, ?_⟩ <;> intro s b h <;> cases h
  · refine ⟨_, rfl, ?_, ?_⟩ <;> intro s b h <;> cases h

omit [Platform] in
theorem wf_of_get? {payload : JsonValue} {d : Dict} {k : Str} {v : Json} (hd : payload.val = .obj d)
    (hv : Dict.get? d k = some v) : v.WF := by
  have hwf : Json.WF (.obj d) := hd ▸ payload.wf
  exact (Json.wfMembers_iff d).mp hwf.2 _ (Dict.mem_of_get? hv)

omit [Platform] in
/-- Only a successful answer that carries a refresh token is sealed, and every one is relayed. -/
theorem sat_finalise {Q : Trace proxyOps → Op → Prop} {t : Trace proxyOps} {entry : ResourceEntry}
    {reply : ℕ × BodyJson}
    (hseal : ∀ (payload : JsonValue) (d : Dict) (v : Json) (blob : Bytes),
      reply.2 = .value payload → reply.1 < 400 → payload.val = .obj d →
      Dict.get? d "refresh_token" = some v → (Envelope.refresh ⟨entry.url, v⟩).WF →
      (Envelope.refresh ⟨entry.url, v⟩).blob = some blob → Q t (.fernetEncrypt blob)) :
    (finaliseUpstreamResponse entry.url reply).Sat Q
      (fun t' x => (t' = t ∨ ∃ blob token, t' = did (.fernetEncrypt blob) token :: t) ∧
        ∀ payload d, reply.2 = .value payload → reply.1 < 400 → payload.val = .obj d →
          Relays t' entry d x) t := by
  unfold finaliseUpstreamResponse
  split
  · next h => exact ⟨.inl rfl, fun payload d hp => nomatch h.symm.trans hp⟩
  · next payload h =>
      by_cases hs : 400 ≤ reply.1
      · rw [if_pos hs]
        split
        · exact ⟨.inl rfl, fun _ _ _ hlt => absurd hlt (not_lt.mpr hs)⟩
        · exact ⟨.inl rfl, fun _ _ _ hlt => absurd hlt (not_lt.mpr hs)⟩
      · rw [if_neg hs]
        split
        · next d hd =>
            have same : ∀ (payload' : JsonValue) (d' : Dict), reply.2 = .value payload' →
                payload'.val = .obj d' → d' = d := by
              intro payload' d' hp' hd'
              obtain rfl := BodyJson.value.inj (h.symm.trans hp')
              exact Json.obj.inj (hd'.symm.trans hd)
            cases hv : Dict.get? d "refresh_token" with
            | none =>
                refine ⟨.inl rfl, fun payload' d' hp' _ hd' => ?_⟩
                obtain rfl := same payload' d' hp' hd'
                exact .inl ⟨hv, rfl⟩
            | some v =>
                have hwf : (Envelope.refresh ⟨entry.url, v⟩).WF := wf_of_get? hd hv
                have hblob : ∃ b, (Envelope.refresh ⟨entry.url, v⟩).blob = some b := by
                  apply Envelope.blob_eq_some
                  simp only [Envelope.fields, Json.digitsFitMembers, Json.digitsFit,
                    Json.digitsFit_of_wf (wf_of_get? hd hv), Bool.and_self]
                refine sat_pack_bind ?_ ?_ (fun msg hn => ?_)
                · exact fun blob hb => hseal payload d v blob h (not_le.mp hs) hd hv hwf hb
                · intro blob token hb
                  refine ⟨.inr ⟨blob, token, rfl⟩, fun payload' d' hp' _ hd' => ?_⟩
                  obtain rfl := same payload' d' hp' hd'
                  exact .inr ⟨v, blob, token, hv, hwf, hb, List.mem_cons_self, rfl⟩
                · obtain ⟨b, hb⟩ := hblob
                  rw [hn] at hb
                  cases hb
        · next hno =>
            refine ⟨.inl rfl, fun payload' d' hp' _ hd' => ?_⟩
            obtain rfl := BodyJson.value.inj (h.symm.trans hp')
            exact absurd hd' (hno d')

/-- Sending a request and relaying its answer. -/
theorem sat_relay {cfg : ProxyConfig} {svc : Option PatService} {form : TokenForm}
    {t : Trace proxyOps} {entry : ResourceEntry} {f : List (Str × Json)} (ht : NoSeal t)
    (hh : Free Op.isHttp t) (hone : OneReading t) (hg : form.grantType ≠ some tokenExchange)
    (hask : Asks cfg form t entry (formRequest (tokenUrl entry.issuer) f)) :
    ((postForm (tokenUrl entry.issuer) f).bind (finaliseUpstreamResponse entry.url)).Sat
      (Conduct (Mints cfg form) (Acts cfg svc form))
      (Relayed cfg form) t := by
  refine Prog.Sat.bind (sat_postForm (Conduct.act ht rfl (.inr (.inl ⟨hg, _, entry, rfl, hask, hone⟩)))) ?_ ?_
  · rintro t' ⟨status, body⟩ _ ⟨outcome, rfl, -, hr⟩
    obtain rfl := hr status body rfl
    have hask' := hask.mono (List.suffix_cons (did (.http (formRequest (tokenUrl entry.issuer) f))
      (HttpOutcome.response status body)) t)
    have ht' : NoSeal (did (.http (formRequest (tokenUrl entry.issuer) f))
      (HttpOutcome.response status body) :: t) := ht.cons rfl _
    refine (sat_finalise ?_).mono (fun _ _ h => h) ?_
    · intro payload d v blob hb hlt hd hv hwf hblob
      refine Conduct.seal ht' hwf hblob ⟨entry, _, d, v, _, rfl, hask', List.mem_cons_self, ?_, hv⟩
      exact ⟨status, payload, by rw [← hb], hlt, hd⟩
    · rintro t' x ⟨htr, hrel⟩ r d c hc ⟨s, payload, rfl, hlt, hd⟩
      have hmem : did (.http r) (HttpOutcome.response s (.value payload)) ∈
          did (.http (formRequest (tokenUrl entry.issuer) f)) (HttpOutcome.response status body) :: t := by
        rcases htr with rfl | ⟨blob, token, rfl⟩
        · exact hc
        · rcases List.mem_cons.mp hc with he | hc
          · cases he
          · exact hc
      rcases List.mem_cons.mp hmem with he | hc
      · cases he
        refine ⟨entry, ?_, hrel payload d rfl hlt hd⟩
        rcases htr with rfl | ⟨blob, token, rfl⟩
        · exact hask'
        · exact hask'.mono (List.suffix_cons _ _)
      · exact absurd hc (hh.not_mem _ rfl)
  · rintro t' e _ ⟨outcome, rfl, hr, -⟩ r d c hc ⟨s, payload, rfl, hlt, hd⟩
    rcases List.mem_cons.mp hc with he | hc
    · cases he
      exact nomatch hr s _ rfl
    · exact absurd hc (hh.not_mem _ rfl)

omit [Platform] in
/-- The trace of an open function has no request and no clock reading in it. -/
theorem free_of_opening {token : Str} {t : Trace proxyOps}
    (h : t = [] ∨ ∃ r, t = [did (.fernetDecrypt token none) r]) :
    NoSeal t ∧ Free Op.isHttp t ∧ ∀ now : Seconds, did .time now ∉ t := by
  rcases h with rfl | ⟨r, rfl⟩
  · exact ⟨.nil, .nil, fun _ h => nomatch h⟩
  · refine ⟨Free.nil.cons rfl _, Free.nil.cons rfl _, fun now h => ?_⟩
    cases List.mem_singleton.mp h

theorem sealedEntry_eq_ok {cfg : ProxyConfig} {resource refusing : Str} {entry : ResourceEntry}
    (h : sealedEntry cfg resource refusing = .ok entry) :
    cfg.resourceByUrl resource = .ok (some entry) := by
  obtain ⟨found, hf, h⟩ := bind_eq_ok.mp h
  rw [hf]
  cases found with
  | none => cases h
  | some e => rw [Except.ok.inj h]

/-- What a specification of the interactive grants has to say: about the calls before the upstream is
asked, about an end without asking it, and about asking it and relaying its answer. -/
structure Covers (cfg : ProxyConfig) (form : TokenForm) (Q : Trace proxyOps → Op → Prop)
    (R : Trace proxyOps → Except Exc Response → Prop) : Prop where
  reads : ∀ t o, NoSeal t → Reads t o → Q t o
  free : ∀ t x, Free Op.isHttp t → R t x
  relay : ∀ t entry f, NoSeal t → Free Op.isHttp t → OneReading t →
    Asks cfg form t entry (formRequest (tokenUrl entry.issuer) f) →
    ((postForm (tokenUrl entry.issuer) f).bind (finaliseUpstreamResponse entry.url)).Sat Q R t

section Covers

variable {cfg : ProxyConfig} {form : TokenForm} {Q : Trace proxyOps → Op → Prop}
  {R : Trace proxyOps → Except Exc Response → Prop}

theorem Covers.handleAuthCode (h : Covers cfg form Q R) : (handleAuthCode cfg form).Sat Q R [] := by
  unfold Token.handleAuthCode
  split
  · exact h.free _ _ .nil
  · exact h.free _ _ .nil
  · next code verifier hcode hverifier =>
      refine Prog.Sat.attempt_bind (sat_openCode (h.reads _ _ .nil trivial)) ?_
      rintro t x _ ⟨htr, hx⟩
      obtain ⟨ht, hh, hone⟩ := free_of_opening htr
      split
      · exact h.free _ _ hh
      · exact h.free _ _ hh
      · next env =>
          refine sat_wholeTime_bind (h.reads _ _ ht trivial) (fun now => ?_)
          have ht' : NoSeal (did .time now :: t) := ht.cons rfl _
          have hh' : Free Op.isHttp (did .time now :: t) := hh.cons rfl _
          refine Prog.Sat.lift_bind (fun u hcheck => ?_) (fun _ _ => h.free _ _ hh')
          refine Prog.Sat.lift_bind (fun entry hentry => ?_) (fun _ _ => h.free _ _ hh')
          have hone' : OneReading (did .time now :: t) := by
            intro n n' hn hn'
            rcases List.mem_cons.mp hn with he | he
            · rcases List.mem_cons.mp hn' with he' | he'
              · cases he
                cases he'
                rfl
              · exact absurd he' (hone n')
            · exact absurd he (hone n)
          refine h.relay _ _ _ ht' hh' hone' (.inl ⟨env, ⟨⟨code, hcode, ?_⟩, ?_, ?_⟩, rfl⟩)
          · exact (hx env rfl).mono (List.suffix_cons _ _)
          · exact ⟨verifier, now, hverifier, List.mem_cons_self, hcheck⟩
          · exact sealedEntry_eq_ok hentry

theorem Covers.handleRefresh (h : Covers cfg form Q R) : (handleRefresh cfg form).Sat Q R [] := by
  unfold Token.handleRefresh
  split
  · exact h.free _ _ .nil
  · next token htoken =>
      refine Prog.Sat.attempt_bind (sat_openRefresh (h.reads _ _ .nil trivial)) ?_
      rintro t x _ ⟨htr, hx⟩
      obtain ⟨ht, hh, hone⟩ := free_of_opening htr
      split
      · exact h.free _ _ hh
      · exact h.free _ _ hh
      · next env =>
          refine Prog.Sat.lift_bind (fun entry hentry => ?_) (fun _ _ => h.free _ _ hh)
          refine h.relay _ _ _ ht hh (fun n _ hn => absurd hn (hone n))
            (.inr ⟨env, ⟨⟨token, htoken, hx env rfl⟩, ?_⟩, rfl⟩)
          exact sealedEntry_eq_ok hentry

theorem Covers.dispatch (h : Covers cfg form Q R) (svc : Option PatService)
    (hg : form.grantType = some "authorization_code".toList ∨
      form.grantType = some "refresh_token".toList) : (dispatch cfg svc form).Sat Q R [] := by
  unfold Token.dispatch
  rcases hg with hg | hg
  · rw [if_pos hg]
    exact h.handleAuthCode
  · rw [if_neg (by rw [hg]; decide), if_pos hg]
    exact h.handleRefresh

end Covers

theorem covers_relayed (cfg : ProxyConfig) (svc : Option PatService) (form : TokenForm)
    (hg : form.grantType ≠ some tokenExchange) :
    Covers cfg form (Conduct (Mints cfg form) (Acts cfg svc form)) (Relayed cfg form) where
  reads _ _ ht h := Conduct.act ht h.not_seal (.inl h)
  free _ x hh := .of_free hh x
  relay _ _ _ ht hh hone hask := sat_relay ht hh hone hg hask

/-- What the dispatch ensures: the interactive grants relay, and an exchange is answered as it ends. -/
def Dispatched (cfg : ProxyConfig) (form : TokenForm) (t : Trace proxyOps) (x : Except Exc Response) :
    Prop :=
  (form.grantType ≠ some tokenExchange → Relayed cfg form t x) ∧
  (form.grantType = some tokenExchange →
    ∃ y, PatService.ExchangeConcludes t y ∧ x = y.map exchangeAnswer)

theorem sat_dispatch (cfg : ProxyConfig) (svc : Option PatService) (form : TokenForm) :
    (dispatch cfg svc form).Sat (Conduct (Mints cfg form) (Acts cfg svc form))
      (Dispatched cfg form) [] := by
  by_cases hgrant : form.grantType = some "authorization_code".toList ∨
      form.grantType = some "refresh_token".toList
  · have hg : form.grantType ≠ some tokenExchange := by
      rcases hgrant with h | h
      · rw [h]
        exact fun h => absurd (Option.some.inj h) (by decide)
      · rw [h]
        exact fun h => absurd (Option.some.inj h) (by decide)
    exact ((covers_relayed cfg svc form hg).dispatch svc hgrant).mono (fun _ _ h => h)
      (fun t x h => ⟨fun _ => h, fun he => absurd he hg⟩)
  obtain ⟨h1, h2⟩ := not_or.mp hgrant
  unfold dispatch
  rw [if_neg h1, if_neg h2]
  have nothing : ∀ e : Exc, Dispatched cfg form [] (.error e) :=
    fun e => ⟨fun _ => .of_free .nil _, fun _ => ⟨.error e, .nil e, rfl⟩⟩
  cases svc with
  | none => exact nothing _
  | some s =>
      by_cases h3 : form.grantType = some tokenExchange
      · simp only [if_pos h3]
        refine Prog.Sat.bind (sat_acts (s.sat_exchange form.exchangeParams) .nil
          (fun _ _ h => h.not_seal) (fun _ _ h => .inr (.inr ⟨s, rfl, h3, h⟩))) ?_ ?_
        · exact fun t payload _ hx => ⟨fun hne => absurd h3 hne, fun _ => ⟨_, hx.2, rfl⟩⟩
        · exact fun t e _ hx => ⟨fun hne => absurd h3 hne, fun _ => ⟨_, hx.2, rfl⟩⟩
      · simp only [if_neg h3]
        exact nothing _

/-- **The specification of `/token`.** -/
theorem sat_token (cfg : ProxyConfig) (svc : Option PatService) (form : TokenForm) :
    (token cfg svc form).Sat (Conduct (Mints cfg form) (Acts cfg svc form)) (Concludes cfg form) [] := by
  refine Prog.Sat.attempt_bind (sat_dispatch cfg svc form) ?_
  rintro t x _ ⟨hrel, hex⟩
  -- an error is answered or raised, and neither is a relayed answer
  have lost : ∀ {e : Exc} {y : Except Exc Response}, x = .error e →
      form.grantType ≠ some tokenExchange → Relayed cfg form t y := by
    rintro e y rfl hg r d c hc ha
    obtain ⟨entry, hask, ⟨-, h⟩ | ⟨v, blob, token, -, -, -, -, h⟩⟩ := hrel hg r d c hc ha
    · cases h
    · cases h
  cases x with
  | ok resp =>
      refine ⟨hrel, fun hg hash record hm hrev => ?_, fun hg d hd => ?_⟩
      · obtain ⟨y, hy, hxy⟩ := hex hg
        rw [hy.refuses hash record hm hrev] at hxy
        cases hxy
      · obtain ⟨y, hy, hxy⟩ := hex hg
        cases y with
        | error e => cases hxy
        | ok d' =>
            have : d = d' := by
              have hd' := (Except.ok.inj hxy).symm.trans (Except.ok.inj hd)
              simpa [exchangeAnswer] using hd'.symm
            rw [this]
            exact hy
  | error e =>
      have refused : form.grantType = some tokenExchange → ∀ hash record,
          did (.findByHash hash) (.ok (some record)) ∈ t → record.revokedAt.isSome = true →
          e = invalidGrant "the personal access token is revoked" := by
        intro hg hash record hm hrev
        obtain ⟨y, hy, hxy⟩ := hex hg
        rw [hy.refuses hash record hm hrev] at hxy
        exact Except.error.inj hxy
      split
      · next h => cases h
      · next error description status h =>
          obtain rfl := Except.error.inj h
          refine ⟨lost rfl, fun hg hash record hm hrev => ?_, fun hg d hd => ?_⟩
          · obtain ⟨rfl, rfl, rfl⟩ := Exc.oauth.inj (refused hg hash record hm hrev)
            rfl
          · cases hd
      · next e' hne h =>
          obtain rfl := Except.error.inj h
          refine ⟨lost rfl, fun hg hash record hm hrev => ?_, fun hg d hd => nomatch hd⟩
          exact absurd (refused hg hash record hm hrev) (hne _ _ _)

end CimdProxy.Token
