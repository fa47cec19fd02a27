import CimdProxy.FrontDoor
import CimdProxy.TokenDamage
import CimdProxy.TokenTable

/-! # What the proxy announces

`discovery.py` and the routes of `app.py` that need no program: the authorization server metadata under
its two names, the key set of the assertions and the liveness probe.

`truthful_metadata` compares the document with the endpoints.  The grants it lists are those that
`/token` does not turn away, the response type, the challenge method and the client authentication
are those of every accepted request, and the issuer is the one every authorization response carries. -/

namespace CimdProxy

open Py Effects

variable [Platform]

/-! ### The documents -/

/-- `build_discovery_document`. -/
def buildDiscoveryDocument (publicUrl : Str) (scopesSupported : List Str) (registrationEndpoint : Bool)
    (extraGrantTypes : List Str) : Dict :=
  let base := rstripSlash publicUrl
  let doc : Dict :=
    [("issuer", .str base), ("authorization_endpoint", .str (base ++ "/authorize")),
      ("token_endpoint", .str (base ++ "/token")), ("response_types_supported", .arr [.str "code"]),
      ("grant_types_supported", .arr
        (.str "authorization_code" :: .str "refresh_token" :: extraGrantTypes.map .str)),
      ("code_challenge_methods_supported", .arr [.str "S256"]),
      ("token_endpoint_auth_methods_supported", .arr [.str "none"]),
      ("client_id_metadata_document_supported", .bool true),
      ("authorization_response_iss_parameter_supported", .bool true)]
  let doc :=
    if scopesSupported.isEmpty then doc else doc.set "scopes_supported" (.arr (scopesSupported.map .str))
  if registrationEndpoint then doc.set "registration_endpoint" (.str (base ++ "/register")) else doc

/-- `extra_grants`. -/
def App.extraGrants (app : App) : List Str := if app.patService.isSome then [tokenExchange] else []

/-- The document of the running application. -/
def App.metadata (app : App) : Dict :=
  buildDiscoveryDocument app.config.publicUrl app.config.scopesSupported true app.extraGrants

/-- `discovery`, under `/.well-known/oauth-authorization-server`. -/
def App.discovery (app : App) : Response := .json 200 (.obj app.metadata) []

/-- `openid_configuration_alias`. -/
def App.openidConfigurationAlias (app : App) : Response := .json 200 (.obj app.metadata) []

/-- `healthz`. -/
def healthz : Response := .text 200 "ok"

/-- `jwks`; the route exists only with the service. -/
def App.jwks (app : App) : Response :=
  match app.patService with
  | some svc => .json 200 svc.pat.signer.jwks []
  | none => notFound

/-! ### Reading the document -/

/-- The strings listed under a key. -/
def announced (doc : Dict) (key : Str) : List Str :=
  match doc.get? key with
  | some (.arr xs) => (strElems xs).getD []
  | _ => []

omit [Platform] in
theorem strElems_map (ss : List Str) : strElems (ss.map .str) = some ss := by
  induction ss with
  | nil => rfl
  | cons s ss ih => simp [strElems, ih]

omit [Platform] in
/-- Two members are added, whatever they hold. -/
theorem get?_buildDiscoveryDocument (publicUrl : Str) (scopes : List Str) (registration : Bool)
    (extra : List Str) {key : Str} (hscopes : key ≠ "scopes_supported")
    (hregistration : key ≠ "registration_endpoint") :
    (buildDiscoveryDocument publicUrl scopes registration extra).get? key =
      (buildDiscoveryDocument publicUrl [] false extra).get? key := by
  cases scopes with
  | nil =>
      cases registration with
      | false => rfl
      | true => exact Dict.get?_set hregistration _
  | cons s ss =>
      cases registration with
      | false => exact Dict.get?_set hscopes _
      | true => exact (Dict.get?_set hregistration _).trans (Dict.get?_set hscopes _)

section Announced

variable (app : App)

theorem announced_grants :
    announced app.metadata "grant_types_supported" =
      "authorization_code".toList :: "refresh_token".toList :: app.extraGrants := by
  unfold announced App.metadata
  rw [get?_buildDiscoveryDocument _ _ _ _ (by decide) (by decide)]
  change (strElems (.str "authorization_code" :: .str "refresh_token" :: app.extraGrants.map .str)).getD [] = _
  rw [strElems, strElems, strElems_map]
  rfl

theorem announced_responseTypes : announced app.metadata "response_types_supported" = ["code".toList] := by
  unfold announced App.metadata
  rw [get?_buildDiscoveryDocument _ _ _ _ (by decide) (by decide)]
  rfl

theorem announced_challengeMethods :
    announced app.metadata "code_challenge_methods_supported" = ["S256".toList] := by
  unfold announced App.metadata
  rw [get?_buildDiscoveryDocument _ _ _ _ (by decide) (by decide)]
  rfl

theorem announced_authMethods :
    announced app.metadata "token_endpoint_auth_methods_supported" = ["none".toList] := by
  unfold announced App.metadata
  rw [get?_buildDiscoveryDocument _ _ _ _ (by decide) (by decide)]
  rfl

/-- What the document says about the URLs of the proxy. -/
theorem metadata_issuer : app.metadata.get? "issuer" = some (.str (rstripSlash app.config.publicUrl)) := by
  unfold App.metadata
  rw [get?_buildDiscoveryDocument _ _ _ _ (by decide) (by decide)]
  rfl

end Announced

/-! ### The grants -/

/-- The answer of `/token` to a grant it does not offer. -/
def turnedAway (description : Str) : Response := .json 400 (errorBody "unsupported_grant_type" description) []

/-- The program of a grant that is taken up: it calls somebody, or refuses for another reason. -/
def Engages (p : Run Response) : Prop :=
  (∃ o k, p = .call o k) ∨ ∃ e, p = .raise e ∧ ∀ description, e ≠ unsupportedGrantType description

omit [Platform] in
theorem engages_of_oauth {error description : Str} {status : ℕ} (h : error ≠ "unsupported_grant_type") :
    Engages (.raise (.oauth error description status)) := by
  refine .inr ⟨_, rfl, fun _ he => h ?_⟩
  exact (Exc.oauth.inj he).1

theorem engages_handleAuthCode (cfg : ProxyConfig) (form : Token.TokenForm) :
    Engages (Token.handleAuthCode cfg form) := by
  unfold Token.handleAuthCode
  cases form.code with
  | none => exact engages_of_oauth (by decide)
  | some code =>
      cases form.codeVerifier with
      | none => exact engages_of_oauth (by decide)
      | some verifier =>
          dsimp only
          unfold openCode openPayload
          by_cases ha : isAscii code = true
          · simp only [ha, if_true]
            exact .inl ⟨_, _, rfl⟩
          · simp only [ha]
            exact engages_of_oauth (by decide)

theorem engages_handleRefresh (cfg : ProxyConfig) (form : Token.TokenForm) :
    Engages (Token.handleRefresh cfg form) := by
  unfold Token.handleRefresh
  cases form.refreshToken with
  | none => exact engages_of_oauth (by decide)
  | some token =>
      dsimp only
      unfold openRefresh openPayload
      by_cases ha : isAscii token = true
      · simp only [ha, if_true]
        exact .inl ⟨_, _, rfl⟩
      · simp only [ha]
        exact engages_of_oauth (by decide)

omit [Platform] in
/-- The checks of an exchange end in a token, which has a hash, or in another refusal. -/
theorem checkExchange_cases (p : PatService.ExchangeParams) :
    (∃ token hash, PatService.checkExchange p = .ok token ∧ tokenHash token = .ok hash) ∨
    ∃ error description status, PatService.checkExchange p = .error (.oauth error description status) ∧
      error ≠ "unsupported_grant_type" := by
  unfold PatService.checkExchange
  split
  · next c rest _ =>
      split_ifs
      · exact .inr ⟨_, _, _, rfl, by decide⟩
      · exact .inr ⟨_, _, _, rfl, by decide⟩
      · rcases isWellFormed_cases (c :: rest) with h | ⟨h, hwell⟩
        · rw [h]
          exact .inr ⟨_, _, _, rfl, by decide⟩
        · rw [h]
          have hash : ∃ hash, tokenHash (c :: rest) = .ok hash := by
            unfold tokenHash encodeAscii
            rw [if_pos hwell.ascii]
            exact ⟨_, rfl⟩
          exact .inl ⟨c :: rest, hash.choose, rfl, hash.choose_spec⟩
  · exact .inr ⟨_, _, _, rfl, by decide⟩

theorem engages_handleExchange (svc : PatService) (form : Token.TokenForm) :
    Engages (Token.handleExchange svc form) := by
  unfold Token.handleExchange PatService.exchange
  rcases checkExchange_cases form.exchangeParams with ⟨token, hash, h, hhash⟩ | ⟨_, _, _, h, hne⟩
  · simp only [h, hhash, Prog.lift_ok, Prog.bind_eq, Prog.ret_bind]
    exact .inl ⟨_, _, rfl⟩
  · simp only [h, Prog.lift_error, Prog.bind_eq, Prog.raise_bind]
    exact engages_of_oauth hne

omit [Platform] in
/-- Such a program does not end in a turning away of its own. -/
theorem Engages.ne_turnedAway {p : Run Response} (h : Engages p) (description : Str) :
    p.attempt.bind (fun x => (.lift (Token.caught x) : Run Response)) ≠ .ret (turnedAway description) := by
  intro heq
  rcases h with ⟨o, k, rfl⟩ | ⟨e, rfl, he⟩
  · cases heq
  · cases e with
    | oauth error desc status =>
        cases heq
        exact he _ rfl
    | _ => cases heq

/-- **A grant is turned away if and only if the document does not list it.** -/
theorem turnedAway_iff (app : App) (form : Token.TokenForm) {g : Str} (hgrant : form.grantType = some g)
    (hg : g ≠ []) :
    (∃ description, Token.token app.config app.patService form = .ret (turnedAway description)) ↔
      g ∉ announced app.metadata "grant_types_supported" := by
  rw [announced_grants, Token.token_eq]
  have hrefuse : ∀ svc, ∃ description, Token.refuseGrant svc form = unsupportedGrantType description := by
    intro svc
    obtain ⟨c, s, rfl⟩ := List.exists_cons_of_ne_nil hg
    unfold Token.refuseGrant
    rw [hgrant]
    exact ⟨_, rfl⟩
  unfold Token.dispatch
  by_cases hcode : form.grantType = some "authorization_code".toList
  · rw [if_pos hcode]
    refine iff_of_false (fun ⟨d, h⟩ => (engages_handleAuthCode _ _).ne_turnedAway d h) ?_
    rw [Option.some.inj (hgrant.symm.trans hcode)]
    simp
  rw [if_neg hcode]
  by_cases hrefresh : form.grantType = some "refresh_token".toList
  · rw [if_pos hrefresh]
    refine iff_of_false (fun ⟨d, h⟩ => (engages_handleRefresh _ _).ne_turnedAway d h) ?_
    rw [Option.some.inj (hgrant.symm.trans hrefresh)]
    simp
  rw [if_neg hrefresh]
  have hg₁ : g ≠ "authorization_code".toList := fun h => hcode (h ▸ hgrant)
  have hg₂ : g ≠ "refresh_token".toList := fun h => hrefresh (h ▸ hgrant)
  unfold App.extraGrants
  cases hsvc : app.patService with
  | none =>
      obtain ⟨d, hd⟩ := hrefuse none
      refine iff_of_true ⟨d, ?_⟩ (List.not_mem_cons_of_ne_of_not_mem hg₁
        (List.not_mem_cons_of_ne_of_not_mem hg₂ (by simp)))
      simp only [hd]
      rfl
  | some svc =>
      by_cases hexchange : form.grantType = some tokenExchange
      · simp only [if_pos hexchange]
        refine iff_of_false (fun ⟨d, h⟩ => (engages_handleExchange _ _).ne_turnedAway d h) ?_
        rw [Option.some.inj (hgrant.symm.trans hexchange)]
        simp
      · obtain ⟨d, hd⟩ := hrefuse (some svc)
        have hg₃ : g ≠ tokenExchange := fun h => hexchange (h ▸ hgrant)
        refine iff_of_true ⟨d, ?_⟩ (List.not_mem_cons_of_ne_of_not_mem hg₁
          (List.not_mem_cons_of_ne_of_not_mem hg₂ (by simp [hg₃])))
        simp only [if_neg hexchange, hd]
        rfl

/-! ### The other parameters -/

theorem Authorize.responseType_of_present {params : Authorize.AuthorizeParams} {present : Str × Str × Str}
    (h : Authorize.requirePresent params = .ok present) : params.responseType = some "code".toList := by
  unfold Authorize.requirePresent at h
  split at h
  · cases h
  · next responseType htype =>
      split_ifs at h with hcode
      rw [htype, not_not.mp hcode]

/-- A request that is sent on has the response type and the challenge method of the document. -/
theorem sat_redirected (cfg : ProxyConfig) (params : Authorize.AuthorizeParams) :
    (Authorize.authorize cfg params).Sat (fun _ _ => True)
      (fun _ x => ∀ url, x = .ok (.redirect 302 url) →
        params.responseType = some "code".toList ∧ params.codeChallengeMethod = some "S256".toList) [] := by
  unfold Authorize.authorize
  refine Prog.Sat.bind (Prog.sat_true _ _) (fun t cid _ _ => ?_) (fun _ _ _ _ _ h => nomatch h)
  have hvalidate : (Authorize.validate cfg params).Sat (fun _ _ => True)
      (fun _ x => ∀ v, x = .ok v →
        params.responseType = some "code".toList ∧ params.codeChallengeMethod = some "S256".toList) t := by
    unfold Authorize.validate
    refine Prog.Sat.lift_bind (fun present hpresent => ?_) (fun _ _ _ h => nomatch h)
    refine Prog.Sat.lift_bind (fun entry _ => ?_) (fun _ _ _ h => nomatch h)
    split_ifs with hmethod
    · exact fun _ h => nomatch h
    all_goals
      exact (Prog.sat_true _ _).mono (fun _ _ h => h)
        (fun _ _ _ _ _ => ⟨Authorize.responseType_of_present hpresent, not_not.mp hmethod⟩)
  refine Prog.Sat.attempt_bind hvalidate (fun t x _ hx => ?_)
  cases x with
  | error e =>
      cases e with
      | oauth error description status => exact fun _ h => nomatch h
      | _ => exact fun _ h => nomatch h
  | ok v => exact (Prog.sat_true _ _).mono (fun _ _ h => h) (fun _ _ _ _ _ => hx v rfl)

theorem Register.authMethod_eq_ok {payload : Dict} {method : Str}
    (h : Register.authMethod payload = .ok method) : method = "none" := by
  unfold Register.authMethod at h
  split at h
  · split_ifs at h with hforbidden hnone
    rw [← Except.ok.inj h]
    exact not_not.mp hnone
  · cases h

theorem Register.method_of_accepted {body : BodyJson} {r : List Str × Str × Str}
    (h : Register.readAndValidate body = .ok r) : r.2.1 = "none" := by
  obtain ⟨payload, -, h⟩ := bind_eq_ok.mp h
  unfold Register.validate at h
  split_ifs at h
  obtain ⟨uris, -, h⟩ := bind_eq_ok.mp h
  obtain ⟨-, -, h⟩ := bind_eq_ok.mp h
  obtain ⟨method, hmethod, h⟩ := bind_eq_ok.mp h
  obtain ⟨name, -, h⟩ := bind_eq_ok.mp h
  rw [← Except.ok.inj h]
  exact Register.authMethod_eq_ok hmethod

theorem Register.status_of_refused {body : BodyJson} {error description : Str} {status : ℕ}
    (h : Register.readAndValidate body = .error (.registration error description status)) : status = 400 := by
  cases body with
  | invalid msg =>
      cases h
      rfl
  | value v =>
      have hfail := fails_readAndValidate v
      rw [h] at hfail
      rcases hfail with ⟨⟨-, hstatus⟩, -⟩ | ⟨hforeign, -⟩
      · exact hstatus
      · exact hforeign.elim

/-- The answer to an accepted registration. -/
theorem sat_registered (body : BodyJson) :
    (Register.register body).Sat (fun _ _ => True)
      (fun _ x => ∀ content headers, x = .ok (.json 201 content headers) →
        ∃ clientId, ∃ e : RegistrationEnvelope, content = .obj (Register.issuedBody clientId e) ∧
          e.tokenEndpointAuthMethod = "none") [] := by
  unfold Register.register
  refine Prog.Sat.bind (Prog.sat_true _ _) (fun t cid _ _ => ?_) (fun _ _ _ _ _ _ h => nomatch h)
  split
  · next error description status h =>
      intro content headers heq
      rw [Register.status_of_refused h] at heq
      cases heq
  · exact fun _ _ h => nomatch h
  · next uris method name h =>
      refine sat_wholeTime_bind trivial (fun now => ?_)
      refine sat_pack_bind (fun _ _ => trivial) (fun blob token _ => ?_) (fun _ _ _ _ h => nomatch h)
      intro content headers heq
      cases heq
      exact ⟨token.text, _, rfl, Register.method_of_accepted h⟩

/-- An authorization response names the issuer. -/
theorem sat_located (cfg : ProxyConfig) (params : Callback.CallbackParams) :
    (Callback.callback cfg params).Sat (fun _ _ => True)
      (fun _ x => ∀ url, x = .ok (.redirect 302 url) →
        ∃ env fields, url = Callback.location env fields ∧ ("iss".toList, cfg.publicUrl) ∈ fields) [] := by
  unfold Callback.callback
  cases params.state with
  | none => exact fun _ h => nomatch h
  | some state =>
      refine Prog.Sat.attempt_bind (Prog.sat_true _ _) (fun t x _ _ => ?_)
      cases x with
      | error e => cases e <;> exact fun _ h => nomatch h
      | ok env =>
          dsimp only
          unfold Callback.respond
          cases params.error with
          | some error =>
              intro url heq
              cases heq
              exact ⟨env, _, rfl, by simp [Callback.errorParams]⟩
          | none =>
              cases params.code with
              | none => exact fun _ h => nomatch h
              | some code =>
                  refine sat_wholeTime_bind trivial (fun now => ?_)
                  refine sat_pack_bind (fun _ _ => trivial) (fun blob token _ => ?_)
                    (fun _ _ _ h => nomatch h)
                  intro url heq
                  cases heq
                  exact ⟨env, _, rfl, by simp [Callback.codeParams]⟩

/-- What the endpoints do with a request they accept. -/
def AsAnnounced (app : App) : Req → Except Exc Response → Prop
  | .authorize params, x => ∀ url, x = .ok (.redirect 302 url) →
      params.responseType = some "code".toList ∧ params.codeChallengeMethod = some "S256".toList
  | .register _, x => ∀ content headers, x = .ok (.json 201 content headers) →
      ∃ clientId, ∃ e : RegistrationEnvelope, content = .obj (Register.issuedBody clientId e) ∧
        e.tokenEndpointAuthMethod = "none"
  | .callback _, x => ∀ url, x = .ok (.redirect 302 url) →
      ∃ env fields, url = Callback.location env fields ∧ ("iss".toList, app.config.publicUrl) ∈ fields
  | _, _ => True

theorem sat_asAnnounced (app : App) (req : Req) :
    (app.handler req).Sat (fun _ _ => True) (fun _ x => AsAnnounced app req x) [] := by
  cases req with
  | authorize params => exact sat_redirected app.config params
  | register body => exact sat_registered body
  | callback params => exact sat_located app.config params
  | _ => exact Prog.sat_true _ _

theorem asAnnounced {app : App} {acts : Schedule} {pid : ℕ} {req : Req} {x : Except Exc Response}
    (hreq : Serves (app.run acts) pid req) (hx : Ended (app.run acts) pid x) : AsAnnounced app req x := by
  obtain ⟨t, -, h⟩ := ended_sat (sat_asAnnounced app) hreq hx
  exact h

/-! ### Document and endpoints -/

/-- The document of the application says what its endpoints do. -/
structure TruthfulMetadata (app : App) (acts : Schedule) : Prop where
  /-- The grants of the document are those `/token` does not turn away. -/
  grants : ∀ form g, form.grantType = some g → g ≠ [] →
    ((∃ description, Token.token app.config app.patService form = .ret (turnedAway description)) ↔
      g ∉ announced app.metadata "grant_types_supported")
  /-- A request sent on to the upstream used a response type and a challenge method of the document. -/
  authorized : ∀ pid params url, Serves (app.run acts) pid (.authorize params) →
    Answered (app.run acts) pid (.redirect 302 url) →
      (∃ r ∈ announced app.metadata "response_types_supported", params.responseType = some r) ∧
      ∃ m ∈ announced app.metadata "code_challenge_methods_supported", params.codeChallengeMethod = some m
  /-- A registered client authenticates, asks for grants and for response types as the document says. -/
  registered : ∀ pid body content headers, Serves (app.run acts) pid (.register body) →
    Answered (app.run acts) pid (.json 201 content headers) → ∃ d, content = .obj d ∧
      (∃ m ∈ announced app.metadata "token_endpoint_auth_methods_supported",
        Dict.get? d "token_endpoint_auth_method" = some (.str m)) ∧
      announced d "grant_types" ⊆ announced app.metadata "grant_types_supported" ∧
      announced d "response_types" ⊆ announced app.metadata "response_types_supported"
  /-- Every authorization response carries the issuer of the document. -/
  located : ∀ pid params url, Serves (app.run acts) pid (.callback params) →
    Answered (app.run acts) pid (.redirect 302 url) → ∃ env fields issuer,
      url = Callback.location env fields ∧ ("iss".toList, issuer) ∈ fields ∧
        app.metadata.get? "issuer" = some (.str issuer)

omit [Platform] in
/-- What the answer to a registration says about the client. -/
theorem get?_issuedBody (clientId : Str) (e : RegistrationEnvelope) {key : Str} (h : key ≠ "client_name") :
    (Register.issuedBody clientId e).get? key =
      (Register.issuedBody clientId { e with clientName := [] }).get? key := by
  unfold Register.issuedBody
  cases hname : e.clientName with
  | nil => rfl
  | cons c s => exact Dict.get?_set h _

omit [Platform] in
theorem announced_issuedBody (clientId : Str) (e : RegistrationEnvelope) :
    announced (Register.issuedBody clientId e) "grant_types" =
        ["authorization_code".toList, "refresh_token".toList] ∧
      announced (Register.issuedBody clientId e) "response_types" = ["code".toList] := by
  unfold announced
  rw [get?_issuedBody clientId e (by decide), get?_issuedBody clientId e (by decide)]
  exact ⟨rfl, rfl⟩

theorem createApp_config {cfg : ProxyConfig} {app : App} (h : createApp cfg = .ok app) : app.config = cfg := by
  unfold createApp at h
  split at h
  · rw [← Except.ok.inj h]
  · obtain ⟨kc, -, h⟩ := bind_eq_ok.mp h
    rw [← Except.ok.inj h]

theorem publicUrl_of_loaded {env : Env} {files : Files} {cfg : ProxyConfig}
    (h : loadConfig env files = .ok cfg) : rstripSlash cfg.publicUrl = cfg.publicUrl := by
  unfold loadConfig at h
  obtain ⟨raw, -, h⟩ := bind_eq_ok.mp h
  obtain ⟨secretKey, -, h⟩ := bind_eq_ok.mp h
  obtain ⟨port, -, h⟩ := bind_eq_ok.mp h
  obtain ⟨cimdDebug, -, h⟩ := bind_eq_ok.mp h
  obtain ⟨⟨ttlMin, ttlMax, maxBytes, timeout⟩, -, h⟩ := bind_eq_ok.mp h
  obtain ⟨resources, -, h⟩ := bind_eq_ok.mp h
  split_ifs at h
  obtain ⟨pat, -, h⟩ := bind_eq_ok.mp h
  rw [← Except.ok.inj h]
  exact rstripSlash_eq_self (rstripSlash_not_endsWith raw)

/-- **The metadata of a configured proxy tells the truth.** -/
theorem truthful_metadata {env : Env} {files : Files} {cfg : ProxyConfig} {app : App}
    (hcfg : loadConfig env files = .ok cfg) (happ : createApp cfg = .ok app) (acts : Schedule) :
    TruthfulMetadata app acts where
  grants := fun form g => turnedAway_iff app form
  authorized := by
    intro pid params url hreq hans
    obtain ⟨htype, hmethod⟩ := asAnnounced hreq hans url rfl
    rw [announced_responseTypes, announced_challengeMethods]
    exact ⟨⟨_, List.mem_singleton_self _, htype⟩, _, List.mem_singleton_self _, hmethod⟩
  registered := by
    intro pid body content headers hreq hans
    obtain ⟨clientId, e, rfl, hmethod⟩ := asAnnounced hreq hans content headers rfl
    obtain ⟨hgrants, htypes⟩ := announced_issuedBody clientId e
    refine ⟨_, rfl, ⟨"none".toList, ?_, ?_⟩, ?_, ?_⟩
    · rw [announced_authMethods]
      exact List.mem_singleton_self _
    · rw [get?_issuedBody clientId e (by decide), ← hmethod]
      rfl
    · rw [hgrants, announced_grants]
      simp
    · rw [htypes, announced_responseTypes]
      exact List.Subset.refl _
  located := by
    intro pid params url hreq hans
    obtain ⟨env, fields, rfl, hiss⟩ := asAnnounced hreq hans url rfl
    refine ⟨env, fields, _, rfl, hiss, ?_⟩
    rw [metadata_issuer, createApp_config happ, publicUrl_of_loaded hcfg]

omit [Platform] in
/-- The proxy with personal access tokens announces and offers three grants. -/
theorem truthful_metadata_createRun :
    letI := Platform.plain
    TruthfulMetadata patApp createRun ∧
      announced patApp.metadata "grant_types_supported" =
        ["authorization_code".toList, "refresh_token".toList, tokenExchange] := by
  let := Platform.plain
  exact ⟨truthful_metadata (Except.eq_value (loadConfig patEnv patFiles) _)
    (Except.eq_value (createApp patConfig) _) createRun, by decide +kernel⟩

end CimdProxy
