import CimdProxy.CallBudget
import CimdProxy.CodeFlow
import CimdProxy.TokenResources

/-! # What one request can make the proxy do

No endpoint retries, polls or loops over what it is sent, with one exception: a creation makes a trial
exchange for each resource of its body.  `effort` lists, with repetitions, what a request may ask of
the services around the proxy, and `request_budget` says that in every run no process asks for more,
and that a process which has asked for all of it has ended. -/

namespace CimdProxy

open Py Effects

/-- The services around the proxy. -/
inductive Service where
  | clock
  | random
  | codec
  | cache
  | resolver
  | metadata
  | upstream
  | table
deriving DecidableEq

def Op.service : Op → Service
  | .time | .utcnow => .clock
  | .tokenBytes _ | .uuid4 => .random
  | .fernetEncrypt _ | .fernetDecrypt _ _ => .codec
  | .cacheGet _ | .cachePut _ _ _ => .cache
  | .getaddrinfo _ => .resolver
  | .pinnedGet _ _ _ => .metadata
  | .http _ => .upstream
  | .insert _ _ | .findByHash _ | .listForOwner _ _ | .revoke _ _ _ | .touch _ _ => .table

/-- One call of a service. -/
def asksFor (o : Op) : Multiset Service := {o.service}

/-- How many resources the body of a creation lists. -/
def listedResources (body : BodyJson) : ℕ :=
  match PatApi.bodyOrNone body with
  | some (.obj d) =>
      match Dict.get? d "resources" with
      | some (.arr xs) => xs.length
      | _ => 0
  | _ => 0

/-- One grant: the assertion is stamped and numbered, and sent. -/
def grantEffort : Multiset Service := {.clock, .random, .upstream}

/-- The document of a client: looked up, or fetched and kept. -/
def documentEffort : Multiset Service := {.cache, .resolver, .metadata, .cache}

/-- What a request to the token endpoint may ask for. -/
def tokenEffort (form : Token.TokenForm) : Multiset Service :=
  if form.grantType = some "authorization_code".toList then {.codec, .clock, .upstream, .codec}
  else if form.grantType = some "refresh_token".toList then {.codec, .upstream, .codec}
  else if form.grantType = some tokenExchange then {.table, .clock} + (grantEffort + {.table})
  else 0

/-- What a request may ask for. -/
def effort : Req → Multiset Service
  | .register _ => {.random, .clock, .codec}
  | .authorize params =>
      {.random} + ((if Authorize.isCimd (params.clientId.getD []) then documentEffort else {.codec}) +
        {.random, .clock, .codec})
  | .callback _ => {.codec, .clock, .codec}
  | .token form => tokenEffort form
  | .createToken _ body =>
      {.upstream} + ({.upstream, .upstream, .upstream} +
        (listedResources body • grantEffort + {.clock, .random, .random, .table}))
  | .listTokens _ => {.upstream, .table}
  | .revokeToken _ _ => {.upstream, .table}

/-- The program asks for no more than this. -/
abbrev Needs {α : Type} (p : Run α) (n : Multiset Service) : Prop := p.Within asksFor n

section Rules

variable {α β : Type} {n m : Multiset Service}

theorem Needs.bind {p : Run α} {f : α → Run β} (hp : Needs p n) (hf : ∀ a, Needs (f a) m) :
    Needs (p.bind f) (n + m) := Prog.Within.bind hp hf

theorem Needs.ask_bind {o : Op} {f : Reply o → Run β} (hf : ∀ r, Needs (f r) m) :
    Needs ((ask o).bind f) (asksFor o + m) := Prog.Within.perform_bind hf

theorem Needs.wholeTime_bind {f : ℤ → Run β} (hf : ∀ now, Needs (f now) m) :
    Needs (wholeTime.bind f) ({.clock} + m) := ⟨m, le_rfl, fun _ => hf _⟩

/-- The rest makes no call. -/
theorem Needs.bind_free {p : Run α} {f : α → Run β} (hp : Needs p n) (hf : ∀ a, Needs (f a) 0) :
    Needs (p.bind f) n := by
  rw [← add_zero n]
  exact hp.bind hf

/-- Exceptions are looked at without further calls. -/
theorem Needs.attempt_bind {p : Run α} {f : Except Exc α → Run β} (hp : Needs p n)
    (hf : ∀ x, Needs (f x) m) : Needs (p.attempt.bind f) (n + m) := hp.attempt.bind hf

theorem needs_newCorrelationId : Needs newCorrelationId {.random} :=
  ⟨0, le_rfl, fun _ => trivial⟩

theorem needs_makeVerifier : Needs makeVerifier {.random} :=
  ⟨0, le_rfl, fun _ => trivial⟩

theorem needs_pack (e : Envelope) : Needs (pack e) {.codec} := by
  unfold pack
  cases e.blob with
  | none => trivial
  | some blob => exact ⟨0, le_rfl, fun _ => trivial⟩

theorem needs_send (r : HttpRequest) : Needs (send r) {.upstream} := by
  refine ⟨0, le_rfl, fun outcome => ?_⟩
  cases outcome <;> trivial

theorem needs_statement_bind {x : Except Str α} {f : α → Run β} (hf : ∀ a, Needs (f a) n) :
    Needs ((PatService.statement x).bind f) n := by
  cases x with
  | ok a => exact hf a
  | error e => trivial

variable [Platform]

theorem needs_openPayload (token : Str) (k : Kind) : Needs (openPayload token k) {.codec} := by
  unfold openPayload
  split_ifs
  · refine ⟨0, le_rfl, ?_⟩
    rintro ⟨now, blob⟩
    cases blob with
    | none => trivial
    | some blob => exact .lift _
  · trivial

/-- The four open functions. -/
theorem needs_open {k : Kind} {token : Str} {of : Dict → Except Exc α} :
    Needs ((openPayload token k).bind fun d => .lift (of d)) {.codec} :=
  (needs_openPayload token k).bind_free fun _ => .lift _

end Rules

variable [Platform]

/-! ### The interactive routes -/

theorem needs_register (body : BodyJson) : Needs (Register.register body) {.random, .clock, .codec} := by
  unfold Register.register
  refine needs_newCorrelationId.bind (m := {.clock, .codec}) fun _ => ?_
  split
  · trivial
  · trivial
  · refine Needs.wholeTime_bind (m := {.codec}) fun _ => ?_
    exact (needs_pack _).bind_free fun _ => trivial

theorem needs_fetch (maxBytes : ℤ) (url : Str) : Needs (fetch maxBytes url) {.resolver, .metadata} := by
  unfold fetch
  refine Prog.Within.lift_bind fun parsed _ => ?_
  have hresolve : Needs (resolveAndCheckIps parsed.hostname) {.resolver} := by
    refine ⟨0, le_rfl, fun answer => ?_⟩
    cases answer with
    | gaierror => trivial
    | unicodeError msg => trivial
    | infos addresses =>
        cases addresses with
        | nil => trivial
        | cons a as => exact .lift _
  refine hresolve.bind (m := {.metadata}) fun ips => ?_
  cases ips with
  | nil => trivial
  | cons ip rest =>
      unfold fetchPinned
      refine Needs.ask_bind (m := 0) fun outcome => ?_
      cases outcome with
      | httpError text => trivial
      | raised msg => trivial
      | response status body cacheControl =>
          dsimp only
          split_ifs
          · trivial
          · trivial
          · exact Prog.Within.lift_bind fun _ _ => trivial

theorem needs_obtain (cfg : ProxyConfig) (url : Str) : Needs (obtain cfg url) documentEffort := by
  unfold obtain documentEffort
  refine Needs.ask_bind (m := {.resolver, .metadata, .cache}) ?_
  rintro ⟨now, cached⟩
  cases cached with
  | some doc => trivial
  | none =>
      refine (needs_fetch _ _).bind (m := {.cache}) fun result => ?_
      exact ⟨0, le_rfl, fun _ => trivial⟩

theorem needs_validateCimd (cfg : ProxyConfig) (clientId : Str) :
    Needs (Authorize.validateCimd cfg clientId) documentEffort := by
  unfold Authorize.validateCimd Authorize.loadDocument
  refine Needs.bind_free (Needs.bind_free (needs_obtain cfg clientId).attempt fun x => ?_) fun _ => trivial
  cases x with
  | ok document => trivial
  | error e => cases e <;> trivial

theorem needs_validateDcr (clientId : Str) : Needs (Authorize.validateDcr clientId) {.codec} := by
  unfold Authorize.validateDcr openRegistration
  refine Needs.bind_free needs_open.attempt fun x => ?_
  cases x with
  | ok envelope => trivial
  | error e => cases e <;> trivial

theorem needs_validate (cfg : ProxyConfig) (params : Authorize.AuthorizeParams) :
    Needs (Authorize.validate cfg params)
      (if Authorize.isCimd (params.clientId.getD []) then documentEffort else {.codec}) := by
  unfold Authorize.validate
  refine Prog.Within.lift_bind fun a ha => ?_
  obtain ⟨clientId, redirectUri, codeChallenge⟩ := a
  obtain ⟨hclient, -, -⟩ := Authorize.requirePresent_eq_ok ha
  rw [hclient, Option.getD_some]
  refine Prog.Within.lift_bind fun entry _ => ?_
  have hrest : ∀ r : List Str × Option CimdDocument × Authorize.Via,
      Needs (do
        let registered ← .lift (Authorize.matchesAny redirectUri r.1)
        if !registered then .raise (Authorize.notRegistered r.2.2)
        else return ({ clientId, redirectUri, codeChallenge
                       state := params.state.getD []
                       scope := Authorize.orDefault params.scope cfg.defaultScope
                       resourceEntry := entry, document := r.2.1, via := r.2.2 } : Authorize.Validated)) 0 := by
    intro r
    refine Prog.Within.lift_bind fun registered _ => ?_
    split_ifs <;> trivial
  split_ifs
  · trivial
  · trivial
  · exact (needs_validateCimd cfg clientId).bind_free hrest
  · exact (needs_validateDcr clientId).bind_free hrest

theorem needs_authorize (cfg : ProxyConfig) (params : Authorize.AuthorizeParams) :
    Needs (Authorize.authorize cfg params) (effort (.authorize params)) := by
  unfold Authorize.authorize
  refine needs_newCorrelationId.bind fun cid => ?_
  refine (needs_validate cfg params).attempt.bind fun x => ?_
  cases x with
  | error e => cases e <;> trivial
  | ok v =>
      refine Needs.bind_free ?_ fun _ => trivial
      unfold Authorize.buildUpstreamUrl
      refine needs_makeVerifier.bind (m := {.clock, .codec}) fun verifier => ?_
      refine Prog.Within.lift_bind fun challenge _ => ?_
      refine Needs.wholeTime_bind (m := {.codec}) fun now => ?_
      exact (needs_pack _).bind_free fun _ => trivial

theorem needs_callback (cfg : ProxyConfig) (params : Callback.CallbackParams) :
    Needs (Callback.callback cfg params) {.codec, .clock, .codec} := by
  unfold Callback.callback
  cases params.state with
  | none => trivial
  | some state =>
      refine Needs.attempt_bind (n := {.codec}) (m := {.clock, .codec}) needs_open fun x => ?_
      cases x with
      | error e => cases e <;> trivial
      | ok env =>
          dsimp only
          unfold Callback.respond
          cases params.error with
          | some error => trivial
          | none =>
              cases params.code with
              | none => trivial
              | some code =>
                  refine Needs.wholeTime_bind (m := {.codec}) fun now => ?_
                  exact (needs_pack _).bind_free fun _ => trivial

/-! ### The token endpoint -/

omit [Platform] in
theorem needs_postForm (url : Str) (form : List (Str × Json)) : Needs (Token.postForm url form) {.upstream} := by
  refine ⟨0, le_rfl, fun outcome => ?_⟩
  cases outcome <;> trivial

omit [Platform] in
theorem needs_finalise (resource : Str) (reply : ℕ × BodyJson) :
    Needs (Token.finaliseUpstreamResponse resource reply) {.codec} := by
  obtain ⟨status, body⟩ := reply
  unfold Token.finaliseUpstreamResponse
  cases body with
  | invalid msg => trivial
  | value payload =>
      dsimp only
      split_ifs
      · cases payload.val <;> trivial
      · cases payload.val with
        | obj d =>
            dsimp only
            cases Dict.get? d "refresh_token" with
            | none => trivial
            | some upstream => exact (needs_pack _).bind_free fun _ => trivial
        | _ => trivial

theorem needs_handleAuthCode (cfg : ProxyConfig) (form : Token.TokenForm) :
    Needs (Token.handleAuthCode cfg form) {.codec, .clock, .upstream, .codec} := by
  unfold Token.handleAuthCode
  cases form.code with
  | none => trivial
  | some code =>
      cases form.codeVerifier with
      | none => trivial
      | some verifier =>
          refine Needs.attempt_bind (n := {.codec}) (m := {.clock, .upstream, .codec}) needs_open fun x => ?_
          cases x with
          | error e => cases e <;> trivial
          | ok env =>
              refine Needs.wholeTime_bind (m := {.upstream, .codec}) fun now => ?_
              refine Prog.Within.lift_bind fun _ _ => Prog.Within.lift_bind fun entry _ => ?_
              exact (needs_postForm _ _).bind fun reply => needs_finalise _ reply

theorem needs_handleRefresh (cfg : ProxyConfig) (form : Token.TokenForm) :
    Needs (Token.handleRefresh cfg form) {.codec, .upstream, .codec} := by
  unfold Token.handleRefresh
  cases form.refreshToken with
  | none => trivial
  | some token =>
      refine Needs.attempt_bind (n := {.codec}) (m := {.upstream, .codec}) needs_open fun x => ?_
      cases x with
      | error e => cases e <;> trivial
      | ok env =>
          refine Prog.Within.lift_bind fun entry _ => ?_
          exact (needs_postForm _ _).bind fun reply => needs_finalise _ reply

theorem needs_requestGrant (svc : PatService) (e : ResourceEntry) (subject : Str) (scopes : List Str)
    (tenant : Str) : Needs (svc.requestGrant e subject scopes tenant) grantEffort := by
  unfold PatService.requestGrant AssertionSigner.sign
  refine Needs.bind (n := {.clock, .random}) (m := {.upstream}) ?_ fun assertion => needs_send _
  split
  · trivial
  · refine Needs.wholeTime_bind (m := {.random}) fun now => ?_
    exact Needs.bind_free (p := ask .uuid4) ⟨0, le_rfl, fun _ => trivial⟩ fun _ => trivial

theorem needs_exchange (svc : PatService) (p : PatService.ExchangeParams) :
    Needs (svc.exchange p) ({.table, .clock} + (grantEffort + {.table})) := by
  unfold PatService.exchange
  refine Prog.Within.lift_bind fun token _ => Prog.Within.lift_bind fun hash _ => ?_
  refine Needs.ask_bind (m := {.clock} + (grantEffort + {.table})) fun found => ?_
  refine needs_statement_bind fun record => ?_
  cases record with
  | none => trivial
  | some record =>
      refine Needs.ask_bind (m := grantEffort + {.table}) fun now => ?_
      refine Prog.Within.lift_bind fun _ _ => Prog.Within.lift_bind fun e _ => ?_
      refine (needs_requestGrant svc e _ _ _).bind fun reply => ?_
      unfold PatService.finishExchange
      refine Prog.Within.lift_bind fun payload _ => ?_
      split_ifs
      · trivial
      · exact Needs.ask_bind (m := 0) fun done => needs_statement_bind fun _ => trivial

theorem needs_token (cfg : ProxyConfig) (svc : Option PatService) (form : Token.TokenForm) :
    Needs (Token.token cfg svc form) (effort (.token form)) := by
  unfold Token.token
  refine Needs.bind_free (Prog.Within.attempt ?_) fun x => ?_
  · change Needs _ (tokenEffort form)
    unfold Token.dispatch tokenEffort
    by_cases hcode : form.grantType = some "authorization_code".toList
    · rw [if_pos hcode, if_pos hcode]
      exact needs_handleAuthCode cfg form
    by_cases hrefresh : form.grantType = some "refresh_token".toList
    · rw [if_neg hcode, if_neg hcode, if_pos hrefresh, if_pos hrefresh]
      exact needs_handleRefresh cfg form
    rw [if_neg hcode, if_neg hcode, if_neg hrefresh, if_neg hrefresh]
    cases svc with
    | none => trivial
    | some svc =>
        by_cases hexchange : form.grantType = some tokenExchange
        · dsimp only
          rw [if_pos hexchange, if_pos hexchange]
          exact (needs_exchange svc _).bind_free fun _ => trivial
        · dsimp only
          rw [if_neg hexchange]
          trivial
  · cases x with
    | ok r => trivial
    | error e => cases e <;> trivial

/-! ### The management routes -/

section Management

variable (svc : PatService)

theorem needs_authenticate (authorization : Option Str) : Needs (svc.authenticate authorization) {.upstream} := by
  unfold PatService.authenticate
  dsimp only
  split_ifs
  · trivial
  · refine Prog.Within.lift_bind fun wellFormed _ => ?_
    split_ifs
    · trivial
    · refine Needs.bind_free ?_ fun claims => .lift _
      unfold KeycloakClient.introspect
      refine (needs_send _).bind_free fun reply => ?_
      dsimp only
      split_ifs
      · trivial
      · exact .lift _

theorem needs_linkOwner (caller : Caller) :
    Needs (svc.linkOwner caller) {.upstream, .upstream, .upstream} := by
  unfold PatService.linkOwner
  refine Needs.bind_free (Prog.Within.attempt ?_) fun x => ?_
  · unfold KeycloakClient.ensureLink
    refine Needs.bind (n := {.upstream}) (m := {.upstream, .upstream}) ?_ fun token => ?_
    · unfold KeycloakClient.adminToken
      refine (needs_send _).bind_free fun reply => ?_
      dsimp only
      split_ifs
      · trivial
      · exact .lift _
    · refine (needs_send _).bind (m := {.upstream}) fun reply => ?_
      dsimp only
      split_ifs
      · trivial
      · refine Prog.Within.lift_bind fun links _ => Prog.Within.lift_bind fun elements _ =>
          Prog.Within.lift_bind fun linked _ => ?_
        split_ifs
        · trivial
        · refine (needs_send _).bind_free fun reply => ?_
          split_ifs <;> trivial
  · cases x with
    | ok u => trivial
    | error e => cases e <;> trivial

theorem needs_trialExchange (caller : Caller) (e : ResourceEntry) (scopes : List Str) (tenant : Str) :
    Needs (svc.trialExchange caller e scopes tenant) grantEffort :=
  (needs_requestGrant svc e _ _ _).bind_free fun _ => .lift _

/-- The loops over the resources make one grant for each. -/
theorem needs_trialNamed (caller : Caller) (scopes : List Str) (tenant : Str) (urls : List Str) :
    Needs (svc.trialNamed caller scopes tenant urls) (urls.length • grantEffort) := by
  induction urls with
  | nil => trivial
  | cons url urls ih =>
      unfold PatService.trialNamed
      rw [List.length_cons, succ_nsmul']
      refine Prog.Within.lift_bind fun e _ => ?_
      refine (needs_trialExchange svc caller e scopes tenant).bind fun granted => ?_
      dsimp only
      split_ifs
      · trivial
      · exact ih

theorem needs_trialPermitted (caller : Caller) (tenant : Str) (permitted urls : List Str) :
    Needs (svc.trialPermitted caller tenant permitted urls) (urls.length • grantEffort) := by
  induction urls generalizing permitted with
  | nil => trivial
  | cons url urls ih =>
      unfold PatService.trialPermitted
      rw [List.length_cons, succ_nsmul']
      refine Prog.Within.lift_bind fun e _ => ?_
      exact (needs_trialExchange svc caller e permitted tenant).bind fun granted => ih _

theorem needs_grantedSet (caller : Caller) (request : CreateRequest) (tenant : Str) :
    Needs (svc.grantedSet caller request tenant) (request.resources.length • grantEffort) := by
  unfold PatService.grantedSet
  split_ifs
  · refine (needs_trialPermitted svc caller tenant _ _).bind_free fun permitted => ?_
    split_ifs <;> trivial
  · exact (needs_trialNamed svc caller _ tenant _).bind_free fun _ => trivial

theorem needs_create (caller : Caller) (request : CreateRequest) :
    Needs (svc.create caller request) ({.upstream, .upstream, .upstream} +
      (request.resources.length • grantEffort + {.clock, .random, .random, .table})) := by
  unfold PatService.create
  refine Prog.Within.lift_bind fun tenant _ => ?_
  refine (needs_linkOwner svc caller).bind fun _ => ?_
  refine (needs_grantedSet svc caller request tenant).bind fun scopes => ?_
  refine Needs.ask_bind (m := {.random, .random, .table}) fun now => ?_
  refine Needs.ask_bind (m := {.random, .table}) fun id => ?_
  refine Prog.Within.lift_bind fun expiresAt _ => ?_
  refine Needs.bind (n := {.random}) (m := {.table}) ?_ fun token => ?_
  · exact ⟨0, le_rfl, fun _ => .lift _⟩
  · refine Prog.Within.lift_bind fun hash _ => ?_
    exact Needs.ask_bind (m := 0) fun done => needs_statement_bind fun _ => trivial

/-- A body names no more resources than it lists. -/
theorem length_resources_le {body : BodyJson} {request : CreateRequest}
    (h : svc.parseCreate (PatApi.bodyOrNone body) = .ok request) :
    request.resources.length ≤ listedResources body := by
  obtain ⟨d, listed, hbody, hlisted, -, hurls⟩ := parseCreate_resources h
  obtain ⟨xs, hxs, hnodup, hmem⟩ := listed_spec hlisted
  have hlisted : (listed.map Json.str).length ≤ xs.length := by
    refine (List.Nodup.subperm (hnodup.map fun _ _ h => Json.str.inj h) fun x hx => ?_).length_le
    obtain ⟨a, ha, rfl⟩ := List.mem_map.mp hx
    exact (hmem a).mp ha
  rw [← (checkResources_eq_ok hurls).length_eq]
  unfold listedResources
  rw [hbody]
  dsimp only
  rw [hxs]
  simpa using hlisted

theorem needs_createFlow (authorization : Option Str) (body : BodyJson) :
    Needs (svc.createFlow authorization (PatApi.bodyOrNone body)) (effort (.createToken authorization body)) := by
  unfold PatService.createFlow
  refine (needs_authenticate svc authorization).bind fun caller => ?_
  refine Prog.Within.lift_bind fun request hrequest => ?_
  refine (needs_create svc caller request).mono ?_
  exact add_le_add_right (add_le_add_left (nsmul_le_nsmul_left zero_le (length_resources_le svc hrequest)) _) _

omit [Platform] in
theorem needs_answer {α : Type} {p : Run α} {n : Multiset Service} (hp : Needs p n) (f : α → Response) :
    Needs (PatApi.answer p f) n := by
  refine Needs.bind_free hp.attempt fun x => ?_
  cases x with
  | ok a => trivial
  | error e => cases e <;> trivial

end Management

theorem needs_manage (app : App) {route : PatService → Run Response} {n : Multiset Service}
    (h : ∀ svc, Needs (route svc) n) : Needs (app.manage route) n := by
  unfold App.manage
  cases app.patService with
  | none => trivial
  | some svc => exact h svc

theorem needs_handler (app : App) (req : Req) : Needs (app.handler req) (effort req) := by
  cases req with
  | register body => exact needs_register body
  | authorize params => exact needs_authorize app.config params
  | callback params => exact needs_callback app.config params
  | token form => exact needs_token app.config app.patService form
  | createToken authorization body =>
      exact needs_manage app fun svc => needs_answer (needs_createFlow svc authorization body) _
  | listTokens authorization =>
      refine needs_manage app fun svc => needs_answer ?_ _
      refine (needs_authenticate svc authorization).bind (m := {.table}) fun caller => ?_
      unfold PatService.list
      refine Needs.ask_bind (m := 0) fun found => ?_
      cases found <;> trivial
  | revokeToken tokenId authorization =>
      refine needs_manage app fun svc => needs_answer ?_ _
      refine (needs_authenticate svc authorization).bind (m := {.table}) fun caller => ?_
      unfold PatService.revoke
      cases uuidOf tokenId with
      | none => trivial
      | some id =>
          refine Needs.ask_bind (m := 0) fun done => needs_statement_bind fun r => ?_
          dsimp only
          split_ifs <;> trivial

/-! ### Runs -/

/-- What a process has asked for so far. -/
def askedBy (c : State) (pid : ℕ) : Multiset Service := spent asksFor (callsOf pid c.hist)

omit [Platform] in
theorem card_askedBy (c : State) (pid : ℕ) : (askedBy c pid).card = (callsOf pid c.hist).length := by
  unfold askedBy
  induction callsOf pid c.hist with
  | nil => rfl
  | cons x t ih => rw [spent_cons, Multiset.card_add, ih, List.length_cons, asksFor,
      Multiset.card_singleton, add_comm]

/-- **Every request is served within its budget**, however the requests interleave: it asks for no more
than that, and when it has asked for all of it, it has ended. -/
theorem request_budget {app : App} {acts : Schedule} {pid : ℕ} {req : Req}
    (hreq : Serves (app.run acts) pid req) :
    askedBy (app.run acts) pid ≤ effort req ∧
    ((callsOf pid (app.run acts).hist).length = (effort req).card → ∃ x, Ended (app.run acts) pid x) := by
  obtain ⟨p, hp, rfl⟩ := hreq
  obtain ⟨hspent, hmore⟩ := (proxy app).spent_le (needs_handler app) hp
  refine ⟨hspent, fun hall => ?_⟩
  cases hprog : p.prog with
  | ret r => exact ⟨.ok r, p, hp, hprog⟩
  | raise e => exact ⟨.error e, p, hp, hprog⟩
  | call o k =>
      have hle := Multiset.card_le_card (hmore o k hprog)
      rw [Multiset.card_add, asksFor, Multiset.card_singleton] at hle
      have hlen := card_askedBy (app.run acts) pid
      unfold askedBy at hlen
      change Multiset.card (spent asksFor (callsOf pid (app.run acts).hist)) + 1 ≤ _ at hle
      omega

/-- The first request of a schedule is served by the first process. -/
theorem serves_first (app : App) (req : Req) (acts : Schedule) : Serves (app.run (.start req :: acts)) 0 req := by
  obtain ⟨p, hp, hreq, -, -⟩ := ((proxy app).run_mono ⟨acts, rfl⟩ :
    _ ∧ ∀ pid p, ((proxy app).run [.start req]).procs[pid]? = some p → _).2 0 _ rfl
  exact ⟨p, hp, hreq⟩

omit [Platform] in
/-- The creation of a token, which takes eleven calls. -/
theorem request_budget_createRun :
    letI := Platform.plain
    askedBy (patApp.run createRun) 0 ≤ effort (.createToken bearer patBody) ∧
    ((callsOf 0 (patApp.run createRun).hist).length = (effort (.createToken bearer patBody)).card →
      ∃ x, Ended (patApp.run createRun) 0 x) := by
  let := Platform.plain
  exact request_budget (serves_first patApp (.createToken bearer patBody) _)

end CimdProxy
