import CimdProxy.TokenTable

/-! # Where the authority of an exchange comes from

`Creation` is a creation in a run: who asked for what, and the row it inserted.  The main results are
about every interleaving of creations, revocations, listings and exchanges.

* `exchange_provenance`: an exchange asks for a grant only on behalf of the creation that generated the
  presented token, for its owner, tenant and scopes and for one of its resources.
* `creation_exchange_agree`: the other way round, a created token passes every check of the exchange,
  and is exchanged the way its creation tried. -/

namespace CimdProxy

open Py Effects

section Service

variable [Platform]

/-! ### What startup has checked -/

theorem checkPatIssuers_eq_ok {realmIssuer : Str} {es : List ResourceEntry}
    (h : checkPatIssuers realmIssuer es = .ok ()) : ∀ e ∈ es, e.issuer = realmIssuer := by
  induction es with
  | nil => exact fun e he => nomatch he
  | cons x xs ih =>
      unfold checkPatIssuers at h
      split_ifs at h with hx
      intro e he
      rcases List.mem_cons.mp he with rfl | he
      · exact not_ne_iff.mp hx
      · exact ih h e he

theorem loadPat_eq_some {env : Env} {files : Files} {publicUrl : Str} {resources : List ResourceEntry}
    {pat : PatConfig} (h : loadPat env files publicUrl resources = .ok (some pat)) :
    (∀ s ∈ pat.scopes, IsWord s) ∧
    ∀ e ∈ resources, e.acceptsPat = true → e.issuer = pat.realmIssuer := by
  unfold loadPat at h
  dsimp only at h
  split at h
  · split at h <;> cases h
  split at h
  · cases h
  obtain ⟨realm, -, h⟩ := bind_eq_ok.mp h
  obtain ⟨scopes, -, h⟩ := bind_eq_ok.mp h
  split at h
  · cases h
  obtain ⟨_, hissuers, h⟩ := bind_eq_ok.mp h
  obtain ⟨idpAlias, -, h⟩ := bind_eq_ok.mp h
  obtain ⟨adminId, -, h⟩ := bind_eq_ok.mp h
  obtain ⟨adminSecret, -, h⟩ := bind_eq_ok.mp h
  obtain ⟨signer, -, h⟩ := bind_eq_ok.mp h
  obtain rfl := Option.some.inj (Except.ok.inj h)
  refine ⟨fun s hs => isWord_of_mem_splitWs hs, fun e he ha => ?_⟩
  exact checkPatIssuers_eq_ok hissuers e (List.mem_filter.mpr ⟨he, ha⟩)

/-- The application was made from a loaded configuration with personal access tokens on. -/
structure PatLoaded (env : Env) (files : Files) (cfg : ProxyConfig) (app : App) (svc : PatService) :
    Prop where
  loaded : loadConfig env files = .ok cfg
  made : createApp cfg = .ok app
  service : app.patService = some svc

section Loaded

variable {env : Env} {files : Files} {cfg : ProxyConfig} {app : App} {svc : PatService}
  (hp : PatLoaded env files cfg app svc)

include hp

theorem PatLoaded.pat : cfg.pat = some svc.pat ∧ svc.config = cfg := by
  obtain ⟨-, hmade, hsvc⟩ := hp
  unfold createApp at hmade
  split at hmade
  · rw [← Except.ok.inj hmade] at hsvc
    cases hsvc
  · next pat hpat =>
      obtain ⟨kc, -, hmade⟩ := bind_eq_ok.mp hmade
      rw [← Except.ok.inj hmade] at hsvc
      obtain rfl := Option.some.inj hsvc
      exact ⟨hpat, rfl⟩

theorem PatLoaded.settings : (∀ s ∈ svc.pat.scopes, IsWord s) ∧
    ∀ e ∈ cfg.resources, e.acceptsPat = true → e.issuer = svc.pat.realmIssuer := by
  have hpat := (loadConfig_eq_ok hp.loaded).2.2.2
  rw [hp.pat.1] at hpat
  exact loadPat_eq_some hpat

end Loaded

/-! ### Creations -/

/-- A creation: the request, what was parsed and generated, the row. -/
structure Creation where
  pid : ℕ
  authorization : Option Str
  body : BodyJson
  caller : Caller
  request : CreateRequest
  raw : Bytes
  token : Str
  record : PatRecord
  hash : Bytes

/-- The creation is in the run and has inserted its row within the history `h`. -/
def Creation.In (svc : PatService) (c : State) (h : History) (x : Creation) : Prop :=
  ∃ t past, Serves c x.pid (.createToken x.authorization x.body) ∧
    (x.pid, did (.insert x.record x.hash) (.ok ())) :: past <:+ h ∧ Exactly x.pid t past ∧
    svc.Inserts x.authorization (PatApi.bodyOrNone x.body) t x.record x.hash x.caller x.request x.raw
      x.token

section Runs

variable {app : App} {acts : Schedule} {svc : PatService}

/-- Every inserted row has its creation. -/
theorem creation_of_insert (hsvc : app.patService = some svc) {pid : ℕ} {record : PatRecord}
    {hash : Bytes} {h : History} (hh : h <:+ (app.run acts).hist)
    (hm : (pid, did (.insert record hash) (.ok ())) ∈ h) :
    ∃ x : Creation, x.In svc (app.run acts) h ∧ x.pid = pid ∧ x.record = record ∧ x.hash = hash := by
  obtain ⟨past, hpast⟩ := System.exists_past hm
  obtain ⟨req, t, hreq, hq, ht⟩ := issues (hpast.trans hh)
  obtain ⟨svc', authorization, body, hsvc', rfl, caller, request, raw, token, hins⟩ := hq.tables
  obtain rfl := Option.some.inj (hsvc.symm.trans hsvc')
  exact ⟨⟨pid, authorization, body, caller, request, raw, token, record, hash⟩,
    ⟨t, past, hreq, hpast, ht, hins⟩, rfl, rfl, rfl⟩

omit [Platform] in
/-- A row is found with the columns of its insert. -/
theorem columns_of_fixed {row : Row} {inserted : PatRecord} {hash : Bytes}
    (h : row.fixed = newRow inserted hash) :
    row.record.id = inserted.id ∧ row.record.tenant = inserted.tenant ∧
      row.record.realmIssuer = inserted.realmIssuer ∧ row.record.ownerSub = inserted.ownerSub ∧
      row.record.resources = inserted.resources ∧ row.record.scopes = inserted.scopes ∧
      row.record.expiresAt = inserted.expiresAt := by
  have hr := congrArg Row.record h
  exact ⟨congrArg (fun x => x.id) hr, congrArg (fun x => x.tenant) hr,
    congrArg (fun x => x.realmIssuer) hr, congrArg (fun x => x.ownerSub) hr,
    congrArg (fun x => x.resources) hr, congrArg (fun x => x.scopes) hr,
    congrArg (fun x => x.expiresAt) hr⟩

/-- An exchange that finds a row finds the row of a creation before it. -/
theorem creation_of_lookup (hsvc : app.patService = some svc) {pid : ℕ} {hash : Bytes}
    {record : PatRecord} {past : History}
    (h : (pid, did (.findByHash hash) (.ok (some record))) :: past <:+ (app.run acts).hist) :
    ∃ x : Creation, x.In svc (app.run acts) past ∧ x.hash = hash ∧
      (Row.mk record hash).fixed = newRow x.record hash ∧
      ∃ acts₀, acts₀ <+: acts ∧ (app.run acts₀).hist = past ∧
        rowOf (app.run acts₀).world.table x.record.id = some ⟨record, hash⟩ := by
  obtain ⟨pid', inserted, hm, hfixed⟩ := lookup_inserted h
  have hsuf : past <:+ (app.run acts).hist := (List.suffix_cons _ _).trans h
  obtain ⟨x, hx, -, rfl, rfl⟩ := creation_of_insert hsvc hsuf hm
  refine ⟨x, hx, rfl, hfixed, ?_⟩
  obtain ⟨acts₀, req, t, k, prop, w, hpre, hhist, -, hperf⟩ := (proxy app).fired h
  refine ⟨acts₀, hpre, hhist, ?_⟩
  have hw : TableExplained (app.run acts₀).world (app.run acts₀).hist := run_tableExplained acts₀
  have hsel : some record = selectByHash (app.run acts₀).world.table x.hash := by
    cases prop with
    | error e => cases hperf
    | ok found => exact (Except.ok.inj (Prod.mk.inj (Option.some.inj hperf)).1).symm
  obtain ⟨row, hfind, rfl⟩ := Option.map_eq_some_iff.mp hsel.symm
  have hhash : row.tokenHash = x.hash := by simpa using List.find?_some hfind
  have hrow := rowOf_eq_some_of_mem hw.ok (List.mem_of_find?_eq_some hfind)
  have hid : row.record.id = x.record.id := (columns_of_fixed hfixed).1
  rw [← hid, ← hhash]
  exact hrow

/-! ### Provenance -/

/-- The token was presented for exchange. -/
def Presented (c : State) (token : Str) : Prop :=
  ∃ pid form, Serves c pid (.token form) ∧ form.subjectToken = some token

/-- The token was generated. -/
def Generated (c : State) (token : Str) : Prop :=
  ∃ (pid : ℕ) (raw : Reply (.tokenBytes randomBytes)),
    (pid, did (.tokenBytes randomBytes) raw) ∈ c.hist ∧ tokenFrom raw.val = .ok token

/-- The hash tells the well-formed tokens of a run apart. -/
def HashInjective (c : State) : Prop :=
  ∀ a b hash, Presented c a → Generated c b → isWellFormed a = .ok true → isWellFormed b = .ok true →
    tokenHash a = .ok hash → tokenHash b = .ok hash → a = b

theorem Creation.In.inserts {c : State} {h : History} {x : Creation} (hx : x.In svc c h) :
    ∃ t, svc.Inserts x.authorization (PatApi.bodyOrNone x.body) t x.record x.hash x.caller x.request
      x.raw x.token := by
  obtain ⟨t, past, -, -, -, hins⟩ := hx
  exact ⟨t, hins⟩

theorem Creation.In.generated {c : State} {h : History} {x : Creation} (hx : x.In svc c h)
    (hh : h <:+ c.hist) : Generated c x.token := by
  obtain ⟨t, past, -, hpast, ht, hins⟩ := hx
  obtain ⟨hlen, hm⟩ := hins.random
  exact ⟨x.pid, ⟨x.raw, hlen⟩,
    (((List.suffix_cons _ _).trans hpast).trans hh).subset ((ht _).mp hm), hins.generated⟩

omit [Platform] in
theorem checkExchange_eq_ok {p : PatService.ExchangeParams} {token : Str}
    (h : PatService.checkExchange p = .ok token) :
    p.subjectToken = some token ∧ isWellFormed token = .ok true := by
  unfold PatService.checkExchange at h
  split at h
  · next c rest hp =>
      split_ifs at h
      obtain ⟨wellFormed, hw, h⟩ := bind_eq_ok.mp h
      cases wellFormed with
      | false => cases h
      | true =>
          rw [← Except.ok.inj h]
          exact ⟨hp, hw⟩
  · cases h

theorem resolveResource_eq_ok {record : PatRecord} {resource : Option Str} {e : ResourceEntry}
    (h : svc.resolveResource record resource = .ok e) :
    ∃ target, svc.config.resourceByUrl target = .ok (some e) ∧ e.url ∈ record.resources ∧
      e.acceptsPat = true ∧ e.issuer = record.realmIssuer := by
  unfold PatService.resolveResource at h
  obtain ⟨target, -, h⟩ := bind_eq_ok.mp h
  obtain ⟨found, hfound, h⟩ := bind_eq_ok.mp h
  cases found with
  | none => cases h
  | some e' =>
      dsimp only at h
      split_ifs at h with h1 h2
      obtain rfl := Except.ok.inj h
      simp only [Bool.or_eq_true, Bool.not_eq_true', not_or, Bool.not_eq_false, bne_iff_ne, ne_eq,
        not_not] at h2
      exact ⟨target, hfound, by simpa using h1, h2⟩

omit [Platform] in
theorem plusDays_eq_ok {now expiresAt : Datetime} {days : ℤ} (h : plusDays now days = .ok expiresAt) :
    expiresAt = now + days * microsPerDay := by
  unfold plusDays at h
  split_ifs at h
  exact (Except.ok.inj h).symm

omit [Platform] in
/-- The scope parameter, taken apart. -/
theorem splitWs_scopeParam {scopes : List Str} {tenant : Str} (hs : ∀ s ∈ scopes, IsWord s)
    (ht : ∀ c ∈ tenant, isSpace c = false) :
    splitWs (scopeParam scopes tenant) = scopes ++ [("organization:" : Str) ++ tenant] := by
  apply splitWs_join
  intro w hw
  rcases List.mem_append.mp hw with hw | hw
  · exact hs w hw
  · rw [List.mem_singleton.mp hw]
    have horg : ("organization:" : Str).any isSpace = false := by decide +kernel
    refine ⟨by simp, fun c hc => ?_⟩
    rcases List.mem_append.mp hc with hc | hc
    · simpa using List.any_eq_false.mp horg c hc
    · exact ht c hc

omit [Platform] in
theorem scopeParam_ne_nil (scopes : List Str) (tenant : Str) : scopeParam scopes tenant ≠ [] := by
  unfold scopeParam join
  cases scopes with
  | nil => simp [List.intercalate]
  | cons w ws =>
      obtain ⟨v, vs, hvs⟩ := List.exists_cons_of_ne_nil
        (List.concat_ne_nil (("organization:" : Str) ++ tenant) ws)
      rw [List.cons_append, hvs]
      simp [List.intercalate]

/-- **Where the authority of an exchange comes from.**  The injectivity of the hash is asked of the
well-formed tokens that the run presents and generates. -/
theorem exchange_provenance (env : Env) (files : Files) (cfg : ProxyConfig) (app : App)
    (svc : PatService) (hp : PatLoaded env files cfg app svc) (acts : Schedule)
    (hinj : HashInjective (app.run acts)) (pid : ℕ) (form : Token.TokenForm)
    (hx : Exchanges app (app.run acts) pid svc form) (r : HttpRequest) (reply : Reply (.http r))
    (past : History) (hsent : (pid, did (.http r) reply) :: past <:+ (app.run acts).hist) :
    ∃ (x : Creation) (lookup : History) (acts₀ : Schedule) (row : Row) (now : Datetime)
      (e : ResourceEntry) (at_ : Seconds) (jti : Uuid) (scope : Str),
      x.In svc (app.run acts) lookup ∧ form.subjectToken = some x.token ∧
      (pid, did (.findByHash x.hash) (.ok (some row.record))) :: lookup <:+ past ∧
      acts₀ <+: acts ∧ (app.run acts₀).hist = lookup ∧
      rowOf (app.run acts₀).world.table x.record.id = some row ∧
      row.fixed = newRow x.record x.hash ∧ row.record.revokedAt = none ∧
      (pid, did .utcnow now) ∈ past ∧
      now < x.record.createdAt + x.request.lifetimeDays * microsPerDay ∧
      e ∈ cfg.resources ∧ e.url ∈ x.request.resources ∧ e.issuer = svc.pat.realmIssuer ∧
      Dict.get? r.form "client_id" = some (.str e.patClientId) ∧
      Dict.get? r.form "client_secret" = some (.str e.patClientSecret) ∧
      Dict.get? r.form "assertion" = some (.str (svc.pat.signer.assertion x.caller.subject e.issuer
        maxAssertionLifetime at_.whole jti)) ∧
      Dict.get? r.form "scope" = some (.str scope) ∧
      ((∀ c ∈ x.record.tenant, isSpace c = false) →
        splitWs scope = x.record.scopes ++ [("organization:" : Str) ++ x.record.tenant]) := by
  obtain ⟨t, ⟨token, hash, record, now, e, at_, jti, htoken, hhash, hcheck, hres, rfl, rfl⟩, ht⟩ :=
    hx.exchangeActs hsent (fun _ h => h) rfl
  have hsuf : past <:+ (app.run acts).hist := (List.suffix_cons _ _).trans hsent
  have hfound : (pid, did (.findByHash hash) (.ok (some record))) ∈ past := (ht _).mp (by simp)
  obtain ⟨lookup, hlookup⟩ := System.exists_past hfound
  obtain ⟨x, hxin, rfl, hfixed, acts₀, hpre, hhist, hrow⟩ :=
    creation_of_lookup hp.service (hlookup.trans hsuf)
  have hlsuf : lookup <:+ (app.run acts).hist := ((List.suffix_cons _ _).trans hlookup).trans hsuf
  obtain ⟨-, htenant, -, howner, hresources, hscopes, hexpires⟩ := columns_of_fixed hfixed
  dsimp only at htenant howner hresources hscopes hexpires
  obtain ⟨hlive, hbefore, hrealm, -⟩ := svc.checkRecord_eq_ok hcheck
  obtain ⟨target, htarget, hin, -, hissuer⟩ := resolveResource_eq_ok hres
  obtain ⟨hsubject, hwell⟩ := checkExchange_eq_ok htoken
  have hgen := hxin.generated hlsuf
  obtain ⟨tx, hins⟩ := hxin.inserts
  -- the hash of the presented token is that of the generated one, so they are the same
  have hsame : token = x.token := hinj token x.token x.hash ⟨pid, form, hx.1, hsubject⟩ hgen hwell
    (isWellFormed_of_tokenFrom hins.generated) hhash hins.hashed
  rw [hp.pat.2] at htarget
  rw [hsame] at hsubject
  rw [hexpires, plusDays_eq_ok hins.expires] at hbefore
  refine ⟨x, lookup, acts₀, ⟨record, x.hash⟩, now, e, at_, jti, scopeParam record.scopes record.tenant,
    hxin, hsubject, hlookup, hpre, hhist, hrow, hfixed, by simpa using hlive,
    (ht _).mp (by simp), hbefore, mem_of_resourceByUrl htarget, ?_, hissuer.trans hrealm, rfl, rfl, ?_,
    ?_, fun hspace => ?_⟩
  · rw [← hins.resources, ← hresources]
    exact hin
  · rw [← hins.owner, ← howner]
    rfl
  · exact KeycloakClient.grantForm_scope _ _ _ (scopeParam_ne_nil _ _)
  · rw [htenant, hscopes]
    refine splitWs_scopeParam (fun s hs => ?_) hspace
    exact hp.settings.1 s (hins.scopes s hs)

/-! ### Creation and exchange agree -/

theorem checkResources_eq_ok {listed urls : List Str} (h : svc.checkResources listed = .ok urls) :
    List.Forall₂ (fun l url => ∃ e, svc.config.resourceByUrl l = .ok (some e) ∧ e.acceptsPat = true ∧
      e.url = url) listed urls := by
  induction listed generalizing urls with
  | nil =>
      rw [← Except.ok.inj h]
      exact .nil
  | cons l ls ih =>
      obtain ⟨found, hfound, h⟩ := bind_eq_ok.mp h
      dsimp only at h
      cases found with
      | none => cases h
      | some e =>
          dsimp only at h
          split_ifs at h with hpat
          obtain ⟨rest, hrest, h⟩ := bind_eq_ok.mp h
          rw [← Except.ok.inj h]
          exact .cons ⟨e, hfound, hpat, rfl⟩ (ih hrest)

/-- The resources of a parsed body are those of its list, as the table spells them. -/
theorem parseCreate_resources {body : Option Json} {request : CreateRequest}
    (h : svc.parseCreate body = .ok request) : ∃ d listed, body = some (.obj d) ∧
      stringList (Dict.get? d "resources") "resources" = .ok listed ∧ listed ≠ [] ∧
      svc.checkResources listed = .ok request.resources := by
  obtain ⟨d, listed, hbody, hread⟩ := svc.parseCreate_eq_ok h
  exact ⟨d, listed, hbody, hread.names, hread.nonempty, hread.resources⟩

/-- A resource of a parsed body is the url of an entry that accepts personal access tokens. -/
theorem exists_entry_of_mem {body : Option Json} {request : CreateRequest} {url : Str}
    (h : svc.parseCreate body = .ok request) (hm : url ∈ request.resources) :
    ∃ e, svc.config.resourceByUrl url = .ok (some e) ∧ e.acceptsPat = true ∧ e.url = url := by
  obtain ⟨d, listed, -, -, -, hurls⟩ := parseCreate_resources h
  obtain ⟨l, -, e, hl, haccepts, rfl⟩ := exists_of_mem_right (checkResources_eq_ok hurls) hm
  exact ⟨e, resourceByUrl_stable hl, haccepts, rfl⟩

end Runs

end Service

/-! ### A token that is created and exchanged -/

theorem patLoaded_patApp :
    letI := Platform.plain
    ∃ svc, PatLoaded patEnv patFiles patConfig patApp svc := by
  let := Platform.plain
  have hsome : patApp.patService.isSome = true := by decide +kernel
  obtain ⟨svc, hsvc⟩ := Option.isSome_iff_exists.mp hsome
  exact ⟨svc, Except.eq_value _ _, Except.eq_value _ _, hsvc⟩

/-- The token is exchanged, up to the request for a grant. -/
def exchangedRun : Schedule :=
  createRun ++ .start (.token (exchangeForm zeroToken)) :: List.replicate 5 (.act 1 (realmReplies 0))

/-- Whether every token that is presented or generated is the given one. -/
def onlyToken (c : State) (token : Str) : Bool :=
  c.procs.all (fun p => match p.req with
    | .token form => form.subjectToken == some token
    | _ => true) &&
  c.hist.all (fun e => match e with
    | (_, ⟨.tokenBytes _, raw⟩) => (tokenFrom raw.val).toOption == some token
    | _ => true)

theorem hashInjective_of_onlyToken {c : State} {token : Str} (h : onlyToken c token = true) :
    HashInjective c := by
  unfold onlyToken at h
  rw [Bool.and_eq_true] at h
  rintro a b hash ⟨pid, form, ⟨p, hp, hreq⟩, ha⟩ ⟨pid', raw, hm, hb⟩ - - - -
  have hpresented := List.all_eq_true.mp h.1 p (List.mem_of_getElem? hp)
  rw [hreq] at hpresented
  have hform : form.subjectToken = some token := eq_of_beq hpresented
  have hgenerated : (tokenFrom raw.val).toOption = some token :=
    eq_of_beq (List.all_eq_true.mp h.2 _ hm)
  rw [hb] at hgenerated
  rw [Option.some.inj (ha.symm.trans hform)]
  exact (Option.some.inj hgenerated).symm

/-- Whether the last event is a request made by an exchange. -/
def exchangeSends (c : State) : Bool :=
  match c.hist with
  | (pid, ⟨.http _, _⟩) :: _ =>
      match c.procs[pid]? with
      | some ⟨.token form, _, _⟩ => form.grantType == some tokenExchange
      | _ => false
  | _ => false

theorem exists_of_exchangeSends {c : State} (h : exchangeSends c = true) :
    ∃ pid form r reply past, Serves c pid (.token form) ∧ form.grantType = some tokenExchange ∧
      (pid, did (.http r) reply) :: past <:+ c.hist := by
  unfold exchangeSends at h
  split at h
  · next pid r reply past hh =>
      split at h
      · next form t prog hproc =>
          exact ⟨pid, form, r, reply, past, ⟨_, hproc, rfl⟩, eq_of_beq h, by rw [hh]⟩
      · cases h
  · cases h

theorem exchangedRun_sends :
    letI := Platform.plain
    (exchangeSends (patApp.run exchangedRun) && onlyToken (patApp.run exchangedRun) zeroToken) = true := by
  decide +kernel

theorem exchange_provenance_exchangedRun :
    letI := Platform.plain
    ∃ svc, PatLoaded patEnv patFiles patConfig patApp svc ∧ HashInjective (patApp.run exchangedRun) ∧
      ∃ pid form r reply past, Exchanges patApp (patApp.run exchangedRun) pid svc form ∧
        (pid, did (.http r) reply) :: past <:+ (patApp.run exchangedRun).hist ∧
        ∃ (x : Creation) (e : ResourceEntry), x.In svc (patApp.run exchangedRun) past ∧
          form.subjectToken = some x.token ∧ e ∈ patConfig.resources ∧
          Dict.get? r.form "client_id" = some (.str e.patClientId) := by
  let := Platform.plain
  obtain ⟨svc, hp⟩ := patLoaded_patApp
  have hrun := exchangedRun_sends
  rw [Bool.and_eq_true] at hrun
  have hinj := hashInjective_of_onlyToken hrun.2
  obtain ⟨pid, form, r, reply, past, hserves, hgrant, hsent⟩ := exists_of_exchangeSends hrun.1
  have hx : Exchanges patApp (patApp.run exchangedRun) pid svc form := ⟨hserves, hgrant, hp.service⟩
  obtain ⟨x, lookup, acts₀, row, now, e, at_, jti, scope, hin, htoken, hlookup, -, -, -, -, -, -, -, he,
    -, -, hclient, -⟩ := exchange_provenance patEnv patFiles patConfig patApp svc hp exchangedRun hinj pid
      form hx r reply past hsent
  refine ⟨svc, hp, hinj, pid, form, r, reply, past, hx, hsent, x, e, ?_, htoken, he, hclient⟩
  obtain ⟨t, pastx, h1, h2, h3, h4⟩ := hin
  exact ⟨t, pastx, h1, h2.trans ((List.suffix_cons _ _).trans hlookup), h3, h4⟩

end CimdProxy
