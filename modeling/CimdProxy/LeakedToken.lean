import CimdProxy.Provenance

/-! # What a leaked token is worth

Someone who holds personal access tokens may present them, present what an exchange returned, or
present any other string that is not an access token of an interactive session.
`leaked_token_cannot_manage` says that none of it manages tokens: whatever the rest of the run does,
the calls are refused, and the requests leave the token table as it is but for the last use. -/

namespace CimdProxy

open Py Effects

/-- What a management request presents. -/
def Req.credential : Req → Option Str
  | .createToken authorization _ => some (PatService.credentialOf authorization)
  | .listTokens authorization => some (PatService.credentialOf authorization)
  | .revokeToken _ authorization => some (PatService.credentialOf authorization)
  | _ => none

/-! ### The upstream -/

/-- Whether a claim of an introspection is there and counts as true. -/
def claimed (claims : Dict) (name : Str) : Bool := ((Dict.get? claims name).map truthy).getD false

section Upstream

variable [Platform]

/-- The upstream answered the introspection of `token` with these claims. -/
def Reported (svc : PatService) (h : History) (token : Str) (claims : Dict) : Prop :=
  ∃ (pid : ℕ) (v : JsonValue), v.val = .obj claims ∧
    (pid, did (.http (svc.keycloak.introspectRequest token))
      (HttpOutcome.response 200 (.value v))) ∈ h

/-- The upstream answered a JWT Authorization Grant with this access token. -/
def Granted (h : History) (token : Str) : Prop :=
  ∃ (pid : ℕ) (r : HttpRequest) (status : ℕ) (v : JsonValue) (payload : Dict), r.isGrant = true ∧
    v.val = .obj payload ∧ Dict.get? payload "access_token" = some (.str token) ∧
    (pid, did (.http r) (HttpOutcome.response status (.value v))) ∈ h

/-- What the upstream is trusted for; `interactive` are the access tokens it issued to interactive
sessions. -/
structure HonestUpstream (svc : PatService) (interactive : Str → Prop) (h : History) : Prop where
  /-- A token of the JWT Authorization Grant has no session. -/
  granted : ∀ token claims, Granted h token → Reported svc h token claims →
    claimed claims "active" = true → claimed claims "sid" = false
  /-- Only an access token of an interactive session is reported as an active access token with a
  session. -/
  interactive : ∀ token claims, Reported svc h token claims → claimed claims "active" = true →
    isStr (Dict.get? claims "typ") "Bearer" = true → claimed claims "sid" = true → interactive token

/-- What can be presented without an access token of an interactive session: a personal access token,
the access token an exchange returned, or anything else. -/
def Presentable (app : App) (c : State) (interactive : Str → Prop) (token : Str) : Prop :=
  isWellFormed token = .ok true ∨
  (∃ pid svc form payload, Exchanges app c pid svc form ∧
    Answered c pid (Token.exchangeAnswer payload) ∧
    Dict.get? payload "access_token" = some (.str token)) ∨
  ¬ interactive token

variable {app : App} {svc : PatService} {acts : Schedule}

/-- The claims of a caller. -/
theorem readClaims_eq_ok {claims : Json} {caller : Caller} (h : svc.readClaims claims = .ok caller) :
    ∃ d, claims = .obj d ∧ claimed d "active" = true ∧ isStr (Dict.get? d "typ") "Bearer" = true ∧
      claimed d "sid" = true := by
  unfold PatService.readClaims at h
  split at h
  · next d =>
      split at h
      · cases h
      next hactive =>
        split at h
        · split at h
          · cases h
          split at h
          · cases h
          next htyp =>
            split at h
            · cases h
            next hsid =>
              rw [Bool.or_eq_true, not_or] at htyp
              exact ⟨d, rfl, by simpa [claimed] using hactive, by simpa using htyp.1,
                by simpa [claimed] using hsid⟩
        · cases h
  · cases h

/-- An exchange hands on the access token of a grant. -/
theorem granted_of_exchanged {pid : ℕ} {form : Token.TokenForm} {payload : Dict} {token : Str}
    (hx : Exchanges app (app.run acts) pid svc form)
    (ha : Answered (app.run acts) pid (Token.exchangeAnswer payload))
    (htoken : Dict.get? payload "access_token" = some (.str token)) :
    Granted (app.run acts).hist token := by
  obtain ⟨t, ht, hc⟩ := ended_concludes hx.1 ha
  obtain ⟨hash, record, now, at_, jti, r, pl, v, hgrant, hv, rfl, rfl⟩ :=
    (hc.succeeds hx.2.1 payload rfl).succeeds payload rfl
  refine ⟨pid, r, 200, v, pl, hgrant, hv, ?_, (ht _).mp (by simp [PatService.grantTrace])⟩
  unfold PatService.exchangedPayload at htoken
  rwa [Dict.get?_set (by decide), Dict.get?_pop (by decide), Dict.get?_pop (by decide)] at htoken

/-- Nobody is authenticated by what is presentable. -/
theorem not_authenticated {interactive : Str → Prop}
    (hup : HonestUpstream svc interactive (app.run acts).hist) {authorization : Option Str}
    (hpres : Presentable app (app.run acts) interactive (PatService.credentialOf authorization))
    {pid : ℕ} {t : Trace proxyOps} (ht : Within pid t (app.run acts).hist) {caller : Caller} :
    ¬ svc.Authenticated authorization t caller := by
  rintro ⟨hpat, v, hm, hclaims⟩
  obtain ⟨d, hd, hactive, htyp, hsid⟩ := readClaims_eq_ok hclaims
  have hreported : Reported svc (app.run acts).hist (PatService.credentialOf authorization) d :=
    ⟨pid, v, hd, ht _ hm⟩
  rcases hpres with hwell | ⟨pid', svc', form, payload, hx, ha, htoken⟩ | hother
  · rw [hpat] at hwell
    cases hwell
  · have := hup.granted _ d (granted_of_exchanged hx ha htoken) hreported hactive
    rw [hsid] at this
    cases this
  · exact hother (hup.interactive _ d hreported hactive htyp hsid)

/-! ### Refusals -/

/-- A well-formed personal access token is refused by the first check. -/
theorem authenticate_of_wellFormed {authorization : Option Str}
    (hw : isWellFormed (PatService.credentialOf authorization) = .ok true) :
    ∃ status error description, 400 ≤ status ∧
      svc.authenticate authorization = .raise (.management status error description) := by
  unfold PatService.credentialOf at hw
  unfold PatService.authenticate
  dsimp only
  split
  · exact ⟨401, _, _, by decide, rfl⟩
  · rw [hw]
    exact ⟨403, _, _, by decide, rfl⟩

/-- So the request is answered before it does anything. -/
theorem handler_of_wellFormed (hsvc : app.patService = some svc) {req : Req} {token : Str}
    (hreq : req.credential = some token) (hw : isWellFormed token = .ok true) :
    ∃ r, app.handler req = .ret r ∧ 400 ≤ r.status := by
  have key : ∀ {α : Type} {authorization : Option Str} (rest : Caller → Run α) (f : α → Response),
      isWellFormed (PatService.credentialOf authorization) = .ok true →
      ∃ r, PatApi.answer (svc.authenticate authorization >>= rest) f = .ret r ∧ 400 ≤ r.status := by
    intro α authorization rest f hw
    obtain ⟨status, error, description, hs, he⟩ : ∃ status error description, 400 ≤ status ∧
        svc.authenticate authorization = .raise (.management status error description) :=
      authenticate_of_wellFormed hw
    rw [he]
    exact ⟨_, rfl, hs⟩
  cases req with
  | createToken authorization body =>
      obtain rfl := Option.some.inj hreq
      change ∃ r, app.manage _ = .ret r ∧ _
      unfold App.manage
      rw [hsvc]
      exact key _ _ hw
  | listTokens authorization =>
      obtain rfl := Option.some.inj hreq
      change ∃ r, app.manage _ = .ret r ∧ _
      unfold App.manage
      rw [hsvc]
      exact key _ _ hw
  | revokeToken tokenId authorization =>
      obtain rfl := Option.some.inj hreq
      change ∃ r, app.manage _ = .ret r ∧ _
      unfold App.manage
      rw [hsvc]
      exact key _ _ hw
  | register body => cases hreq
  | authorize params => cases hreq
  | callback params => cases hreq
  | token form => cases hreq

/-- A process that was answered at once makes no call. -/
theorem answered_at_once {pid : ℕ} {req : Req} {r : Response} (hserves : Serves (app.run acts) pid req)
    (hr : app.handler req = .ret r) :
    (∀ c, (pid, c) ∉ (app.run acts).hist) ∧ Answered (app.run acts) pid r := by
  have hsat : ∀ req', (app.handler req').Sat (fun _ _ => req' ≠ req)
      (fun t x => req' = req → t = [] ∧ x = .ok r) [] := by
    intro req'
    by_cases he : req' = req
    · rw [he, hr]
      exact fun _ => ⟨rfl, rfl⟩
    · exact (Prog.sat_true _ _).mono (fun _ _ _ => he) (fun _ _ _ h => absurd h he)
  obtain ⟨p, hp, hreq⟩ := hserves
  rcases (proxy app).ended hsat hp with ⟨a, ha, h⟩ | ⟨e, -, h⟩ | ⟨o, k, -, h⟩
  · obtain ⟨htrace, hok⟩ := h hreq
    refine ⟨fun c hm => ?_, p, hp, by rw [ha, Except.ok.inj hok]; rfl⟩
    obtain ⟨p', hp', hc⟩ := ((proxy app).trace_iff_hist acts pid c).mp hm
    obtain rfl := Option.some.inj (hp.symm.trans hp')
    rw [htrace] at hc
    cases hc
  · exact nomatch (h hreq).2
  · exact absurd hreq h

/-- How a management request ends. -/
theorem manages_of_credential {req : Req} {token : Str} (hreq : req.credential = some token)
    {t : Trace proxyOps} {x : Except Exc Response} (h : app.Concludes req t x) :
    ∃ authorization, PatService.credentialOf authorization = token ∧ app.Manages authorization t x := by
  cases req with
  | createToken authorization body => exact ⟨authorization, Option.some.inj hreq, h⟩
  | listTokens authorization => exact ⟨authorization, Option.some.inj hreq, h⟩
  | revokeToken tokenId authorization => exact ⟨authorization, Option.some.inj hreq, h⟩
  | register body => cases hreq
  | authorize params => cases hreq
  | callback params => cases hreq
  | token form => cases hreq

/-! ### The table -/

/-- A row without its last use. -/
def Row.unused (r : Row) : Row := { r with record := { r.record with lastUsedAt := none } }

/-- The statements that change more than the last use. -/
def Op.isManaging : Op → Bool
  | .insert _ _ => true
  | .revoke _ _ _ => true
  | _ => false

omit [Platform] in
theorem unused_perform {w w' : World} {o : Op} {p r : Reply o} (h : w.perform o p = some (r, w'))
    (ho : o.isManaging = false) : w'.table.map Row.unused = w.table.map Row.unused := by
  rcases World.perform_table h with ht | ⟨record, hash, hc, -, ht⟩ | ⟨realm, owner, id, at_, hc, ht⟩ |
    ⟨id, at_, -, ht⟩
  · rw [ht]
  · cases hc
    cases ho
  · cases hc
    cases ho
  · rw [ht]
    unfold updateLastUsed
    rw [List.map_map]
    refine List.map_congr_left (fun x _ => ?_)
    change Row.unused (if x.record.id == id then _ else x) = Row.unused x
    split_ifs <;> rfl

/-- Only an authenticated caller changes more than the last use. -/
theorem managing_authenticated (hsvc : app.patService = some svc) {pid : ℕ} {o : Op} {r : Reply o}
    {past : History} (h : (pid, did o r) :: past <:+ (app.run acts).hist) (ho : o.isManaging = true) :
    ∃ req authorization t caller, Serves (app.run acts) pid req ∧
      req.credential = some (PatService.credentialOf authorization) ∧ Within pid t past ∧
      svc.Authenticated authorization t caller := by
  obtain ⟨req, t, hreq, hq, ht⟩ := issues h
  have htables := hq.tables
  cases o with
  | insert record hash =>
      obtain ⟨svc', authorization, body, hsvc', rfl, caller, request, raw, token, hins⟩ := htables
      obtain rfl := Option.some.inj (hsvc.symm.trans hsvc')
      exact ⟨_, authorization, t, caller, hreq, rfl, ht.within, hins.vouched⟩
  | revoke realm owner id =>
      obtain ⟨svc', tokenId, authorization, hsvc', rfl, -, caller, hauth, -⟩ := htables
      obtain rfl := Option.some.inj (hsvc.symm.trans hsvc')
      exact ⟨_, authorization, t, caller, hreq, rfl, ht.within, hauth⟩
  | _ => cases ho

/-! ### The main result -/

/-- **A leaked token cannot manage tokens.**  `attacker` are the processes of the attacker; the others
are anybody's.  The upstream is trusted as `HonestUpstream` says. -/
theorem leaked_token_cannot_manage (app : App) (svc : PatService) (hsvc : app.patService = some svc)
    (acts : Schedule) (interactive : Str → Prop)
    (hup : HonestUpstream svc interactive (app.run acts).hist) (attacker : ℕ → Prop)
    (hpresents : ∀ pid req token, attacker pid → Serves (app.run acts) pid req →
      req.credential = some token → Presentable app (app.run acts) interactive token) :
    (∀ pid req token, attacker pid → Serves (app.run acts) pid req → req.credential = some token →
      (∀ r, Answered (app.run acts) pid r → 400 ≤ r.status) ∧
      (isWellFormed token = .ok true → (∀ c, (pid, c) ∉ (app.run acts).hist) ∧
        ∃ r, Answered (app.run acts) pid r ∧ 400 ≤ r.status)) ∧
    ∀ pid propose acts₀, attacker pid → acts₀ ++ [.act pid propose] <+: acts →
      (app.run (acts₀ ++ [.act pid propose])).world.table.map Row.unused =
        (app.run acts₀).world.table.map Row.unused := by
  constructor
  · intro pid req token hatt hserves hcred
    constructor
    · intro r hr
      obtain ⟨t, ht, hc⟩ := ended_concludes hserves hr
      obtain ⟨authorization, rfl, hm⟩ := manages_of_credential hcred hc
      rcases hm with ⟨svc', caller, hsvc', hauth⟩ | hrefused
      · obtain rfl := Option.some.inj (hsvc.symm.trans hsvc')
        exact absurd hauth (not_authenticated hup (hpresents pid req _ hatt hserves hcred) ht.within)
      · exact hrefused r rfl
    · intro hw
      obtain ⟨r, hr, hs⟩ := handler_of_wellFormed hsvc hcred hw
      obtain ⟨hno, ha⟩ := answered_at_once hserves hr
      exact ⟨hno, r, ha, hs⟩
  · intro pid propose acts₀ hatt hpre
    have hlast : app.run (acts₀ ++ [.act pid propose]) =
        (proxy app).step (app.run acts₀) (.act pid propose) := (proxy app).run_snoc _ _
    rcases (proxy app).step_cases (app.run acts₀) (.act pid propose) with he | ⟨req, ha, -⟩ |
      ⟨pid', propose', req, t, o, k, r, w, ha, hp, hw, he⟩
    · rw [hlast, he]
    · cases ha
    · cases ha
      have hhist : (pid, did o r) :: (app.run acts₀).hist <:+ (app.run acts).hist := by
        have hsuf := ((proxy app).run_mono hpre).1
        rw [(proxy app).run_snoc, show (proxy app).step ((proxy app).run acts₀) _ = _ from he] at hsuf
        exact hsuf
      rw [hlast, he]
      cases hmanaging : o.isManaging with
      | false => exact unused_perform hw hmanaging
      | true =>
          -- an insert or a revocation would need a caller who was authenticated
          obtain ⟨req', authorization, t', caller, hserves, hcred, hin, hauth⟩ :=
            managing_authenticated hsvc hhist hmanaging
          exact absurd hauth (not_authenticated hup (hpresents pid req' _ hatt hserves hcred)
            (hin.mono ((List.suffix_cons _ _).trans hhist)))

end Upstream

/-! ### A token that leaked -/

def bearerOf (token : Str) : Option Str := some ("bearer  " ++ token)

/-- The replies of a realm that knows nothing of a string it is asked about. -/
def unknownReplies : (o : Op) → Reply o
  | .http _ => .response 200 (.value ⟨.obj [("active", .bool false)], by
      refine ⟨by decide, ?_⟩
      simp [Json.WFMembers, Json.WF]⟩)
  | o => idleReply o

/-- Alice creates a token in an interactive session.  It leaks, and is exchanged, presented as it is,
and presented as what the exchange returned. -/
def leakedRun : Schedule :=
  createRun ++
  .start (.token (exchangeForm zeroToken)) :: List.replicate 6 (.act 1 (realmReplies 0)) ++
  [.start (.createToken (bearerOf zeroToken) patBody), .act 2 (realmReplies 0),
    .start (.listTokens (bearerOf "short")), .act 3 unknownReplies]

/-- Whether the upstream reported only the string `session` as active, and never granted it. -/
def honestReport (e : Event proxyOps) : Bool :=
  match e with
  | (_, ⟨.http r, .response _ (.value ⟨.obj d, _⟩)⟩) =>
      (isStr (Dict.get? r.form "token") "session" || !claimed d "active") &&
        !isStr (Dict.get? d "access_token") "session"
  | _ => true

theorem honest_of_report [Platform] {svc : PatService} {h : History} (hall : h.all honestReport = true) :
    HonestUpstream svc (fun token => token = "session") h := by
  have reported : ∀ {token : Str} {d : Dict}, Reported svc h token d → claimed d "active" = true →
      token = "session" := by
    rintro token d ⟨pid, ⟨val, hwf⟩, rfl, hm⟩ hactive
    have := List.all_eq_true.mp hall _ hm
    simp only [honestReport, hactive, Bool.not_true, Bool.or_false, Bool.and_eq_true] at this
    exact eq_of_beq this.1
  refine ⟨fun token d hg hr ha => ?_, fun token d hr ha _ _ => reported hr ha⟩
  obtain rfl := reported hr ha
  obtain ⟨pid, r, status, ⟨val, hwf⟩, payload, -, rfl, htoken, hm⟩ := hg
  have := List.all_eq_true.mp hall _ hm
  simp only [honestReport, htoken, isStr, beq_self_eq_true, Bool.not_true, Bool.and_false] at this
  cases this

/-- Whether everyone but the first presents something else than `session`. -/
def othersPresent (c : State) : Bool :=
  (c.procs.drop 1).all (fun p => match p.req.credential with
    | some token => token != "session".toList
    | none => true)

theorem presentable_of_othersPresent [Platform] {app : App} {c : State} (h : othersPresent c = true)
    {pid : ℕ} {req : Req} {token : Str} (hpid : 1 ≤ pid) (hserves : Serves c pid req)
    (hreq : req.credential = some token) :
    Presentable app c (fun token => token = "session") token := by
  obtain ⟨p, hp, rfl⟩ := hserves
  have hm : p ∈ c.procs.drop 1 := by
    rw [List.mem_iff_getElem?]
    exact ⟨pid - 1, by rw [List.getElem?_drop, Nat.add_sub_cancel' hpid, hp]⟩
  have := List.all_eq_true.mp h p hm
  rw [hreq] at this
  exact .inr (.inr (by simpa using this))

theorem leakedRun_checks :
    letI := Platform.plain
    ((patApp.run leakedRun).hist.all honestReport && othersPresent (patApp.run leakedRun)) = true := by
  decide +kernel

theorem leaked_token_cannot_manage_leakedRun :
    letI := Platform.plain
    ∃ svc, patApp.patService = some svc ∧
      HonestUpstream svc (fun token => token = "session") (patApp.run leakedRun).hist ∧
      ∀ pid req token, 1 ≤ pid → Serves (patApp.run leakedRun) pid req → req.credential = some token →
        ∀ r, Answered (patApp.run leakedRun) pid r → 400 ≤ r.status := by
  let := Platform.plain
  obtain ⟨svc, hp⟩ := patLoaded_patApp
  have hchecks := leakedRun_checks
  rw [Bool.and_eq_true] at hchecks
  have hup : HonestUpstream svc (fun token => token = "session") (patApp.run leakedRun).hist :=
    honest_of_report hchecks.1
  refine ⟨svc, hp.service, hup, fun pid req token hpid hserves hreq => ?_⟩
  exact ((leaked_token_cannot_manage patApp svc hp.service leakedRun _ hup (fun pid => 1 ≤ pid)
    (fun pid req token hpid hserves hreq => presentable_of_othersPresent hchecks.2 hpid hserves hreq)).1
      pid req token hpid hserves hreq).1

end CimdProxy
