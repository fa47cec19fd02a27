import CimdProxy.Runs

/-! # The code flow over whole runs

The proxy keeps no session.  What binds `/token` to the `/authorize` request a code comes from is
sealed into the state and the code, and `code_flow_integrity` traces every redemption back: the
presented code was minted by a `/callback` request that opened the state of an accepted
`/authorize` request, and the form sent upstream carries what these two sealed. -/

namespace CimdProxy

open Py Effects

section Flow

variable [Platform]

/-! ### What the checks of the endpoints say -/

theorem Authorize.requirePresent_eq_ok {params : Authorize.AuthorizeParams}
    {clientId redirectUri codeChallenge : Str}
    (h : Authorize.requirePresent params = .ok (clientId, redirectUri, codeChallenge)) :
    params.clientId = some clientId ∧ params.redirectUri = some redirectUri ∧
      params.codeChallenge = some codeChallenge := by
  unfold Authorize.requirePresent at h
  split at h
  · cases h
  · split_ifs at h
    split at h
    · cases h
    · cases h
    · cases h
    · next hc hr hch =>
        obtain ⟨rfl, hrest⟩ := Prod.mk.inj (Except.ok.inj h)
        obtain ⟨rfl, rfl⟩ := Prod.mk.inj hrest
        exact ⟨hc, hr, hch⟩

/-- The entry a request picked is the one its url leads to. -/
theorem resourceByUrl_of_pickResource {cfg : ProxyConfig} {resource : Option Str} {e : ResourceEntry}
    (h : pickResource cfg resource = .ok e) : cfg.resourceByUrl e.url = .ok (some e) := by
  unfold pickResource at h
  dsimp only at h
  generalize (if (resource.getD []).isEmpty then cfg.defaultResource else resource.getD []) = chosen at h
  split_ifs at h
  obtain ⟨found, hf, h⟩ := bind_eq_ok.mp h
  cases found with
  | none => cases h
  | some e' =>
      obtain rfl := Except.ok.inj h
      exact resourceByUrl_stable hf

omit [Platform] in
/-- What a code has passed. -/
theorem Token.checkCode_eq_ok {form : Token.TokenForm} {verifier : Str} {env : CodeEnvelope} {now : ℤ}
    (h : Token.checkCode form verifier env now = .ok ()) :
    now < env.exp ∧ (∀ u, form.redirectUri = some u → u = env.redirectUri) ∧
      (∀ u, form.clientId = some u → u = env.clientId) ∧
      deriveChallenge verifier = .ok env.clientCodeChallenge := by
  unfold Token.checkCode at h
  split_ifs at h with h1 h2 h3
  obtain ⟨b, hb, h⟩ := bind_eq_ok.mp h
  cases b with
  | false => cases h
  | true =>
      refine ⟨not_le.mp h1, fun u hu => ?_, fun u hu => ?_, verifyChallenge_eq_true.mp hb⟩
      · by_contra hne
        exact h2 ⟨by rw [hu]; rfl, by rw [hu]; exact fun he => hne (Option.some.inj he)⟩
      · by_contra hne
        exact h3 ⟨by rw [hu]; rfl, by rw [hu]; exact fun he => hne (Option.some.inj he)⟩

omit [Platform] in
/-- A deadline in whole seconds is one on the clock. -/
theorem Seconds.lt_of_whole_lt {now start : Seconds} {n : ℤ} (hs : 0 ≤ start.val)
    (h : now.whole < start.whole + n) : now.val < start.val + n := by
  have hstart : start.whole = ⌊start.val⌋ := if_pos hs
  have hnow : now.val < now.whole + 1 := by
    unfold Seconds.whole
    split_ifs
    · exact Int.lt_floor_add_one _
    · exact lt_of_le_of_lt (Int.le_ceil _) (lt_add_one _)
  have hfloor : (start.whole : ℚ) ≤ start.val := by
    rw [hstart]
    exact Int.floor_le _
  have hstep : (now.whole : ℚ) + 1 ≤ start.whole + n := by exact_mod_cast h
  linarith

/-! ### The two requests behind a code -/

/-- An accepted `/authorize` request: what it validated and what it sealed. -/
structure Accepted where
  pid : ℕ
  params : Authorize.AuthorizeParams
  validated : Authorize.Validated
  cid : Str
  verifier : Str
  challenge : Str
  now : Seconds
  tok : FernetToken

def Accepted.envelope (a : Accepted) : AuthorizeEnvelope :=
  a.validated.envelope a.cid a.verifier a.now.whole

/-- The request is part of the run: it was redirected upstream with the challenge of its verifier and
the sealed state, and its seal is in the history `h`. -/
structure Accepted.In (app : App) (c : State) (h : History) (a : Accepted) : Prop where
  serves : Serves c a.pid (.authorize a.params)
  client : a.params.clientId = some a.validated.clientId
  redirect : a.params.redirectUri = some a.validated.redirectUri
  clientChallenge : a.params.codeChallenge = some a.validated.codeChallenge
  entry : pickResource app.config a.params.resource = .ok a.validated.resourceEntry
  upstreamChallenge : deriveChallenge a.verifier = .ok a.challenge
  redirected : Answered c a.pid
    (.redirect 302 (a.validated.target app.config a.challenge a.tok.text))
  sealed : ∃ past, Seals h a.pid (.authorize a.envelope) a.tok past

/-- A `/callback` request that minted a code. -/
structure Returned where
  pid : ℕ
  params : Callback.CallbackParams
  code : Str
  now : Seconds
  tok : FernetToken

def Returned.envelope (b : Returned) (a : Accepted) : CodeEnvelope :=
  Callback.codeEnvelope a.envelope b.code b.now.whole

/-- The request is part of the run: it opened the state of `a`, which was sealed before, and sealed
the code, in the history `h`. -/
structure Returned.In (app : App) (c : State) (h : History) (a : Accepted) (b : Returned) : Prop where
  serves : Serves c b.pid (.callback b.params)
  state : b.params.state = some a.tok.text
  code : b.params.code = some b.code
  sealed : ∃ past opening, Seals h b.pid (.code (b.envelope a)) b.tok past ∧
    (b.pid, did .time b.now) ∈ past ∧
    Opens past b.pid a.tok.text (.authorize a.envelope) opening ∧ a.In app c opening

theorem Returned.In.mono {app : App} {c : State} {h h' : History} {a : Accepted} {b : Returned}
    (hb : b.In app c h a) (hh : h <:+ h') : b.In app c h' a := by
  obtain ⟨hserves, hstate, hcode, past, opening, hs, rest⟩ := hb
  exact ⟨hserves, hstate, hcode, past, opening, hs.mono hh, rest⟩

section Runs

variable {app : App} {acts : Schedule} {pid : ℕ} {h past : History}

/-- An opened state leads back to the request that sealed it. -/
theorem accepted_of_opens {state : Str} {env : AuthorizeEnvelope}
    (ho : Opens h pid state (.authorize env) past) (hh : h <:+ (app.run acts).hist) :
    ∃ a : Accepted, a.tok.text = state ∧ a.envelope = env ∧ a.In app (app.run acts) past := by
  obtain ⟨pid', req, e', tok, past', t, hreq, hseal, htext, he, hmint, -⟩ := opened_minted ho hh
  have hpast : past <:+ (app.run acts).hist := by
    obtain ⟨now, blob, hm, -⟩ := ho
    exact ((List.suffix_cons _ _).trans hm).trans hh
  cases e' with
  | authorize env' =>
      obtain rfl := Envelope.authorize.inj he
      obtain ⟨params, rfl, -⟩ := mints_authorize hmint
      have hseal' := hseal
      obtain ⟨hwf, blob, hb, hm⟩ := hseal'
      obtain ⟨t', hin, -, hend⟩ := sealed_ended hreq
        ((hm.trans hpast).subset List.mem_cons_self)
      have key : ∀ x, app.Concludes (.authorize params) t' x → ∃ (v : Authorize.Validated)
          (cid verifier challenge : Str) (now : Seconds),
          Authorize.Validates app.config params t' v ∧
          (Envelope.authorize (v.envelope cid verifier now.whole)).blob = some blob ∧
          deriveChallenge verifier = .ok challenge ∧
          x = .ok (.redirect 302 (v.target app.config challenge tok.text)) :=
        fun x hx => hx blob tok hin
      rcases hend with ⟨r, hr, hx⟩ | ⟨e, hx⟩
      · obtain ⟨v, cid, verifier, challenge, now, hv, hvb, hch, hok⟩ := key _ hx
        obtain rfl := Except.ok.inj hok
        have henv : v.envelope cid verifier now.whole = env := by
          have := reread_eq_of_blob (Envelope.wf_authorize _) (Envelope.wf_authorize _) hvb hb
          exact Envelope.authorize.inj this
        obtain ⟨hc, hru, hcc⟩ := Authorize.requirePresent_eq_ok hv.present
        refine ⟨⟨pid', params, v, cid, verifier, challenge, now, tok⟩, htext, henv, ?_⟩
        exact
          { serves := hreq
            client := hc
            redirect := hru
            clientChallenge := hcc
            entry := hv.entry
            upstreamChallenge := hch
            redirected := hr
            sealed := ⟨past', by rw [Accepted.envelope, henv]; exact hseal⟩ }
      · obtain ⟨v, cid, verifier, challenge, now, -, -, -, hok⟩ := key _ hx
        cases hok
  | code env' => cases he
  | refresh env' => cases he
  | registration env' => cases he

/-- An opened code leads back to the two requests behind it. -/
theorem returned_of_opens {code : Str} {env : CodeEnvelope}
    (ho : Opens h pid code (.code env) past) (hh : h <:+ (app.run acts).hist) :
    ∃ (a : Accepted) (b : Returned), b.tok.text = code ∧ b.envelope a = env ∧
      b.In app (app.run acts) past a := by
  obtain ⟨pid', req, e', tok, past', t, hreq, hseal, htext, he, hmint, ht⟩ := opened_minted ho hh
  have hpast : past <:+ (app.run acts).hist := by
    obtain ⟨now, blob, hm, -⟩ := ho
    exact ((List.suffix_cons _ _).trans hm).trans hh
  have hpast' : past' <:+ (app.run acts).hist := by
    obtain ⟨-, blob, -, hm⟩ := hseal
    exact ((List.suffix_cons _ _).trans hm).trans hpast
  cases e' with
  | code env' =>
      obtain rfl := Envelope.code.inj he
      obtain ⟨params, rfl, state, upstream, envA, now, hstate, hcode, henv, hopened, hclock⟩ :=
        mints_code hmint
      obtain rfl := Envelope.code.inj henv
      obtain ⟨opening, hopens⟩ := hopened.opens ht
      obtain ⟨a, htextA, rfl, ha⟩ := accepted_of_opens hopens hpast'
      refine ⟨a, ⟨pid', params, upstream, now, tok⟩, htext, rfl, ?_⟩
      exact
        { serves := hreq
          state := by rw [htextA]; exact hstate
          code := hcode
          sealed := ⟨past', opening, hseal, ht _ hclock, by rw [htextA]; exact hopens, ha⟩ }
  | authorize env' => cases he
  | refresh env' => cases he
  | registration env' => cases he

/-- What `/token` sends upstream, other than the grant of an exchange, it has reason to. -/
theorem asks_of_sent {form : Token.TokenForm} {r : HttpRequest} {reply : HttpOutcome}
    (hserves : Serves (app.run acts) pid (.token form))
    (hsent : (pid, did (.http r) reply) :: past <:+ (app.run acts).hist)
    (hgrant : r.isGrant = false) :
    ∃ t entry, Token.Asks app.config form t entry r ∧ Token.OneReading t ∧ Exactly pid t past := by
  obtain ⟨req, t, hreq, hq, ht⟩ := issues hsent
  obtain rfl := hserves.unique hreq
  rcases hq.2 with hq | ⟨-, r', entry, he, hq, hone⟩ | ⟨svc, -, -, hq⟩
  · exact hq.elim
  · obtain rfl := Op.http.inj he
    exact ⟨t, entry, hq, hone, ht⟩
  · obtain ⟨token, hash, record, now, e, at_, jti, -, -, -, -, -, rfl⟩ := hq
    cases hgrant

omit [Platform] in
theorem not_isGrant {r : HttpRequest} {grantType : Str}
    (h : Dict.get? r.form "grant_type" = some (.str grantType)) (hne : grantType ≠ jwtBearer) :
    r.isGrant = false := by
  unfold HttpRequest.isGrant
  rw [h]
  exact beq_false_of_ne hne

/-- What `/token` sends with a code. -/
theorem redeems_of_sent {form : Token.TokenForm} {r : HttpRequest} {reply : HttpOutcome}
    (hserves : Serves (app.run acts) pid (.token form))
    (hsent : (pid, did (.http r) reply) :: past <:+ (app.run acts).hist)
    (hgrant : Dict.get? r.form "grant_type" = some (.str "authorization_code")) :
    ∃ t env entry, Token.Redeems app.config form t env entry ∧ Token.OneReading t ∧
      Exactly pid t past ∧ r = Token.redeemRequest app.config env entry := by
  obtain ⟨t, entry, hask, hone, ht⟩ := asks_of_sent hserves hsent (not_isGrant hgrant (by decide))
  rcases hask with ⟨env, hr, rfl⟩ | ⟨env, hr, rfl⟩
  · exact ⟨t, env, entry, hr, hone, ht, rfl⟩
  · have hne : ("refresh_token" : Str) ≠ "authorization_code" := by decide
    exact absurd (Json.str.inj (Option.some.inj hgrant)) hne

end Runs

/-- **Code-flow integrity.**  Whenever `/token` sends an authorization-code form upstream, the presented
code was minted by an earlier `/callback` request `b` that opened the state of a still earlier
accepted `/authorize` request `a`; the form carries the code parameter of `b` and the verifier whose
challenge `a` sent upstream, to the issuer and with the credentials of the entry `a` resolved; the
presented verifier, redirect URI and client id fit `a`; and less than 60 seconds have passed since
`b`. -/
theorem code_flow_integrity (app : App) (acts : Schedule) (pid : ℕ) (form : Token.TokenForm)
    (r : HttpRequest) (reply : HttpOutcome) (past : History)
    (hserves : Serves (app.run acts) pid (.token form))
    (hsent : (pid, did (.http r) reply) :: past <:+ (app.run acts).hist)
    (hgrant : Dict.get? r.form "grant_type" = some (.str "authorization_code")) :
    ∃ (a : Accepted) (b : Returned) (opening : History) (verifier : Str) (now : Seconds),
      Opens past pid b.tok.text (.code (b.envelope a)) opening ∧
      b.In app (app.run acts) opening a ∧
      form.code = some b.tok.text ∧
      r.url = tokenUrl a.validated.resourceEntry.issuer ∧
      Dict.get? r.form "code" = some (.str b.code) ∧
      Dict.get? r.form "code_verifier" = some (.str a.verifier) ∧
      Dict.get? r.form "client_id" = some (.str a.validated.resourceEntry.clientId) ∧
      Dict.get? r.form "client_secret" =
        (if a.validated.resourceEntry.clientSecret.isEmpty then none
          else some (.str a.validated.resourceEntry.clientSecret)) ∧
      form.codeVerifier = some verifier ∧
      deriveChallenge verifier = .ok a.validated.codeChallenge ∧
      (∀ u, form.redirectUri = some u → u = a.validated.redirectUri) ∧
      (∀ u, form.clientId = some u → u = a.validated.clientId) ∧
      (pid, did .time now) ∈ past ∧ now.whole < b.now.whole + 60 ∧
      (0 ≤ b.now.val → now.val < b.now.val + 60) := by
  obtain ⟨t, env, entry, hr, -, hexact, rfl⟩ := redeems_of_sent hserves hsent hgrant
  have ht := hexact.within
  obtain ⟨⟨code, hcode, hopened⟩, ⟨verifier, now, hverifier, hclock, hcheck⟩, hentry⟩ := hr
  obtain ⟨opening, hopens⟩ := hopened.opens ht
  have hpast : past <:+ (app.run acts).hist := (List.suffix_cons _ _).trans hsent
  obtain ⟨a, b, rfl, rfl, hb⟩ := returned_of_opens hopens hpast
  obtain ⟨hexp, hredirect, hclient, hchallenge⟩ := Token.checkCode_eq_ok hcheck
  -- the sealed url leads back to the entry that was sealed
  obtain rfl : a.validated.resourceEntry = entry := by
    obtain ⟨_, _, -, -, -, ha⟩ := hb.sealed
    have := resourceByUrl_of_pickResource ha.entry
    exact Option.some.inj (Except.ok.inj (this.symm.trans hentry))
  refine ⟨a, b, opening, verifier, now, hopens, hb, hcode, rfl, rfl, rfl, rfl, ?_, hverifier, hchallenge,
    hredirect, hclient, ht _ hclock, hexp, fun hs => ?_⟩
  · unfold Token.redeemRequest Token.formRequest Token.authCodeForm Token.secretField
    split_ifs
    · rfl
    · rfl
  · exact_mod_cast Seconds.lt_of_whole_lt hs hexp

end Flow

/-! ### A run of the whole flow -/

/-- A proxy for `https://log.example`, without personal access tokens. -/
def logApp : @App Platform.plain :=
  letI := Platform.plain
  ⟨logConfig, none⟩

/-- Replies that seal under the given text and leave every clock at zero. -/
def sealingAs (token : Str) (hascii : isAscii token = true) : (o : Op) → Reply o
  | .fernetEncrypt _ => (⟨token, hascii, 0⟩ : FernetToken)
  | o => idleReply o

theorem isAscii_registration : isAscii "registration" = true := by decide

theorem isAscii_state : isAscii "state" = true := by decide

/-- A client that registers, and the verifier and challenge of RFC 7636 it signs in with. -/
def sampleBody : BodyJson :=
  .value ⟨.obj [("redirect_uris", .arr [.str "https://app.example/cb"])], by
    refine ⟨by decide, ?_⟩
    simp [Json.WFMembers, Json.WF, Json.WFElems]⟩

def sampleParams : Authorize.AuthorizeParams where
  responseType := some "code".toList
  clientId := some "registration".toList
  redirectUri := some "https://app.example/cb".toList
  codeChallenge := some "E9Melhoa2OwvFrEMTJguCHaoeK1t8URWbuGJSstw-cM".toList
  codeChallengeMethod := some "S256".toList
  state := some "xyz".toList
  resource := some "https://log.example/".toList
  scope := none

def sampleForm : Token.TokenForm where
  grantType := some "authorization_code".toList
  code := some "code".toList
  codeVerifier := some "dBjftJeZ4CVP-mB92K27uhbUJU1p1r_wW1gFWFOEjXk".toList
  redirectUri := some "https://app.example/cb".toList
  clientId := some "registration".toList
  refreshToken := none
  scope := none
  subjectToken := none
  subjectTokenType := none
  requestedTokenType := none
  resource := none

/-- The client registers, authorizes and comes back with an upstream code. -/
def sampleReturn : Schedule :=
  .start (.register sampleBody) ::
    List.replicate 3 (.act 0 (sealingAs "registration" isAscii_registration)) ++
  .start (.authorize sampleParams) ::
    List.replicate 5 (.act 1 (sealingAs "state" isAscii_state)) ++
  .start (.callback ⟨some "upstream".toList, some "state".toList, none, none⟩) ::
    List.replicate 3 (.act 2 (sealingAs "code" (by decide)))

/-- Then it redeems the code. -/
def sampleFlow : Schedule :=
  sampleReturn ++ .start (.token sampleForm) :: List.replicate 3 (.act 3 idleReply)

/-- Whether the last event is an upstream request of `/token` with the given grant type. -/
def sends (grantType : Str) (c : State) : Bool :=
  match c.hist with
  | (pid, ⟨.http r, _⟩) :: _ =>
      isStr (Dict.get? r.form "grant_type") grantType &&
        match c.procs[pid]? with
        | some ⟨.token _, _, _⟩ => true
        | _ => false
  | _ => false

theorem exists_of_sends {grantType : Str} {c : State} (h : sends grantType c = true) :
    ∃ pid form r reply past, Serves c pid (.token form) ∧
      (pid, did (.http r) reply) :: past <:+ c.hist ∧
      Dict.get? r.form "grant_type" = some (.str grantType) := by
  unfold sends at h
  split at h
  · next pid r reply past hh =>
      rw [Bool.and_eq_true] at h
      obtain ⟨hg, hp⟩ := h
      split at hp
      · next form t prog hproc =>
          refine ⟨pid, form, r, reply, past, ⟨_, hproc, rfl⟩, by rw [hh], ?_⟩
          unfold isStr at hg
          split at hg
          · next s hs => rw [hs, eq_of_beq hg]
          · cases hg
      · cases hp
  · cases h

theorem sampleFlow_sends :
    letI := Platform.plain
    sends "authorization_code" (logApp.run sampleFlow) = true := by
  decide +kernel

theorem code_flow_integrity_sampleFlow :
    letI := Platform.plain
    ∃ pid form r reply past, Serves (logApp.run sampleFlow) pid (.token form) ∧
      (pid, did (.http r) reply) :: past <:+ (logApp.run sampleFlow).hist ∧
      Dict.get? r.form "grant_type" = some (.str "authorization_code") ∧
      ∃ (a : Accepted) (b : Returned), form.code = some b.tok.text ∧
        Dict.get? r.form "code_verifier" = some (.str a.verifier) ∧
        b.In logApp (logApp.run sampleFlow) past a := by
  let := Platform.plain
  obtain ⟨pid, form, r, reply, past, hserves, hsent, hgrant⟩ := exists_of_sends sampleFlow_sends
  obtain ⟨a, b, opening, verifier, now, hopens, hb, hcode, -, -, hv, -⟩ :=
    code_flow_integrity logApp sampleFlow pid form r reply past hserves hsent hgrant
  refine ⟨pid, form, r, reply, past, hserves, hsent, hgrant, a, b, hcode, hv, ?_⟩
  obtain ⟨now', blob, hm, -⟩ := hopens
  exact hb.mono ((List.suffix_cons _ _).trans hm)

end CimdProxy
