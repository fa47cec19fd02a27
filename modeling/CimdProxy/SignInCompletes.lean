import CimdProxy.SignInSteps

/-! # A sign-in against the proxy completes

Whatever else the proxy is doing, nothing goes wrong between the command line and the proxy of its own
repository.  `Setback` lists what is left: a request is lost, no redirect comes, the upstream refuses, or a
minute passes before the code is redeemed; `sign_in_completes` says that a sign-in ends in the access token
of the upstream or in one of these. -/

namespace CimdProxy

open Py Effects PatCli

variable [Platform]

/-! ### How a sign-in may end -/

section Ends

variable (app : App) (entry : ResourceEntry) (acts : Schedule) (t : Trace cliOps)

/-- The command got the code `tok`, which seals the code that the upstream sent it back with. -/
structure CodeBrought (pid : ℕ) (now : Seconds) (upstream : Str) (tok : FernetToken) : Prop where
  returned : ∃ params, Serves (app.run acts) pid (.callback params) ∧ params.error = none ∧
    params.code = some upstream
  clock : (pid, did .time now) ∈ (app.run acts).hist
  received : ∃ timeout params, PatCli.did (.wait timeout) (some params : Option Params) ∈ t ∧
    params.get? "code" = some tok.text

/-- The proxy redeemed at the upstream the code that the command had been brought, and got this reply. -/
def Asked (reply : HttpOutcome) : Prop :=
  ∃ (pid pid' : ℕ) (now : Seconds) (tok : FernetToken) (env : CodeEnvelope),
    CodeBrought app acts t pid now env.upstreamCode tok ∧ env.resource = entry.url ∧
    (pid', did (.http (Token.redeemRequest app.config env entry)) reply) ∈ (app.run acts).hist

/-- What a sign-in fails of. -/
inductive Setback : CliExc → Prop
  | lost {req : PatCli.Request} {name : Str}
      (h : PatCli.did (.http req) (Outcome.httpError name) ∈ t) : Setback (.httpError name)
  | unsent {req : PatCli.Request} {r : Refusal}
      (h : PatCli.did (.http req) (Outcome.refused r) ∈ t) : Setback r.exc
  | unanswered {timeout : Timeout} {e : CliExc}
      (h : PatCli.did (.wait timeout) (none : Option Params) ∈ t) : Setback e
  | refused {pid : ℕ} {back : Callback.CallbackParams} {error msg : Str} {timeout : Timeout} {params : Params}
      (hreq : Serves (app.run acts) pid (.callback back)) (herror : back.error = some error)
      (hwait : PatCli.did (.wait timeout) (some params : Option Params) ∈ t)
      (hsame : (params.get? "error").getD [] = error) : Setback (.cliError msg)
  | late {pid pid' : ℕ} {now now' : Seconds} {upstream : Str} {tok : FernetToken} {form : Token.TokenForm}
      (hcode : CodeBrought app acts t pid now upstream tok)
      (hreq : Serves (app.run acts) pid' (.token form)) (hform : form.code = some tok.text)
      (hclock : (pid', did .time now') ∈ (app.run acts).hist) (hlate : now.whole + 60 ≤ now'.whole) :
      Setback (.cliError expiredMessage)
  | ungranted {reply : HttpOutcome} {msg : Str} (hasked : Asked app entry acts t reply)
      (hno : ∀ a, ¬ GrantsAccess a reply) : Setback (.cliError msg)

/-- The sign-in has ended in an access token that the upstream granted. -/
def Completed (s : SignedIn) : Prop :=
  s.endpoints = app.endpoints ∧ ∃ reply, Asked app entry acts t reply ∧ GrantsAccess s.accessToken reply

/-- A stage of the sign-in has ended in a result of this kind, or in a setback. -/
def Stage {α : Type} (K : Schedule → Trace cliOps → α → Prop) : Except CliExc α → Prop
  | .ok a => K acts t a
  | .error e => Setback app entry acts t e

end Ends

/-- In every conversation that has come to these calls. -/
def Reached {α : Type} (app : App) (entry : ResourceEntry) (K : Schedule → Trace cliOps → α → Prop)
    (t : Trace cliOps) (x : Except CliExc α) : Prop :=
  ∀ acts, Conversed app entry t acts → FernetText app acts → Stage app entry acts t K x

/-! ### Along a conversation -/

section Conversation

variable {app : App} {entry : ResourceEntry} {acts : Schedule} {t t' : Trace cliOps}

/-- An earlier point of the conversation. -/
theorem Conversed.of_suffix (h : Conversed app entry t' acts) (ht : t <:+ t') :
    ∃ before, before <+: acts ∧ Conversed app entry t before := by
  induction t' generalizing acts with
  | nil =>
      obtain rfl := List.suffix_nil.mp ht
      exact ⟨acts, List.prefix_rfl, h⟩
  | cons c t' ih =>
      rcases List.suffix_cons_iff.mp ht with rfl | ht
      · exact ⟨acts, List.prefix_rfl, h⟩
      · obtain ⟨before, hp, hrest, -⟩ := h
        obtain ⟨before', hp', hconv⟩ := ih hrest ht
        exact ⟨before', hp'.trans hp, hconv⟩

theorem Serves.mono {before after : Schedule} {pid : ℕ} {req : Req} (hp : before <+: after)
    (h : Serves (app.run before) pid req) : Serves (app.run after) pid req := by
  obtain ⟨p, hproc, rfl⟩ := h
  obtain ⟨p', hproc', hreq, -⟩ := ((proxy app).run_mono hp).2 pid p hproc
  exact ⟨p', hproc', hreq⟩

theorem CodeBrought.mono {before after : Schedule} {pid : ℕ} {now : Seconds} {upstream : Str}
    {tok : FernetToken} (h : CodeBrought app before t pid now upstream tok) (hp : before <+: after)
    (ht : t ⊆ t') : CodeBrought app after t' pid now upstream tok := by
  obtain ⟨params, hreq, hparams⟩ := h.returned
  obtain ⟨timeout, received, hwait, hcode⟩ := h.received
  exact ⟨⟨params, hreq.mono hp, hparams⟩, ((proxy app).run_mono hp).1.subset h.clock,
    timeout, received, ht hwait, hcode⟩

/-! ### The registration -/

/-- The proxy has registered this client for this redirect URI. -/
def EnrolledAs (app : App) (acts : Schedule) (uri clientId : Str) : Prop :=
  ∃ (r : RegistrationEnvelope) (tok : FernetToken), r.redirectUris = [uri] ∧
    SealedAs app acts (.registration r) tok ∧ clientId = tok.text

theorem Delivers.of_register {req : PatCli.Request} {r : Req} (h : Delivers app req r)
    (hurl : req.url = app.config.publicUrl ++ "/register") :
    ∃ v, r = .register (.value v) ∧ req.payload = .json v.val := by
  cases h with
  | register v hurl' hmethod hbody => exact ⟨v, rfl, hbody⟩
  | token fields hurl' => cases List.append_cancel_left (hurl.symm.trans hurl')
  | createToken v hurl' => cases List.append_cancel_left (hurl.symm.trans hurl')
  | listTokens hurl' => cases List.append_cancel_left (hurl.symm.trans hurl')
  | revokeToken tokenId hurl' =>
      rw [List.append_assoc] at hurl'
      cases List.append_cancel_left (hurl.symm.trans hurl')

theorem Delivers.of_token {req : PatCli.Request} {r : Req} (h : Delivers app req r)
    (hurl : req.url = app.config.publicUrl ++ "/token") :
    ∃ fields, r = .token (.ofFields fields) ∧ req.payload = .form fields := by
  cases h with
  | token fields hurl' hmethod hbody => exact ⟨fields, rfl, hbody⟩
  | register v hurl' => cases List.append_cancel_left (hurl.symm.trans hurl')
  | createToken v hurl' => cases List.append_cancel_left (hurl.symm.trans hurl')
  | listTokens hurl' => cases List.append_cancel_left (hurl.symm.trans hurl')
  | revokeToken tokenId hurl' =>
      rw [List.append_assoc] at hurl'
      cases List.append_cancel_left (hurl.symm.trans hurl')

theorem sat_register (port : ℕ) (t : Trace cliOps) :
    (PatCli.register app.endpoints (redirectUri port)).Sat (fun _ _ => True)
      (fun t' x => (∃ req outcome, t' = PatCli.did (.http req) outcome :: t) ∧
        Reached app entry (fun acts _ => EnrolledAs app acts (redirectUri port)) t' x) t := by
  rw [register_eq]
  refine ⟨trivial, fun outcome => ?_⟩
  cases (outcome : Outcome) with
  | httpError name => exact ⟨⟨_, _, rfl⟩, fun acts _ _ => .lost List.mem_cons_self⟩
  | refused r => exact ⟨⟨_, _, rfl⟩, fun acts _ _ => .unsent List.mem_cons_self⟩
  | response status body =>
      refine sat_of_settled (settled_readRegistration status body) fun x hx => ⟨⟨_, _, rfl⟩, ?_⟩
      rintro acts ⟨before, hp, -, hjoined⟩ htext
      have hbody : ∃ v d tok r, status = 201 ∧ body = .value v ∧ v.val = .obj d ∧
          d = Register.issuedBody tok.text r ∧ r.redirectUris = [redirectUri port] ∧
          SealedAs app acts (.registration r) tok := by
        cases hjoined with
        | metadata hurl => cases List.append_cancel_left hurl
        | served hr hhandled ho =>
            obtain ⟨v, rfl, hv⟩ := hr.of_register rfl
            obtain ⟨r, tok, huris, hseal, rfl⟩ := hhandled.enrolled (acceptRegistered_redirectUri port)
              (redirectUri_ne_nil port) (Payload.json.inj hv).symm
            obtain ⟨-, v', he, hv'⟩ | ⟨hfinite, -⟩ := ho.of_json
            · obtain ⟨rfl, rfl⟩ := Outcome.response.inj he
              exact ⟨v', _, tok, r, rfl, rfl, hv', rfl, huris, hseal⟩
            · cases hfinite.symm.trans (isFinite_issuedBody tok.text huris)
      obtain ⟨v, d, tok, r, rfl, rfl, hv, rfl, huris, hseal⟩ := hbody
      have hread := readRegistration_issued hv (hseal.text htext).1
      rw [lift_eq_ret (hread.symm.trans hx)]
      exact ⟨r, tok, huris, hseal, rfl⟩

/-! ### The sign-in page and the redirect -/

/-- A request, or random bytes. -/
def Silent : PatCli.Op → Prop
  | .http _ => True
  | .tokenBytes _ => True
  | _ => False

/-- The only listener is at this port, and no other page has been shown. -/
structure Shows (t : Trace cliOps) (port : ℕ) (url : Str) : Prop where
  listens : ∀ p : ℕ, PatCli.did .listen p ∈ t → p = port
  shown : ∀ u, Shown t u → u = url

section Pages

omit [Platform]

variable {port : ℕ} {url : Str}

theorem Shows.cons {o : PatCli.Op} (h : Shows t port url) (hlisten : o ≠ .listen)
    (ho : ∀ u, o = .browse u ∨ o = .stderr ("Sign in at:\n  " ++ u ++ ['\n']) → u = url) (r : PatCli.Reply o) :
    Shows (PatCli.did o r :: t) port url where
  listens := by
    intro p hp
    rcases List.mem_cons.mp hp with he | hp
    · exact absurd (congrArg Sigma.fst he).symm hlisten
    · exact h.listens p hp
  shown := by
    rintro u (hu | hu)
    · rcases List.mem_cons.mp hu with he | hu
      · exact ho u (.inl (congrArg Sigma.fst he).symm)
      · exact h.shown u (.inl hu)
    · rcases List.mem_cons.mp hu with he | hu
      · exact ho u (.inr (congrArg Sigma.fst he).symm)
      · exact h.shown u (.inr hu)

theorem Shows.silent {o : PatCli.Op} (h : Shows t port url) (ho : Silent o) (r : PatCli.Reply o) :
    Shows (PatCli.did o r :: t) port url := by
  refine h.cons ?_ ?_ r
  · rintro rfl
    exact ho
  · rintro u (rfl | rfl)
    · exact ho.elim
    · exact ho.elim

theorem shows_listen (ht : ∀ c ∈ t, Silent c.1) : Shows (PatCli.did .listen port :: t) port url where
  listens := by
    intro p hp
    rcases List.mem_cons.mp hp with he | hp
    · exact eq_of_heq (Sigma.mk.inj he).2
    · exact (ht _ hp).elim
  shown := by
    rintro u (hu | hu)
    · rcases List.mem_cons.mp hu with he | hu
      · cases congrArg Sigma.fst he
      · exact (ht _ hu).elim
    · rcases List.mem_cons.mp hu with he | hu
      · cases congrArg Sigma.fst he
      · exact (ht _ hu).elim

theorem sat_openBrowser (browser : Browser) (h : Shows t port url) :
    (openBrowser browser url).Sat (fun _ _ => True) (fun t' x => x = .ok () ∧ t <:+ t' ∧ Shows t' port url)
      t := by
  have hbrowse : ∀ {t : Trace cliOps}, Shows t port url →
      Shows (PatCli.did (.browse url) () :: t) port url := by
    intro t h
    refine h.cons (o := .browse url) nofun ?_ ()
    rintro u (he | he)
    · exact (Op.browse.inj he).symm
    · cases he
  cases browser with
  | given => exact ⟨trivial, fun _ => ⟨rfl, List.suffix_cons _ _, hbrowse h⟩⟩
  | printOnly =>
      refine ⟨trivial, fun _ => ⟨rfl, List.suffix_cons _ _, h.cons (o := .stderr _) nofun ?_ ()⟩⟩
      rintro u (he | he)
      · cases he
      · have htext := List.append_cancel_right (Op.stderr.inj he)
        exact (List.append_cancel_left htext).symm
  | default =>
      refine ⟨trivial, fun _ => ⟨trivial, fun _ => ⟨rfl, ?_, hbrowse (h.cons (o := .stderr _) nofun ?_ ())⟩⟩⟩
      · exact (List.suffix_cons _ _).trans (List.suffix_cons _ _)
      · rintro u (he | he)
        · cases he
        · have hchar : some 't' = some 'a' :=
            congrArg (fun s : Str => (s.drop 8).head?) (Op.stderr.inj he)
          cases hchar

end Pages

/-- What the listener took from a redirect to its own URI. -/
theorem Heard.eq_filter {port : ℕ} {uri : Str} {fields received : Params}
    (h : Heard port (uri ++ '?' :: urlencode fields) received) (huri : uri = redirectUri port) :
    received = fields.filter fun p => !p.2.isEmpty := by
  obtain ⟨target, k, hlocation, hget⟩ := h
  have hlisten : redirectUri port ++ '?' :: urlencode fields =
      "http://127.0.0.1:" ++ Nat.toDigits 10 port ++ (callbackPath ++ '?' :: urlencode fields) :=
    List.append_assoc _ _ _
  have htarget := List.append_cancel_left (hlisten.symm.trans (huri ▸ hlocation))
  obtain ⟨k', hk⟩ := doGet_target fields
  rw [← htarget, hk] at hget
  obtain ⟨ho, -⟩ := Prog.call.inj hget
  exact (Op.accept.inj ho).symm

/-- The code of a command, as the proxy has sealed it. -/
def BroughtAs (app : App) (entry : ResourceEntry) (acts : Schedule) (t : Trace cliOps)
    (clientId uri challenge state code : Str) : Prop :=
  ∃ (pid : ℕ) (now : Seconds) (upstream : Str) (tok : FernetToken) (env : AuthorizeEnvelope),
    code = tok.text ∧ CodeBrought app acts t pid now upstream tok ∧
    Pending entry clientId uri challenge state env ∧
    SealedAs app acts (.code (Callback.codeEnvelope env upstream now.whole)) tok

section Redirects

variable {resource clientId challenge state loginScope : Str} {port : ℕ}

/-- The redirect that comes to the listener brings a code, or the refusal of the upstream. -/
theorem reached_checkRedirect (hentry : pickResource app.config (some resource) = .ok entry)
    (hslash : rstripSlash app.config.publicUrl = app.config.publicUrl)
    (hshows : Shows t port (app.config.publicUrl ++ "/authorize" ++ '?' ::
      urlencode (signInQuery clientId (redirectUri port) challenge state resource loginScope)))
    (henrolled : ∀ acts, Conversed app entry t acts → FernetText app acts →
      EnrolledAs app acts (redirectUri port) clientId)
    (hne : state ≠ []) (hascii : isAscii state = true) (timeout : Timeout) (received : Params) :
    Reached app entry
      (fun acts t' => BroughtAs app entry acts t' clientId (redirectUri port) challenge state)
      (PatCli.did (.wait timeout) (some received : Option Params) :: t)
      (checkRedirect received state app.config.publicUrl) := by
  rintro acts ⟨before, hp, hbefore, hjoined⟩ htext
  obtain ⟨port', url, hlisten, hshown, mid, query, target, location, back, hbm, hmid, hurl, hauth,
    ⟨query', htarget, hback⟩, hcall, hheard⟩ := hjoined received rfl
  obtain rfl := hshows.listens _ hlisten
  obtain ⟨r, tok, huris, hseal, rfl⟩ := henrolled before hbefore (htext.mono hp)
  have hpage := hurl.symm.trans (hshows.shown _ hshown)
  rw [(List.cons.inj (List.append_cancel_left hpage)).2, parseQsl_urlencode] at hauth
  obtain ⟨env, tok', query'', hpending, hseal', hx, hlast⟩ :=
    hauth.forwarded loginScope hseal huris (hseal.text (htext.mono hp)).2 hentry hbm
  obtain ⟨-, rfl⟩ := Response.redirect.inj (Except.ok.inj hx)
  obtain rfl := (List.cons.inj (List.append_cancel_left htarget)).2
  obtain ⟨pid, t₁, hserves, hwithin, reading, -, hresponds⟩ :=
    hcall.returned hseal' (hback.trans hlast) hmid
  split_ifs at hresponds
  swap
  · cases hresponds
  have hwait : PatCli.did (.wait timeout) (some received : Option Params) ∈
      (PatCli.did (.wait timeout) (some received : Option Params) :: t : Trace cliOps) := List.mem_cons_self
  unfold Callback.Responds at hresponds
  cases herror : back.error with
  | some error =>
      rw [herror] at hresponds
      obtain ⟨-, rfl⟩ := Response.redirect.inj (Except.ok.inj hresponds)
      obtain rfl := hheard.eq_filter hpending.redirectUri
      obtain ⟨msg, hmsg⟩ := checkRedirect_errorParams hpending.state hne hascii hslash
      rw [hmsg]
      refine Setback.refused hserves herror hwait ?_
      rw [get?_filter_of_nodup (nodup_errorParams _ _ _ _)]
      cases error with
      | nil => rfl
      | cons c s => rfl
  | none =>
      rw [herror] at hresponds
      cases hcode : back.code with
      | none =>
          rw [hcode] at hresponds
          cases hresponds
      | some upstream =>
          rw [hcode] at hresponds
          obtain ⟨now, blob, tok'', hnow, hblob, hsealed, hx⟩ := hresponds
          obtain ⟨-, rfl⟩ := Response.redirect.inj (Except.ok.inj hx)
          obtain rfl := hheard.eq_filter hpending.redirectUri
          have hseal'' : SealedAs app acts (.code (Callback.codeEnvelope env upstream now.whole)) tok'' :=
            ⟨pid, blob, hblob, hwithin _ hsealed⟩
          obtain ⟨c, s, htok⟩ := List.exists_cons_of_ne_nil (hseal''.text htext).1
          rw [checkRedirect_codeParams hpending.state hne hascii hslash (hseal''.text htext).1]
          refine ⟨pid, now, upstream, tok'', env, rfl, ⟨⟨back, hserves, herror, hcode⟩, hwithin _ hnow,
            timeout, _, hwait, ?_⟩, hpending, hseal''⟩
          unfold Callback.codeParams
          rw [List.filter_cons_of_pos (by simp [htok]), get?_cons, if_pos rfl]

end Redirects

/-! ### The redemption -/

omit [Platform] in
theorem formValue_eq_some {fields : List (Str × Str)} {name v : Str} (h : lastValue fields name = some v)
    (hv : v ≠ []) : formValue fields name = some v := by
  unfold formValue
  rw [h]
  simp [Option.filter, hv]

omit [Platform] in
theorem eq_of_formValue {fields : List (Str × Str)} {name v u : Str} (h : lastValue fields name = some v)
    (hu : formValue fields name = some u) : u = v := by
  unfold formValue at hu
  rw [h] at hu
  exact (Option.some.inj (Option.eq_some_of_filter_eq_some hu)).symm

/-- The fields of the redemption. -/
def redemptionFields (code verifier uri clientId : Str) : List (Str × Str) :=
  [("grant_type", "authorization_code"), ("code", code), ("code_verifier", verifier), ("redirect_uri", uri),
    ("client_id", clientId)]

omit [Platform] in
/-- The form presents what was sealed with the code. -/
theorem matches_redemptionFields {env : CodeEnvelope} (code : Str) {verifier : Str}
    (hascii : isAscii verifier = true) (hne : verifier ≠ [])
    (hchallenge : env.clientCodeChallenge = base64Url (sha256 (utf8 verifier))) :
    Token.Matches (.ofFields (redemptionFields code verifier env.redirectUri env.clientId)) env verifier where
  codeVerifier := by
    change formValue (redemptionFields code verifier env.redirectUri env.clientId) "code_verifier" = _
    exact formValue_eq_some rfl hne
  redirectUri := by
    intro u hu
    change formValue (redemptionFields code verifier env.redirectUri env.clientId) "redirect_uri" = _ at hu
    exact eq_of_formValue rfl hu
  clientId := by
    intro u hu
    change formValue (redemptionFields code verifier env.redirectUri env.clientId) "client_id" = _ at hu
    exact eq_of_formValue rfl hu
  challenge := by
    rw [hchallenge, verifyChallenge_of_ascii hascii (base64Url_ascii _)]
    simp

theorem sat_redeem (hentry : app.config.resourceByUrl entry.url = .ok (some entry))
    {code verifier uri clientId state : Str} (hascii : isAscii verifier = true) (hne : verifier ≠ [])
    (hbrought : ∀ acts, Conversed app entry t acts → FernetText app acts →
      BroughtAs app entry acts t clientId uri (base64Url (sha256 (utf8 verifier))) state code) :
    (redeem app.endpoints code verifier uri clientId).Sat (fun _ _ => True)
      (Reached app entry (Completed app entry)) t := by
  rw [redeem_eq]
  refine ⟨trivial, fun outcome => ?_⟩
  cases (outcome : Outcome) with
  | httpError name => exact fun acts _ _ => .lost List.mem_cons_self
  | refused r => exact fun acts _ _ => .unsent List.mem_cons_self
  | response status body =>
      refine sat_of_settled (settled_readRedemption _ status body) fun x hx => ?_
      rintro acts ⟨before, hp, hconv, hjoined⟩ htext
      obtain ⟨pid, now, upstream, tok, env, rfl, hcode, hpending, hseal⟩ :=
        hbrought before hconv (htext.mono hp)
      cases hjoined with
      | metadata hurl => cases List.append_cancel_left hurl
      | served hr hhandled ho =>
          obtain ⟨fields, rfl, hfields⟩ := hr.of_token rfl
          obtain rfl := Payload.form.inj hfields
          have htok := (hseal.text (htext.mono hp)).1
          have hcodeForm : formValue (redemptionFields tok.text verifier uri clientId) "code" =
              some tok.text := formValue_eq_some rfl htok
          have hmatches := matches_redemptionFields tok.text hascii hne
            (show (Callback.codeEnvelope env upstream now.whole).clientCodeChallenge = _ from hpending.challenge)
          rw [show (Callback.codeEnvelope env upstream now.whole).redirectUri = uri from hpending.redirectUri,
            show (Callback.codeEnvelope env upstream now.whole).clientId = clientId from hpending.clientId]
            at hmatches
          have hresource : app.config.resourceByUrl (Callback.codeEnvelope env upstream now.whole).resource =
              .ok (some entry) := by
            change app.config.resourceByUrl env.resource = _
            rw [hpending.resource, hentry]
          obtain ⟨pid', t₁, y, hserves, hwithin, hredeemed, rfl⟩ :=
            hhandled.redeemed hseal rfl hcodeForm hmatches hresource hp
          obtain ⟨status', body', he, hsettled⟩ := hredeemed.settled app.endpoints ho
          obtain ⟨rfl, rfl⟩ := Outcome.response.inj he
          have hcode' := hcode.mono hp (List.subset_cons_self
            (PatCli.did (.http (redemption app.endpoints tok.text verifier uri clientId))
              (Outcome.response status body)) t)
          rcases hsettled with ⟨now', hnow', hexp, hread⟩ | ⟨reply, hasked, hread⟩
          · rw [lift_eq_raise (hread.symm.trans hx)]
            exact Setback.late hcode' hserves hcodeForm (hwithin _ hnow') hexp
          · have hreply : Asked app entry acts (PatCli.did (.http (redemption app.endpoints tok.text verifier
                uri clientId)) (Outcome.response status body) :: t) reply :=
              ⟨pid, pid', now, tok, _, hcode', hpending.resource, hwithin _ hasked⟩
            rcases hread with ⟨a, hgrants, hread⟩ | ⟨hno, msg, hread⟩
            · rw [lift_eq_ret (hread.symm.trans hx)]
              exact ⟨rfl, reply, hreply, hgrants⟩
            · rw [lift_eq_raise (hread.symm.trans hx)]
              exact Setback.ungranted hreply hno

/-! ### The sign-in -/

omit [Platform] in
theorem tokenUrlsafe_ne_nil {n : ℕ} (hn : n ≠ 0) (b : {b : Bytes // b.length = n}) : base64Url b.val ≠ [] := by
  refine base64Url_ne_nil fun hempty => hn ?_
  rw [← b.property, hempty]
  rfl

theorem sat_signIn {resource : Str} (hentry : pickResource app.config (some resource) = .ok entry)
    (hslash : rstripSlash app.config.publicUrl = app.config.publicUrl) (loginScope : Str) (timeout : Timeout)
    (browser : Browser) (ht : ∀ c ∈ t, Silent c.1) :
    (signIn app.endpoints resource loginScope timeout browser).Sat (fun _ _ => True)
      (Reached app entry (Completed app entry)) t := by
  refine PatCli.sat_ask_bind trivial fun port => ?_
  refine Prog.Sat.bind (@sat_register _ app entry port _) ?_ ?_
  swap
  · rintro t₁ e - ⟨-, hregistered⟩
    exact hregistered
  rintro t₁ clientId - ⟨⟨req, outcome, rfl⟩, hregistered⟩
  refine ⟨trivial, fun b => ?_⟩
  refine PatCli.sat_tokenUrlsafe_bind trivial fun b' => ?_
  have hlisten : Shows (PatCli.did .listen port :: t) port (app.config.publicUrl ++ "/authorize" ++ '?' ::
      urlencode (signInQuery clientId (redirectUri port) (base64Url (sha256 (utf8 (base64Url b.val))))
        (base64Url b'.val) resource loginScope)) := shows_listen ht
  have hshows := ((hlisten.silent (o := .http req) trivial outcome).silent
    (o := .tokenBytes 64) trivial b).silent (o := .tokenBytes 32) trivial b'
  refine Prog.Sat.bind (sat_openBrowser browser hshows) ?_ fun _ _ _ h => nomatch h.1
  rintro t₂ ⟨⟩ - ⟨-, hsuffix, hshows⟩
  have henrolled : ∀ acts, Conversed app entry t₂ acts → FernetText app acts →
      EnrolledAs app acts (redirectUri port) clientId := by
    intro acts hconv htext
    obtain ⟨before, hp, hconv⟩ := hconv.of_suffix
      (((List.suffix_cons _ _).trans (List.suffix_cons _ _)).trans hsuffix)
    obtain ⟨r, tok, huris, hseal, hid⟩ := hregistered before hconv (htext.mono hp)
    exact ⟨r, tok, huris, hseal.mono hp, hid⟩
  refine PatCli.sat_wait_bind trivial (fun received => ?_) fun _ _ _ _ => .unanswered List.mem_cons_self
  cases received with
  | none => exact fun _ _ _ => .unanswered List.mem_cons_self
  | some received =>
      have hreached := reached_checkRedirect hentry hslash hshows henrolled
        (tokenUrlsafe_ne_nil (by decide) b') (base64Url_ascii _) timeout received
      refine Prog.Sat.lift_bind (fun code hcode => ?_) fun e he => ?_
      · rw [show app.endpoints.issuer = app.config.publicUrl from rfl] at hcode
        rw [hcode] at hreached
        exact sat_redeem (resourceByUrl_of_pickResource hentry) (base64Url_ascii _)
          (tokenUrlsafe_ne_nil (by decide) b) hreached
      · rw [show app.endpoints.issuer = app.config.publicUrl from rfl] at he
        rw [he] at hreached
        exact hreached

/-! ### The session -/

theorem sat_readEndpoints (entry : ResourceEntry)
    (hslash : rstripSlash app.config.publicUrl = app.config.publicUrl)
    (hsecure : SecureUrl app.config.publicUrl) :
    (readEndpoints app.config.publicUrl).Sat (fun _ _ => True)
      (fun t x => (∃ req outcome, t = [PatCli.did (.http req) outcome]) ∧
        Reached app entry (fun _ _ endpoints => endpoints = app.endpoints) t x) [] := by
  rw [readEndpoints_eq hslash hsecure, getJson_eq]
  refine ⟨trivial, fun outcome => ?_⟩
  cases (outcome : Outcome) with
  | httpError name => exact ⟨⟨_, _, rfl⟩, fun acts _ _ => .lost List.mem_cons_self⟩
  | refused r => exact ⟨⟨_, _, rfl⟩, fun acts _ _ => .unsent List.mem_cons_self⟩
  | response status body =>
      refine sat_of_settled (settled_metadata _ _ status body) fun x hx => ⟨⟨_, _, rfl⟩, ?_⟩
      rintro acts ⟨before, hp, -, hjoined⟩ -
      cases hjoined with
      | served hr =>
          cases hr with
          | register v hurl => cases List.append_cancel_left hurl
          | token fields hurl => cases List.append_cancel_left hurl
          | createToken v hurl => cases List.append_cancel_left hurl
          | listTokens hurl => cases List.append_cancel_left hurl
          | revokeToken tokenId hurl =>
              rw [List.append_assoc] at hurl
              cases List.append_cancel_left hurl
      | metadata hurl hmethod hv =>
          rw [lift_eq_ret ((readMetadata_served hslash hsecure hv _).symm.trans hx)]
          exact rfl

/-- What a session is when it has completed. -/
def SessionCompleted (app : App) (entry : ResourceEntry) (resources : List Str) (acts : Schedule)
    (t : Trace cliOps) (s : SignedIn × List Str) : Prop :=
  Completed app entry acts t s.1 ∧ s.2 = resources

theorem session_eq {ctx : Context} {args : CommonArgs} {resource : Str} {rest : List Str}
    (hproxy : args.proxy = some app.config.publicUrl)
    (hresources : resources ctx args = .ok (resource :: rest)) (hsecure : SecureUrl app.config.publicUrl) :
    session ctx args = (readEndpoints app.config.publicUrl).bind fun endpoints =>
      (signIn endpoints resource args.loginScope args.timeout (browserOf ctx args)).bind
        fun signedIn => .ret (signedIn, resource :: rest) := by
  obtain ⟨c, url, hurl⟩ := List.exists_cons_of_ne_nil (secureUrl_ne_nil hsecure)
  unfold session
  rw [hresources, hproxy, hurl]
  rfl

theorem sat_session {ctx : Context} {args : CommonArgs} {resource : Str} {rest : List Str}
    (hproxy : args.proxy = some app.config.publicUrl)
    (hresources : resources ctx args = .ok (resource :: rest))
    (hentry : pickResource app.config (some resource) = .ok entry)
    (hslash : rstripSlash app.config.publicUrl = app.config.publicUrl)
    (hsecure : SecureUrl app.config.publicUrl) :
    (session ctx args).Sat (fun _ _ => True)
      (Reached app entry (SessionCompleted app entry (resource :: rest))) [] := by
  rw [session_eq hproxy hresources hsecure]
  refine Prog.Sat.bind (sat_readEndpoints entry hslash hsecure) ?_ ?_
  swap
  · rintro t e - ⟨-, hreached⟩
    exact hreached
  rintro t endpoints - ⟨⟨req, outcome, rfl⟩, hendpoints⟩
  by_cases he : endpoints = app.endpoints
  swap
  · -- no conversation of this application comes here
    refine (Prog.sat_true _ _).suffix.mono (fun _ _ h => h) ?_
    rintro t' x ⟨hsuffix, -⟩ acts hconv htext
    obtain ⟨before, hp, hconv⟩ := hconv.of_suffix hsuffix
    exact absurd (hendpoints before hconv (htext.mono hp)) he
  subst he
  have hsilent : ∀ c ∈ [PatCli.did (.http req) outcome], Silent c.1 := by
    intro c hc
    rw [List.mem_singleton.mp hc]
    trivial
  refine Prog.Sat.bind (sat_signIn hentry hslash args.loginScope args.timeout (browserOf ctx args) hsilent)
    ?_ fun t e _ hreached => hreached
  exact fun t s _ hreached acts hconv htext => ⟨hreached acts hconv htext, rfl⟩

/-- **A sign-in against the proxy completes, or fails of what neither side can help.** -/
theorem sign_in_completes {env : Env} {files : Files} {cfg : ProxyConfig} (hcfg : loadConfig env files = .ok cfg)
    (happ : createApp cfg = .ok app) (hsecure : SecureUrl app.config.publicUrl) {ctx : Context}
    {args : CommonArgs} {resource : Str} {rest : List Str} (hproxy : args.proxy = some app.config.publicUrl)
    (hresources : resources ctx args = .ok (resource :: rest))
    (hentry : pickResource app.config (some resource) = .ok entry) (around : Surroundings cliOps)
    (hconv : Conversed app entry ((session ctx args).answered around []).1 acts)
    (htext : FernetText app acts) :
    Stage app entry acts ((session ctx args).answered around []).1
      (SessionCompleted app entry (resource :: rest)) ((session ctx args).answered around []).2 := by
  have hslash : rstripSlash app.config.publicUrl = app.config.publicUrl := by
    rw [createApp_config happ]
    exact publicUrl_of_loaded hcfg
  have key := sat_session hproxy hresources hentry hslash hsecure
  exact key.answered around acts hconv htext

end Conversation

end CimdProxy

/-! ### A sign-in from its first request to its access token -/

namespace Py.Json
mutual
/-- Whether two values are the same, members in order. -/
def same : Json → Json → Bool
  | .null, .null => true
  | .bool a, .bool b => a == b
  | .int a, .int b => a == b
  | .float a, .float b => a == b
  | .str a, .str b => a == b
  | .arr xs, .arr ys => sameElems xs ys
  | .obj ms, .obj ns => sameMembers ms ns
  | _, _ => false
def sameElems : List Json → List Json → Bool
  | [], [] => true
  | x :: xs, y :: ys => same x y && sameElems xs ys
  | _, _ => false
def sameMembers : List (Str × Json) → List (Str × Json) → Bool
  | [], [] => true
  | (k, v) :: ms, (k', v') :: ns => k == k' && same v v' && sameMembers ms ns
  | _, _ => false
end

mutual
theorem eq_of_same : ∀ {v w : Json}, same v w = true → v = w
  | .null, w, h => by cases w <;> first | rfl | cases h
  | .bool a, w, h => by
      cases w with
      | bool b => exact congrArg _ (eq_of_beq h)
      | _ => cases h
  | .int a, w, h => by
      cases w with
      | int b => exact congrArg _ (eq_of_beq h)
      | _ => cases h
  | .float a, w, h => by
      cases w with
      | float b => exact congrArg _ (eq_of_beq h)
      | _ => cases h
  | .str a, w, h => by
      cases w with
      | str b => exact congrArg _ (eq_of_beq h)
      | _ => cases h
  | .arr xs, w, h => by
      cases w with
      | arr ys => exact congrArg _ (eq_of_sameElems h)
      | _ => cases h
  | .obj ms, w, h => by
      cases w with
      | obj ns => exact congrArg _ (eq_of_sameMembers h)
      | _ => cases h
theorem eq_of_sameElems : ∀ {xs ys : List Json}, sameElems xs ys = true → xs = ys
  | [], [], _ => rfl
  | x :: xs, y :: ys, h => by
      rw [sameElems, Bool.and_eq_true] at h
      rw [eq_of_same h.1, eq_of_sameElems h.2]
theorem eq_of_sameMembers : ∀ {ms ns : List (Str × Json)}, sameMembers ms ns = true → ms = ns
  | [], [], _ => rfl
  | (k, v) :: ms, (k', v') :: ns, h => by
      rw [sameMembers, Bool.and_eq_true, Bool.and_eq_true] at h
      rw [eq_of_beq h.1.1, eq_of_same h.1.2, eq_of_sameMembers h.2]
end
end Py.Json

namespace CimdProxy

open Py Effects PatCli

section Checks

variable [Platform] {app : App} {before more : Schedule} {req : Req}

/-- A process that has just been started serves its request from then on. -/
theorem serves_start : Serves (app.run (before ++ .start req :: more)) (app.run before).procs.length req := by
  have hp : before ++ [Action.start req] <+: before ++ .start req :: more :=
    (List.prefix_append_right_inj before).mpr ⟨more, rfl⟩
  refine Serves.mono hp ⟨⟨req, [], app.handler req⟩, ?_, rfl⟩
  have hsnoc : app.run (before ++ [Action.start req]) = (proxy app).step (app.run before) (.start req) :=
    (proxy app).run_snoc before (.start req)
  rw [hsnoc]
  exact List.getElem?_concat_length

/-- Whether a process has ended in a redirect to this URL. -/
def redirectsTo (c : State) (pid : ℕ) (url : Str) : Bool :=
  match c.procs[pid]? with
  | some ⟨_, _, .ret (.redirect 302 url')⟩ => url' == url
  | _ => false

/-- Whether a process has ended in this JSON. -/
def answersJson (c : State) (pid status : ℕ) (content : Json) : Bool :=
  match c.procs[pid]? with
  | some ⟨_, _, .ret (.json status' content' [])⟩ => status' == status && content'.same content
  | _ => false

omit [Platform] in
theorem ended_of_redirectsTo {c : State} {pid : ℕ} {url : Str} (h : redirectsTo c pid url = true) :
    Ended c pid (.ok (.redirect 302 url)) := by
  unfold redirectsTo at h
  split at h
  · next req t url' hp => exact ⟨_, hp, by rw [eq_of_beq h]; rfl⟩
  · cases h

omit [Platform] in
theorem ended_of_answersJson {c : State} {pid status : ℕ} {content : Json}
    (h : answersJson c pid status content = true) : Ended c pid (.ok (.json status content [])) := by
  unfold answersJson at h
  split at h
  · next req t status' content' hp =>
      rw [Bool.and_eq_true] at h
      exact ⟨_, hp, by rw [eq_of_beq h.1, Json.eq_of_same h.2]; rfl⟩
  · cases h

/-- Whether everything the proxy has sealed begins as a Fernet token does. -/
def sealsFernetText (c : State) : Bool :=
  c.hist.all fun e => match e with
    | (_, ⟨.fernetEncrypt _, tok⟩) => ("gAAAAA" : Str).isPrefixOf (FernetToken.text tok)
    | _ => true

theorem fernetText_of_sealsFernetText {acts : Schedule} (h : sealsFernetText (app.run acts) = true) :
    FernetText app acts :=
  fun _ _ _ hm => List.isPrefixOf_iff_prefix.mp (List.all_eq_true.mp h _ hm)

end Checks

/-- The registration of a listener at port 50000. -/
def enrollBody : JsonValue :=
  ⟨.obj (registrationBody (redirectUri 50000)), by
    refine ⟨by simp only [registrationBody, List.map_cons, List.map_nil]; decide, ?_⟩
    simp [registrationBody, Json.WFMembers, Json.WF, Json.WFElems]⟩

/-- The verifier and the state of a command without randomness. -/
def zeroVerifier : Str := base64Url (List.replicate 64 0)

def zeroState : Str := base64Url (List.replicate 32 0)

def zeroQuery : List (Str × Str) :=
  signInQuery "gAAAAAid" (redirectUri 50000) (base64Url (sha256 (utf8 zeroVerifier))) zeroState
    "https://log.example" "openid"

/-- The command registers. -/
def enrolledRun : Schedule :=
  .start (.register (.value enrollBody)) :: List.replicate 3 (.act 0 (sealingAs "gAAAAAid" (by decide)))

/-- Then the browser opens the sign-in page. -/
def forwardedRun : Schedule :=
  enrolledRun ++ .start (.authorize (.ofQuery zeroQuery)) ::
    List.replicate 5 (.act 1 (sealingAs "gAAAAAstate" (by decide)))

/-- Then it returns from the upstream. -/
def returnedRun : Schedule :=
  forwardedRun ++ .start (.callback ⟨some "upstream".toList, some "gAAAAAstate".toList, none, none⟩) ::
    List.replicate 3 (.act 2 (sealingAs "gAAAAAcode" (by decide)))

/-- Then the command redeems the code. -/
def redeemedRun : Schedule :=
  returnedRun ++ .start (.token (.ofFields
    (redemptionFields "gAAAAAcode" zeroVerifier (redirectUri 50000) "gAAAAAid"))) ::
    List.replicate 3 (.act 3 (realmReplies 0))

/-- The resource that the command signs in for. -/
def zeroEntry : ResourceEntry :=
  letI := Platform.plain
  Except.value (pickResource patApp.config (some "https://log.example".toList)) (by decide +kernel)

/-- The URL the upstream sees. -/
def zeroUpstream : List (Str × Str) :=
  [("response_type", "code"), ("client_id", "log"), ("redirect_uri", "https://proxy.example/callback"),
    ("code_challenge", "1T7aemN8mcx_tWbZbp-hCb8VxHhBCj9etNTE4mzQgfY"), ("code_challenge_method", "S256"),
    ("state", "gAAAAAstate"), ("scope", "openid")]

def zeroRedirect : Params :=
  [("code", "gAAAAAcode"), ("iss", "https://proxy.example"), ("state", zeroState)]

theorem redeemedRun_steps :
    letI := Platform.plain
    (answersJson (patApp.run enrolledRun) 0 201
        (.obj (Register.issuedBody "gAAAAAid" ⟨[redirectUri 50000], "none", 0, PatCli.clientName⟩)) &&
      redirectsTo (patApp.run forwardedRun) 1 (authorizeUrl zeroEntry.issuer ++ '?' :: urlencode zeroUpstream) &&
      redirectsTo (patApp.run returnedRun) 2 (redirectUri 50000 ++ '?' :: urlencode zeroRedirect) &&
      answersJson (patApp.run redeemedRun) 3 200 grantAnswer.val &&
      sealsFernetText (patApp.run redeemedRun)) = true := by
  decide +kernel

theorem redeemedRun_lengths :
    letI := Platform.plain
    (patApp.run enrolledRun).procs.length = 1 ∧ (patApp.run forwardedRun).procs.length = 2 ∧
      (patApp.run returnedRun).procs.length = 3 := by
  decide +kernel

/-- The answer to the registration. -/
def issuedValue : JsonValue :=
  ⟨.obj (Register.issuedBody "gAAAAAid" ⟨[redirectUri 50000], "none", 0, PatCli.clientName⟩), by
    refine ⟨?_, ?_⟩
    · change ["client_id".toList, "client_id_issued_at".toList, "redirect_uris".toList,
        "token_endpoint_auth_method".toList, "grant_types".toList, "response_types".toList,
        "client_name".toList].Nodup
      decide
    · change Json.WFMembers [("client_id", .str "gAAAAAid"), ("client_id_issued_at", .int 0),
        ("redirect_uris", .arr [.str (redirectUri 50000)]), ("token_endpoint_auth_method", .str "none"),
        ("grant_types", .arr [.str "authorization_code", .str "refresh_token"]),
        ("response_types", .arr [.str "code"]), ("client_name", .str PatCli.clientName)]
      simp [Json.WFMembers, Json.WF, Json.WFElems]
      decide⟩

theorem metadata_patApp :
    letI := Platform.plain
    Json.sameMembers patApp.metadata
      [("issuer", .str "https://proxy.example"), ("authorization_endpoint", .str "https://proxy.example/authorize"),
        ("token_endpoint", .str "https://proxy.example/token"), ("response_types_supported", .arr [.str "code"]),
        ("grant_types_supported", .arr [.str "authorization_code", .str "refresh_token", .str tokenExchange]),
        ("code_challenge_methods_supported", .arr [.str "S256"]),
        ("token_endpoint_auth_methods_supported", .arr [.str "none"]),
        ("client_id_metadata_document_supported", .bool true),
        ("authorization_response_iss_parameter_supported", .bool true),
        ("scopes_supported", .arr [.str "openid", .str "offline_access"]),
        ("registration_endpoint", .str "https://proxy.example/register")] = true := by
  decide +kernel

def metadataValue : JsonValue :=
  letI := Platform.plain
  ⟨.obj patApp.metadata, by
    rw [Json.eq_of_sameMembers metadata_patApp]
    refine ⟨by simp only [List.map_cons, List.map_nil]; decide, ?_⟩
    simp [Json.WFMembers, Json.WF, Json.WFElems]⟩

theorem metadataValue_val :
    letI := Platform.plain
    metadataValue.val = .obj patApp.metadata := rfl

/-- Surroundings in which a sign-in succeeds. -/
def succeeding (metadata issued granted : JsonValue) (received : Params) : Surroundings cliOps
  | _, .listen => (50000 : ℕ)
  | _, .tokenBytes n => ⟨List.replicate n 0, length_zeros n⟩
  | _, .browse _ => ()
  | _, .wait _ => some received
  | _, .accept _ => true
  | _, .http req =>
      match req.step with
      | .metadata => Outcome.response 200 (.value metadata)
      | .registration => Outcome.response 201 (.value issued)
      | .redemption => Outcome.response 200 (.value granted)
      | _ => Outcome.httpError "ConnectError"
  | _, .stderr _ => ()
  | _, .stdout _ => ()

/-- The calls of a sign-in that succeeds, after the calls `t`. -/
def signedInTrace [Platform] (app : App) (issued granted : JsonValue) (received : Params)
    (clientId code resource loginScope : Str) (timeout : Timeout) (t : Trace cliOps) : Trace cliOps :=
  PatCli.did (.http (redemption app.endpoints code zeroVerifier (redirectUri 50000) clientId))
      (Outcome.response 200 (.value granted)) ::
    PatCli.did (.wait timeout) (some received : Option Params) ::
    PatCli.did (.stderr ("Sign in at:\n  " ++ (app.endpoints.authorization ++ '?' :: urlencode
      (signInQuery clientId (redirectUri 50000) (base64Url (sha256 (utf8 zeroVerifier))) zeroState resource
        loginScope)) ++ ['\n'])) () ::
    PatCli.did (.tokenBytes 32) ⟨List.replicate 32 0, by simp⟩ ::
    PatCli.did (.tokenBytes 64) ⟨List.replicate 64 0, by simp⟩ ::
    PatCli.did (.http (registrationRequest app.endpoints (redirectUri 50000)))
      (Outcome.response 201 (.value issued)) :: PatCli.did .listen (50000 : ℕ) :: t

/-- The first call of a session. -/
def metadataCall [Platform] (app : App) (metadata : JsonValue) : Call cliOps :=
  PatCli.did (.http ⟨.metadata, .get, app.config.publicUrl ++ serverMetadata,
    [("Accept", "application/json")], .none⟩) (Outcome.response 200 (.value metadata))

section Succeeds

variable [Platform] {app : App} {ctx : Context} {args : CommonArgs} {metadata issued granted : JsonValue}
  {received : Params} {clientId code a resource : Str} {rest : List Str} {r : RegistrationEnvelope} {d : Dict}

theorem answered_signIn (hissued : issued.val = .obj (Register.issuedBody clientId r)) (hid : clientId ≠ [])
    (hcheck : checkRedirect received zeroState app.config.publicUrl = .ok code)
    (hgranted : granted.val = .obj d) (haccess : Dict.get? d "access_token" = some (.str a)) (ha : a ≠ [])
    (loginScope : Str) (timeout : Timeout) (t : Trace cliOps) :
    (signIn app.endpoints resource loginScope timeout .printOnly).answered
        (succeeding metadata issued granted received) t =
      (signedInTrace app issued granted received clientId code resource loginScope timeout t,
        .ok ⟨app.endpoints, a⟩) := by
  have hregister : ∀ t, (PatCli.register app.endpoints (redirectUri 50000)).answered
      (succeeding metadata issued granted received) t =
        (PatCli.did (.http (registrationRequest app.endpoints (redirectUri 50000)))
          (Outcome.response 201 (.value issued)) :: t, .ok clientId) := by
    intro t
    rw [register_eq]
    exact congrArg (fun p : Script Str => p.answered (succeeding metadata issued granted received) _)
      (readRegistration_issued hissued hid)
  have hread : readRedemption app.endpoints 200 (.value granted) = .ret ⟨app.endpoints, a⟩ := by
    obtain ⟨c, rest, rfl⟩ := List.exists_cons_of_ne_nil ha
    rw [readRedemption_object app.endpoints hgranted, haccess]
  have hredeem : ∀ t, (redeem app.endpoints code zeroVerifier (redirectUri 50000) clientId).answered
      (succeeding metadata issued granted received) t =
        (PatCli.did (.http (redemption app.endpoints code zeroVerifier (redirectUri 50000) clientId))
          (Outcome.response 200 (.value granted)) :: t, .ok ⟨app.endpoints, a⟩) := by
    intro t
    rw [redeem_eq]
    exact congrArg (fun p : Script SignedIn => p.answered (succeeding metadata issued granted received) _) hread
  change (Prog.bind (PatCli.register app.endpoints (redirectUri 50000)) _).answered _
    (PatCli.did .listen (50000 : ℕ) :: t) = _
  rw [Prog.answered_bind, hregister]
  change (Prog.bind (Prog.lift (checkRedirect received zeroState app.config.publicUrl)) _).answered _ _ = _
  rw [hcheck]
  exact hredeem _

theorem answered_session (hslash : rstripSlash app.config.publicUrl = app.config.publicUrl)
    (hsecure : SecureUrl app.config.publicUrl) (hproxy : args.proxy = some app.config.publicUrl)
    (hresources : PatCli.resources ctx args = .ok (resource :: rest)) (hbrowser : browserOf ctx args = .printOnly)
    (hmetadata : metadata.val = .obj app.metadata)
    (hissued : issued.val = .obj (Register.issuedBody clientId r)) (hid : clientId ≠ [])
    (hcheck : checkRedirect received zeroState app.config.publicUrl = .ok code)
    (hgranted : granted.val = .obj d) (haccess : Dict.get? d "access_token" = some (.str a)) (ha : a ≠ []) :
    (session ctx args).answered (succeeding metadata issued granted received) [] =
      (signedInTrace app issued granted received clientId code resource args.loginScope args.timeout
        [metadataCall app metadata], .ok (⟨app.endpoints, a⟩, resource :: rest)) := by
  have hendpoints : (readEndpoints app.config.publicUrl).answered
      (succeeding metadata issued granted received) [] = ([metadataCall app metadata], .ok app.endpoints) := by
    rw [readEndpoints_eq hslash hsecure, getJson_eq]
    exact congrArg (fun p : Script Endpoints => p.answered (succeeding metadata issued granted received) _)
      (readMetadata_served hslash hsecure hmetadata _)
  rw [session_eq hproxy hresources hsecure, Prog.answered_bind, hendpoints]
  dsimp only
  rw [hbrowser, Prog.answered_bind, answered_signIn hissued hid hcheck hgranted haccess ha]
  rfl

/-- The conversation of a sign-in that succeeds. -/
theorem conversed_signedInTrace {entry : ResourceEntry} {before₁ before₂ before₃ acts : Schedule}
    {back : Callback.CallbackParams} {target location loginScope : Str} {timeout : Timeout}
    (hmetadata : metadata.val = .obj app.metadata)
    (hregister : HttpJoined app [] before₁ (registrationRequest app.endpoints (redirectUri 50000))
      (Outcome.response 201 (.value issued)))
    (hforward : Handled app before₁ before₂ (.authorize (.ofQuery (signInQuery clientId (redirectUri 50000)
      (base64Url (sha256 (utf8 zeroVerifier))) zeroState resource loginScope))) (.ok (.redirect 302 target)))
    (hback : ReturnsState entry target back)
    (hreturn : Handled app before₂ before₃ (.callback back) (.ok (.redirect 302 location)))
    (hheard : Heard 50000 location received)
    (hredeem : HttpJoined app before₃ acts
      (redemption app.endpoints code zeroVerifier (redirectUri 50000) clientId)
      (Outcome.response 200 (.value granted)))
    (hp₁ : before₁ <+: before₂) (hp₂ : before₂ <+: before₃) (hp₃ : before₃ <+: acts) :
    Conversed app entry (signedInTrace app issued granted received clientId code resource loginScope timeout
      [metadataCall app metadata]) acts := by
  have hmetadata : Conversed app entry [metadataCall app metadata] [] :=
    ⟨[], List.prefix_rfl, trivial, .metadata rfl rfl hmetadata⟩
  have hpage : ∀ {t : Trace cliOps} {o : PatCli.Op} {r : PatCli.Reply o}, Conversed app entry t before₁ →
      Joined app entry t before₁ before₁ o r → Conversed app entry (PatCli.did o r :: t) before₁ :=
    fun ht hjoined => ⟨before₁, List.prefix_rfl, ht, hjoined⟩
  have hregistered : Conversed app entry (PatCli.did (.http (registrationRequest app.endpoints
      (redirectUri 50000))) (Outcome.response 201 (.value issued)) :: PatCli.did .listen (50000 : ℕ) ::
      [metadataCall app metadata]) before₁ :=
    ⟨[], List.nil_prefix, ⟨[], List.prefix_rfl, hmetadata, trivial⟩, hregister⟩
  refine ⟨before₃, hp₃, ⟨before₁, hp₁.trans hp₂, hpage (hpage (hpage hregistered trivial) trivial) trivial,
    ?_⟩, hredeem⟩
  intro params hparams
  obtain rfl := Option.some.inj hparams
  have hlisten : PatCli.did .listen (50000 : ℕ) ∈ (PatCli.did (.http (registrationRequest app.endpoints
      (redirectUri 50000))) (Outcome.response 201 (.value issued)) :: PatCli.did .listen (50000 : ℕ) ::
      [metadataCall app metadata] : Trace cliOps) := List.mem_cons_of_mem _ List.mem_cons_self
  refine ⟨(50000 : ℕ), _, List.mem_cons_of_mem _ (List.mem_cons_of_mem _ (List.mem_cons_of_mem _ hlisten)),
    .inr List.mem_cons_self, before₂, _, target, location, back, hp₁, hp₂, rfl, ?_,
    hback, hreturn, hheard⟩
  rw [parseQsl_urlencode]
  exact hforward

end Succeeds

theorem any_isSecure_patApp :
    letI := Platform.plain
    (urlsplit patApp.config.publicUrl).toOption.any isSecure = true := by
  decide +kernel

theorem publicUrl_patApp :
    letI := Platform.plain
    patApp.config.publicUrl = "https://proxy.example" := by
  decide +kernel

theorem resources_sampleArgs :
    letI := Platform.plain
    (PatCli.resources sampleContext sampleArgs).toOption = some ["https://log.example".toList] := by
  decide +kernel

theorem eq_ok_of_toOption {ε α : Type} {x : Except ε α} {a : α} (h : x.toOption = some a) : x = .ok a := by
  cases x with
  | error e => cases h
  | ok a' => exact congrArg _ (Option.some.inj h)

theorem secureUrl_patApp :
    letI := Platform.plain
    SecureUrl patApp.config.publicUrl := by
  let := Platform.plain
  have hany := any_isSecure_patApp
  unfold SecureUrl
  cases hu : urlsplit patApp.config.publicUrl with
  | error msg =>
      rw [hu] at hany
      cases hany
  | ok parts =>
      rw [hu] at hany
      exact ⟨parts, rfl, hany⟩

theorem checkRedirect_zeroRedirect :
    (checkRedirect zeroRedirect zeroState "https://proxy.example").toOption = some "gAAAAAcode".toList := by
  decide +kernel

theorem Arrival.of_finite {status : ℕ} {content : Json} {v : JsonValue} (hfinite : content.isFinite = true)
    (hv : v.val = content) : Arrival (.ok (.json status content [])) (.response status (.value v)) := by
  have hrender : (Response.json status content []).render = .ok (.json status content []) := if_pos hfinite
  exact .json hrender hv

/-- The redirect to a listener is heard there. -/
theorem heard_redirectUri [Platform] (port : ℕ) {fields : Params}
    (h : (fields.filter fun p => !p.2.isEmpty) = fields) :
    Heard port (redirectUri port ++ '?' :: urlencode fields) fields := by
  obtain ⟨k, hk⟩ := doGet_target fields
  rw [h] at hk
  exact ⟨_, k, List.append_assoc _ _ _, hk⟩

theorem delivers_registration [Platform] (app : App) {uri : Str} {v : JsonValue}
    (hv : v.val = .obj (registrationBody uri)) :
    Delivers app (registrationRequest app.endpoints uri) (.register (.value v)) :=
  .register v rfl rfl (congrArg Payload.json hv.symm)

theorem delivers_redemption [Platform] (app : App) (code verifier uri clientId : Str) :
    Delivers app (redemption app.endpoints code verifier uri clientId)
      (.token (.ofFields (redemptionFields code verifier uri clientId))) :=
  .token _ rfl rfl rfl

/-- The run answers the calls of a sign-in that succeeds. -/
theorem conversed_redeemedRun (timeout : Timeout) :
    letI := Platform.plain
    Conversed patApp zeroEntry (signedInTrace patApp issuedValue grantAnswer zeroRedirect "gAAAAAid" "gAAAAAcode"
      "https://log.example" "openid" timeout [metadataCall patApp metadataValue]) redeemedRun := by
  let := Platform.plain
  have hsteps := redeemedRun_steps
  simp only [Bool.and_eq_true] at hsteps
  obtain ⟨⟨⟨⟨hissued, hforwarded⟩, hreturned⟩, hgranted⟩, -⟩ := hsteps
  obtain ⟨hone, htwo, hthree⟩ := redeemedRun_lengths
  refine conversed_signedInTrace metadataValue_val
    (.served (delivers_registration patApp rfl) ⟨0, Nat.le_refl _, @serves_start _ patApp [] _ _,
      ended_of_answersJson hissued⟩ (.of_finite (isFinite_issuedBody _ rfl) rfl))
    ⟨1, hone.le, hone ▸ serves_start, ended_of_redirectsTo hforwarded⟩ ?_
    ⟨2, htwo.le, htwo ▸ serves_start, ended_of_redirectsTo hreturned⟩ (heard_redirectUri 50000 (by decide))
    (.served (delivers_redemption patApp _ _ _ _) ⟨3, hthree.le, hthree ▸ serves_start,
      ended_of_answersJson hgranted⟩ (.of_finite rfl rfl))
    (List.prefix_append _ _) (List.prefix_append _ _) (List.prefix_append _ _)
  refine ⟨_, rfl, ?_⟩
  rw [parseQsl_urlencode]
  rfl

/-- The sign-in of a command without randomness succeeds. -/
theorem sign_in_completes_redeemedRun :
    letI := Platform.plain
    ∃ (around : Surroundings cliOps) (t : Trace cliOps) (s : SignedIn × List Str),
      (session sampleContext sampleArgs).answered around [] = (t, .ok s) ∧
      Conversed patApp zeroEntry t redeemedRun ∧ FernetText patApp redeemedRun ∧
      SessionCompleted patApp zeroEntry ["https://log.example".toList] redeemedRun t s := by
  let := Platform.plain
  have happ : createApp patConfig = .ok patApp := Except.eq_value _ _
  have hcfg : loadConfig patEnv patFiles = .ok patConfig := Except.eq_value _ _
  have hproxy : sampleArgs.proxy = some patApp.config.publicUrl := by
    rw [publicUrl_patApp]
    rfl
  have hresources := eq_ok_of_toOption resources_sampleArgs
  have hcheck : checkRedirect zeroRedirect zeroState patApp.config.publicUrl = .ok "gAAAAAcode" := by
    rw [publicUrl_patApp]
    exact eq_ok_of_toOption checkRedirect_zeroRedirect
  have hslash : rstripSlash patApp.config.publicUrl = patApp.config.publicUrl := by
    rw [publicUrl_patApp]
    decide
  have hsecure : SecureUrl patApp.config.publicUrl := secureUrl_patApp
  have hissued : issuedValue.val =
      .obj (Register.issuedBody "gAAAAAid" ⟨[redirectUri 50000], "none", 0, PatCli.clientName⟩) := rfl
  have hgranted : grantAnswer.val = .obj [("access_token", .str "short"), ("scope", .str "read write")] := rfl
  have hrun := @answered_session _ patApp sampleContext sampleArgs metadataValue issuedValue grantAnswer
    zeroRedirect "gAAAAAid" "gAAAAAcode" "short" "https://log.example" [] _ _ hslash hsecure hproxy hresources rfl
    metadataValue_val hissued (by decide) hcheck hgranted rfl (by decide)
  have hfernet : FernetText patApp redeemedRun := by
    have hsteps := redeemedRun_steps
    simp only [Bool.and_eq_true] at hsteps
    exact fernetText_of_sealsFernetText hsteps.2
  have hconv := conversed_redeemedRun sampleArgs.timeout
  have hentry : pickResource patApp.config (some "https://log.example".toList) = .ok zeroEntry :=
    Except.eq_value _ _
  have key := @sign_in_completes Platform.plain patApp zeroEntry redeemedRun _ _ _ hcfg happ hsecure _ _ _ _
    hproxy hresources hentry (succeeding metadataValue issuedValue grantAnswer zeroRedirect)
  rw [hrun] at key
  exact ⟨_, _, _, hrun, hconv, hfernet, key hconv hfernet⟩

end CimdProxy
