import CimdProxy.CliAnswers
import CimdProxy.PortRelaxation

/-! # The steps of a sign-in against the proxy

The command line signs in against the proxy of its own repository.  One step at a time: the registration
of its redirect URI is accepted, the sign-in page leads to the upstream, the return from it leads to the
listener, the redirect passes the checks of the command line, and the code passes those of `/token`. -/

namespace CimdProxy

open Py Effects PatCli

variable [Platform]

/-! ### The redirect URI of the listener -/

theorem spells_redirectUri (port : ℕ) (rest : Str) (hash : '#' ∉ rest) (hr : EndsAuthority rest) :
    SpellsLoopback ("http://127.0.0.1:" ++ Nat.toDigits 10 port ++ rest) "127.0.0.1"
      (splitTail (rest.filter fun c => !isUnsafeUrlByte c)).1
      (splitTail (rest.filter fun c => !isUnsafeUrlByte c)).2.1 := by
  have hport : IsPort (':' :: Nat.toDigits 10 port) :=
    .inr ⟨_, rfl, Nat.toDigits_ne_nil, fun d hd => Nat.isDigit_of_mem_toDigits (by norm_num) (by norm_num) hd⟩
  have hhost : ("127.0.0.1" : Str) ∈ hostTexts := by decide
  obtain ⟨-, h⟩ := spells_of_port hhost hport hash hr
  exact h

theorem acceptRegistered_redirectUri (port : ℕ) : acceptRegistered (redirectUri port) = .ok () := by
  have hl : isLoopbackHost (some "127.0.0.1".toList) = true := rfl
  have hpath : callbackPath = '/' :: "callback" := rfl
  have h := spells_redirectUri port callbackPath (by decide) (.inr (.inl ⟨_, hpath⟩))
  obtain ⟨p, hp, hscheme, hhost, hf, hat, -⟩ := (spellsLoopback_iff hl).mp h
  refine acceptRegistered_eq_ok.mpr ⟨p, hp, hf, hat, by rw [hhost]; rfl, .inr ⟨hscheme, ?_⟩⟩
  rw [hhost]
  rfl

omit [Platform] in
theorem redirectUri_ne_nil (port : ℕ) : redirectUri port ≠ [] :=
  List.append_ne_nil_of_left_ne_nil (List.append_ne_nil_of_left_ne_nil (by decide) _) _

/-! ### The hops, at the proxy -/

section Hops

variable {app : App} {before after : Schedule} {x : Except Exc Response}

theorem registers_registrationBody {uri : Str} (hne : uri ≠ []) : Registers (registrationBody uri) [uri] where
  nonEmpty := by simpa using hne
  secret := rfl
  redirectUris := rfl
  method := ⟨_, rfl⟩
  name := ⟨_, rfl⟩

/-- The registration is accepted. -/
theorem Handled.enrolled {uri : Str} (hacc : acceptRegistered uri = .ok ()) (hne : uri ≠ []) {v : JsonValue}
    (hv : v.val = .obj (registrationBody uri)) (h : Handled app before after (.register (.value v)) x) :
    ∃ (r : RegistrationEnvelope) (tok : FernetToken), r.redirectUris = [uri] ∧
      SealedAs app after (.registration r) tok ∧
      x = .ok (.json 201 (.obj (Register.issuedBody tok.text r)) []) := by
  obtain ⟨pid, -, hserves, hended⟩ := h
  rcases (registers_registrationBody hne).ended hv hserves hended with
    ⟨-, r, blob, tok, hr, hb, hm, hx⟩ | ⟨hnot, -⟩
  · exact ⟨r, tok, hr, ⟨pid, blob, hb, hm⟩, hx⟩
  · refine absurd (usableRedirectUris_eq_self_iff.mpr ⟨by simp, ?_⟩) hnot
    simpa using hacc

/-- What a pending sign-in of the command line carries. -/
structure Pending (entry : ResourceEntry) (clientId uri challenge state : Str) (env : AuthorizeEnvelope) :
    Prop where
  clientId : env.clientId = clientId
  redirectUri : env.redirectUri = uri
  challenge : env.clientCodeChallenge = challenge
  state : env.state = state
  resource : env.resource = entry.url

/-- A complete request for a configured resource passes under its registered URI. -/
theorem judge_of_present {cfg : ProxyConfig} {params : Authorize.AuthorizeParams} {uris : List Str}
    {document : Option CimdDocument} {via : Authorize.Via} {clientId uri challenge : Str}
    {entry : ResourceEntry} (hp : Authorize.requirePresent params = .ok (clientId, uri, challenge))
    (he : pickResource cfg params.resource = .ok entry)
    (hm : params.codeChallengeMethod = some "S256".toList)
    (huri : Authorize.matchesAny uri uris = .ok true) :
    Authorize.judge cfg params uris document via =
      .ok ⟨clientId, uri, challenge, params.state.getD [], Authorize.orDefault params.scope cfg.defaultScope,
        entry, document, via⟩ := by
  unfold Authorize.judge
  rw [hp, ok_bind]
  dsimp only
  rw [he, ok_bind, if_neg (not_not_intro hm), huri, ok_bind]
  rfl

/-- The parameters of the sign-in page, but for the client id. -/
def signInParams (uri challenge state resource loginScope : Str) : Authorize.AuthorizeParams where
  responseType := some "code".toList
  clientId := none
  redirectUri := some uri
  codeChallenge := some challenge
  codeChallengeMethod := some "S256".toList
  state := some state
  resource := some resource
  scope := if loginScope.isEmpty then none else some loginScope

omit [Platform] in
theorem ofQuery_signInQuery (clientId uri challenge state resource loginScope : Str) :
    Authorize.AuthorizeParams.ofQuery (signInQuery clientId uri challenge state resource loginScope) =
      { signInParams uri challenge state resource loginScope with clientId := some clientId } := by
  unfold Authorize.AuthorizeParams.ofQuery signInQuery signInParams
  split_ifs
  · rfl
  · rfl

/-- The sign-in page leads to the upstream. -/
theorem Handled.forwarded {r : RegistrationEnvelope} {tok : FernetToken} {uri challenge state resource : Str}
    {entry : ResourceEntry} (loginScope : Str) (hseal : SealedAs app before (.registration r) tok)
    (huris : r.redirectUris = [uri]) (hid : Authorize.isCimd tok.text = false)
    (hentry : pickResource app.config (some resource) = .ok entry) (hp : before <+: after)
    (h : Handled app before after
      (.authorize (.ofQuery (signInQuery tok.text uri challenge state resource loginScope))) x) :
    ∃ (env : AuthorizeEnvelope) (tok' : FernetToken) (query : Str),
      Pending entry tok.text uri challenge state env ∧ SealedAs app after (.authorize env) tok' ∧
      x = .ok (.redirect 302 (authorizeUrl entry.issuer ++ '?' :: query)) ∧
      lastValue (parseQsl query) "state" = some tok'.text := by
  obtain ⟨pid, hpid, hserves, hended⟩ := h
  obtain ⟨pid', blob, hb, hm⟩ := hseal
  rw [ofQuery_signInQuery] at hserves
  obtain ⟨t, document, ht, hanswers⟩ := judged_dcr hp hpid hb hm hid hserves hended
  have hmatch : Authorize.matchesAny uri [uri] = .ok true := by
    simp [Authorize.matchesAny, uriMatchesRegistration]
  rw [huris, judge_of_present rfl hentry rfl hmatch] at hanswers
  obtain ⟨cid, verifier, challenge', now, blob', tok', hb', hm', hx⟩ := hanswers
  exact ⟨_, tok', _, ⟨rfl, rfl, rfl, rfl, rfl⟩, ⟨pid, blob', hb', ht _ hm'⟩, hx, by rw [parseQsl_urlencode]; rfl⟩

/-- The return from the upstream is turned away only when it comes too late. -/
theorem Handled.returned {env : AuthorizeEnvelope} {tok : FernetToken} {params : Callback.CallbackParams}
    (hseal : SealedAs app before (.authorize env) tok) (hstate : params.state = some tok.text)
    (hp : before <+: after) (h : Handled app before after (.callback params) x) :
    ∃ pid t, Serves (app.run after) pid (.callback params) ∧ Within pid t (app.run after).hist ∧
      ∃ r : ℤ × Option Bytes, did (.fernetDecrypt tok.text (some 600)) r ∈ t ∧
        if withinTtl (some 600) tok.stamp r.1 then Callback.Responds app.config params env t x
        else x = .ok Callback.stateInvalid := by
  obtain ⟨pid, hpid, hserves, hended⟩ := h
  obtain ⟨pid', blob, hb, hm⟩ := hseal
  have hread : readAs blob .authorize = .ok (.authorize env) := by
    rw [readAs_blob (Envelope.wf_authorize _) hb]
    exact if_pos rfl
  obtain ⟨t, ht, hR⟩ := ended_sat_own
    (Callback.sat_callback_sealed app.config hstate tok.ascii hread tok.stamp) hserves hended
  exact ⟨pid, t, hserves, ht.within, hR (reopening_of_sealed hp hpid hm (some 600) ht.within)⟩

/-- The code is turned away only when it comes too late. -/
theorem Handled.redeemed {env : CodeEnvelope} {tok : FernetToken} {form : Token.TokenForm} {verifier : Str}
    {entry : ResourceEntry} (hseal : SealedAs app before (.code env) tok)
    (hg : form.grantType = some "authorization_code".toList) (hcode : form.code = some tok.text)
    (hform : Token.Matches form env verifier) (hentry : app.config.resourceByUrl env.resource = .ok (some entry))
    (hp : before <+: after) (h : Handled app before after (.token form) x) :
    ∃ pid t y, Serves (app.run after) pid (.token form) ∧ Within pid t (app.run after).hist ∧
      Token.Redeemed app.config env entry t y ∧ x = Token.caught y := by
  obtain ⟨pid, hpid, hserves, hended⟩ := h
  obtain ⟨pid', blob, hb, hm⟩ := hseal
  have hread : readAs blob .code = .ok (.code env) := by
    rw [readAs_blob (Envelope.wf_code _) hb]
    exact if_pos rfl
  obtain ⟨t, ht, hR⟩ := ended_sat_own
    (Token.sat_token_sealed app.config app.patService hg hcode tok.ascii hread hform hentry tok.stamp)
    hserves hended
  obtain ⟨y, hy, hx⟩ := hR (reopening_of_sealed hp hpid hm none ht.within)
  exact ⟨pid, t, y, hserves, ht.within, hy, hx⟩

end Hops

/-! ### The redirect to the listener -/

section Redirect

omit [Platform]

theorem get?_cons (p : Str × Str) (ps : Params) (name : Str) :
    Params.get? (p :: ps) name = if p.1 = name then some p.2 else Params.get? ps name := by
  by_cases hn : p.1 = name
  · simp [Params.get?, hn]
  · simp [Params.get?, hn]

theorem get?_eq_none_of_not_mem {ps : Params} {name : Str} (h : name ∉ ps.map Prod.fst) :
    Params.get? ps name = none := by
  unfold Params.get?
  rw [Option.map_eq_none_iff, List.find?_eq_none]
  intro p hp hname
  exact h (List.mem_map.mpr ⟨p, hp, by simpa using hname⟩)

/-- A parameter that is there once is read unless it is empty. -/
theorem get?_filter_of_nodup {ps : Params} (h : (ps.map Prod.fst).Nodup) (name : Str) :
    Params.get? (ps.filter fun p => !p.2.isEmpty) name =
      (Params.get? ps name).filter (fun v => !v.isEmpty) := by
  induction ps with
  | nil => rfl
  | cons p ps ih =>
      obtain ⟨hp, hps⟩ := List.nodup_cons.mp h
      have hrest := ih hps
      rw [get?_cons]
      by_cases he : p.2.isEmpty = true
      · rw [List.filter_cons_of_neg (by simp [he]), hrest]
        by_cases hn : p.1 = name
        · rw [if_pos hn, get?_eq_none_of_not_mem (hn ▸ hp)]
          simp [Option.filter, he]
        · rw [if_neg hn]
      · rw [List.filter_cons_of_pos (by simp [he]), get?_cons]
        by_cases hn : p.1 = name
        · rw [if_pos hn, if_pos hn]
          simp [Option.filter, he]
        · rw [if_neg hn, if_neg hn, hrest]

end Redirect

section Check

variable {cfg : ProxyConfig} {env : AuthorizeEnvelope} {state : Str}

omit [Platform] in
/-- A redirect with this state from this issuer is looked at. -/
theorem checkRedirect_ours {received : Params} {issuer : Str} (hascii : isAscii state = true)
    (hstate : received.get? "state" = some state) (hiss : (received.get? "iss").getD [] = issuer)
    (hslash : rstripSlash issuer = issuer) :
    checkRedirect received state issuer =
      match received.get? "error" with
      | some error =>
          let detail : Str := (received.get? "error_description").getD []
          .error (.cliError (("the sign-in was refused: " : Str) ++ error ++
            (if detail.isEmpty then [] else (": " : Str) ++ detail) ++ "; nothing was created"))
      | none =>
          match received.get? "code" with
          | some (c :: code) => .ok (c :: code)
          | _ => .error (.cliError "the sign-in came back without a code; nothing was created") := by
  have hsame : raising (compareDigest state state) = .ok true := by
    simp [compareDigest, hascii, raising]
  unfold checkRedirect
  rw [hstate, Option.getD_some, hsame, ok_bind, if_neg (by decide), hiss]
  exact if_neg (not_not_intro hslash)

/-- The redirect with a code passes the checks of the command line. -/
theorem checkRedirect_codeParams {code : Str} (hstate : env.state = state) (hne : state ≠ [])
    (hascii : isAscii state = true) (hslash : rstripSlash cfg.publicUrl = cfg.publicUrl) (hcode : code ≠ []) :
    checkRedirect ((Callback.codeParams cfg env code).filter fun p => !p.2.isEmpty) state cfg.publicUrl =
      .ok code := by
  have hlist : Callback.codeParams cfg env code =
      [("code".toList, code), ("iss".toList, cfg.publicUrl), ("state".toList, state)] := by
    unfold Callback.codeParams Callback.ifSet
    rw [hstate, if_neg (by simpa using hne)]
  have hkeys : ([("code".toList, code), ("iss".toList, cfg.publicUrl), ("state".toList, state)].map
      Prod.fst).Nodup := by
    change ["code".toList, "iss".toList, "state".toList].Nodup
    decide
  rw [hlist, checkRedirect_ours hascii _ _ hslash]
  · rw [get?_filter_of_nodup hkeys, get?_filter_of_nodup hkeys]
    cases code with
    | nil => exact absurd rfl hcode
    | cons c code => rfl
  · rw [get?_filter_of_nodup hkeys]
    cases state with
    | nil => exact absurd rfl hne
    | cons c state => rfl
  · rw [get?_filter_of_nodup hkeys]
    cases cfg.publicUrl with
    | nil => rfl
    | cons c url => rfl

omit [Platform] in
/-- A redirect without a code is reported. -/
theorem checkRedirect_codeless {ps : Params} {issuer : Str} (hkeys : (ps.map Prod.fst).Nodup)
    (hstate : Params.get? ps "state" = some state) (hiss : Params.get? ps "iss" = some issuer)
    (hcode : Params.get? ps "code" = none) (hne : state ≠ []) (hascii : isAscii state = true)
    (hslash : rstripSlash issuer = issuer) :
    ∃ msg, checkRedirect (ps.filter fun p => !p.2.isEmpty) state issuer = .error (.cliError msg) := by
  rw [checkRedirect_ours hascii _ _ hslash]
  · rw [get?_filter_of_nodup hkeys "code", hcode]
    cases Params.get? (ps.filter fun p => !p.2.isEmpty) "error" with
    | some error => exact ⟨_, rfl⟩
    | none => exact ⟨_, rfl⟩
  · rw [get?_filter_of_nodup hkeys, hstate]
    cases state with
    | nil => exact absurd rfl hne
    | cons c state => rfl
  · rw [get?_filter_of_nodup hkeys, hiss]
    cases issuer with
    | nil => rfl
    | cons c issuer => rfl

theorem nodup_errorParams (cfg : ProxyConfig) (env : AuthorizeEnvelope) (error : Str)
    (description : Option Str) : ((Callback.errorParams cfg env error description).map Prod.fst).Nodup := by
  unfold Callback.errorParams Callback.ifSet
  cases description.getD [] with
  | nil =>
      cases env.state with
      | nil =>
          change ["error".toList, "iss".toList].Nodup
          decide
      | cons c s =>
          change ["error".toList, "state".toList, "iss".toList].Nodup
          decide
  | cons c d =>
      cases env.state with
      | nil =>
          change ["error".toList, "error_description".toList, "iss".toList].Nodup
          decide
      | cons c s =>
          change ["error".toList, "error_description".toList, "state".toList, "iss".toList].Nodup
          decide

/-- The redirect with an error of the upstream is reported. -/
theorem checkRedirect_errorParams {error : Str} {description : Option Str} (hstate : env.state = state)
    (hne : state ≠ []) (hascii : isAscii state = true)
    (hslash : rstripSlash cfg.publicUrl = cfg.publicUrl) :
    ∃ msg, checkRedirect ((Callback.errorParams cfg env error description).filter fun p => !p.2.isEmpty)
      state cfg.publicUrl = .error (.cliError msg) := by
  have hset : Callback.ifSet "state" env.state = [("state".toList, state)] := by
    unfold Callback.ifSet
    rw [hstate, if_neg (by simpa using hne)]
  have hnodup := nodup_errorParams cfg env error description
  unfold Callback.errorParams at hnodup ⊢
  rw [hset] at hnodup ⊢
  revert hnodup
  cases description.getD [] with
  | nil => exact fun hnodup => checkRedirect_codeless hnodup rfl rfl rfl hne hascii hslash
  | cons c d => exact fun hnodup => checkRedirect_codeless hnodup rfl rfl rfl hne hascii hslash

end Check

end CimdProxy
