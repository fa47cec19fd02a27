import CimdProxy.CodeFlow

/-! # Where a client can be sent

Every redirect URI that `/authorize` seals was vetted: the policy accepts it, and it matches a URI that
the client listed, in a document fetched from its own URL or in its registration.  `/callback`
redirects only to URLs that start with such a URI.  The main result is `redirect_targets_vetted`. -/

namespace CimdProxy

open Py Effects

section Targets

variable [Platform]

theorem Authorize.exists_of_matchesAny {redirectUri : Str} : ∀ {uris : List Str},
    Authorize.matchesAny redirectUri uris = .ok true →
      ∃ u ∈ uris, uriMatchesRegistration redirectUri u = .ok true
  | [], h => nomatch h
  | u :: uris, h => by
      obtain ⟨b, hb, hrest⟩ := bind_eq_ok.mp h
      cases b with
      | true => exact ⟨u, List.mem_cons_self, hb⟩
      | false =>
          obtain ⟨u', hu', hm⟩ := Authorize.exists_of_matchesAny hrest
          exact ⟨u', List.mem_cons_of_mem _ hu', hm⟩

/-! ### Where the URIs of a client come from -/

/-- The JSON object lists the URI under `redirect_uris`. -/
def Lists (d : Dict) (u : Str) : Prop :=
  ∃ xs uris, Dict.get? d "redirect_uris" = some (.arr xs) ∧ Json.nonEmptyStrs xs = some uris ∧ u ∈ uris

/-- A document fetched from `url` names `url` as its client and lists the URI. -/
def ListedInDocument (h : History) (url u : Str) : Prop :=
  ∃ pid parsed ip body cacheControl text d, parseClientIdUrl url = .ok parsed ∧
    (pid, did (.pinnedGet (pinnedUrl parsed ip) parsed.authority parsed.hostname)
      (GetOutcome.response 200 body cacheControl)) ∈ h ∧
    utf8Decode body = some text ∧ Json.loads text = .ok (.obj d) ∧
    Dict.get? d "client_id" = some (.str url) ∧ Lists d u

/-- A registration that was answered with the client id lists the URI. -/
def ListedInRegistration (c : State) (clientId u : Str) : Prop :=
  ∃ pid v d r, Serves c pid (.register (.value v)) ∧ v.val = .obj d ∧ Lists d u ∧
    Answered c pid (.json 201 (.obj (Register.issuedBody clientId r)) [])

section Runs

variable {app : App} {acts : Schedule} {pid : ℕ} {past : History}

/-- The URIs of an obtained document. -/
theorem listed_of_obtained {t : Trace proxyOps} {url u : Str} {doc : CimdDocument}
    (h : ObtainedIn t url doc) (ht : Within pid t past) (hpast : past <:+ (app.run acts).hist)
    (hu : u ∈ doc.redirectUris) : ListedInDocument past url u ∧ acceptRegistered u = .ok () := by
  obtain ⟨pid', t', ⟨parsed, ip, body, cc, hp, hm, hr⟩, ht'⟩ :
      ∃ pid' t', FetchedIn t' url doc ∧ Within pid' t' past := by
    rcases h with h | ⟨now, h⟩
    · exact ⟨pid, t, h, ht⟩
    · obtain ⟨past', hs⟩ := System.exists_past (ht _ h)
      obtain ⟨pid', t', hf, ht'⟩ := cached_fetched (hs.trans hpast)
      exact ⟨pid', t', hf, ht'.mono ((List.suffix_cons _ _).trans hs)⟩
  obtain ⟨text, htext, hloads, hv⟩ := vetted_of_readDocument hr
  obtain ⟨xs, uris, hxs, huris, hsub⟩ := hv.listed
  exact ⟨⟨pid', parsed, ip, body, cc, text, doc.raw, hp, ht' _ hm, htext, hloads, hv.clientId,
    xs, uris, hxs, huris, hsub u hu⟩, hv.accepted u hu⟩

/-- The URIs of an opened registration. -/
theorem listed_of_opened {t : Trace proxyOps} {clientId u : Str} {e : RegistrationEnvelope}
    (h : Opened t clientId (.registration e)) (ht : Within pid t past)
    (hpast : past <:+ (app.run acts).hist) (hu : u ∈ e.redirectUris) :
    ListedInRegistration (app.run acts) clientId u ∧ acceptRegistered u = .ok () := by
  obtain ⟨past', hopens⟩ := h.opens ht
  obtain ⟨pid', req, e', tok, past'', t', hreq, hseal, rfl, he, hmint, -⟩ := opened_minted hopens hpast
  have hpast' : past' <:+ (app.run acts).hist := by
    obtain ⟨now, blob, hm, -⟩ := hopens
    exact ((List.suffix_cons _ _).trans hm).trans hpast
  cases e' with
  | registration e' =>
      obtain rfl := Envelope.registration.inj he
      obtain ⟨body, rfl, r, hr, hvalid⟩ := mints_registration hmint
      obtain rfl := Envelope.registration.inj hr
      obtain ⟨⟨v, d, xs, rfl, hd, hxs, huris⟩, hacc⟩ := Register.readAndValidate_uris hvalid
      obtain ⟨hwf, blob, hb, hm⟩ := hseal
      obtain ⟨t'', hin, -, hend⟩ := sealed_ended hreq ((hm.trans hpast').subset List.mem_cons_self)
      refine ⟨?_, hacc u hu⟩
      rcases hend with ⟨resp, hresp, hc⟩ | ⟨err, hc⟩
      · obtain ⟨r, hrb, hok⟩ := hc blob tok hin
        obtain rfl := Except.ok.inj hok
        exact ⟨pid', v, d, r, hreq, hd, ⟨xs, e.redirectUris, hxs, huris, hu⟩, hresp⟩
      · obtain ⟨r, -, hok⟩ := hc blob tok hin
        cases hok
  | authorize e' => cases he
  | code e' => cases he
  | refresh e' => cases he

end Runs

/-- **Only vetted redirect targets are sealed, and only sealed ones are redirected to.** -/
theorem redirect_targets_vetted (app : App) (acts : Schedule) :
    (∀ (pid : ℕ) (env : AuthorizeEnvelope) (tok : FernetToken) (past : History),
      Seals (app.run acts).hist pid (.authorize env) tok past →
        acceptRegistered env.redirectUri = .ok () ∧
        ∃ u, uriMatchesRegistration env.redirectUri u = .ok true ∧
          ((("https://" : Str) <+: env.clientId ∧ ListedInDocument past env.clientId u) ∨
            (¬ ("https://" : Str) <+: env.clientId ∧
              ListedInRegistration (app.run acts) env.clientId u))) ∧
    (∀ (pid : ℕ) (params : Callback.CallbackParams) (status : ℕ) (url : Str),
      Serves (app.run acts) pid (.callback params) →
      Answered (app.run acts) pid (.redirect status url) →
        ∃ pid' env tok past, Seals (app.run acts).hist pid' (.authorize env) tok past ∧
          params.state = some tok.text ∧ env.redirectUri <+: url) := by
  constructor
  · rintro pid env tok past ⟨hwf, blob, hb, hm⟩
    have hpast : past <:+ (app.run acts).hist := (List.suffix_cons _ _).trans hm
    obtain ⟨req, e', t, hreq, hwf', hb', hmint, ht⟩ := encrypted_minted hm
    have he := reread_eq_of_blob hwf hwf' hb hb'
    cases e' with
    | authorize env' =>
        obtain rfl := Envelope.authorize.inj he
        obtain ⟨params, rfl, v, cid, verifier, now, henv, hv⟩ := mints_authorize hmint
        obtain rfl := Envelope.authorize.inj henv
        obtain ⟨uris, hreg, hmatch⟩ := hv.registered
        obtain ⟨u, hu, hmu⟩ := Authorize.exists_of_matchesAny hmatch
        rcases hreg with ⟨hc, doc, hdoc, rfl⟩ | ⟨hc, e, hopen, rfl⟩
        · obtain ⟨hlisted, hacc⟩ := listed_of_obtained hdoc ht hpast hu
          exact ⟨acceptRegistered_of_matches hacc hmu, u, hmu,
            .inl ⟨List.isPrefixOf_iff_prefix.mp hc, hlisted⟩⟩
        · obtain ⟨hlisted, hacc⟩ := listed_of_opened hopen ht hpast hu
          refine ⟨acceptRegistered_of_matches hacc hmu, u, hmu, .inr ⟨fun hp => ?_, hlisted⟩⟩
          exact Bool.false_ne_true (hc.symm.trans (List.isPrefixOf_iff_prefix.mpr hp))
    | code env' => cases he
    | refresh env' => cases he
    | registration env' => cases he
  · intro pid params status url hserves hanswered
    obtain ⟨t, ht, hc⟩ := ended_concludes hserves hanswered
    obtain ⟨state, env, hstate, hopen, hpre⟩ := hc status url rfl
    obtain ⟨past, hopens⟩ := hopen.opens ht.within
    obtain ⟨a, rfl, rfl, ha⟩ := accepted_of_opens hopens List.suffix_rfl
    obtain ⟨past', hs⟩ := ha.sealed
    obtain ⟨now, blob, hm, -⟩ := hopens
    exact ⟨a.pid, _, a.tok, past', hs.mono ((List.suffix_cons _ _).trans hm), hstate, hpre⟩

end Targets

/-- Whether a process has answered `/callback` with a redirect. -/
def redirects (c : State) (pid : ℕ) : Bool :=
  match c.procs[pid]? with
  | some ⟨.callback _, _, .ret (.redirect _ _)⟩ => true
  | _ => false

theorem exists_of_redirects {c : State} {pid : ℕ} (h : redirects c pid = true) :
    ∃ params status url, Serves c pid (.callback params) ∧ Answered c pid (.redirect status url) := by
  unfold redirects at h
  split at h
  · next params t status url hp => exact ⟨params, status, url, ⟨_, hp, rfl⟩, ⟨_, hp, rfl⟩⟩
  · cases h

theorem sampleReturn_redirects :
    letI := Platform.plain
    redirects (logApp.run sampleReturn) 2 = true := by
  decide +kernel

theorem redirect_targets_vetted_sampleReturn :
    letI := Platform.plain
    ∃ params status url pid env tok past,
      Serves (logApp.run sampleReturn) 2 (.callback params) ∧
      Answered (logApp.run sampleReturn) 2 (.redirect status url) ∧
      Seals (logApp.run sampleReturn).hist pid (.authorize env) tok past ∧
      env.redirectUri <+: url ∧ acceptRegistered env.redirectUri = .ok () := by
  let := Platform.plain
  obtain ⟨params, status, url, hserves, hanswered⟩ := exists_of_redirects sampleReturn_redirects
  obtain ⟨hsealed, hredirect⟩ := redirect_targets_vetted logApp sampleReturn
  obtain ⟨pid, env, tok, past, hs, -, hpre⟩ := hredirect 2 params status url hserves hanswered
  exact ⟨params, status, url, pid, env, tok, past, hserves, hanswered, hs, hpre,
    (hsealed pid env tok past hs).1⟩

end CimdProxy
