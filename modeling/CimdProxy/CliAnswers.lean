import CimdProxy.ClientWire

/-! # What the command line makes of the answers of the proxy

A command reads three answers on its way to an access token: the metadata document, the answer to its
registration, and the one to the redemption of its code.  Each reader is a program without calls; here is
how it ends on what the proxy sends. -/

namespace CimdProxy

open Py Effects PatCli

variable [Platform]

section Answers

variable {t : Trace cliOps} {outcome : Outcome} {app : App}

/-! ### Programs without calls -/

omit [Platform] in
/-- A program without calls is judged by its end. -/
theorem sat_of_settled {α : Type} {R : Trace cliOps → Except CliExc α → Prop} {p : Script α}
    (hp : ∃ x, p = .lift x) (h : ∀ x, p = .lift x → R t x) : p.Sat (fun _ _ => True) R t := by
  obtain ⟨x, rfl⟩ := hp
  exact (Prog.sat_lift _ _).mpr (h x rfl)

omit [Platform] in
theorem lift_eq_ret {α : Type} {x : Except CliExc α} {a : α} (h : (.ret a : Script α) = .lift x) :
    x = .ok a := by
  cases x with
  | ok a' => exact congrArg _ (Prog.ret.inj h).symm
  | error e => cases h

omit [Platform] in
theorem lift_eq_raise {α : Type} {x : Except CliExc α} {e : CliExc}
    (h : (.raise e : Script α) = .lift x) : x = .error e := by
  cases x with
  | ok a => cases h
  | error e' => exact congrArg _ (Prog.raise.inj h).symm

omit [Platform] in
theorem settled_refuse {α : Type} (what : Str) (status : ℕ) (body : Body) :
    ∃ x, (refuse what status body : Script α) = .lift x := by
  unfold refuse
  cases refusal status body with
  | ok why => exact ⟨.error _, rfl⟩
  | error e => exact ⟨.error e, rfl⟩

omit [Platform] in
theorem refusal_eq_ok {body : Body} (hb : body ≠ .tooDeep) (status : ℕ) :
    ∃ why, refusal status body = .ok why := by
  unfold refusal
  cases body with
  | tooDeep => exact absurd rfl hb
  | invalid msg => exact ⟨_, rfl⟩
  | value v =>
      dsimp only
      split
      · split
        · exact ⟨_, rfl⟩
        · exact ⟨_, rfl⟩
      · exact ⟨_, rfl⟩

omit [Platform] in
theorem refuse_eq_raise {α : Type} {body : Body} (hb : body ≠ .tooDeep) (what : Str) (status : ℕ) :
    ∃ msg, (refuse what status body : Script α) = .raise (.cliError msg) := by
  obtain ⟨why, hwhy⟩ := refusal_eq_ok hb status
  unfold refuse
  rw [hwhy]
  exact ⟨_, rfl⟩

/-! ### How answers arrive -/

omit [Platform] in
theorem Arrival.of_json {status : ℕ} {content : Json}
    (h : Arrival (.ok (.json status content [])) outcome) :
    (content.isFinite = true ∧ ∃ v : JsonValue, outcome = .response status (.value v) ∧ v.val = content) ∨
    (content.isFinite = false ∧ ∃ msg, outcome = .response 500 (.invalid msg)) := by
  have hrender : (Except.ok (Response.json status content []) : Except Exc Response).bind Response.render =
      if content.isFinite then .ok (.json status content [])
      else .error (.valueError "Out of range float values are not JSON compliant") := rfl
  cases hfinite : content.isFinite with
  | true =>
      rw [hfinite, if_pos rfl] at hrender
      cases h with
      | json hx hv =>
          obtain ⟨rfl, rfl, -⟩ := Response.json.inj (Except.ok.inj (hrender.symm.trans hx))
          exact .inl ⟨rfl, _, rfl, hv⟩
      | bare hx hr => exact absurd (Except.ok.inj (hrender.symm.trans hx)).symm (hr _ _ _)
      | failed hx => cases hrender.symm.trans hx
  | false =>
      rw [hfinite, if_neg Bool.false_ne_true] at hrender
      cases h with
      | json hx hv => cases hrender.symm.trans hx
      | bare hx hr => cases hrender.symm.trans hx
      | failed hx => exact .inr ⟨rfl, _, rfl⟩

omit [Platform] in
theorem Arrival.of_error {e : Exc} (h : Arrival (.error e) outcome) :
    ∃ msg, outcome = .response 500 (.invalid msg) := by
  cases h with
  | json hx hv => cases hx
  | bare hx hr => cases hx
  | failed hx => exact ⟨_, rfl⟩

/-! ### The metadata document -/

theorem requireSecureMember_eq {d : Dict} {key what u : Str} (hget : d.get? key = some (.str u))
    (hsecure : SecureUrl u) (hslash : rstripSlash u = u) : requireSecureMember d key what = .ok u := by
  unfold requireSecureMember
  rw [hget]
  exact requireSecure_eq_ok.mpr ⟨hsecure, hslash.symm⟩

omit [Platform] in
theorem rstripSlash_append_of_ne {c : Char} (hc : c ≠ '/') (s t : Str) :
    rstripSlash (s ++ (t ++ [c])) = s ++ (t ++ [c]) := by
  refine rstripSlash_eq_self fun t' h => hc ?_
  rw [← List.append_assoc] at h
  exact List.singleton_inj.mp (List.append_inj' h rfl).2

omit [Platform] in
theorem get?_set_self (d : Dict) (k : Str) (v : Json) : (d.set k v).get? k = some v := by
  induction d with
  | nil => simp [Dict.set, Dict.get?]
  | cons m d ih =>
      unfold Dict.set
      split_ifs with hm
      · simp [Dict.get?]
      · have hne : (m.1 == k) = false := by simpa using hm
        unfold Dict.get? at ih ⊢
        rw [List.find?_cons_of_neg (by simp [hne]), ih]

/-- The metadata of the proxy names its endpoints. -/
theorem endpointsOf_metadata (hslash : rstripSlash app.config.publicUrl = app.config.publicUrl)
    (hsecure : SecureUrl app.config.publicUrl) :
    endpointsOf app.config.publicUrl app.metadata = .ok app.endpoints := by
  have hissuer : rstripSlash (textOr (app.metadata.get? "issuer") []) = app.config.publicUrl := by
    rw [metadata_issuer, hslash]
    exact hslash
  have hoffers : offersS256 (app.metadata.get? "code_challenge_methods_supported") = .ok true := by
    unfold App.metadata
    rw [get?_buildDiscoveryDocument _ _ _ _ (by decide) (by decide)]
    rfl
  have hauthorization : app.metadata.get? "authorization_endpoint" =
      some (.str (app.config.publicUrl ++ "/authorize")) := by
    unfold App.metadata
    rw [get?_buildDiscoveryDocument _ _ _ _ (by decide) (by decide)]
    change some (Json.str (rstripSlash app.config.publicUrl ++ "/authorize")) = _
    rw [hslash]
  have htoken : app.metadata.get? "token_endpoint" = some (.str (app.config.publicUrl ++ "/token")) := by
    unfold App.metadata
    rw [get?_buildDiscoveryDocument _ _ _ _ (by decide) (by decide)]
    change some (Json.str (rstripSlash app.config.publicUrl ++ "/token")) = _
    rw [hslash]
  have hregistration : app.metadata.get? "registration_endpoint" =
      some (.str (app.config.publicUrl ++ "/register")) := by
    have hset := get?_set_self (buildDiscoveryDocument app.config.publicUrl app.config.scopesSupported false
      app.extraGrants) "registration_endpoint" (.str (rstripSlash app.config.publicUrl ++ "/register"))
    rw [hslash] at hset
    rw [← hset]
    unfold App.metadata buildDiscoveryDocument
    rw [hslash]
    rfl
  unfold endpointsOf
  rw [if_neg (not_not_intro hissuer), hoffers, ok_bind, if_neg (by decide),
    requireSecureMember_eq hauthorization (secureUrl_append hsecure "authorize")
      (rstripSlash_append_of_ne (by decide) _ "/authoriz"), ok_bind,
    requireSecureMember_eq htoken (secureUrl_append hsecure "token")
      (rstripSlash_append_of_ne (by decide) _ "/toke"), ok_bind,
    requireSecureMember_eq hregistration (secureUrl_append hsecure "register")
      (rstripSlash_append_of_ne (by decide) _ "/registe"), ok_bind]
  rfl

/-- What `_get_json` makes of the answer. -/
def readAnswer (url : Str) (status : ℕ) (body : Body) : Script (Option Dict) :=
  if status = 404 then return none
  else if status ≠ 200 then .raise (.cliError (url ++ " answered HTTP " ++ Nat.toDigits 10 status))
  else
    match body with
    | .tooDeep => .raise .recursionError
    | .invalid _ => .raise (.cliError (url ++ " did not answer with JSON"))
    | .value v =>
        match v.val with
        | .obj document => return some document
        | _ => .raise (.cliError (url ++ " did not answer with a JSON object"))

omit [Platform] in
theorem getJson_eq (step : Step) (url : Str) :
    getJson step url = (PatCli.send ⟨step, .get, url, [("Accept", "application/json")], .none⟩).bind
      fun r => readAnswer url r.1 r.2 := rfl

/-- What `read_endpoints` makes of the document. -/
def readMetadata (issuer : Str) : Option Dict → Script Endpoints
  | none => .raise (.cliError (issuer ++ " publishes no authorization server metadata"))
  | some document => Prog.lift (endpointsOf issuer document)

theorem settled_metadata (url issuer : Str) (status : ℕ) (body : Body) :
    ∃ x, (readAnswer url status body).bind (readMetadata issuer) = .lift x := by
  have hdocument : ∃ x, readAnswer url status body = .lift x := by
    unfold readAnswer
    split_ifs
    · exact ⟨.ok none, rfl⟩
    · exact ⟨.error _, rfl⟩
    · cases body with
      | tooDeep => exact ⟨.error _, rfl⟩
      | invalid msg => exact ⟨.error _, rfl⟩
      | value v =>
          dsimp only
          split
          · exact ⟨.ok (some _), rfl⟩
          · exact ⟨.error _, rfl⟩
  obtain ⟨x, hx⟩ := hdocument
  rw [hx]
  cases x with
  | error e => exact ⟨.error e, rfl⟩
  | ok document =>
      cases document with
      | none => exact ⟨.error _, rfl⟩
      | some d => exact ⟨_, rfl⟩

theorem readEndpoints_eq (hslash : rstripSlash app.config.publicUrl = app.config.publicUrl)
    (hsecure : SecureUrl app.config.publicUrl) :
    readEndpoints app.config.publicUrl =
      (getJson .metadata (app.config.publicUrl ++ serverMetadata)).bind
        (readMetadata app.config.publicUrl) := by
  have hrequire : requireSecure app.config.publicUrl "the proxy URL" = .ok app.config.publicUrl :=
    requireSecure_eq_ok.mpr ⟨hsecure, hslash.symm⟩
  unfold readEndpoints
  rw [hrequire]
  rfl

/-- The metadata document of the proxy, as the command line reads it. -/
theorem readMetadata_served (hslash : rstripSlash app.config.publicUrl = app.config.publicUrl)
    (hsecure : SecureUrl app.config.publicUrl) {v : JsonValue} (hv : v.val = .obj app.metadata) (url : Str) :
    (readAnswer url 200 (.value v)).bind (readMetadata app.config.publicUrl) = .ret app.endpoints := by
  have hread : readAnswer url 200 (.value v) = .ret (some app.metadata) := by
    unfold readAnswer
    rw [if_neg (by decide), if_neg (not_not_intro rfl)]
    dsimp only
    rw [hv]
    rfl
  rw [hread, Prog.ret_bind]
  exact congrArg Prog.lift (endpointsOf_metadata hslash hsecure)

/-! ### The registration -/

/-- What `register` makes of the answer. -/
def readRegistration (status : ℕ) (body : Body) : Script Str :=
  if status ≠ 201 then refuse "registration refused" status body
  else do
    let d ← Prog.lift (PatCli.jsonObject body)
    match Dict.get? d "client_id" with
    | some (.str (c :: clientId)) => return c :: clientId
    | _ => .raise (.cliError "registration returned no client_id")

/-- The body of the registration request. -/
def registrationBody (uri : Str) : Dict :=
  [("redirect_uris", .arr [.str uri]), ("token_endpoint_auth_method", .str "none"),
    ("grant_types", .arr [.str "authorization_code"]), ("response_types", .arr [.str "code"]),
    ("client_name", .str PatCli.clientName)]

/-- The registration request. -/
def registrationRequest (endpoints : Endpoints) (uri : Str) : PatCli.Request :=
  ⟨.registration, .post, endpoints.registration, [], .json (.obj (registrationBody uri))⟩

omit [Platform] in
theorem register_eq (endpoints : Endpoints) (uri : Str) :
    PatCli.register endpoints uri = (PatCli.send (registrationRequest endpoints uri)).bind fun r =>
      readRegistration r.1 r.2 := rfl

omit [Platform] in
theorem settled_readRegistration (status : ℕ) (body : Body) :
    ∃ x, readRegistration status body = .lift x := by
  unfold readRegistration
  split_ifs
  · exact settled_refuse _ _ _
  · cases PatCli.jsonObject body with
    | error e => exact ⟨.error e, rfl⟩
    | ok d =>
        simp only [Prog.lift_ok, Prog.bind_eq, Prog.ret_bind]
        split
        · exact ⟨.ok _, rfl⟩
        · exact ⟨.error _, rfl⟩

omit [Platform] in
theorem isFinite_issuedBody (clientId : Str) {r : RegistrationEnvelope} {uri : Str}
    (huris : r.redirectUris = [uri]) : (Json.obj (Register.issuedBody clientId r)).isFinite = true := by
  unfold Register.issuedBody
  rw [huris]
  cases r.clientName with
  | nil => rfl
  | cons c name => rfl

omit [Platform] in
/-- The answer to an accepted registration, as the command line reads it. -/
theorem readRegistration_issued {v : JsonValue} {clientId : Str} {r : RegistrationEnvelope}
    (hv : v.val = .obj (Register.issuedBody clientId r)) (hne : clientId ≠ []) :
    readRegistration 201 (.value v) = .ret clientId := by
  obtain ⟨c, rest, rfl⟩ := List.exists_cons_of_ne_nil hne
  have hid : (Register.issuedBody (c :: rest) r).get? "client_id" = some (.str (c :: rest)) := by
    rw [get?_issuedBody _ _ (by decide)]
    rfl
  unfold readRegistration PatCli.jsonObject
  rw [if_neg (not_not_intro rfl)]
  dsimp only
  rw [hv]
  simp only [Prog.lift_ok, Prog.bind_eq, Prog.ret_bind]
  rw [hid]
  rfl

/-! ### The redemption -/

/-- What `sign_in` makes of the answer to the redemption. -/
def readRedemption (endpoints : Endpoints) (status : ℕ) (body : Body) : Script SignedIn :=
  if status ≠ 200 then refuse "the token endpoint refused the code" status body
  else do
    let d ← Prog.lift (PatCli.jsonObject body)
    match d.get? "access_token" with
    | some (.str (c :: accessToken)) => return ⟨endpoints, c :: accessToken⟩
    | _ => .raise (.cliError "the token endpoint returned no access token")

/-- The redemption request. -/
def redemption (endpoints : Endpoints) (code verifier uri clientId : Str) : PatCli.Request :=
  ⟨.redemption, .post, endpoints.token, [("Accept", "application/json")],
    .form [("grant_type", "authorization_code"), ("code", code), ("code_verifier", verifier),
      ("redirect_uri", uri), ("client_id", clientId)]⟩

omit [Platform] in
theorem redeem_eq (endpoints : Endpoints) (code verifier uri clientId : Str) :
    redeem endpoints code verifier uri clientId =
      (PatCli.send (redemption endpoints code verifier uri clientId)).bind fun r =>
        readRedemption endpoints r.1 r.2 := rfl

omit [Platform] in
theorem readRedemption_refused (endpoints : Endpoints) {status : ℕ} (hs : status ≠ 200) {body : Body}
    (hb : body ≠ .tooDeep) : ∃ msg, readRedemption endpoints status body = .raise (.cliError msg) := by
  unfold readRedemption
  rw [if_pos hs]
  exact refuse_eq_raise hb _ _

omit [Platform] in
theorem readRedemption_object (endpoints : Endpoints) {v : JsonValue} {d : Dict} (hv : v.val = .obj d) :
    readRedemption endpoints 200 (.value v) =
      match d.get? "access_token" with
      | some (.str (c :: accessToken)) => .ret ⟨endpoints, c :: accessToken⟩
      | _ => .raise (.cliError "the token endpoint returned no access token") := by
  unfold readRedemption PatCli.jsonObject
  rw [if_neg (not_not_intro rfl)]
  dsimp only
  rw [hv]
  rfl

/-- The reply of the upstream grants this access token, and can be handed on. -/
def GrantsAccess (accessToken : Str) : HttpOutcome → Prop
  | .response status (.value v) => status < 400 ∧ accessToken ≠ [] ∧ ∃ d, v.val = .obj d ∧
      Dict.get? d "access_token" = some (.str accessToken) ∧
      Json.finiteMembers (Token.handedOn status d) = true
  | _ => False

/-- The message about a code that has expired. -/
def expiredMessage : Str :=
  "the token endpoint refused the code: HTTP 400 invalid_grant: code envelope expired"

/-- What the command line makes of the answer: it says that the code has expired, or gives what the
upstream granted, or says that it granted nothing. -/
def SettledAs (endpoints : Endpoints) (env : CodeEnvelope) (asked : HttpRequest) (t : Trace proxyOps)
    (p : Script SignedIn) : Prop :=
  (∃ now : Seconds, did .time now ∈ t ∧ env.exp ≤ now.whole ∧ p = .raise (.cliError expiredMessage)) ∨
  ∃ reply : HttpOutcome, did (.http asked) reply ∈ t ∧
    ((∃ a, GrantsAccess a reply ∧ p = .ret ⟨endpoints, a⟩) ∨
      (∀ a, ¬ GrantsAccess a reply) ∧ ∃ msg, p = .raise (.cliError msg))

omit [Platform] in
/-- A relayed object, as the command line reads it. -/
theorem readRedemption_relayed (endpoints : Endpoints) {d d' : Dict} {v v' : JsonValue} {status : ℕ}
    (hv : v.val = .obj d) (hv' : v'.val = .obj d') (hs : status < 400)
    (hfinite : Json.finiteMembers (Token.handedOn status d) = true)
    (hsame : Dict.get? d' "access_token" = Dict.get? d "access_token") :
    (∃ a, GrantsAccess a (.response status (.value v)) ∧
        readRedemption endpoints 200 (.value v') = .ret ⟨endpoints, a⟩) ∨
      (∀ a, ¬ GrantsAccess a (.response status (.value v))) ∧
        ∃ msg, readRedemption endpoints 200 (.value v') = .raise (.cliError msg) := by
  rw [readRedemption_object endpoints hv', hsame]
  have hnone : (∀ a, a ≠ [] → Dict.get? d "access_token" ≠ some (.str a)) →
      ∀ a, ¬ GrantsAccess a (.response status (.value v)) := by
    rintro h a ⟨-, hne, d'', hd, hget, -⟩
    obtain rfl := Json.obj.inj (hv.symm.trans hd)
    exact h a hne hget
  split
  · next c accessToken hget =>
      exact .inl ⟨_, ⟨hs, List.cons_ne_nil _ _, d, hv, hget, hfinite⟩, rfl⟩
  · next hother =>
      refine .inr ⟨hnone fun a hne hget => ?_, _, rfl⟩
      obtain ⟨c, a, rfl⟩ := List.exists_cons_of_ne_nil hne
      exact hother c a hget

/-- The answer to a redemption, as the command line reads it. -/
theorem Token.Redeemed.settled {cfg : ProxyConfig} {env : CodeEnvelope} {entry : ResourceEntry}
    {t : Trace proxyOps} {y : Except Exc Response} (endpoints : Endpoints)
    (h : Token.Redeemed cfg env entry t y) (ho : Arrival (Token.caught y) outcome) :
    ∃ status body, outcome = .response status body ∧
      SettledAs endpoints env (Token.redeemRequest cfg env entry) t (readRedemption endpoints status body) := by
  obtain ⟨now, hnow, h⟩ := h
  split_ifs at h with hexp
  · subst h
    obtain ⟨-, v, rfl, hv⟩ | ⟨hfinite, -⟩ := Arrival.of_json ho
    · refine ⟨_, _, rfl, .inl ⟨now, hnow, hexp, ?_⟩⟩
      have hwhy : refusal 400 (.value v) = .ok "HTTP 400 invalid_grant: code envelope expired" := by
        unfold refusal
        dsimp only
        rw [hv]
        rfl
      unfold readRedemption refuse
      rw [if_pos (by decide), hwhy]
      rfl
    · cases hfinite
  · obtain ⟨reply, hasked, h⟩ := h
    -- an answer that is none of the upstream's grants nothing
    have hunusable : ∀ {status : ℕ} {body : Body}, outcome = .response status body → status ≠ 200 →
        body ≠ .tooDeep → (∀ a, ¬ GrantsAccess a reply) → ∃ status body, outcome = .response status body ∧
          SettledAs endpoints env (Token.redeemRequest cfg env entry) t
            (readRedemption endpoints status body) :=
      fun ho hs hb hno => ⟨_, _, ho, .inr ⟨reply, hasked, .inr ⟨hno, readRedemption_refused _ hs hb⟩⟩⟩
    have hserver : ∀ {description : Str}, Arrival (Token.caught (.error (serverError description))) outcome →
        (∀ a, ¬ GrantsAccess a reply) → ∃ status body, outcome = .response status body ∧
          SettledAs endpoints env (Token.redeemRequest cfg env entry) t
            (readRedemption endpoints status body) := by
      intro description ho hno
      obtain ⟨-, v, rfl, -⟩ | ⟨hfinite, -⟩ := Arrival.of_json ho
      · exact hunusable rfl (by decide) nofun hno
      · cases hfinite
    cases reply with
    | httpError name text =>
        subst h
        exact hserver ho fun _ => id
    | raised msg =>
        subst h
        obtain ⟨msg, rfl⟩ := Arrival.of_error ho
        exact hunusable rfl (by decide) nofun fun _ => id
    | response status body =>
        cases h with
        | malformed msg => exact hserver ho fun _ => id
        | @passed v d hv hs =>
            have hno : ∀ a, ¬ GrantsAccess a (.response status (.value v)) :=
              fun a h => absurd h.1 (not_lt.mpr hs)
            obtain ⟨-, v', rfl, -⟩ | ⟨-, msg, rfl⟩ := Arrival.of_json ho
            · exact hunusable rfl (by omega) nofun hno
            · exact hunusable rfl (by decide) nofun hno
        | @relayed v d _ hv hs hx =>
            have hnodup : (d.map Prod.fst).Nodup := by
              have hwf := v.wf
              rw [hv] at hwf
              exact hwf.1
            have hpop : Token.handedOn status d = Dict.pop d "refresh_token" := if_neg (not_le.mpr hs)
            obtain ⟨d', rfl, hfinite, hsame⟩ : ∃ d' : Dict, y = .ok (.json 200 (.obj d') []) ∧
                (Json.obj d').isFinite = Json.finiteMembers (Token.handedOn status d) ∧
                Dict.get? d' "access_token" = Dict.get? d "access_token" := by
              rcases hx with ⟨hnone, rfl⟩ | ⟨r, blob, token, -, -, -, -, rfl⟩
              · exact ⟨d, rfl, by rw [hpop, Json.pop_eq_self hnone]; rfl, rfl⟩
              · refine ⟨_, rfl, ?_, Dict.get?_set (by decide) _⟩
                rw [hpop, ← Json.finiteMembers_set "refresh_token" token.text hnodup]
                rfl
            obtain ⟨hyes, v', rfl, hv'⟩ | ⟨hno, msg, rfl⟩ := Arrival.of_json ho
            · exact ⟨_, _, rfl, .inr ⟨_, hasked,
                readRedemption_relayed endpoints hv hv' hs (hfinite.symm.trans hyes) hsame⟩⟩
            · refine hunusable rfl (by decide) nofun ?_
              rintro a ⟨-, -, d'', hd, -, hyes⟩
              obtain rfl := Json.obj.inj (hv.symm.trans hd)
              cases (hno.symm.trans hfinite).trans hyes
        | @strayed v e hv he =>
            rw [Token.caught_error he] at ho
            obtain ⟨msg, rfl⟩ := Arrival.of_error ho
            exact hunusable rfl (by decide) nofun fun a ⟨_, _, d, hd, _⟩ => hv d hd

omit [Platform] in
theorem settled_readRedemption (endpoints : Endpoints) (status : ℕ) (body : Body) :
    ∃ x, readRedemption endpoints status body = .lift x := by
  unfold readRedemption
  split_ifs
  · exact settled_refuse _ _ _
  · cases PatCli.jsonObject body with
    | error e => exact ⟨.error e, rfl⟩
    | ok d =>
        simp only [Prog.lift_ok, Prog.bind_eq, Prog.ret_bind]
        split
        · exact ⟨.ok _, rfl⟩
        · exact ⟨.error _, rfl⟩

end Answers

end CimdProxy
