import CimdProxy.Pkce

/-! # The calls to Keycloak

`keycloak.py`: introspection, the federated identity link of an owner, and the JWT Authorization
Grant, all against one realm. -/

namespace CimdProxy

open Py Effects

variable [Platform]

/-! ### JSON as Python tests it -/

/-- `bool(v)`; a float literal is zero when its mantissa is. -/
def truthy : Json → Bool
  | .null => false
  | .bool b => b
  | .int n => n != 0
  | .float lit => (lit.takeWhile (fun c => c != 'e' && c != 'E')).any (fun c => c.isDigit && c != '0')
  | .str s => !s.isEmpty
  | .arr xs => !xs.isEmpty
  | .obj ms => !ms.isEmpty

/-- `v == s` for a string. -/
def isStr (v : Option Json) (s : Str) : Bool :=
  match v with
  | some (.str t) => t == s
  | _ => false

/-- `str(d.get(key, default))`. -/
def textOr (v : Option Json) (default : Str) : Str := (v.map Json.text).getD default

/-! ### The client -/

def jwtBearer : Str := "urn:ietf:params:oauth:grant-type:jwt-bearer"

/-- `s.rpartition(sep)`: the parts around the last occurrence. -/
def rpartition (sep s : Str) : Option (Str × Str) :=
  ((List.range (s.length + 1)).reverse.find? (fun i => sep.isPrefixOf (s.drop i))).map
    (fun i => (s.take i, s.drop (i + sep.length)))

/-- `_admin_base`. -/
def adminBase (realmIssuer : Str) : Except Exc Str :=
  match rpartition "/realms/" (rstripSlash realmIssuer) with
  | some (base, c :: realm) => .ok (base ++ "/admin/realms/" ++ c :: realm)
  | _ => .error (.valueError (pyRepr realmIssuer ++ " is not a Keycloak realm issuer"))

/-- The verified owner behind a management request. -/
structure Caller where
  subject : Str
  username : Json
  organizations : List Str

structure KeycloakClient where
  issuer : Str
  adminBase : Str
  clientId : Str
  clientSecret : Str
  idpAlias : Str

/-- The constructor. -/
def KeycloakClient.make (pat : PatConfig) : Except Exc KeycloakClient := do
  let issuer := rstripSlash pat.realmIssuer
  let base ← CimdProxy.adminBase issuer
  return ⟨issuer, base, pat.adminClientId, pat.adminClientSecret, pat.idpAlias⟩

/-- One request, with `httpx.HTTPError` turned into a `ServerError` that names its class. -/
def send (req : HttpRequest) : Run (ℕ × BodyJson) := do
  match ← ask (.http req) with
  | .response status body => return (status, body)
  | .httpError name _ => .raise (serverError ("upstream unreachable: " ++ name))
  | .raised msg => .raise (.library msg)

/-- `r.json()`. -/
def jsonOf : BodyJson → Except Exc Json
  | .value v => .ok v.val
  | .invalid msg => .error (.valueError msg)

namespace KeycloakClient

variable (kc : KeycloakClient)

/-- The introspection request. -/
def introspectRequest (accessToken : Str) : HttpRequest where
  method := .post
  url := tokenUrl kc.issuer ++ "/introspect"
  form := [("token", .str accessToken), ("token_type_hint", .str "access_token")]
  json := none
  basic := some (kc.clientId, kc.clientSecret)
  bearer := none

/-- `introspect`. -/
def introspect (accessToken : Str) : Run Json := do
  let (status, body) ← send (kc.introspectRequest accessToken)
  if status ≠ 200 then
    .raise (serverError ("token introspection failed with HTTP " ++ intText status))
  else .lift (jsonOf body)

/-- `r.json()["access_token"]`. -/
def accessTokenOf (body : BodyJson) : Except Exc Str := do
  match ← jsonOf body with
  | .obj d =>
      match Dict.get? d "access_token" with
      | some v => return v.text
      | none => .error (.keyError "'access_token'")
  | _ => .error (.typeError "indices must be integers, or the value is not subscriptable")

/-- `_admin_token`. -/
def adminToken : Run Str := do
  let (status, body) ← send
    { method := .post
      url := tokenUrl kc.issuer
      form := [("grant_type", .str "client_credentials")]
      json := none
      basic := some (kc.clientId, kc.clientSecret)
      bearer := none }
  if status ≠ 200 then
    .raise (serverError ("admin client login failed with HTTP " ++ intText status))
  else .lift (accessTokenOf body)

/-- What `for link in links` runs over. -/
def linkElements : Json → Except Exc (List Json)
  | .arr xs => .ok xs
  | .obj ms => .ok (ms.map (fun m => .str m.1))
  | .str s => .ok (s.map (fun c => .str [c]))
  | _ => .error (.typeError "object is not iterable")

/-- The loop over the links of the owner: whether the right one is there. -/
def findLink (subject : Str) : List Json → Except Exc Bool
  | [] => .ok false
  | .obj link :: rest =>
      if isStr (Dict.get? link "identityProvider") kc.idpAlias then
        if isStr (Dict.get? link "userId") subject then .ok true
        else .error (.linkConflict "the owner is linked to the token issuer under another id")
      else findLink subject rest
  | _ :: _ => .error (.attributeError "object has no attribute 'get'")

/-- The request that creates the link. -/
def linkRequest (url token : Str) (caller : Caller) : HttpRequest where
  method := .post
  url := url ++ '/' :: kc.idpAlias
  form := []
  json := some (.obj [("identityProvider", .str kc.idpAlias), ("userId", .str caller.subject),
    ("userName", if truthy caller.username then caller.username else .str caller.subject)])
  basic := none
  bearer := some token

/-- `ensure_link`. -/
def ensureLink (caller : Caller) : Run Unit := do
  let token ← kc.adminToken
  let url := kc.adminBase ++ "/users/" ++ caller.subject ++ "/federated-identity"
  let (status, body) ← send ⟨.get, url, [], none, none, some token⟩
  if status ≠ 200 then
    .raise (serverError ("reading the owner's identity links failed with HTTP " ++ intText status))
  else do
    let links ← .lift (jsonOf body)
    let elements ← .lift (linkElements links)
    let linked ← .lift (kc.findLink caller.subject elements)
    if linked then return ()
    else do
      let (status, _) ← send (kc.linkRequest url token caller)
      if status ≠ 201 ∧ status ≠ 204 then
        .raise (serverError ("linking the owner failed with HTTP " ++ intText status))
      else return ()

/-- The form of the JWT Authorization Grant. -/
def grantForm (clientId clientSecret assertion scope : Str) : List (Str × Json) :=
  [("grant_type".toList, .str jwtBearer), ("assertion".toList, .str assertion),
    ("client_id".toList, .str clientId), ("client_secret".toList, .str clientSecret)] ++
  if scope.isEmpty then [] else [("scope".toList, .str scope)]

omit [Platform] in
theorem grantForm_scope (clientId clientSecret assertion : Str) {scope : Str} (h : scope ≠ []) :
    Dict.get? (grantForm clientId clientSecret assertion scope) "scope" = some (.str scope) := by
  unfold grantForm
  rw [if_neg (by simpa using h)]
  rfl

/-- The request of the JWT Authorization Grant. -/
def grantRequest (clientId clientSecret assertion scope : Str) : HttpRequest :=
  ⟨.post, tokenUrl kc.issuer, grantForm clientId clientSecret assertion scope, none, none, none⟩

/-- `jwt_bearer_grant`. -/
def jwtBearerGrant (clientId clientSecret assertion scope : Str) : Run (ℕ × BodyJson) :=
  send (kc.grantRequest clientId clientSecret assertion scope)

end KeycloakClient

/-! ### What the calls do -/

/-- Whether a request asks for a JWT Authorization Grant. -/
def HttpRequest.isGrant (r : HttpRequest) : Bool := isStr (Dict.get? r.form "grant_type") jwtBearer

section Programs

variable {Q : Trace proxyOps → Op → Prop} {t : Trace proxyOps}

omit [Platform] in
/-- One request, and what it returns is the reply. -/
theorem sat_send {req : HttpRequest} (hq : Q t (.http req)) :
    (send req).Sat Q (fun t' x => ∃ r : HttpOutcome, t' = did (.http req) r :: t ∧
      (∀ s b, x = .ok (s, b) → r = .response s b) ∧ ∀ e, x = .error e → e.IsFailure) t := by
  refine sat_ask_bind hq (fun r => ?_)
  rcases r with ⟨status, body⟩ | ⟨name, text⟩ | msg
  · refine ⟨_, rfl, fun s b h => ?_, fun e h => nomatch h⟩
    obtain ⟨rfl, rfl⟩ := Prod.mk.inj (Except.ok.inj h)
    rfl
  · refine ⟨_, rfl, (fun s b h => nomatch h), fun e h => ?_⟩
    rw [← Except.error.inj h]
    exact serverError_isFailure _
  · refine ⟨_, rfl, (fun s b h => nomatch h), fun e h => ?_⟩
    rw [← Except.error.inj h]
    trivial

omit [Platform] in
/-- The claims come from the answer to the introspection. -/
theorem KeycloakClient.sat_introspect (kc : KeycloakClient) {accessToken : Str}
    (hq : Q t (.http (kc.introspectRequest accessToken))) :
    (kc.introspect accessToken).Sat Q (fun t' x => (∀ claims, x = .ok claims →
      ∃ v : JsonValue, v.val = claims ∧ did (.http (kc.introspectRequest accessToken))
        (HttpOutcome.response 200 (.value v)) ∈ t') ∧ ∀ e, x = .error e → e.IsFailure) t := by
  refine Prog.Sat.bind (sat_send hq) ?_ ?_
  · rintro t' ⟨status, body⟩ _ ⟨r, rfl, hr, -⟩
    dsimp only
    split_ifs with hs
    · refine ⟨(fun c h => nomatch h), fun e h => ?_⟩
      rw [← Except.error.inj h]
      exact serverError_isFailure _
    · obtain rfl := hr status body rfl
      cases body with
      | invalid msg =>
          refine ⟨(fun c h => nomatch h), fun e h => ?_⟩
          rw [← Except.error.inj h]
          trivial
      | value v =>
          refine ⟨fun claims h => ⟨v, Except.ok.inj h, ?_⟩, fun e h => nomatch h⟩
          rw [← not_ne_iff.mp hs]
          exact List.mem_cons_self
  · rintro t' e _ ⟨r, rfl, -, hr⟩
    refine ⟨(fun c h => nomatch h), fun e' h => ?_⟩
    rw [← Except.error.inj h]
    exact hr e rfl

/-- Linking makes requests other than grants, and nothing else. -/
theorem KeycloakClient.sat_ensureLink (kc : KeycloakClient) (caller : Caller)
    (hq : ∀ t req, req.isGrant = false → Q t (.http req)) :
    (kc.ensureLink caller).Sat Q (fun _ _ => True) t := by
  refine Prog.Sat.bind (P := fun _ _ => True) ?_ (fun t token _ _ => ?_) (fun _ _ _ _ => trivial)
  · refine Prog.Sat.bind (sat_send (hq _ _ rfl)) ?_ (fun _ _ _ _ => trivial)
    rintro t ⟨status, body⟩ _ _
    dsimp only
    split
    · trivial
    · exact (Prog.sat_lift _ _).mpr trivial
  · refine Prog.Sat.bind (sat_send (hq _ _ rfl)) ?_ (fun _ _ _ _ => trivial)
    rintro t ⟨status, body⟩ _ _
    dsimp only
    split
    · trivial
    · refine Prog.Sat.lift_bind (fun links _ => ?_) (fun _ _ => trivial)
      refine Prog.Sat.lift_bind (fun elements _ => ?_) (fun _ _ => trivial)
      refine Prog.Sat.lift_bind (fun linked _ => ?_) (fun _ _ => trivial)
      split
      · trivial
      · refine Prog.Sat.bind (sat_send (hq _ _ rfl)) ?_ (fun _ _ _ _ => trivial)
        rintro t ⟨status, body⟩ _ _
        dsimp only
        split <;> trivial

end Programs

end CimdProxy
