import CimdProxy.Keycloak
import CimdProxy.PatFormat
import CimdProxy.ResourceLookup

/-! # Personal access tokens

`pat.py`: `PatService` with its four operations on the token table, and the exchange of a token for
a short one.

The subject of a caller is a string.  A provider that sent another JSON value would reach the
database with a parameter no text column takes; here such a caller is refused by `authenticate`
with a `TypeError`. -/

namespace CimdProxy

open Py Effects

variable [Platform]

def tokenExchange : Str := "urn:ietf:params:oauth:grant-type:token-exchange"

def accessTokenType : Str := "urn:ietf:params:oauth:token-type:access_token"

def defaultLifetimeDays : ℤ := 90

def longLifetimeDays : ℤ := 365

structure CreateRequest where
  name : Str
  resources : List Str
  scopes : List Str
  lifetimeDays : ℤ
  allowLongLifetime : Bool
  organization : Option Str
  allPermittedScopes : Bool

structure PatService where
  config : ProxyConfig
  pat : PatConfig
  keycloak : KeycloakClient

/-! ### Reading a body -/

/-- `_string_list`. -/
def stringList (value : Option Json) (field : Str) : Except Exc (List Str) :=
  let refusal := Exc.management 400 "invalid_request" (field ++ " must be a list of strings")
  match value with
  | some (.arr xs) =>
      match Json.nonEmptyStrs xs with
      | some ss => .ok ss.eraseDups
      | none => .error refusal
  | _ => .error refusal

/-- `_lifetime`. -/
def lifetime (body : Dict) : Except Exc (ℤ × Bool) :=
  match (body.get? "expires_in_days").getD (.int defaultLifetimeDays) with
  | .int days =>
      if days < 1 then
        .error (.management 400 "invalid_request" "expires_in_days must be >= 1")
      else
        match (body.get? "allow_long_lifetime").getD (.bool false) with
        | .bool longOk =>
            if longLifetimeDays < days ∧ longOk = false then
              .error (.management 400 "invalid_request"
                "a lifetime above 365 days needs allow_long_lifetime: true")
            else .ok (days, longOk)
        | _ => .error (.management 400 "invalid_request" "allow_long_lifetime must be a boolean")
  | _ => .error (.management 400 "invalid_request" "expires_in_days must be >= 1")

/-- `_organizations`. -/
def organizations : Option Json → List Str
  | some (.arr xs) => xs.map Json.text
  | some (.obj ms) => ms.map Prod.fst
  | some (.str (c :: s)) => [c :: s]
  | _ => []

/-- `_tenant_for`. -/
def tenantFor (caller : Caller) (requested : Option Str) : Except Exc Str :=
  match requested with
  | some org =>
      if caller.organizations.contains org then .ok org
      else .error (.management 403 "insufficient_scope"
        "the owner is not a member of that organization")
  | none =>
      match caller.organizations with
      | [] => .error (.management 403 "organization_required"
          "a personal access token is bound to an organization, and the owner belongs to none")
      | [org] => .ok org
      | _ => .error (.management 400 "invalid_request"
          "the owner belongs to several organizations; name one in 'organization'")

/-- `_scope_param`. -/
def scopeParam (scopes : List Str) (tenant : Str) : Str :=
  join " " (scopes ++ [("organization:" : Str) ++ tenant])

/-- `_json`. -/
def jsonObject : BodyJson → Except Exc Dict
  | .value ⟨.obj d, _⟩ => .ok d
  | .value _ => .error (serverError "upstream token response is not a JSON object")
  | .invalid _ => .error (serverError "upstream token response is not valid JSON")

/-- `_UpstreamRefusal`. -/
def upstreamRefusal (status : ℕ) (payload : Dict) : Exc :=
  .oauth (textOr (payload.get? "error") "server_error") (textOr (payload.get? "error_description") "")
    (if 400 ≤ status ∧ status < 500 then status else 502)

/-! ### Dates -/

/-- `datetime.max` in UTC. -/
def maxDatetime : ℤ := 253402300799999999

def microsPerDay : ℤ := 86400000000

/-- `now + timedelta(days=days)`. -/
def plusDays (now : Datetime) (days : ℤ) : Except Exc Datetime :=
  if 999999999 < |days| then
    .error (.overflowError ("days=" ++ intText days ++ "; must have magnitude <= 999999999"))
  else if maxDatetime < now + days * microsPerDay then
    .error (.overflowError "date value out of range")
  else .ok (now + days * microsPerDay)

namespace PatService

variable (svc : PatService)

/-! ### Who is calling -/

/-- The checks on the claims of an introspected token. -/
def readClaims (claims : Json) : Except Exc Caller :=
  match claims with
  | .obj d =>
      if !((Dict.get? d "active").map truthy).getD false then
        .error (.management 401 "invalid_token" "the bearer token is not active")
      else
        match (Dict.get? d "iss").getD (.str []) with
        | .str iss =>
            if rstripSlash iss ≠ svc.pat.realmIssuer then
              .error (.management 401 "invalid_token" "the bearer token is from another realm")
            else if !isStr (Dict.get? d "typ") "Bearer" ||
                !((Dict.get? d "sub").map truthy).getD false then
              .error (.management 401 "invalid_token" "the bearer token is not an access token")
            else if !((Dict.get? d "sid").map truthy).getD false then
              .error (.management 403 "insufficient_scope"
                "managing tokens needs a token from an interactive sign-in")
            else
              match Dict.get? d "sub" with
              | some (.str subject) =>
                  .ok ⟨subject, (Dict.get? d "preferred_username").getD (.str []),
                    organizations (Dict.get? d "organization")⟩
              | _ => .error (.typeError "sub is not a string")
        | _ => .error (.attributeError "object has no attribute 'rstrip'")
  | _ => .error (.attributeError "object has no attribute 'get'")

/-- `authenticate`. -/
def authenticate (authorization : Option Str) : Run Caller := do
  let (scheme, _, rest) := partition ' ' (authorization.getD [])
  let credential := strip rest
  if lower scheme ≠ "bearer" || credential.isEmpty then
    .raise (.management 401 "invalid_token" "a bearer token is required")
  else do
    let wellFormed ← .lift (isWellFormed credential)
    if wellFormed then
      .raise (.management 403 "insufficient_scope"
        "a personal access token cannot manage tokens; sign in interactively")
    else do
      let claims ← svc.keycloak.introspect credential
      .lift (svc.readClaims claims)

/-! ### Creating a token -/

/-- The loop over the resources of a body, with the table url of each. -/
def checkResources : List Str → Except Exc (List Str)
  | [] => .ok []
  | url :: urls => do
      let entry ← svc.config.resourceByUrl url
      let refusal := Exc.management 400 "invalid_target"
        ("resource " ++ pyRepr url ++ " does not accept personal tokens")
      match entry with
      | some e =>
          if e.acceptsPat then do
            let rest ← checkResources urls
            return e.url :: rest
          else .error refusal
      | none => .error refusal

/-- The name of a token, trimmed. -/
def tokenName (body : Dict) : Except Exc Str :=
  match body.get? "name" with
  | some (.str name) =>
      if 1 ≤ (strip name).length ∧ (strip name).length ≤ 100 then .ok (strip name)
      else .error (.management 400 "invalid_request" "name must be 1 to 100 characters")
  | _ => .error (.management 400 "invalid_request" "name must be 1 to 100 characters")

/-- The scopes a body names, and whether it asks for all that are permitted. -/
def readScopes (body : Dict) : Except Exc (List Str × Bool) := do
  let scopes ← stringList (some ((body.get? "scopes").getD (.arr []))) "scopes"
  let outside := scopes.filter (fun s => !svc.pat.scopes.contains s)
  if !outside.isEmpty then
    .error (.management 400 "invalid_scope"
      ("scopes not offered for personal tokens: " ++ reprList outside))
  else
    match (body.get? "all_permitted_scopes").getD (.bool false) with
    | .bool allPermitted =>
        if allPermitted && !scopes.isEmpty then
          .error (.management 400 "invalid_request"
            "name scopes or ask for all_permitted_scopes, not both")
        else return (scopes, allPermitted)
    | _ => .error (.management 400 "invalid_request" "all_permitted_scopes must be a boolean")

def readOrganization (body : Dict) : Except Exc (Option Str) :=
  match (body.get? "organization").getD .null with
  | .null => .ok none
  | .str s => .ok (some s)
  | _ => .error (.management 400 "invalid_request" "organization must be a string")

/-- `parse_create`. -/
def parseCreate (body : Option Json) : Except Exc CreateRequest :=
  match body with
  | some (.obj d) => do
      let name ← tokenName d
      let resources ← stringList (Dict.get? d "resources") "resources"
      if resources.isEmpty then
        .error (.management 400 "invalid_request" "resources must name at least one")
      else do
        let urls ← svc.checkResources resources
        let (scopes, allPermitted) ← svc.readScopes d
        let (days, longOk) ← lifetime d
        let organization ← readOrganization d
        return ⟨name, urls, scopes, days, longOk, organization, allPermitted⟩
  | _ => .error (.management 400 "invalid_request" "the body must be a JSON object")

/-- `_entry`. -/
def entry (url : Str) : Except Exc ResourceEntry := do
  match ← svc.config.resourceByUrl url with
  | some e => return e
  | none => .error (serverError ("resource " ++ pyRepr url ++ " is not configured"))

/-- What a trial exchange granted. -/
def grantedScopes (e : ResourceEntry) (reply : ℕ × BodyJson) : Except Exc (List Str) := do
  let payload ← jsonObject reply.2
  if reply.1 ≠ 200 then
    .error (.management 502 "server_error"
      ("the token issuer refused a trial exchange for " ++ pyRepr e.url ++ ": " ++
        textOr (payload.get? "error") "None" ++ ": " ++
        textOr (payload.get? "error_description") "None"))
  else return splitWs (textOr (payload.get? "scope") "")

/-- The call of `jwt_bearer_grant` that the trial and the exchange make alike. -/
def requestGrant (e : ResourceEntry) (subject : Str) (scopes : List Str) (tenant : Str) :
    Run (ℕ × BodyJson) := do
  let assertion ← svc.pat.signer.sign subject e.issuer
  svc.keycloak.jwtBearerGrant e.patClientId e.patClientSecret assertion (scopeParam scopes tenant)

/-- `_trial_exchange`. -/
def trialExchange (caller : Caller) (e : ResourceEntry) (scopes : List Str) (tenant : Str) :
    Run (List Str) := do
  let reply ← svc.requestGrant e caller.subject scopes tenant
  .lift (grantedScopes e reply)

/-- The loop of `_granted_scopes` for a named set. -/
def trialNamed (caller : Caller) (scopes : List Str) (tenant : Str) : List Str → Run Unit
  | [] => .ret ()
  | url :: urls => do
      let e ← .lift (svc.entry url)
      let granted ← svc.trialExchange caller e scopes tenant
      let missing := scopes.filter (fun s => !granted.contains s)
      if !missing.isEmpty then
        .raise (.management 403 "insufficient_scope"
          ("the owner may not carry " ++ reprList missing ++ " at " ++ pyRepr url))
      else trialNamed caller scopes tenant urls

/-- The loop of `_granted_scopes` for all permitted scopes. -/
def trialPermitted (caller : Caller) (tenant : Str) : List Str → List Str → Run (List Str)
  | permitted, [] => .ret permitted
  | permitted, url :: urls => do
      let e ← .lift (svc.entry url)
      let granted ← svc.trialExchange caller e permitted tenant
      trialPermitted caller tenant (permitted.filter (fun s => granted.contains s)) urls

/-- `_granted_scopes`. -/
def grantedSet (caller : Caller) (request : CreateRequest) (tenant : Str) : Run (List Str) :=
  if request.allPermittedScopes then do
    let permitted ← svc.trialPermitted caller tenant svc.pat.scopes request.resources
    if permitted.isEmpty then
      .raise (.management 403 "insufficient_scope"
        "the owner may carry none of the scopes offered for personal tokens")
    else return permitted
  else do
    svc.trialNamed caller request.scopes tenant request.resources
    return request.scopes

/-- `ensure_link` as `create` calls it. -/
def linkOwner (caller : Caller) : Run Unit := do
  match ← (svc.keycloak.ensureLink caller).attempt with
  | .ok _ => return ()
  | .error (.linkConflict msg) => .raise (.management 409 "link_conflict" msg)
  | .error e => .raise e

/-- A statement's outcome, with its failure raised. -/
def statement {α : Type} : Except Str α → Run α
  | .ok a => .ret a
  | .error msg => .raise (.database msg)

/-- `create`. -/
def create (caller : Caller) (request : CreateRequest) : Run (PatRecord × Str) := do
  let tenant ← .lift (tenantFor caller request.organization)
  svc.linkOwner caller
  let scopes ← svc.grantedSet caller request tenant
  let now ← ask .utcnow
  let id ← ask .uuid4
  let expiresAt ← .lift (plusDays now request.lifetimeDays)
  let record : PatRecord :=
    { id, tenant, realmIssuer := svc.pat.realmIssuer, ownerSub := caller.subject
      name := request.name, resources := request.resources, scopes
      createdAt := now, expiresAt, lastUsedAt := none, revokedAt := none }
  let token ← generate
  let hash ← .lift (tokenHash token)
  statement (← ask (.insert record hash))
  return (record, token)

/-! ### Listing and revoking -/

/-- `list`. -/
def list (caller : Caller) : Run (List PatRecord) := do
  statement (← ask (.listForOwner svc.pat.realmIssuer caller.subject))

end PatService

/-- `s.replace(part, "")`; the first argument counts characters still to be skipped. -/
def removeAll (part : Str) : ℕ → Str → Str
  | _, [] => []
  | 0, c :: s =>
      if part.isPrefixOf (c :: s) then removeAll part (part.length - 1) s
      else c :: removeAll part 0 s
  | k + 1, _ :: s => removeAll part k s

/-- The value of a hexadecimal digit; decimal digits of other scripts count. -/
def hexDigitVal (c : Char) : Option ℕ :=
  match Json.hexVal c with
  | some n => some n
  | none => digitVal c

/-- `int(s, 16)`. -/
def hexIntOf (s : Str) : Option ℤ :=
  let t := strip s
  let (neg, body) := match t with
    | '-' :: rest => (true, rest)
    | '+' :: rest => (false, rest)
    | _ => (false, t)
  let digits := match body with
    | '0' :: x :: '_' :: rest => if x = 'x' ∨ x = 'X' then rest else body
    | '0' :: x :: rest => if x = 'x' ∨ x = 'X' then rest else body
    | _ => body
  let groups := digits.splitOn '_'
  if groups.any List.isEmpty then none
  else (groups.flatten.foldlM (fun acc c => (hexDigitVal c).map (fun d => 16 * acc + d)) 0).map
    (fun n : ℕ => if neg then -(n : ℤ) else (n : ℤ))

def isBrace (c : Char) : Bool := c == '{' || c == '}'

/-- `uuid.UUID(s)`; `none` is the `ValueError`. -/
def uuidOf (s : Str) : Option Uuid :=
  let hex := removeAll "uuid:" 0 (removeAll "urn:" 0 s)
  let hex := removeAll "-" 0 ((hex.dropWhile isBrace).rdropWhile isBrace)
  if hex.length ≠ 32 then none
  else
    match hexIntOf hex with
    | some (.ofNat n) => if h : n < 2 ^ 128 then some ⟨n, h⟩ else none
    | _ => none

namespace PatService

variable (svc : PatService)

def noSuchToken : Exc := .management 404 "not_found" "no such token"

/-- `revoke`. -/
def revoke (caller : Caller) (tokenId : Str) : Run Unit :=
  match uuidOf tokenId with
  | none => .raise noSuchToken
  | some parsed => do
      let (revoked, _) ← statement (← ask (.revoke svc.pat.realmIssuer caller.subject parsed))
      if !revoked then .raise noSuchToken else return ()

/-! ### The exchange -/

/-- The parameters of the token-exchange grant. -/
structure ExchangeParams where
  subjectToken : Option Str
  subjectTokenType : Option Str
  requestedTokenType : Option Str
  resource : Option Str

/-- The checks before the lookup; the token that passes them. -/
def checkExchange (p : ExchangeParams) : Except Exc Str :=
  match p.subjectToken with
  | some (c :: rest) =>
      if p.subjectTokenType ≠ some accessTokenType then
        .error (invalidRequest ("subject_token_type must be " ++ accessTokenType))
      else if p.requestedTokenType ≠ none ∧ p.requestedTokenType ≠ some accessTokenType then
        .error (invalidRequest ("requested_token_type must be " ++ accessTokenType))
      else do
        if ← isWellFormed (c :: rest) then return c :: rest
        else .error (invalidGrant "subject_token is not a valid personal access token")
  | _ => .error (invalidRequest "missing subject_token")

/-- The checks on the row. -/
def checkRecord (record : PatRecord) (now : Datetime) : Except Exc Unit :=
  if record.revokedAt.isSome then .error (invalidGrant "the personal access token is revoked")
  else if record.expiresAt ≤ now then
    .error (invalidGrant "the personal access token is expired")
  else if record.realmIssuer ≠ svc.pat.realmIssuer then
    .error (invalidGrant "the personal access token belongs to another realm")
  else if record.tenant.isEmpty then
    .error (invalidGrant "the personal access token is not bound to an organization")
  else .ok ()

/-- The resource to look up: the requested one, or the only one of the token. -/
def targetResource (record : PatRecord) (resource : Option Str) : Except Exc Str :=
  match resource with
  | some r => .ok r
  | none =>
      match record.resources with
      | [r] => .ok r
      | _ => .error (invalidTarget "resource is required: the token names more than one")

/-- `_resolve_resource`. -/
def resolveResource (record : PatRecord) (resource : Option Str) : Except Exc ResourceEntry := do
  let target ← targetResource record resource
  match ← svc.config.resourceByUrl target with
  | some e =>
      if !record.resources.contains e.url then
        .error (invalidTarget "the personal access token does not name this resource")
      else if !e.acceptsPat || e.issuer != record.realmIssuer then
        .error (invalidTarget "this resource no longer accepts personal access tokens")
      else return e
  | none => .error (invalidTarget "the personal access token does not name this resource")

/-- The token response handed to the agent. -/
def exchangedPayload (payload : Dict) : Dict :=
  ((payload.pop "refresh_token").pop "refresh_expires_in").set "issued_token_type"
    (.str accessTokenType)

/-- `exchange` after the grant has been answered. -/
def finishExchange (record : PatRecord) (now : Datetime) (reply : ℕ × BodyJson) : Run Dict := do
  let payload ← .lift (jsonObject reply.2)
  if reply.1 ≠ 200 then .raise (upstreamRefusal reply.1 payload)
  else do
    statement (← ask (.touch record.id now))
    return exchangedPayload payload

/-- `exchange`. -/
def exchange (p : ExchangeParams) : Run Dict := do
  let token ← .lift (checkExchange p)
  let hash ← .lift (tokenHash token)
  match ← statement (← ask (.findByHash hash)) with
  | none => .raise (invalidGrant "subject_token is not a valid personal access token")
  | some record => do
      let now ← ask .utcnow
      .lift (svc.checkRecord record now)
      let e ← .lift (svc.resolveResource record p.resource)
      let reply ← svc.requestGrant e record.ownerSub record.scopes record.tenant
      finishExchange record now reply

/-! ### Behind the management endpoints -/

/-- The part of `create_token` inside its `try`. -/
def createFlow (authorization : Option Str) (body : Option Json) : Run (PatRecord × Str) := do
  let caller ← svc.authenticate authorization
  let request ← .lift (svc.parseCreate body)
  svc.create caller request

/-- The part of `list_tokens` inside its `try`. -/
def listFlow (authorization : Option Str) : Run (List PatRecord) := do
  let caller ← svc.authenticate authorization
  svc.list caller

/-- The part of `revoke_token` inside its `try`. -/
def revokeFlow (tokenId : Str) (authorization : Option Str) : Run Unit := do
  let caller ← svc.authenticate authorization
  svc.revoke caller tokenId

end PatService

end CimdProxy
