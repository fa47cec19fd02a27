import CimdProxy.Keycloak
import CimdProxy.FormEncoding

/-! # The command line

`pat_cli.py`: the three commands `pat-create`, `pat-list` and `pat-revoke`, as programs over the
calls they make: HTTP requests, randomness, the loopback listener, the browser, and what they write
to stdout and stderr.  A command starts from the `argparse.Namespace` its parser produced.

`Request.step` says which call of the command a request is; the code does not read it.  The HTTP
client may refuse a request before anything is sent, which is `Outcome.refused`. -/

namespace CimdProxy.PatCli

open Py Effects

def envResource : Str := "CIMD_PAT_RESOURCE"

def callbackPath : Str := "/callback"

def clientName : Str := "cimd-proxy pat command line"

/-! ### Exceptions and calls -/

/-- What ends an action: `CliError` and `httpx.HTTPError`, which `_run` handles, and the rest. -/
inductive CliExc where
  | cliError (msg : Str)
  | httpError (name : Str)
  | recursionError
  | raised (e : Exc)
deriving DecidableEq

/-- Why the HTTP client does not send a request: an `HTTPError` of its own, or another exception. -/
inductive Refusal where
  | httpError (name : Str)
  | other (msg : Str)
deriving DecidableEq

def Refusal.exc : Refusal → CliExc
  | .httpError name => .httpError name
  | .other msg => .raised (.library msg)

inductive Method where
  | get
  | post
  | delete
deriving DecidableEq

inductive Payload where
  | none
  | json (body : Json)
  | form (fields : List (Str × Str))

/-- The calls of a command, in the order of their first occurrence. -/
inductive Step where
  | discovery
  | metadata
  | registration
  | redemption
  | management
deriving DecidableEq

structure Request where
  step : Step
  method : Method
  url : Str
  headers : List (Str × Str)
  payload : Payload

/-- What `response.json()` makes of a body: a value, a `ValueError`, or a `RecursionError` for a
body that is nested too deep. -/
inductive Body where
  | value (v : JsonValue)
  | invalid (msg : Str)
  | tooDeep

inductive Outcome where
  | response (status : ℕ) (body : Body)
  | httpError (name : Str)
  | refused (r : Refusal)

/-- A number of seconds: its text in the format `g`, and whether it is more than a lock can be
asked to wait (`threading.TIMEOUT_MAX`). -/
structure Timeout where
  text : Str
  tooLarge : Bool

/-- The query parameters of a redirect; the first value of a name counts. -/
abbrev Params : Type := List (Str × Str)

def Params.get? (params : Params) (name : Str) : Option Str :=
  (params.find? (fun p => p.1 == name)).map Prod.snd

inductive Op where
  | listen
  | tokenBytes (n : ℕ)
  | browse (url : Str)
  | wait (timeout : Timeout)
  | accept (params : Params)
  | http (req : Request)
  | stderr (text : Str)
  | stdout (text : Str)

/-- The type of the reply: the port of the listener, the redirect received by the end of the wait,
whether a redirect is the first one. -/
def Reply : Op → Type
  | .listen => ℕ
  | .tokenBytes n => {b : Bytes // b.length = n}
  | .browse _ => Unit
  | .wait _ => Option Params
  | .accept _ => Bool
  | .http _ => Outcome
  | .stderr _ => Unit
  | .stdout _ => Unit

/-- The calls of the command line. -/
abbrev cliOps : Signature := ⟨Op, Reply⟩

/-- A program of the command line. -/
abbrev Script (α : Type) : Type := Prog cliOps CliExc α

def ask (o : Op) : Script (Reply o) := Prog.perform (S := cliOps) o

/-- The operation `o` with its reply. -/
abbrev did (o : Op) (r : Reply o) : Call cliOps := ⟨o, r⟩

/-- `print(text, file=sys.stderr)`. -/
def printErr (text : Str) : Script Unit := ask (.stderr (text ++ ['\n']))

/-- An exception of the shared helpers. -/
def raising {α : Type} : Except Exc α → Except CliExc α
  | .ok a => .ok a
  | .error e => .error (.raised e)

/-- One request. -/
def send (req : Request) : Script (ℕ × Body) := do
  match ← ask (.http req) with
  | .response status body => return (status, body)
  | .httpError name => .raise (.httpError name)
  | .refused r => .raise r.exc

/-- `type(v).__name__`. -/
def typeName : Json → Str
  | .null => "NoneType"
  | .bool _ => "bool"
  | .int _ => "int"
  | .float _ => "float"
  | .str _ => "str"
  | .arr _ => "list"
  | .obj _ => "dict"

/-- The dict on which `response.json().get(..)` is called. -/
def jsonObject : Body → Except CliExc Dict
  | .tooDeep => .error .recursionError
  | .invalid msg => .error (.raised (.valueError msg))
  | .value v =>
      match v.val with
      | .obj d => .ok d
      | v => .error (.raised (.attributeError
          ("'" ++ (typeName v ++ "' object has no attribute 'get'"))))

variable [Platform]

/-! ### Discovery -/

structure Endpoints where
  issuer : Str
  authorization : Str
  token : Str
  registration : Str

/-- `pat_tokens`. -/
def Endpoints.patTokens (e : Endpoints) : Str := e.issuer ++ "/pat/tokens"

structure SignedIn where
  endpoints : Endpoints
  accessToken : Str

/-- `headers`. -/
def SignedIn.headers (s : SignedIn) : List (Str × Str) :=
  [("Authorization", "Bearer " ++ s.accessToken)]

/-- `_is_loopback`. -/
def isLoopback (host : Option Str) : Bool :=
  if host = some "localhost".toList then true
  else
    match ipAddress (host.getD []) with
    | some address => Platform.ipAttr "is_loopback" address
    | none => false

/-- The test of `_require_secure`: https, or http on a loopback address. -/
def isSecure (parts : SplitResult) : Bool :=
  (decide (parts.scheme = "https") && parts.hostname.isSome) ||
    (decide (parts.scheme = "http") && isLoopback parts.hostname)

/-- `_require_secure` of a string. -/
def requireSecure (url what : Str) : Except CliExc Str :=
  match urlsplit url with
  | .error msg => .error (.raised (.valueError msg))
  | .ok parts =>
      if isSecure parts then .ok (rstripSlash url)
      else .error (.cliError (what ++ ' ' :: (pyRepr url ++ " must be an https URL")))

/-- `_require_secure(document[key], what)`: the cache of `urlsplit` hashes its argument, and what is
neither a string nor empty is decoded as bytes. -/
def requireSecureMember (document : Dict) (key what : Str) : Except CliExc Str :=
  match document.get? key with
  | none => .error (.raised (.keyError key))
  | some (.str url) => requireSecure url what
  | some (.arr _) => .error (.raised (.typeError "unhashable type: 'list'"))
  | some (.obj _) => .error (.raised (.typeError "unhashable type: 'dict'"))
  | some v =>
      if truthy v then
        .error (.raised (.attributeError
          ("'" ++ (typeName v ++ "' object has no attribute 'decode'"))))
      else .error (.cliError (what ++ ' ' :: (v.reprText ++ " must be an https URL")))

/-- `_get_json`. -/
def getJson (step : Step) (url : Str) : Script (Option Dict) := do
  let (status, body) ← send ⟨step, .get, url, [("Accept", "application/json")], .none⟩
  if status = 404 then return none
  else if status ≠ 200 then .raise (.cliError (url ++ " answered HTTP " ++ Nat.toDigits 10 status))
  else
    match body with
    | .tooDeep => .raise .recursionError
    | .invalid _ => .raise (.cliError (url ++ " did not answer with JSON"))
    | .value v =>
        match v.val with
        | .obj document => return some document
        | _ => .raise (.cliError (url ++ " did not answer with a JSON object"))

def protectedResource : Str := "/.well-known/oauth-protected-resource"

/-- The server a metadata document names for the resource. -/
def authorizationServer (resource place : Str) (document : Dict) : Except CliExc Str :=
  if rstripSlash (textOr (document.get? "resource") []) ≠ rstripSlash resource then
    .error (.cliError ("the protected resource metadata at " ++ place ++
      " names another resource; pass --proxy"))
  else
    match document.get? "authorization_servers" with
    | some (.arr [.str server]) => .ok server
    | _ => .error (.cliError
        (resource ++ " does not name exactly one authorization server; pass --proxy"))

/-- The loop of `discover_proxy` over the places where the metadata may be. -/
def discoverFrom (resource : Str) (parts : SplitResult) : List Str → Script Str
  | [] => .raise (.cliError
      (resource ++ " publishes no protected resource metadata; pass --proxy"))
  | wellKnown :: more => do
      match ← getJson .discovery (urlunsplit ⟨parts.scheme, parts.netloc, wellKnown, [], []⟩) with
      | none => discoverFrom resource parts more
      | some document => Prog.lift (authorizationServer resource (parts.netloc ++ wellKnown) document)

/-- `discover_proxy`. -/
def discoverProxy (resource : Str) : Script Str :=
  match urlsplit resource with
  | .error msg => .raise (.raised (.valueError msg))
  | .ok parts =>
      let path := rstripSlash parts.path
      discoverFrom resource parts
        ((protectedResource ++ path) :: (if path.isEmpty then [] else [protectedResource]))

/-- `"S256" in document.get("code_challenge_methods_supported", [])`. -/
def offersS256 : Option Json → Except CliExc Bool
  | none => .ok false
  | some (.arr xs) => .ok (xs.any (fun v => isStr (some v) "S256"))
  | some (.str s) => .ok (contains "S256" s)
  | some (.obj ms) => .ok (Dict.has ms "S256")
  | some v => .error (.raised (.typeError ("argument of type '" ++ (typeName v ++ "' is not iterable"))))

/-- The `except (KeyError, TypeError)` of `read_endpoints`. -/
def lacksEndpoint (issuer : Str) : CliExc → CliExc
  | .raised (.keyError key) =>
      .cliError ("the metadata of " ++ issuer ++ " lacks an endpoint: " ++ pyRepr key)
  | .raised (.typeError msg) =>
      .cliError ("the metadata of " ++ issuer ++ " lacks an endpoint: " ++ msg)
  | e => e

/-- The endpoints of a metadata document. -/
def endpointsOf (issuer : Str) (document : Dict) : Except CliExc Endpoints :=
  if rstripSlash (textOr (document.get? "issuer") []) ≠ issuer then
    .error (.cliError ("the metadata of " ++ issuer ++ " names another issuer"))
  else do
    let offered ← offersS256 (document.get? "code_challenge_methods_supported")
    if !offered then .error (.cliError (issuer ++ " does not offer PKCE S256"))
    else
      Except.mapError (lacksEndpoint issuer) (do
        let authorization ← requireSecureMember document "authorization_endpoint" "authorization"
        let token ← requireSecureMember document "token_endpoint" "token endpoint"
        let registration ← requireSecureMember document "registration_endpoint" "registration"
        return ⟨issuer, authorization, token, registration⟩)

def serverMetadata : Str := "/.well-known/oauth-authorization-server"

/-- `read_endpoints`. -/
def readEndpoints (proxy : Str) : Script Endpoints := do
  let issuer ← Prog.lift (requireSecure proxy "the proxy URL")
  match ← getJson .metadata (issuer ++ serverMetadata) with
  | none => .raise (.cliError (issuer ++ " publishes no authorization server metadata"))
  | some document => Prog.lift (endpointsOf issuer document)

/-! ### The loopback redirect -/

/-- `redirect_uri`. -/
def redirectUri (port : ℕ) : Str := "http://127.0.0.1:" ++ Nat.toDigits 10 port ++ callbackPath

/-- `parse_qs`, without the parameters that have no value. -/
def parseQs (query : Str) : Params :=
  (query.splitOn '&').filterMap
    (fun field => if (partition '=' field).2.2.isEmpty then none else parseField field)

/-- `Handler.do_GET`: the status of the answer. -/
def doGet (target : Str) : Script ℕ :=
  match urlsplit target with
  | .error msg => .raise (.raised (.valueError msg))
  | .ok parts =>
      if parts.path ≠ callbackPath then return 404
      else do
        let first : Bool ← ask (.accept (parseQs parts.query))
        return if first then 200 else 409

/-- `wait`: the event is looked at before the lock is asked to wait. -/
def wait (timeout : Timeout) : Script (Option Params) := do
  match (← ask (.wait timeout) : Option Params) with
  | some params => return some params
  | none =>
      if timeout.tooLarge then .raise (.raised (.overflowError "timeout value is too large"))
      else return none

/-! ### Sign-in -/

/-- `secrets.token_urlsafe(n)`. -/
def tokenUrlsafe (n : ℕ) : Script Str := do
  let raw ← ask (.tokenBytes n)
  return base64Url raw.val

/-- `_pkce_pair`. -/
def pkcePair : Script (Str × Str) := do
  let verifier ← tokenUrlsafe 64
  return (verifier, base64Url (sha256 (utf8 verifier)))

/-- `_refusal`. -/
def refusal (status : ℕ) : Body → Except CliExc Str
  | .tooDeep => .error .recursionError
  | .invalid _ => .ok ("HTTP " ++ Nat.toDigits 10 status)
  | .value v =>
      match v.val with
      | .obj d =>
          match Dict.get? d "error" with
          | some (.str error) =>
              let detail : Str := match Dict.get? d "error_description" with
                | some (.str (c :: description)) => ": " ++ c :: description
                | _ => []
              .ok ("HTTP " ++ Nat.toDigits 10 status ++ ' ' :: (error ++ detail))
          | _ => .ok ("HTTP " ++ Nat.toDigits 10 status)
      | _ => .ok ("HTTP " ++ Nat.toDigits 10 status)

/-- The refusal of a call. -/
def refuse {α : Type} (what : Str) (status : ℕ) (body : Body) : Script α := do
  let why ← Prog.lift (refusal status body)
  .raise (.cliError (what ++ ": " ++ why))

/-- `check_redirect`. -/
def checkRedirect (received : Params) (state issuer : Str) : Except CliExc Str := do
  let same ← raising (compareDigest ((received.get? "state").getD []) state)
  if !same then
    .error (.cliError "the sign-in came back with a foreign state; nothing was created")
  else if rstripSlash ((received.get? "iss").getD []) ≠ issuer then
    .error (.cliError "the sign-in came back from another issuer; nothing was created")
  else
    match received.get? "error" with
    | some error =>
        let detail : Str := (received.get? "error_description").getD []
        .error (.cliError (("the sign-in was refused: " : Str) ++ error ++
          (if detail.isEmpty then [] else (": " : Str) ++ detail) ++ "; nothing was created"))
    | none =>
        match received.get? "code" with
        | some (c :: code) => .ok (c :: code)
        | _ => .error (.cliError "the sign-in came back without a code; nothing was created")

/-- `register`. -/
def register (endpoints : Endpoints) (redirectUri : Str) : Script Str := do
  let (status, body) ← send ⟨.registration, .post, endpoints.registration, [], .json (.obj [
    ("redirect_uris", .arr [.str redirectUri]),
    ("token_endpoint_auth_method", .str "none"),
    ("grant_types", .arr [.str "authorization_code"]),
    ("response_types", .arr [.str "code"]),
    ("client_name", .str clientName)])⟩
  if status ≠ 201 then refuse "registration refused" status body
  else
    let d ← Prog.lift (jsonObject body)
    match d.get? "client_id" with
    | some (.str (c :: clientId)) => return c :: clientId
    | _ => .raise (.cliError "registration returned no client_id")

/-- How the sign-in page is opened: by the browser given to the command, by printing its URL
(`_print_only`), or by both (`_default_browser`). -/
inductive Browser where
  | given
  | printOnly
  | default
deriving DecidableEq

def openBrowser : Browser → Str → Script Unit
  | .given, url => ask (.browse url)
  | .printOnly, url => printErr ("Sign in at:\n  " ++ url)
  | .default, url => do
      printErr ("Sign in to continue. If no browser opens, visit:\n  " ++ url)
      ask (.browse url)

/-- The query of the sign-in page. -/
def signInQuery (clientId redirectUri challenge state resource loginScope : Str) : List (Str × Str) :=
  ([("response_type", "code"), ("client_id", clientId), ("redirect_uri", redirectUri),
    ("code_challenge", challenge), ("code_challenge_method", "S256"), ("state", state),
    ("resource", resource)] : List (Str × Str)) ++
    if loginScope.isEmpty then ([] : List (Str × Str)) else [("scope".toList, loginScope)]

/-- The redemption of a code at the token endpoint, with the access token it returns. -/
def redeem (endpoints : Endpoints) (code verifier redirectUri clientId : Str) : Script SignedIn := do
  let (status, body) ← send ⟨.redemption, .post, endpoints.token, [("Accept", "application/json")],
    .form [("grant_type", "authorization_code"), ("code", code), ("code_verifier", verifier),
      ("redirect_uri", redirectUri), ("client_id", clientId)]⟩
  if status ≠ 200 then refuse "the token endpoint refused the code" status body
  else
    let d ← Prog.lift (jsonObject body)
    match d.get? "access_token" with
    | some (.str (c :: accessToken)) => return ⟨endpoints, c :: accessToken⟩
    | _ => .raise (.cliError "the token endpoint returned no access token")

/-- `sign_in`. -/
def signIn (endpoints : Endpoints) (resource loginScope : Str) (timeout : Timeout)
    (browser : Browser) : Script SignedIn := do
  let port ← ask .listen
  let redirectUri := PatCli.redirectUri port
  let clientId ← register endpoints redirectUri
  let (verifier, challenge) ← pkcePair
  let state ← tokenUrlsafe 32
  openBrowser browser (endpoints.authorization ++ '?' ::
    urlencode (signInQuery clientId redirectUri challenge state resource loginScope))
  match ← wait timeout with
  | none => .raise (.cliError
      ("no sign-in arrived within " ++ timeout.text ++ " seconds; nothing was created"))
  | some received =>
      let code ← Prog.lift (checkRedirect received state endpoints.issuer)
      redeem endpoints code verifier redirectUri clientId

/-! ### The three calls -/

/-- What `create_token` makes of the answer: the object, and the text of its token. -/
def readCreated (status : ℕ) (answer : Body) : Script (Dict × Str) :=
  if status ≠ 201 then refuse "the proxy refused the token" status answer
  else do
    let created ← Prog.lift (jsonObject answer)
    match created.get? "token" with
    | some (.str token) => return (created, token)
    | _ => .raise (.cliError "the proxy answered without a token")

/-- The creation request. -/
def creation (session : SignedIn) (body : Json) : Request :=
  ⟨.management, .post, session.endpoints.patTokens, session.headers, .json body⟩

/-- `create_token`. -/
def createToken (session : SignedIn) (body : Json) : Script (Dict × Str) := do
  let (status, answer) ← send (creation session body)
  readCreated status answer

/-- `list(v)` of a member that may be missing. -/
def listOf : Option Json → Except CliExc (List Json)
  | none => .ok []
  | some (.arr xs) => .ok xs
  | some (.str s) => .ok (s.map (fun c => .str [c]))
  | some (.obj ms) => .ok (ms.map (fun m => .str m.1))
  | some v => .error (.raised (.typeError ("'" ++ (typeName v ++ "' object is not iterable"))))

/-- What `list_tokens` makes of the answer. -/
def readListing (status : ℕ) (answer : Body) : Script (List Json) :=
  if status ≠ 200 then refuse "the proxy refused the listing" status answer
  else do
    let d ← Prog.lift (jsonObject answer)
    Prog.lift (listOf (d.get? "tokens"))

/-- The listing request. -/
def listingRequest (session : SignedIn) : Request :=
  ⟨.management, .get, session.endpoints.patTokens, session.headers, .none⟩

/-- `list_tokens`. -/
def listTokens (session : SignedIn) : Script (List Json) := do
  let (status, answer) ← send (listingRequest session)
  readListing status answer

/-- What `revoke_token` makes of the answer. -/
def readRevocation (status : ℕ) (answer : Body) : Script Unit :=
  if status ≠ 204 then refuse "the proxy refused the revocation" status answer
  else return ()

/-- The revocation request. -/
def revocation (session : SignedIn) (tokenId : Str) : Request :=
  ⟨.management, .delete, session.endpoints.patTokens ++ '/' :: tokenId, session.headers, .none⟩

/-- `revoke_token`. -/
def revokeToken (session : SignedIn) (tokenId : Str) : Script Unit := do
  let (status, answer) ← send (revocation session tokenId)
  readRevocation status answer

/-- The elements that `str.join` takes, the first at position `i`. -/
def joined : ℕ → List Json → Except CliExc (List Str)
  | _, [] => .ok []
  | i, .str s :: xs => do
      let rest ← joined (i + 1) xs
      return s :: rest
  | i, v :: _ => .error (.raised (.typeError ("sequence item " ++ Nat.toDigits 10 i ++
      ": expected str instance, " ++ (typeName v ++ " found"))))

/-- `sep.join(d.get(key, []))`. -/
def joinMember (sep : Str) : Option Json → Except CliExc Str
  | none => .ok []
  | some (.arr xs) => do
      let parts ← joined 0 xs
      return join sep parts
  | some (.str s) => .ok (join sep (s.map (fun c => [c])))
  | some (.obj ms) => .ok (join sep (ms.map Prod.fst))
  | some _ => .error (.raised (.typeError "can only join an iterable"))

/-- `text or other`. -/
def orElse (text other : Str) : Str := if text.isEmpty then other else text

/-- `describe`. -/
def describe (created : Dict) : Except CliExc Str := do
  let sets ← joinMember ", " (created.get? "scopes")
  let resources ← joinMember ", " (created.get? "resources")
  return "created personal access token " ++ ((created.get? "name").map Json.reprText).getD "None" ++
    " (id " ++ textOr (created.get? "id") "None" ++ ") for organization " ++
    textOr (created.get? "tenant") "None" ++ ": permission sets " ++ orElse sets "(none)" ++
    "; resources " ++ resources ++ "; expires " ++ textOr (created.get? "expires_at") "None"

def heading : List Str := ["ID", "NAME", "ORGANIZATION", "SETS", "EXPIRES", "LAST USED", "STATE"]

/-- One row of the table. -/
def row : Json → Except CliExc (List Str)
  | .obj t => do
      let sets ← joinMember "," (Dict.get? t "scopes")
      return [textOr (Dict.get? t "id") "None", textOr (Dict.get? t "name") "None",
        textOr (Dict.get? t "tenant") "None", orElse sets "-", textOr (Dict.get? t "expires_at") "None",
        if ((Dict.get? t "last_used_at").map truthy).getD false then textOr (Dict.get? t "last_used_at") [] else "-",
        if ((Dict.get? t "revoked_at").map truthy).getD false then "revoked" else "active"]
  | v => .error (.raised (.attributeError ("'" ++ (typeName v ++ "' object has no attribute 'get'"))))

/-- The width of column `i`. -/
def width (rows : List (List Str)) (i : ℕ) : ℕ :=
  (rows.map (fun r => (r.getD i []).length)).foldl max 0

/-- `cell.ljust(w)`. -/
def ljust (cell : Str) (w : ℕ) : Str := cell ++ List.replicate (w - cell.length) ' '

/-- `_table`. -/
def table (tokens : List Json) : Except CliExc Str := do
  let rows ← tokens.mapM row
  let rows := heading :: rows
  return join "\n" (rows.map (fun r => join "  " (r.mapIdx (fun i cell => ljust cell (width rows i)))))

/-! ### The commands -/

/-- What `_common` parses. -/
structure CommonArgs where
  resource : List Str
  proxy : Option Str
  loginScope : Str
  timeout : Timeout
  noBrowser : Bool

/-- What `_create_parser` adds. -/
structure CreateArgs extends CommonArgs where
  name : Str
  sets : List Str
  expiresInDays : Option ℤ
  allowLongLifetime : Bool
  organization : Option Str

/-- What `_revoke_parser` adds. -/
structure RevokeArgs extends CommonArgs where
  id : Str

/-- What is not on the command line: the value of `CIMD_PAT_RESOURCE`, and whether the caller of the
command passed a browser. -/
structure Context where
  resource : Str
  browserGiven : Bool

/-- The resources of the command line, or else those of the environment. -/
def namedResources (ctx : Context) (args : CommonArgs) : List Str :=
  if args.resource.isEmpty then splitWs ctx.resource else args.resource

/-- `_resources`. -/
def resources (ctx : Context) (args : CommonArgs) : Except CliExc (List Str) :=
  if (namedResources ctx args).isEmpty then
    .error (.cliError ("name the protected resource with --resource or " ++ envResource))
  else (namedResources ctx args).mapM (fun r => requireSecure r "the resource")

def browserOf (ctx : Context) (args : CommonArgs) : Browser :=
  if ctx.browserGiven then .given else if args.noBrowser then .printOnly else .default

/-- `_session`. -/
def session (ctx : Context) (args : CommonArgs) : Script (SignedIn × List Str) := do
  let resources ← Prog.lift (PatCli.resources ctx args)
  let first := resources.headD []
  let proxy ← (match args.proxy with
    | some (c :: proxy) => return c :: proxy
    | _ => discoverProxy first)
  let endpoints ← readEndpoints proxy
  let signedIn ← signIn endpoints first args.loginScope args.timeout (browserOf ctx args)
  return (signedIn, resources)

/-- `_run`. -/
def run (prog : Str) (action : Script Unit) : Script ℕ := do
  match ← (action.attempt : Script (Except CliExc Unit)) with
  | .ok () => return 0
  | .error (.cliError msg) => do
      printErr (prog ++ ": " ++ msg)
      return 1
  | .error (.httpError name) => do
      printErr (prog ++ ": the proxy could not be reached: " ++ name)
      return 1
  | .error e => .raise e

/-- The body of the creation request. -/
def creationBody (args : CreateArgs) (resources : List Str) : Json :=
  let named : Dict := [("name", .str args.name), ("resources", .arr (resources.map .str))]
  let sets : Dict :=
    if args.sets.isEmpty then [("all_permitted_scopes", .bool true)]
    else [("scopes", .arr (args.sets.map .str))]
  let lifetime : Dict :=
    match args.expiresInDays with
    | some days => [("expires_in_days", .int days)]
    | none => []
  let long : Dict := if args.allowLongLifetime then [("allow_long_lifetime", .bool true)] else []
  let organization : Dict :=
    match args.organization with
    | some (c :: name) => [("organization", .str (c :: name))]
    | _ => []
  .obj (named ++ sets ++ lifetime ++ long ++ organization)

def createAction (ctx : Context) (args : CreateArgs) : Script Unit := do
  let (signedIn, resources) ← session ctx args.toCommonArgs
  let (created, token) ← createToken signedIn (creationBody args resources)
  let line ← Prog.lift (describe created)
  printErr line
  ask (.stdout (token ++ ['\n']))

def listAction (ctx : Context) (args : CommonArgs) : Script Unit := do
  let (signedIn, _) ← session ctx args
  let tokens ← listTokens signedIn
  let text ← Prog.lift (table tokens)
  ask (.stdout (text ++ ['\n']))

def revokeAction (ctx : Context) (args : RevokeArgs) : Script Unit := do
  let (signedIn, _) ← session ctx args.toCommonArgs
  revokeToken signedIn args.id
  printErr ("revoked " ++ args.id)

/-- `create_main`. -/
def createMain (ctx : Context) (args : CreateArgs) : Script ℕ := run "pat-create" (createAction ctx args)

/-- `list_main`. -/
def listMain (ctx : Context) (args : CommonArgs) : Script ℕ := run "pat-list" (listAction ctx args)

/-- `revoke_main`. -/
def revokeMain (ctx : Context) (args : RevokeArgs) : Script ℕ := run "pat-revoke" (revokeAction ctx args)

/-- A command line that its parser accepted. -/
inductive Command where
  | create (args : CreateArgs)
  | list (args : CommonArgs)
  | revoke (args : RevokeArgs)

def Command.common : Command → CommonArgs
  | .create args => args.toCommonArgs
  | .list args => args
  | .revoke args => args.toCommonArgs

/-- `parser.prog`. -/
def Command.prog : Command → Str
  | .create _ => "pat-create"
  | .list _ => "pat-list"
  | .revoke _ => "pat-revoke"

def Command.action (ctx : Context) : Command → Script Unit
  | .create args => createAction ctx args
  | .list args => listAction ctx args
  | .revoke args => revokeAction ctx args

def Command.main (ctx : Context) : Command → Script ℕ
  | .create args => createMain ctx args
  | .list args => listMain ctx args
  | .revoke args => revokeMain ctx args

/-! ### A proxy to run the commands against -/

/-- The HTTP requests are answered as given, the sign-in comes back with the state that was sent. -/
def signingIn (answer : Request → Outcome) : (o : Op) → Reply o
  | .listen => (50000 : ℕ)
  | .tokenBytes n => ⟨List.replicate n 0, length_zeros n⟩
  | .browse _ => ()
  | .wait _ => some [("state".toList, base64Url (List.replicate 32 0)),
      ("iss".toList, "https://proxy.example".toList), ("code".toList, "xyz".toList)]
  | .accept _ => true
  | .http req => answer req
  | .stderr _ => ()
  | .stdout _ => ()

/-- The metadata of a proxy with its three endpoints. -/
def sampleMetadata : Body :=
  .value ⟨.obj [("issuer", .str "https://proxy.example"),
    ("code_challenge_methods_supported", .arr [.str "S256"]),
    ("authorization_endpoint", .str "https://proxy.example/authorize"),
    ("token_endpoint", .str "https://proxy.example/token"),
    ("registration_endpoint", .str "https://proxy.example/register")], by
      refine ⟨by simp only [List.map_cons, List.map_nil]; decide, ?_⟩
      simp [Json.WFMembers, Json.WFElems, Json.WF]⟩

/-- An object with one string member. -/
def memberBody (key value : Str) : Body :=
  .value ⟨.obj [(key, .str value)], ⟨List.nodup_singleton key, trivial, trivial⟩⟩

def sampleArgs : CommonArgs where
  resource := ["https://log.example".toList]
  proxy := some "https://proxy.example".toList
  loginScope := "openid"
  timeout := ⟨"300", false⟩
  noBrowser := true

def sampleCreate : Command :=
  .create { sampleArgs with
    name := "laptop"
    sets := []
    expiresInDays := none
    allowLongLifetime := false
    organization := none }

def sampleContext : Context := ⟨[], false⟩

end CimdProxy.PatCli
