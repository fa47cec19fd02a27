import CimdProxy.Register
import CimdProxy.Authorize
import CimdProxy.Callback
import CimdProxy.Token

/-! # The application

`pat_api.py` and `app.py`: the management endpoints and the wiring.  `proxy app` is the system of any
number of requests to one application, over the world of `Surroundings`. -/

namespace CimdProxy

open Py Effects

variable [Platform]

/-! ### Dates as text -/

/-- Year, month and day of a day number since 1970. -/
def civil (days : ℤ) : ℤ × ℤ × ℤ :=
  let z := days + 719468
  let era := z / 146097
  let doe := z - era * 146097
  let yoe := (doe - doe / 1460 + doe / 36524 - doe / 146096) / 365
  let doy := doe - (365 * yoe + yoe / 4 - yoe / 100)
  let mp := (5 * doy + 2) / 153
  let month := if mp < 10 then mp + 3 else mp - 9
  let year := yoe + era * 400
  (if month ≤ 2 then year + 1 else year, month, doy - (153 * mp + 2) / 5 + 1)

def padded (width : ℕ) (n : ℤ) : Str :=
  List.replicate (width - (intText n).length) '0' ++ intText n

/-- `isoformat()` of a date in UTC. -/
def isoformat (t : Datetime) : Str :=
  let (year, month, day) := civil (t / microsPerDay)
  let micros := t % microsPerDay
  let seconds := micros / 1000000
  let fraction := micros % 1000000
  padded 4 year ++ "-" ++ padded 2 month ++ "-" ++ padded 2 day ++ "T" ++
    padded 2 (seconds / 3600) ++ ":" ++ padded 2 (seconds / 60 % 60) ++ ":" ++
    padded 2 (seconds % 60) ++ (if fraction = 0 then [] else '.' :: padded 6 fraction) ++ "+00:00"

/-- `PatRecord.public_view`. -/
def PatRecord.publicView (r : PatRecord) : Dict :=
  let date : Option Datetime → Json := fun d => (d.map (fun t => Json.str (isoformat t))).getD .null
  [("id", .str (uuidText r.id)), ("name", .str r.name), ("tenant", .str r.tenant),
    ("resources", .arr (r.resources.map .str)), ("scopes", .arr (r.scopes.map .str)),
    ("created_at", .str (isoformat r.createdAt)), ("expires_at", .str (isoformat r.expiresAt)),
    ("last_used_at", date r.lastUsedAt), ("revoked_at", date r.revokedAt)]

/-! ### The management endpoints -/

namespace PatApi

variable (svc : PatService)

/-- `_refusal`. -/
def refusal (status : ℕ) (error description : Str) : Response :=
  .json status (errorBody error description)
    (if status = 401 then
      [("WWW-Authenticate".toList, "Bearer error=\"invalid_token\"".toList)] else [])

/-- `except (ManagementError, OAuthError)`. -/
def answer {α : Type} (p : Run α) (f : α → Response) : Run Response := do
  match ← p.attempt with
  | .ok a => return f a
  | .error (.management status error description) => return refusal status error description
  | .error (.oauth error description status) => return refusal status error description
  | .error e => .raise e

/-- The body as `create_token` reads it. -/
def bodyOrNone : BodyJson → Option Json
  | .value v => some v.val
  | .invalid _ => none

/-- `create_token`. -/
def createToken (authorization : Option Str) (body : BodyJson) : Run Response :=
  answer (svc.createFlow authorization (bodyOrNone body))
    (fun r => .json 201 (.obj (("token".toList, .str r.2) :: r.1.publicView))
      [("Cache-Control".toList, "no-store".toList)])

/-- `list_tokens`. -/
def listTokens (authorization : Option Str) : Run Response :=
  answer (svc.listFlow authorization)
    (fun records => .json 200
      (.obj [("tokens", .arr (records.map (fun r => .obj r.publicView)))]) [])

/-- `revoke_token`. -/
def revokeToken (tokenId : Str) (authorization : Option Str) : Run Response :=
  answer (svc.revokeFlow tokenId authorization) (fun _ => .empty 204)

end PatApi

/-! ### The application -/

structure App where
  config : ProxyConfig
  patService : Option PatService

/-- `create_app`, as far as it can fail. -/
def createApp (cfg : ProxyConfig) : Except Exc App :=
  match cfg.pat with
  | none => .ok ⟨cfg, none⟩
  | some pat => do
      let keycloak ← KeycloakClient.make pat
      return ⟨cfg, some ⟨cfg, pat, keycloak⟩⟩

inductive Req where
  | register (body : BodyJson)
  | authorize (params : Authorize.AuthorizeParams)
  | callback (params : Callback.CallbackParams)
  | token (form : Token.TokenForm)
  | createToken (authorization : Option Str) (body : BodyJson)
  | listTokens (authorization : Option Str)
  | revokeToken (tokenId : Str) (authorization : Option Str)

def notFound : Response := .json 404 (.obj [("error", .str "not_found")]) []

/-- The management routes exist only with the service. -/
def App.manage (app : App) (route : PatService → Run Response) : Run Response :=
  match app.patService with
  | some svc => route svc
  | none => .ret notFound

def App.handler (app : App) : Req → Run Response
  | .register body => Register.register body
  | .authorize params => Authorize.authorize app.config params
  | .callback params => Callback.callback app.config params
  | .token form => Token.token app.config app.patService form
  | .createToken authorization body => app.manage (PatApi.createToken · authorization body)
  | .listTokens authorization => app.manage (PatApi.listTokens · authorization)
  | .revokeToken tokenId authorization => app.manage (PatApi.revokeToken · tokenId authorization)

/-- The running proxy. -/
def proxy (app : App) : System proxyOps Exc Response Req World where
  handler := app.handler
  init := World.init
  perform := World.perform

end CimdProxy
