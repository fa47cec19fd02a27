import CimdProxy.Conduct
import CimdProxy.Pkce

/-! # `POST /register`

`register.py`: a registration is validated, sealed into a `RegistrationEnvelope`, and the sealed
string is the `client_id` handed back.  `sat_register` is its specification. -/

namespace CimdProxy.Register

open Py Effects

variable [Platform]

/-- `_RegistrationError` with its default status. -/
def registrationError (error description : Str) : Exc := .registration error description 400

/-- `_read_json`. -/
def readJson : BodyJson → Except Exc Dict
  | .invalid msg => .error (registrationError "invalid_client_metadata"
      ("request body is not valid JSON: " ++ msg))
  | .value ⟨.obj data, _⟩ => .ok data
  | .value _ => .error (registrationError "invalid_client_metadata"
      "request body must be a JSON object")

/-- `_reject_disallowed_redirect`. -/
def rejectDisallowedRedirect (uri : Str) : Except Exc Unit :=
  match acceptRegistered uri with
  | .error (.redirectUriRefused msg) => .error (registrationError "invalid_redirect_uri" msg)
  | r => r

/-- The loop over `redirect_uris`. -/
def rejectDisallowed : List Str → Except Exc Unit
  | [] => .ok ()
  | uri :: uris => do
      rejectDisallowedRedirect uri
      rejectDisallowed uris

/-- The checks on `token_endpoint_auth_method`. -/
def authMethod (payload : Dict) : Except Exc Str :=
  match (payload.get? "token_endpoint_auth_method").getD (.str "none") with
  | .str method =>
      if forbiddenMethods.contains method then
        .error (registrationError "invalid_client_metadata" ("token_endpoint_auth_method " ++
          pyRepr method ++ " relies on a shared symmetric secret"))
      else if method ≠ "none" then
        .error (registrationError "invalid_client_metadata" ("token_endpoint_auth_method " ++
          pyRepr method ++ " is not supported; only 'none' is permitted"))
      else .ok method
  | _ => .error (registrationError "invalid_client_metadata"
      "token_endpoint_auth_method must be a string")

def clientName (payload : Dict) : Except Exc Str :=
  match (payload.get? "client_name").getD (.str "") with
  | .str name => .ok name
  | _ => .error (registrationError "invalid_client_metadata" "client_name must be a string")

/-- The array under `redirect_uris`, as strings. -/
def rawUris (payload : Dict) : Except Exc (List Str) :=
  match payload.get? "redirect_uris" with
  | some (.arr (x :: xs)) =>
      match Json.nonEmptyStrs (x :: xs) with
      | some uris => .ok uris
      | none => .error (registrationError "invalid_redirect_uri"
          "every redirect_uris entry must be a non-empty string")
  | _ => .error (registrationError "invalid_redirect_uri" "redirect_uris must be a non-empty array")

/-- `_validate`. -/
def validate (payload : Dict) : Except Exc (List Str × Str × Str) :=
  if payload.has "client_secret" then
    .error (registrationError "invalid_client_metadata"
      "client_secret must not be supplied — the proxy issues public clients only")
  else do
    let uris ← rawUris payload
    rejectDisallowed uris
    let method ← authMethod payload
    let name ← clientName payload
    return (uris, method, name)

/-- The body of the answer. -/
def issuedBody (clientId : Str) (e : RegistrationEnvelope) : Dict :=
  let body : Dict :=
    [("client_id", .str clientId), ("client_id_issued_at", .int e.clientIdIssuedAt),
      ("redirect_uris", .arr (e.redirectUris.map .str)),
      ("token_endpoint_auth_method", .str e.tokenEndpointAuthMethod),
      ("grant_types", .arr [.str "authorization_code", .str "refresh_token"]),
      ("response_types", .arr [.str "code"])]
  if e.clientName.isEmpty then body else body.set "client_name" (.str e.clientName)

/-- The part of `register` inside its `try`. -/
def readAndValidate (body : BodyJson) : Except Exc (List Str × Str × Str) := do
  let payload ← readJson body
  validate payload

/-- `register`. -/
def register (body : BodyJson) : Run Response := do
  let _ ← newCorrelationId
  match readAndValidate body with
  | .error (.registration error description status) =>
      return .json status (errorBody error description) []
  | .error e => .raise e
  | .ok (uris, method, name) => do
      let issuedAt ← wholeTime
      let envelope : RegistrationEnvelope := ⟨uris, method, issuedAt, name⟩
      let clientId ← pack (.registration envelope)
      return .json 201 (.obj (issuedBody clientId envelope)) []

/-! ### What the endpoint does -/

/-- What a request with this body seals. -/
def Mints (body : BodyJson) (_ : Trace proxyOps) (e : Envelope) : Prop :=
  ∃ r : RegistrationEnvelope, e = .registration r ∧
    readAndValidate body = .ok (r.redirectUris, r.tokenEndpointAuthMethod, r.clientName)

/-- Whoever was sealed an envelope gets it as its `client_id`. -/
def Concludes (t : Trace proxyOps) (x : Except Exc Response) : Prop :=
  ∀ (blob : Bytes) (token : FernetToken), did (.fernetEncrypt blob) token ∈ t →
    ∃ r : RegistrationEnvelope, (Envelope.registration r).blob = some blob ∧
      x = .ok (.json 201 (.obj (issuedBody token.text r)) [])

omit [Platform] in
theorem Concludes.of_noSeal {t : Trace proxyOps} (ht : NoSeal t) (x : Except Exc Response) :
    Concludes t x := fun _ _ h => absurd h (ht.not_mem _ rfl)

theorem rejectDisallowedRedirect_eq_ok {uri : Str} :
    rejectDisallowedRedirect uri = .ok () ↔ acceptRegistered uri = .ok () := by
  unfold rejectDisallowedRedirect
  split
  · next h => simp [h]
  · rfl

theorem rejectDisallowed_eq_ok : ∀ {uris : List Str}, rejectDisallowed uris = .ok () →
    ∀ u ∈ uris, acceptRegistered u = .ok ()
  | [], _, u, hu => nomatch hu
  | uri :: uris, h, u, hu => by
      obtain ⟨a, ha, hrest⟩ := bind_eq_ok.mp h
      rcases List.mem_cons.mp hu with rfl | hu
      · exact rejectDisallowedRedirect_eq_ok.mp ha
      · exact rejectDisallowed_eq_ok hrest u hu

/-- The URIs of a valid body: listed, and accepted by the policy. -/
theorem readAndValidate_uris {body : BodyJson} {uris : List Str} {method name : Str}
    (h : readAndValidate body = .ok (uris, method, name)) :
    (∃ v d xs, body = .value v ∧ v.val = .obj d ∧ Dict.get? d "redirect_uris" = some (.arr xs) ∧
      Json.nonEmptyStrs xs = some uris) ∧ ∀ u ∈ uris, acceptRegistered u = .ok () := by
  obtain ⟨d, hd, hv⟩ := bind_eq_ok.mp h
  unfold validate at hv
  split_ifs at hv
  obtain ⟨raw, hraw, hv⟩ := bind_eq_ok.mp hv
  obtain ⟨a, hacc, hv⟩ := bind_eq_ok.mp hv
  obtain ⟨m, -, hv⟩ := bind_eq_ok.mp hv
  obtain ⟨n, -, hv⟩ := bind_eq_ok.mp hv
  obtain ⟨rfl, -⟩ := Prod.mk.inj (Except.ok.inj hv)
  refine ⟨?_, rejectDisallowed_eq_ok hacc⟩
  unfold readJson at hd
  split at hd
  · cases hd
  · next data wf =>
      obtain rfl := Except.ok.inj hd
      unfold rawUris at hraw
      split at hraw
      · next x xs hxs =>
          split at hraw
          · next us hus =>
              obtain rfl := Except.ok.inj hraw
              exact ⟨_, data, _, rfl, rfl, hxs, hus⟩
          · cases hraw
      · cases hraw
  · cases hd

/-- **The specification of `/register`.** -/
theorem sat_register (body : BodyJson) :
    (register body).Sat (Conduct (Mints body) Reads) Concludes [] := by
  refine Prog.Sat.bind (P := fun t' _ => NoSeal t') ?_ ?_ ?_
  · refine sat_ask_bind (Conduct.act .nil rfl trivial) (fun r => ?_)
    exact Free.nil.cons rfl _
  · intro t _ _ ht
    split
    · exact .of_noSeal ht _
    · exact .of_noSeal ht _
    · next uris method name hv =>
        refine sat_wholeTime_bind (Conduct.act ht rfl trivial) (fun now => ?_)
        have ht' : NoSeal (did .time now :: t) := ht.cons rfl _
        refine sat_pack_bind ?_ ?_ (fun msg _ => .of_noSeal ht' _)
        · exact fun blob hb => Conduct.seal ht' (Envelope.wf_registration _) hb ⟨_, rfl, hv⟩
        · intro blob token hb blob' token' hm
          rcases List.mem_cons.mp hm with he | hm
          · cases he
            exact ⟨_, hb, rfl⟩
          · exact absurd hm (ht'.not_mem _ rfl)
  · exact fun t e _ ht => .of_noSeal ht _

end CimdProxy.Register
