import CimdProxy.Config

/-! # Fernet envelopes

`envelope.py`: the four kinds of envelope, packed as compact JSON with sorted keys and a `tag` under
Fernet, and opened by the function of their kind.  `Envelope` is any of the four.

A field of a dataclass is not checked by Python.  Here the fields have the types the dataclasses
declare, except that `upstream_refresh_token` is whatever JSON the upstream sent; an opened payload
whose fields have other types, which this codec never packs, is a `TypeError`.

The main result is `open_pack`: opening undoes packing for the own kind and is an `EnvelopeError` for
every other kind and for every string that was not packed. -/

namespace CimdProxy

open Py Effects

/-! ### The four kinds -/

structure AuthorizeEnvelope where
  correlationId : Str
  clientId : Str
  redirectUri : Str
  state : Str
  resource : Str
  clientCodeChallenge : Str
  upstreamVerifier : Str
  scope : Str
  exp : ℤ
deriving DecidableEq

structure CodeEnvelope where
  correlationId : Str
  upstreamCode : Str
  upstreamVerifier : Str
  resource : Str
  clientId : Str
  clientCodeChallenge : Str
  redirectUri : Str
  exp : ℤ
deriving DecidableEq

structure RefreshEnvelope where
  resource : Str
  upstreamRefreshToken : Json

structure RegistrationEnvelope where
  redirectUris : List Str
  tokenEndpointAuthMethod : Str
  clientIdIssuedAt : ℤ
  clientName : Str
deriving DecidableEq

inductive Envelope where
  | authorize (e : AuthorizeEnvelope)
  | code (e : CodeEnvelope)
  | refresh (e : RefreshEnvelope)
  | registration (e : RegistrationEnvelope)

inductive Kind where
  | authorize
  | code
  | refresh
  | registration
deriving DecidableEq

def Kind.tag : Kind → Str
  | .authorize => "az"
  | .code => "cd"
  | .refresh => "rt"
  | .registration => "rg"

/-- `ttl_seconds` of the open function. -/
def Kind.ttl : Kind → Option ℕ
  | .authorize => some 600
  | _ => none

def Envelope.kind : Envelope → Kind
  | .authorize _ => .authorize
  | .code _ => .code
  | .refresh _ => .refresh
  | .registration _ => .registration

/-- `asdict(env)`. -/
def Envelope.fields : Envelope → Dict
  | .authorize e =>
      [("correlation_id", .str e.correlationId), ("client_id", .str e.clientId),
        ("redirect_uri", .str e.redirectUri), ("state", .str e.state),
        ("resource", .str e.resource), ("client_code_challenge", .str e.clientCodeChallenge),
        ("upstream_verifier", .str e.upstreamVerifier), ("scope", .str e.scope),
        ("exp", .int e.exp)]
  | .code e =>
      [("correlation_id", .str e.correlationId), ("upstream_code", .str e.upstreamCode),
        ("upstream_verifier", .str e.upstreamVerifier), ("resource", .str e.resource),
        ("client_id", .str e.clientId), ("client_code_challenge", .str e.clientCodeChallenge),
        ("redirect_uri", .str e.redirectUri), ("exp", .int e.exp)]
  | .refresh e =>
      [("resource", .str e.resource), ("upstream_refresh_token", e.upstreamRefreshToken)]
  | .registration e =>
      [("redirect_uris", .arr (e.redirectUris.map .str)),
        ("token_endpoint_auth_method", .str e.tokenEndpointAuthMethod),
        ("client_id_issued_at", .int e.clientIdIssuedAt), ("client_name", .str e.clientName)]

/-- The payload with its tag. -/
def Envelope.payload (e : Envelope) : Dict := e.fields.set "tag" (.str e.kind.tag)

/-! ### Packing -/

/-- The bytes handed to Fernet; `none` when an integer has too many digits for `json.dumps`. -/
def Envelope.blob (e : Envelope) : Option Bytes := (Json.dumps (.obj e.payload)).map utf8

/-- `_pack`. -/
def pack (e : Envelope) : Run Str :=
  match e.blob with
  | none => .raise (.valueError "Exceeds the limit (4300 digits) for integer string conversion")
  | some blob => do
      let token ← ask (.fernetEncrypt blob)
      return token.text

/-- Packing succeeds when every integer has few enough digits. -/
theorem Envelope.blob_eq_some {e : Envelope} (h : Json.digitsFitMembers e.fields = true) :
    ∃ b, e.blob = some b := by
  have hfit : Json.digitsFit (.obj e.payload) = true := by
    cases e <;> simpa [Json.digitsFit, Envelope.payload, Envelope.fields, Dict.set,
      Json.digitsFitMembers] using h
  exact ⟨_, by rw [Envelope.blob, Json.dumps, if_pos hfit]; rfl⟩

/-! ### Opening -/

/-- The part of `_open` after Fernet. -/
def readPayload [Platform] (blob : Bytes) (kind : Kind) : Except Exc Dict :=
  match utf8Decode blob with
  | none => .error (.envelope "envelope payload not JSON")
  | some text =>
      match Json.loads text with
      | .error .decode => .error (.envelope "envelope payload not JSON")
      | .error .digits =>
          .error (.valueError "Exceeds the limit (4300 digits) for integer string conversion")
      | .ok (.obj payload) =>
          match Dict.get? payload "tag" with
          | some (.str t) =>
              if t = kind.tag then .ok payload
              else .error (.envelope ("envelope tag mismatch (expected " ++ pyRepr kind.tag ++
                ", got " ++ pyRepr t ++ ")"))
          | other => .error (.envelope ("envelope tag mismatch (expected " ++ pyRepr kind.tag ++
              ", got " ++ (other.getD .null).reprText ++ ")"))
      | .ok _ => .error (.attributeError "object has no attribute 'get'")

/-- `_open`. -/
def openPayload [Platform] (token : Str) (kind : Kind) : Run Dict :=
  if isAscii token then do
    let (_, blob) ← ask (.fernetDecrypt token kind.ttl)
    match blob with
    | none => .raise (.envelope "envelope invalid or expired")
    | some blob => .lift (readPayload blob kind)
  else .raise (.envelope "envelope malformed")

/-- The arguments of a constructor call `cls(**d)`: no unknown name, none missing. -/
def checkArguments (d : Dict) (names optional : List Str) : Except Exc Unit :=
  if d.all (fun m => names.contains m.1 || optional.contains m.1) && names.all (fun n => d.has n) then
    .ok ()
  else .error (.typeError "got an unexpected keyword argument, or one is missing")

def strField (d : Dict) (name : Str) : Except Exc Str :=
  match d.get? name with
  | some (.str s) => .ok s
  | _ => .error (.typeError (name ++ " is not a string"))

def intField (d : Dict) (name : Str) : Except Exc ℤ :=
  match d.get? name with
  | some (.int n) => .ok n
  | _ => .error (.typeError (name ++ " is not an integer"))

/-- The strings of a list. -/
def strElems : List Json → Option (List Str)
  | [] => some []
  | .str s :: xs => (strElems xs).map (s :: ·)
  | _ => none

def strListField (d : Dict) (name : Str) : Except Exc (List Str) :=
  match d.get? name with
  | some (.arr xs) =>
      match strElems xs with
      | some ss => .ok ss
      | none => .error (.typeError (name ++ " is not a list of strings"))
  | _ => .error (.typeError (name ++ " is not a list"))

/-- The dict comprehension that drops the tag. -/
def dropTag (payload : Dict) : Dict := payload.pop "tag"

def AuthorizeEnvelope.ofPayload (payload : Dict) : Except Exc AuthorizeEnvelope := do
  let d := dropTag payload
  checkArguments d ["correlation_id".toList, "client_id".toList, "redirect_uri".toList,
    "state".toList, "resource".toList, "client_code_challenge".toList,
    "upstream_verifier".toList, "scope".toList, "exp".toList] []
  return ⟨← strField d "correlation_id", ← strField d "client_id", ← strField d "redirect_uri",
    ← strField d "state", ← strField d "resource", ← strField d "client_code_challenge",
    ← strField d "upstream_verifier", ← strField d "scope", ← intField d "exp"⟩

def CodeEnvelope.ofPayload (payload : Dict) : Except Exc CodeEnvelope := do
  let d := dropTag payload
  checkArguments d ["correlation_id".toList, "upstream_code".toList, "upstream_verifier".toList,
    "resource".toList, "client_id".toList, "client_code_challenge".toList,
    "redirect_uri".toList, "exp".toList] []
  return ⟨← strField d "correlation_id", ← strField d "upstream_code",
    ← strField d "upstream_verifier", ← strField d "resource", ← strField d "client_id",
    ← strField d "client_code_challenge", ← strField d "redirect_uri", ← intField d "exp"⟩

def RefreshEnvelope.ofPayload (payload : Dict) : Except Exc RefreshEnvelope := do
  let d := dropTag payload
  checkArguments d ["resource".toList, "upstream_refresh_token".toList] []
  return ⟨← strField d "resource", (d.get? "upstream_refresh_token").getD .null⟩

def RegistrationEnvelope.ofPayload (payload : Dict) : Except Exc RegistrationEnvelope := do
  let d := dropTag payload
  checkArguments d ["redirect_uris".toList, "token_endpoint_auth_method".toList,
    "client_id_issued_at".toList] ["client_name".toList]
  return ⟨← strListField d "redirect_uris", ← strField d "token_endpoint_auth_method",
    ← intField d "client_id_issued_at",
    ← if d.has "client_name" then strField d "client_name" else .ok ""⟩

/-- `open_authorize`. -/
def openAuthorize [Platform] (token : Str) : Run AuthorizeEnvelope := do
  let payload ← openPayload token .authorize
  .lift (AuthorizeEnvelope.ofPayload payload)

/-- `open_code`. -/
def openCode [Platform] (token : Str) : Run CodeEnvelope := do
  let payload ← openPayload token .code
  .lift (CodeEnvelope.ofPayload payload)

/-- `open_refresh`. -/
def openRefresh [Platform] (token : Str) : Run RefreshEnvelope := do
  let payload ← openPayload token .refresh
  .lift (RefreshEnvelope.ofPayload payload)

/-- `open_registration`. -/
def openRegistration [Platform] (token : Str) : Run RegistrationEnvelope := do
  let payload ← openPayload token .registration
  .lift (RegistrationEnvelope.ofPayload payload)

/-! ### What was packed -/

/-- The values of an envelope are values of Python. -/
def Envelope.WF : Envelope → Prop
  | .refresh e => e.upstreamRefreshToken.WF
  | _ => True

theorem Envelope.wf_authorize (e : AuthorizeEnvelope) : (Envelope.authorize e).WF := trivial

theorem Envelope.wf_code (e : CodeEnvelope) : (Envelope.code e).WF := trivial

theorem Envelope.wf_registration (e : RegistrationEnvelope) : (Envelope.registration e).WF := trivial

theorem wfElems_strs (ss : List Str) : Json.WFElems (ss.map .str) := by
  induction ss with
  | nil => trivial
  | cons s ss ih => exact ⟨trivial, ih⟩

/-- The keys of a packed payload. -/
def Kind.names : Kind → List Str
  | .authorize =>
      ["correlation_id".toList, "client_id".toList, "redirect_uri".toList, "state".toList,
        "resource".toList, "client_code_challenge".toList, "upstream_verifier".toList,
        "scope".toList, "exp".toList, "tag".toList]
  | .code =>
      ["correlation_id".toList, "upstream_code".toList, "upstream_verifier".toList,
        "resource".toList, "client_id".toList, "client_code_challenge".toList,
        "redirect_uri".toList, "exp".toList, "tag".toList]
  | .refresh => ["resource".toList, "upstream_refresh_token".toList, "tag".toList]
  | .registration =>
      ["redirect_uris".toList, "token_endpoint_auth_method".toList, "client_id_issued_at".toList,
        "client_name".toList, "tag".toList]

theorem Envelope.payload_eq (e : Envelope) : e.payload = e.fields ++ [("tag".toList, .str e.kind.tag)] := by
  cases e <;> rfl

theorem Envelope.map_fst_payload (e : Envelope) : e.payload.map Prod.fst = e.kind.names := by
  cases e <;> rfl

theorem Kind.nodup_names (k : Kind) : k.names.Nodup := by
  cases k <;> decide

theorem Envelope.wf_payload {e : Envelope} (hwf : e.WF) {b : Bytes} (h : e.blob = some b) :
    Json.WF (.obj e.payload) := by
  have hfit : Json.digitsFit (.obj e.payload) = true := by
    unfold Envelope.blob Json.dumps at h
    by_contra hc
    simp [hc] at h
  rw [Json.digitsFit, Envelope.payload_eq] at hfit
  refine ⟨by rw [Envelope.map_fst_payload]; exact Kind.nodup_names _, ?_⟩
  rw [Envelope.payload_eq]
  cases e with
  | authorize e =>
      simp only [Envelope.fields, List.cons_append, List.nil_append, Json.digitsFitMembers,
        Json.digitsFit, Bool.true_and, Bool.and_true, decide_eq_true_eq] at hfit
      simp only [Envelope.fields, List.cons_append, List.nil_append, Json.WFMembers, Json.WF,
        true_and, and_true]
      exact hfit
  | code e =>
      simp only [Envelope.fields, List.cons_append, List.nil_append, Json.digitsFitMembers,
        Json.digitsFit, Bool.true_and, Bool.and_true, decide_eq_true_eq] at hfit
      simp only [Envelope.fields, List.cons_append, List.nil_append, Json.WFMembers, Json.WF,
        true_and, and_true]
      exact hfit
  | refresh e =>
      simp only [Envelope.fields, List.cons_append, List.nil_append, Json.WFMembers, Json.WF,
        true_and, and_true]
      exact hwf
  | registration e =>
      simp only [Envelope.fields, List.cons_append, List.nil_append, Json.digitsFitMembers,
        Json.digitsFit, Bool.true_and, Bool.and_true, Bool.and_eq_true, decide_eq_true_eq] at hfit
      simp only [Envelope.fields, List.cons_append, List.nil_append, Json.WFMembers, Json.WF,
        true_and, and_true]
      exact ⟨wfElems_strs _, hfit.2⟩

/-- The message for an envelope of the wrong kind. -/
def tagMismatch [Platform] (expected got : Kind) : Exc :=
  .envelope ("envelope tag mismatch (expected " ++ pyRepr expected.tag ++ ", got " ++
    pyRepr got.tag ++ ")")

theorem Kind.tag_injective {k k' : Kind} (h : k.tag = k'.tag) : k = k' := by
  revert h
  cases k <;> cases k' <;> decide

theorem Envelope.get?_tag (e : Envelope) :
    Dict.get? (Json.sortMembers e.payload) "tag" = some (.str e.kind.tag) := by
  have hn : (e.payload.map Prod.fst).Nodup := by rw [e.map_fst_payload]; exact Kind.nodup_names _
  have hm : ("tag".toList, Json.str e.kind.tag) ∈ e.payload := by
    rw [Envelope.payload_eq]
    simp
  rw [Dict.get?_sortMembers hn, Dict.get?_eq_some_of_mem hn hm]
  rfl

/-- Reading a packed blob: the payload for its own kind, a tag mismatch for every other. -/
theorem readPayload_blob [Platform] {e : Envelope} (hwf : e.WF) {b : Bytes} (h : e.blob = some b) (k : Kind) :
    readPayload b k =
      if e.kind = k then .ok (Json.sortMembers e.payload) else .error (tagMismatch k e.kind) := by
  obtain ⟨t, ht, hl⟩ := Json.loads_dumps (e.wf_payload hwf h)
  have hb : b = utf8 t := by
    unfold Envelope.blob at h
    rw [ht] at h
    exact (Option.some.inj h).symm
  unfold readPayload
  rw [hb, utf8Decode_utf8]
  dsimp only
  rw [hl]
  simp only [Json.sortKeys]
  rw [Envelope.get?_tag]
  dsimp only
  by_cases hk : e.kind = k
  · simp [hk]
  · have : e.kind.tag ≠ k.tag := fun h => hk (Kind.tag_injective h)
    simp [hk, this, tagMismatch]

theorem get?_dropTag {d : Dict} {k : Str} (hk : k ≠ "tag") : (dropTag d).get? k = d.get? k :=
  Dict.get?_pop hk

/-- The fields of a packed payload, read one by one. -/
theorem Envelope.get?_field {e : Envelope} {k : Str} {v : Json} (h : (k, v) ∈ e.fields)
    (hk : k ≠ "tag") : (dropTag (Json.sortMembers e.payload)).get? k = some v.sortKeys := by
  have hn : (e.payload.map Prod.fst).Nodup := by rw [e.map_fst_payload]; exact Kind.nodup_names _
  have hm : (k, v) ∈ e.payload := by
    rw [Envelope.payload_eq]
    exact List.mem_append_left _ h
  rw [get?_dropTag hk, Dict.get?_sortMembers hn, Dict.get?_eq_some_of_mem hn hm]
  rfl

theorem Envelope.mem_names_iff (e : Envelope) (n : Str) :
    n ∈ (dropTag (Json.sortMembers e.payload)).map Prod.fst ↔ n ∈ e.kind.names ∧ n ≠ "tag" := by
  have hp := (Json.sortMembers_perm e.payload).map Prod.fst
  rw [List.map_map] at hp
  have hkeys : e.payload.map (Prod.fst ∘ fun m => (m.1, Json.sortKeys m.2)) = e.kind.names :=
    e.map_fst_payload
  rw [hkeys] at hp
  rw [← hp.mem_iff]
  simp only [dropTag, Dict.pop, List.mem_map, List.mem_filter, bne_iff_ne, ne_eq]
  constructor
  · rintro ⟨m, ⟨hm, hne⟩, rfl⟩
    exact ⟨⟨m, hm, rfl⟩, hne⟩
  · rintro ⟨⟨m, hm, rfl⟩, hne⟩
    exact ⟨m, ⟨hm, hne⟩, rfl⟩

/-- A constructor call gets exactly the names of its dataclass. -/
theorem Envelope.checkArguments_packed {e : Envelope} {names optional : List Str}
    (h1 : ∀ n ∈ e.kind.names, n = "tag" ∨ n ∈ names ∨ n ∈ optional)
    (h2 : ∀ n ∈ names, n ∈ e.kind.names ∧ n ≠ "tag") :
    checkArguments (dropTag (Json.sortMembers e.payload)) names optional = .ok () := by
  unfold checkArguments
  rw [if_pos]
  rw [Bool.and_eq_true, List.all_eq_true, List.all_eq_true]
  constructor
  · intro m hm
    obtain ⟨hn, hne⟩ := (e.mem_names_iff m.1).mp (List.mem_map_of_mem hm)
    rcases h1 _ hn with h | h | h
    · exact absurd h hne
    · simp [h]
    · simp [h]
  · intro n hn
    obtain ⟨m, hm, rfl⟩ := List.mem_map.mp ((e.mem_names_iff n).mpr (h2 n hn))
    simp only [Dict.has, List.any_eq_true, beq_iff_eq]
    exact ⟨m, hm, rfl⟩

theorem strField_packed {e : Envelope} (i : ℕ) {k : Str} {s : Str}
    (h : e.fields[i]? = some (k, .str s)) (hk : k ≠ "tag") :
    strField (dropTag (Json.sortMembers e.payload)) k = .ok s := by
  rw [strField, e.get?_field (List.mem_of_getElem? h) hk]
  rfl

theorem intField_packed {e : Envelope} (i : ℕ) {k : Str} {n : ℤ}
    (h : e.fields[i]? = some (k, .int n)) (hk : k ≠ "tag") :
    intField (dropTag (Json.sortMembers e.payload)) k = .ok n := by
  rw [intField, e.get?_field (List.mem_of_getElem? h) hk]
  rfl

theorem AuthorizeEnvelope.ofPayload_packed (e : AuthorizeEnvelope) :
    AuthorizeEnvelope.ofPayload (Json.sortMembers (Envelope.authorize e).payload) = .ok e := by
  unfold AuthorizeEnvelope.ofPayload
  dsimp only
  rw [Envelope.checkArguments_packed (e := .authorize e) (by simp only [Envelope.kind]; decide)
      (by simp only [Envelope.kind]; decide),
    strField_packed (e := .authorize e) 0 rfl (by decide),
    strField_packed (e := .authorize e) 1 rfl (by decide),
    strField_packed (e := .authorize e) 2 rfl (by decide),
    strField_packed (e := .authorize e) 3 rfl (by decide),
    strField_packed (e := .authorize e) 4 rfl (by decide),
    strField_packed (e := .authorize e) 5 rfl (by decide),
    strField_packed (e := .authorize e) 6 rfl (by decide),
    strField_packed (e := .authorize e) 7 rfl (by decide),
    intField_packed (e := .authorize e) 8 rfl (by decide)]
  rfl

theorem CodeEnvelope.ofPayload_packed (e : CodeEnvelope) :
    CodeEnvelope.ofPayload (Json.sortMembers (Envelope.code e).payload) = .ok e := by
  unfold CodeEnvelope.ofPayload
  dsimp only
  rw [Envelope.checkArguments_packed (e := .code e) (by simp only [Envelope.kind]; decide)
      (by simp only [Envelope.kind]; decide),
    strField_packed (e := .code e) 0 rfl (by decide),
    strField_packed (e := .code e) 1 rfl (by decide),
    strField_packed (e := .code e) 2 rfl (by decide),
    strField_packed (e := .code e) 3 rfl (by decide),
    strField_packed (e := .code e) 4 rfl (by decide),
    strField_packed (e := .code e) 5 rfl (by decide),
    strField_packed (e := .code e) 6 rfl (by decide),
    intField_packed (e := .code e) 7 rfl (by decide)]
  rfl

theorem RefreshEnvelope.ofPayload_packed (e : RefreshEnvelope) :
    RefreshEnvelope.ofPayload (Json.sortMembers (Envelope.refresh e).payload) =
      .ok ⟨e.resource, e.upstreamRefreshToken.sortKeys⟩ := by
  have htoken : (dropTag (Json.sortMembers (Envelope.refresh e).payload)).get?
      "upstream_refresh_token" = some e.upstreamRefreshToken.sortKeys :=
    Envelope.get?_field (e := .refresh e) (List.mem_of_getElem? (i := 1) rfl) (by decide)
  unfold RefreshEnvelope.ofPayload
  dsimp only
  rw [Envelope.checkArguments_packed (e := .refresh e) (by simp only [Envelope.kind]; decide)
      (by simp only [Envelope.kind]; decide),
    strField_packed (e := .refresh e) 0 rfl (by decide), htoken]
  rfl

theorem strElems_strs (ss : List Str) : strElems (Json.sortElems (ss.map .str)) = some ss := by
  induction ss with
  | nil => rfl
  | cons s ss ih =>
      simp only [List.map_cons, Json.sortElems, Json.sortKeys, strElems, ih]
      rfl

theorem RegistrationEnvelope.ofPayload_packed (e : RegistrationEnvelope) :
    RegistrationEnvelope.ofPayload (Json.sortMembers (Envelope.registration e).payload) = .ok e := by
  have huris : strListField (dropTag (Json.sortMembers (Envelope.registration e).payload))
      "redirect_uris" = .ok e.redirectUris := by
    rw [strListField, Envelope.get?_field (e := .registration e)
      (List.mem_of_getElem? (i := 0) rfl) (by decide)]
    simp only [Json.sortKeys, strElems_strs]
  have hname : (dropTag (Json.sortMembers (Envelope.registration e).payload)).has "client_name" =
      true := by
    obtain ⟨m, hm, hk⟩ := List.mem_map.mp ((Envelope.mem_names_iff (.registration e)
      "client_name").mpr (by simp only [Envelope.kind]; decide))
    simp only [Dict.has, List.any_eq_true, beq_iff_eq]
    exact ⟨m, hm, hk⟩
  unfold RegistrationEnvelope.ofPayload
  dsimp only
  rw [Envelope.checkArguments_packed (e := .registration e) (by simp only [Envelope.kind]; decide)
      (by simp only [Envelope.kind]; decide), huris,
    strField_packed (e := .registration e) 1 rfl (by decide),
    intField_packed (e := .registration e) 2 rfl (by decide)]
  simp only [ok_bind]
  rw [if_pos hname, strField_packed (e := .registration e) 3 rfl (by decide)]
  rfl

/-! ### Opening what was packed -/

/-- The open function of a kind. -/
def openKind [Platform] : Kind → Str → Run Envelope
  | .authorize, token => (openAuthorize token).bind (fun e => .ret (.authorize e))
  | .code, token => (openCode token).bind (fun e => .ret (.code e))
  | .refresh, token => (openRefresh token).bind (fun e => .ret (.refresh e))
  | .registration, token => (openRegistration token).bind (fun e => .ret (.registration e))

/-- What an open function makes of a payload of its kind. -/
def Envelope.ofPayload (payload : Dict) : Kind → Except Exc Envelope
  | .authorize => (AuthorizeEnvelope.ofPayload payload).map .authorize
  | .code => (CodeEnvelope.ofPayload payload).map .code
  | .refresh => (RefreshEnvelope.ofPayload payload).map .refresh
  | .registration => (RegistrationEnvelope.ofPayload payload).map .registration

theorem lift_bind_ret {α β : Type} (x : Except Exc α) (f : α → β) :
    (Prog.lift x : Run α).bind (fun a => .ret (f a)) = .lift (x.map f) := by
  cases x <;> rfl

theorem openKind_eq [Platform] (k : Kind) (token : Str) :
    openKind k token = (openPayload token k).bind (fun d => .lift (Envelope.ofPayload d k)) := by
  have assoc : ∀ {α : Type} (f : Dict → Except Exc α) (g : α → Envelope),
      ((openPayload token k).bind (fun d => .lift (f d))).bind (fun a => .ret (g a)) =
        (openPayload token k).bind (fun d => .lift ((f d).map g)) := by
    intro α f g
    have : ∀ p : Run Dict, (p.bind (fun d => .lift (f d))).bind (fun a => .ret (g a)) =
        p.bind (fun d => .lift ((f d).map g)) := by
      intro p
      induction p with
      | ret d => exact lift_bind_ret _ _
      | raise e => rfl
      | call o c ih => simp only [Prog.call_bind, ih]
    exact this _
  cases k with
  | authorize => exact assoc AuthorizeEnvelope.ofPayload .authorize
  | code => exact assoc CodeEnvelope.ofPayload .code
  | refresh => exact assoc RefreshEnvelope.ofPayload .refresh
  | registration => exact assoc RegistrationEnvelope.ofPayload .registration

/-- The envelope with the members of the upstream's value in key order. -/
def Envelope.reread : Envelope → Envelope
  | .refresh e => .refresh ⟨e.resource, e.upstreamRefreshToken.sortKeys⟩
  | e => e

theorem Envelope.ofPayload_packed (e : Envelope) :
    Envelope.ofPayload (Json.sortMembers e.payload) e.kind = .ok e.reread := by
  cases e with
  | authorize e => simp only [Envelope.kind, Envelope.ofPayload, AuthorizeEnvelope.ofPayload_packed]; rfl
  | code e => simp only [Envelope.kind, Envelope.ofPayload, CodeEnvelope.ofPayload_packed]; rfl
  | refresh e => simp only [Envelope.kind, Envelope.ofPayload, RefreshEnvelope.ofPayload_packed]; rfl
  | registration e =>
      simp only [Envelope.kind, Envelope.ofPayload, RegistrationEnvelope.ofPayload_packed]; rfl

/-- What payload bytes are read as by the open function of a kind. -/
def readAs [Platform] (blob : Bytes) (k : Kind) : Except Exc Envelope := do
  let payload ← readPayload blob k
  Envelope.ofPayload payload k

/-- Packed bytes are read as the envelope by its own kind, refused by every other. -/
theorem readAs_blob [Platform] {e : Envelope} (hwf : e.WF) {b : Bytes} (h : e.blob = some b)
    (k : Kind) :
    readAs b k = if e.kind = k then .ok e.reread else .error (tagMismatch k e.kind) := by
  rw [readAs, readPayload_blob hwf h]
  by_cases hk : e.kind = k
  · rw [if_pos hk, if_pos hk, ok_bind, ← hk, Envelope.ofPayload_packed]
  · rw [if_neg hk, if_neg hk, error_bind]

/-! ### What the programs do -/

section Programs

variable {α : Type} {t : Trace proxyOps} {Q : Trace proxyOps → Op → Prop}

/-- Packing encrypts once and returns the token. -/
theorem sat_pack_bind {R : Trace proxyOps → Except Exc α → Prop} {e : Envelope} {f : Str → Run α}
    (hq : ∀ blob, e.blob = some blob → Q t (.fernetEncrypt blob))
    (hok : ∀ (blob : Bytes) (token : FernetToken), e.blob = some blob →
      (f token.text).Sat Q R (did (.fernetEncrypt blob) token :: t))
    (herr : ∀ msg, e.blob = none → R t (.error (.valueError msg))) :
    ((pack e).bind f).Sat Q R t := by
  unfold pack
  cases hb : e.blob with
  | none => exact herr _ hb
  | some blob => exact ⟨hq blob hb, fun token => hok blob token hb⟩

variable [Platform]

/-- A program with the trace `t` opened the string `token` as the envelope `e`. -/
def Opened (t : Trace proxyOps) (token : Str) (e : Envelope) : Prop :=
  ∃ (now : ℤ) (blob : Bytes), did (.fernetDecrypt token e.kind.ttl) (now, some blob) ∈ t ∧
    readAs blob e.kind = .ok e

theorem Opened.mono {t t' : Trace proxyOps} {token : Str} {e : Envelope} (h : Opened t token e)
    (ht : t <:+ t') : Opened t' token e := by
  obtain ⟨now, blob, hm, hr⟩ := h
  exact ⟨now, blob, ht.subset hm, hr⟩

/-- An open function decrypts once; what it returns it has opened. -/
theorem sat_open {k : Kind} {token : Str} {of : Dict → Except Exc α} {wrap : α → Envelope}
    (hkind : ∀ a, (wrap a).kind = k) (hof : ∀ d, Envelope.ofPayload d k = (of d).map wrap)
    (hq : Q t (.fernetDecrypt token k.ttl)) :
    ((openPayload token k).bind (fun d => .lift (of d))).Sat Q
      (fun t' x => (t' = t ∨ ∃ r, t' = did (.fernetDecrypt token k.ttl) r :: t) ∧
        ∀ a, x = .ok a → Opened t' token (wrap a)) t := by
  unfold openPayload
  by_cases ha : isAscii token = true
  · rw [if_pos ha]
    refine ⟨hq, fun r => ?_⟩
    obtain ⟨now, reply⟩ := r
    cases reply with
    | none => exact ⟨.inr ⟨(now, none), rfl⟩, fun a h => nomatch h⟩
    | some blob =>
        refine Prog.Sat.lift_bind (fun d hd => ?_) (fun e _ => ⟨.inr ⟨(now, some blob), rfl⟩,
          fun a h => nomatch h⟩)
        rw [Prog.sat_lift]
        refine ⟨.inr ⟨(now, some blob), rfl⟩, fun a h => ⟨now, blob, ?_, ?_⟩⟩
        · rw [hkind]
          exact List.mem_cons_self
        · rw [hkind, readAs, hd, ok_bind, hof, h]
          rfl
  · rw [if_neg ha]
    exact ⟨.inl rfl, fun a h => nomatch h⟩

/-- `Sat` for the four open functions. -/
theorem sat_openAuthorize {token : Str} (hq : Q t (.fernetDecrypt token (some 600))) :
    (openAuthorize token).Sat Q
      (fun t' x => (t' = t ∨ ∃ r, t' = did (.fernetDecrypt token (some 600)) r :: t) ∧
        ∀ a, x = .ok a → Opened t' token (.authorize a)) t :=
  sat_open (k := .authorize) (fun _ => rfl) (fun _ => rfl) hq

theorem sat_openCode {token : Str} (hq : Q t (.fernetDecrypt token none)) :
    (openCode token).Sat Q (fun t' x => (t' = t ∨ ∃ r, t' = did (.fernetDecrypt token none) r :: t) ∧
      ∀ a, x = .ok a → Opened t' token (.code a)) t :=
  sat_open (k := .code) (fun _ => rfl) (fun _ => rfl) hq

theorem sat_openRefresh {token : Str} (hq : Q t (.fernetDecrypt token none)) :
    (openRefresh token).Sat Q
      (fun t' x => (t' = t ∨ ∃ r, t' = did (.fernetDecrypt token none) r :: t) ∧
        ∀ a, x = .ok a → Opened t' token (.refresh a)) t :=
  sat_open (k := .refresh) (fun _ => rfl) (fun _ => rfl) hq

theorem sat_openRegistration {token : Str} (hq : Q t (.fernetDecrypt token none)) :
    (openRegistration token).Sat Q
      (fun t' x => (t' = t ∨ ∃ r, t' = did (.fernetDecrypt token none) r :: t) ∧
        ∀ a, x = .ok a → Opened t' token (.registration a)) t :=
  sat_open (k := .registration) (fun _ => rfl) (fun _ => rfl) hq

end Programs

/-! ### Opening in a world -/

/-- The outcome of opening at a world and a clock reading. -/
def openResult [Platform] (w : World) (k : Kind) (token : Str) (now : ℤ) : Except Exc Envelope :=
  if isAscii token then
    match fernetOpen w.fernet token k.ttl now with
    | none => .error (.envelope "envelope invalid or expired")
    | some blob => readAs blob k
  else .error (.envelope "envelope malformed")

theorem exec_lift {α : Type} (propose : (o : Op) → Reply o) (x : Except Exc α) (w : World) :
    (Prog.lift x : Run α).exec World.perform propose w = some (x, w) := by
  cases x <;> rfl

/-- Opening reads the log and changes nothing. -/
theorem exec_openKind [Platform] (propose : (o : Op) → Reply o) (w : World) (k : Kind) (token : Str) :
    (openKind k token).exec World.perform propose w =
      some (openResult w k token (propose (.fernetDecrypt token k.ttl)).1, w) := by
  rw [openKind_eq]
  unfold openPayload openResult
  by_cases ha : isAscii token = true
  · rw [if_pos ha, if_pos ha]
    simp only [Prog.bind_eq, ask_bind, Prog.call_bind]
    rw [Prog.exec_call_some (World.perform_fernetDecrypt w token k.ttl _)]
    dsimp only
    cases fernetOpen w.fernet token k.ttl (propose (.fernetDecrypt token k.ttl)).1 with
    | none => rfl
    | some blob =>
        dsimp only
        rw [readAs]
        cases readPayload blob k with
        | error e => rfl
        | ok d => rw [Prog.lift_ok, Prog.ret_bind, exec_lift, ok_bind]
  · rw [if_neg ha, if_neg ha]
    rfl

/-- The declared field types: strings throughout. -/
def Envelope.HasStringFields : Envelope → Prop
  | .refresh e => ∃ s, e.upstreamRefreshToken = .str s
  | _ => True

theorem Envelope.HasStringFields.wf {e : Envelope} (h : e.HasStringFields) : e.WF := by
  cases e with
  | refresh e =>
      obtain ⟨s, hs⟩ := h
      change e.upstreamRefreshToken.WF
      rw [hs]
      trivial
  | authorize e => trivial
  | code e => trivial
  | registration e => trivial

theorem Envelope.HasStringFields.reread {e : Envelope} (h : e.HasStringFields) : e.reread = e := by
  cases e with
  | refresh e =>
      obtain ⟨s, hs⟩ := h
      cases e
      subst hs
      rfl
  | authorize e => rfl
  | code e => rfl
  | registration e => rfl

/-- What packing leaves in the log. -/
theorem exec_pack {propose : (o : Op) → Reply o} {w w' : World} {e : Envelope} {token : Str}
    (h : (pack e).exec World.perform propose w = some (.ok token, w')) :
    ∃ b s, e.blob = some b ∧ isAscii token = true ∧ s.blob = b ∧ s.token = token ∧
      w'.fernet.find? (fun x => x.token == token) = some s := by
  unfold pack at h
  cases hb : e.blob with
  | none => rw [hb] at h; cases h
  | some b =>
      rw [hb] at h
      obtain ⟨r, w₁, hp, h⟩ := Prog.exec_call_eq_some h
      obtain ⟨hr, rfl⟩ : .ok r.text = Except.ok token ∧ w₁ = w' := by
        exact Prod.mk.inj (Option.some.inj h)
      obtain ⟨s, hs, hst, -, hfind⟩ := World.perform_fernetEncrypt hp
      rw [Except.ok.inj hr] at hst hfind
      exact ⟨b, s, rfl, Except.ok.inj hr ▸ r.ascii, hs, hst, hfind⟩

section Results

variable [Platform] {w : World} {token : Str} {s : Sealed} {e : Envelope}

/-- Opening with the function of the own kind, within the time-to-live. -/
theorem openResult_own (hascii : isAscii token = true) (hstr : e.HasStringFields)
    (hb : e.blob = some s.blob) (hfind : w.fernet.find? (fun x => x.token == token) = some s)
    {now : ℤ} (hnow : withinTtl e.kind.ttl s.stamp now = true) :
    openResult w e.kind token now = .ok e := by
  rw [openResult, if_pos hascii, fernetOpen, hfind]
  dsimp only
  rw [if_pos hnow]
  dsimp only
  rw [readAs_blob hstr.wf hb, if_pos rfl, hstr.reread]

/-- Opening with the function of another kind. -/
theorem openResult_other (hascii : isAscii token = true) (hwf : e.WF)
    (hb : e.blob = some s.blob) (hfind : w.fernet.find? (fun x => x.token == token) = some s)
    {k : Kind} (hk : k ≠ e.kind) (now : ℤ) :
    ∃ msg, openResult w k token now = .error (.envelope msg) := by
  rw [openResult, if_pos hascii, fernetOpen, hfind]
  dsimp only
  by_cases hw : withinTtl k.ttl s.stamp now = true
  · rw [if_pos hw]
    dsimp only
    rw [readAs_blob hwf hb, if_neg (Ne.symm hk)]
    exact ⟨_, rfl⟩
  · rw [if_neg hw]
    exact ⟨_, rfl⟩

/-- Opening a string that is not in the log. -/
theorem openResult_foreign (hw : ∀ s ∈ w.fernet, s.token ≠ token) (k : Kind) (now : ℤ) :
    ∃ msg, openResult w k token now = .error (.envelope msg) := by
  have hnone : w.fernet.find? (fun x => x.token == token) = none := by
    rw [List.find?_eq_none]
    intro x hx
    simpa using hw x hx
  rw [openResult]
  by_cases ha : isAscii token = true
  · rw [if_pos ha, fernetOpen, hnone]
    exact ⟨_, rfl⟩
  · rw [if_neg ha]
    exact ⟨_, rfl⟩

end Results

/-- **Opening undoes packing, and the kinds never mix.**  An envelope packed in any world opens, in
every later world and within its time-to-live, to exactly itself; the open functions of the other
kinds raise an `EnvelopeError`, and so does every open function on a string that was not packed. -/
theorem open_pack [Platform] (e : Envelope) (propose propose' : (o : Op) → Reply o)
    (w w' w'' : World) (token : Str) (hstr : e.HasStringFields)
    (hpack : (pack e).exec World.perform propose w = some (.ok token, w'))
    (hlater : w'.Later w'') :
    ((∀ s ∈ w'.fernet, s.token = token →
        withinTtl e.kind.ttl s.stamp (propose' (.fernetDecrypt token e.kind.ttl)).1 = true) →
      (openKind e.kind token).exec World.perform propose' w'' = some (.ok e, w'')) ∧
    (∀ k, k ≠ e.kind → ∃ msg,
      (openKind k token).exec World.perform propose' w'' = some (.error (.envelope msg), w'')) ∧
    (∀ (other : Str) (k : Kind), (∀ s ∈ w''.fernet, s.token ≠ other) → ∃ msg,
      (openKind k other).exec World.perform propose' w'' = some (.error (.envelope msg), w'')) := by
  obtain ⟨b, s, hb, hascii, rfl, hst, hfind⟩ := exec_pack hpack
  have hfind' := hlater.find? hfind
  refine ⟨?_, ?_, ?_⟩
  · intro httl
    have hnow := httl s (List.mem_of_find?_eq_some hfind) hst
    rw [exec_openKind, openResult_own hascii hstr hb hfind' hnow]
  · intro k hk
    obtain ⟨msg, hmsg⟩ := openResult_other hascii hstr.wf hb hfind' hk
      (propose' (.fernetDecrypt token k.ttl)).1
    exact ⟨msg, by rw [exec_openKind, hmsg]⟩
  · intro other k hother
    obtain ⟨msg, hmsg⟩ := openResult_foreign hother k (propose' (.fernetDecrypt other k.ttl)).1
    exact ⟨msg, by rw [exec_openKind, hmsg]⟩

/-- A registration with text outside ASCII. -/
def sampleRegistration : Envelope :=
  .registration ⟨["https://app.example/cb".toList, "http://localhost/\"cb\"".toList], "none", 1790000000,
    "Schlüssel 🔑\n"⟩

theorem open_pack_registration :
    letI := Platform.plain
    ∃ w', (pack sampleRegistration).exec World.perform idleReply World.init =
        some (.ok "gAAAAA", w') ∧
      (openKind .registration "gAAAAA").exec World.perform idleReply w' =
        some (.ok sampleRegistration, w') ∧
      (∃ msg, (openKind .code "gAAAAA").exec World.perform idleReply w' =
        some (.error (.envelope msg), w')) ∧
      (∃ msg, (openKind .code "invented").exec World.perform idleReply w' =
        some (.error (.envelope msg), w')) := by
  let := Platform.plain
  obtain ⟨b, hb⟩ : ∃ b, sampleRegistration.blob = some b :=
    Option.isSome_iff_exists.mp (by decide +kernel)
  have hpack : (pack sampleRegistration).exec World.perform idleReply World.init =
      some (.ok "gAAAAA", ⟨[⟨"gAAAAA", b, 0⟩], [], []⟩) := by
    rw [pack, hb]
    rfl
  have h := open_pack sampleRegistration idleReply idleReply _ _ _ _ trivial hpack .refl
  refine ⟨_, hpack, h.1 (fun _ _ _ => rfl), h.2.1 .code (by decide), h.2.2 "invented" .code ?_⟩
  intro s hs
  rw [List.mem_singleton.mp hs]
  exact (by decide : "gAAAAA".toList ≠ "invented".toList)

end CimdProxy
