import CimdProxy.Conduct
import CimdProxy.PatService

/-! # How the token service behaves

The local specifications of `PatService`: `sat_exchange` says what an exchange has checked before it
asks for a grant, `sat_createFlow` what a creation has established before it inserts a row, and
`sat_listFlow` and `sat_revokeFlow` on whose behalf rows are listed and revoked. -/

namespace CimdProxy.PatService

open Py Effects

variable [Platform] (svc : PatService)

section Rules

variable {α : Type} {Q : Trace proxyOps → Op → Prop} {t : Trace proxyOps}

omit [Platform] in
theorem sat_statement_bind {β : Type} {R : Trace proxyOps → Except Exc β → Prop} {x : Except Str α}
    {f : α → Run β} (hok : ∀ a, x = .ok a → (f a).Sat Q R t)
    (herr : ∀ msg, R t (.error (.database msg))) : ((statement x).bind f).Sat Q R t := by
  cases x with
  | error msg => exact herr msg
  | ok a => exact hok a rfl

/-- The grant request signed at the second `now`. -/
def grantFor (e : ResourceEntry) (subject : Str) (scopes : List Str) (tenant : Str) (now : ℤ)
    (jti : Uuid) : HttpRequest :=
  svc.keycloak.grantRequest e.patClientId e.patClientSecret
    (svc.pat.signer.assertion subject e.issuer maxAssertionLifetime now jti) (scopeParam scopes tenant)

theorem isGrant_grantFor (e : ResourceEntry) (subject : Str) (scopes : List Str) (tenant : Str)
    (now : ℤ) (jti : Uuid) : (svc.grantFor e subject scopes tenant now jti).isGrant = true := rfl

/-- Signing reads the clock and an identifier; then the request goes out. -/
theorem sat_requestGrant {e : ResourceEntry} {subject : Str} {scopes : List Str} {tenant : Str}
    (htime : Q t .time) (huuid : ∀ at_, Q (did .time at_ :: t) .uuid4)
    (hhttp : ∀ (at_ : Seconds) (jti : Uuid), Q (did .uuid4 jti :: did .time at_ :: t)
      (.http (svc.grantFor e subject scopes tenant at_.whole jti))) :
    (svc.requestGrant e subject scopes tenant).Sat Q (fun t' x =>
      ∃ (at_ : Seconds) (jti : Uuid) (r : HttpOutcome),
        t' = did (.http (svc.grantFor e subject scopes tenant at_.whole jti)) r ::
          did .uuid4 jti :: did .time at_ :: t ∧ ∀ s b, x = .ok (s, b) → r = .response s b) t := by
  unfold requestGrant AssertionSigner.sign
  rw [if_neg (by decide)]
  refine ⟨htime, fun at_ => ⟨huuid at_, fun jti => ?_⟩⟩
  refine (sat_send (hhttp at_ jti)).mono (fun _ _ h => h) ?_
  rintro t' x ⟨r, rfl, hr, -⟩
  exact ⟨at_, jti, r, rfl, hr⟩

end Rules

/-! ### The exchange -/

/-- What an exchange has checked when it asks for a grant, and what it asks for. -/
def Grants (p : ExchangeParams) (t : Trace proxyOps) (r : HttpRequest) : Prop :=
  ∃ (token : Str) (hash : Bytes) (record : PatRecord) (now : Datetime) (e : ResourceEntry)
    (at_ : Seconds) (jti : Uuid),
    checkExchange p = .ok token ∧ tokenHash token = .ok hash ∧ svc.checkRecord record now = .ok () ∧
    svc.resolveResource record p.resource = .ok e ∧
    t = [did .uuid4 jti, did .time at_, did .utcnow now,
      did (.findByHash hash) (.ok (some record))] ∧
    r = svc.grantFor e record.ownerSub record.scopes record.tenant at_.whole jti

/-- The calls of an exchange up to the answer to its grant. -/
def grantTrace (hash : Bytes) (record : PatRecord) (now : Datetime) (at_ : Seconds) (jti : Uuid)
    (r : HttpRequest) (reply : HttpOutcome) : Trace proxyOps :=
  [did (.http r) reply, did .uuid4 jti, did .time at_, did .utcnow now,
    did (.findByHash hash) (.ok (some record))]

def ExchangeActs (p : ExchangeParams) (t : Trace proxyOps) : Op → Prop
  | .findByHash hash => t = [] ∧ ∃ token, checkExchange p = .ok token ∧ tokenHash token = .ok hash
  | .utcnow => True
  | .time => True
  | .uuid4 => True
  | .http r => svc.Grants p t r
  | .touch id usedAt => ∃ hash record at_ jti r body, id = record.id ∧
      t = grantTrace hash record usedAt at_ jti r (.response 200 body)
  | _ => False

theorem ExchangeActs.not_seal {p : ExchangeParams} {t : Trace proxyOps} {o : Op}
    (h : svc.ExchangeActs p t o) : o.isSeal = false := by
  cases o with
  | fernetEncrypt blob => exact absurd h id
  | _ => rfl

/-- The lookups of a trace found this row or nothing. -/
def FoundOnly (t : Trace proxyOps) (record : PatRecord) : Prop :=
  ∀ hash found, did (.findByHash hash) (.ok (some found)) ∈ t → found = record

omit [Platform] in
theorem FoundOnly.cons {t : Trace proxyOps} {record : PatRecord} (h : FoundOnly t record) {o : Op}
    (ho : o.isLookup = false) (r : Reply o) : FoundOnly (did o r :: t) record := by
  intro hash found hm
  rcases List.mem_cons.mp hm with he | hm
  · cases he
    cases ho
  · exact h hash found hm

/-- How an exchange ends: a revoked row is refused, and a success was granted and recorded. -/
structure ExchangeConcludes (t : Trace proxyOps) (x : Except Exc Dict) : Prop where
  refuses : ∀ hash record, did (.findByHash hash) (.ok (some record)) ∈ t →
    record.revokedAt.isSome = true →
    x = .error (invalidGrant "the personal access token is revoked")
  succeeds : ∀ d, x = .ok d → ∃ hash record now at_ jti r payload v,
    r.isGrant = true ∧ v.val = .obj payload ∧ d = exchangedPayload payload ∧
    t = did (.touch record.id now) (.ok ()) ::
      grantTrace hash record now at_ jti r (.response 200 (.value v))

omit [Platform] in
theorem FoundOnly.concludes {t : Trace proxyOps} {record : PatRecord} (h : FoundOnly t record)
    (hr : record.revokedAt.isSome = false) (e : Exc) : ExchangeConcludes t (.error e) := by
  refine ⟨fun hash found hm hrev => ?_, fun d h => nomatch h⟩
  rw [h hash found hm, hr] at hrev
  cases hrev

omit [Platform] in
theorem ExchangeConcludes.nil (e : Exc) : ExchangeConcludes [] (.error e) :=
  ⟨(fun _ _ h => nomatch h), fun _ h => nomatch h⟩

omit [Platform] in
theorem jsonObject_eq_ok {body : BodyJson} {d : Dict} (h : jsonObject body = .ok d) :
    ∃ v : JsonValue, body = .value v ∧ v.val = .obj d := by
  unfold jsonObject at h
  split at h
  · next d' hwf =>
      obtain rfl := Except.ok.inj h
      exact ⟨_, rfl, rfl⟩
  · cases h
  · cases h

theorem checkRecord_eq_ok {record : PatRecord} {now : Datetime}
    (h : svc.checkRecord record now = .ok ()) :
    record.revokedAt.isSome = false ∧ now < record.expiresAt ∧
      record.realmIssuer = svc.pat.realmIssuer ∧ record.tenant ≠ [] := by
  unfold checkRecord at h
  split_ifs at h with h1 h2 h3 h4
  exact ⟨by simpa using h1, not_le.mp h2, not_ne_iff.mp h3, by simpa using h4⟩

/-- **The specification of the exchange.** -/
theorem sat_exchange (p : ExchangeParams) :
    (svc.exchange p).Sat (svc.ExchangeActs p) ExchangeConcludes [] := by
  refine Prog.Sat.lift_bind (fun token htoken => ?_) (fun e _ => .nil e)
  refine Prog.Sat.lift_bind (fun hash hhash => ?_) (fun e _ => .nil e)
  refine sat_ask_bind ⟨rfl, token, htoken, hhash⟩ (fun r => ?_)
  have nothing : (∀ record, r ≠ .ok (some record)) →
      ∀ e : Exc, ExchangeConcludes [did (.findByHash hash) r] (.error e) := by
    refine fun hr e => ⟨fun hash' record' hm => ?_, fun d h => nomatch h⟩
    cases List.mem_singleton.mp hm
    exact absurd rfl (hr record')
  rcases r with msg | _ | record
  · exact nothing (fun _ h => nomatch h) _
  · exact nothing (fun _ h => nomatch h) _
  have h₀ : FoundOnly [did (.findByHash hash) (.ok (some record))] record := by
    intro hash' record' hm
    cases List.mem_singleton.mp hm
    rfl
  refine sat_ask_bind trivial (fun now => ?_)
  have h₁ := h₀.cons (o := .utcnow) rfl now
  refine Prog.Sat.lift_bind (fun u hrec => ?_) (fun e he => ?_)
  · have hlive := (svc.checkRecord_eq_ok hrec).1
    refine Prog.Sat.lift_bind (fun e hres => ?_) (fun e _ => h₁.concludes hlive _)
    refine Prog.Sat.bind (svc.sat_requestGrant trivial (fun _ => trivial) (fun at_ jti =>
      ⟨token, hash, record, now, e, at_, jti, htoken, hhash, hrec, hres, rfl, rfl⟩)) ?_ ?_
    · rintro t ⟨status, body⟩ _ ⟨at_, jti, r, rfl, hr⟩
      obtain rfl := hr status body rfl
      have h₂ := ((h₁.cons (o := .time) rfl at_).cons (o := .uuid4) rfl jti).cons
        (o := .http (svc.grantFor e record.ownerSub record.scopes record.tenant at_.whole jti)) rfl
        (HttpOutcome.response status body)
      refine Prog.Sat.lift_bind (fun payload hpayload => ?_) (fun e _ => h₂.concludes hlive _)
      split
      · exact h₂.concludes hlive _
      · next hs =>
          obtain rfl : status = 200 := not_ne_iff.mp hs
          refine sat_ask_bind ⟨hash, record, at_, jti, _, body, rfl, rfl⟩ (fun r' => ?_)
          have h₃ := h₂.cons (o := .touch record.id now) rfl r'
          cases r' with
          | error msg => exact h₃.concludes hlive _
          | ok u =>
              obtain ⟨v, rfl, hv⟩ := jsonObject_eq_ok hpayload
              refine ⟨fun hash' found hm hrev => ?_, fun d hd => ?_⟩
              · rw [h₃ hash' found hm, hlive] at hrev
                cases hrev
              · exact ⟨hash, record, now, at_, jti, _, payload, v, svc.isGrant_grantFor _ _ _ _ _ _, hv,
                  (Except.ok.inj hd).symm, rfl⟩
    · rintro t err _ ⟨at_, jti, r, rfl, -⟩
      have h₂ := ((h₁.cons (o := .time) rfl at_).cons (o := .uuid4) rfl jti).cons
        (o := .http (svc.grantFor e record.ownerSub record.scopes record.tenant at_.whole jti)) rfl r
      exact h₂.concludes hlive _
  · refine ⟨fun hash' record' hm hrev => ?_, fun d h => nomatch h⟩
    obtain rfl := h₁ hash' record' hm
    unfold checkRecord at he
    rw [if_pos hrev] at he
    rw [Except.error.inj he]

/-- The touch is the last thing an exchange does, and one that is recorded makes it a success. -/
theorem sat_exchange_touch (p : ExchangeParams) :
    (svc.exchange p).Sat (fun t _ => Free Op.isTouch t) (fun t x =>
      ∀ id usedAt, did (.touch id usedAt) (.ok ()) ∈ t → ∃ d, x = .ok d) [] := by
  have early : ∀ {t : Trace proxyOps}, Free Op.isTouch t → ∀ (e : Exc) (id : Uuid) (usedAt : Datetime),
      did (.touch id usedAt) (.ok ()) ∈ t → ∃ d : Dict, (.error e : Except Exc Dict) = .ok d :=
    fun ht e id usedAt hm => absurd hm (ht.not_mem _ rfl)
  refine Prog.Sat.lift_bind (fun token _ => ?_) (fun e _ => early .nil e)
  refine Prog.Sat.lift_bind (fun hash _ => ?_) (fun e _ => early .nil e)
  refine sat_ask_bind .nil (fun r => ?_)
  have h₁ : Free Op.isTouch [did (.findByHash hash) r] := Free.nil.cons rfl _
  rcases r with msg | _ | record
  · exact early h₁ _
  · exact early h₁ _
  refine sat_ask_bind h₁ (fun now => ?_)
  have h₂ := h₁.cons (o := .utcnow) rfl now
  refine Prog.Sat.lift_bind (fun _ _ => ?_) (fun e _ => early h₂ e)
  refine Prog.Sat.lift_bind (fun e _ => ?_) (fun e _ => early h₂ e)
  refine Prog.Sat.bind (svc.sat_requestGrant h₂ (fun at_ => h₂.cons (o := .time) rfl at_)
    (fun at_ jti => (h₂.cons (o := .time) rfl at_).cons (o := .uuid4) rfl jti)) ?_ ?_
  · rintro t ⟨status, body⟩ _ ⟨at_, jti, r, rfl, -⟩
    have h₃ := ((h₂.cons (o := .time) rfl at_).cons (o := .uuid4) rfl jti).cons
      (o := .http (svc.grantFor e record.ownerSub record.scopes record.tenant at_.whole jti)) rfl r
    refine Prog.Sat.lift_bind (fun payload _ => ?_) (fun e _ => early h₃ e)
    split
    · exact early h₃ _
    · refine sat_ask_bind h₃ (fun r' => ?_)
      cases r' with
      | ok u => exact fun _ _ _ => ⟨_, rfl⟩
      | error msg =>
          intro id usedAt hm
          rcases List.mem_cons.mp hm with he | hm
          · cases he
          · exact early h₃ (.database msg) id usedAt hm
  · rintro t err _ ⟨at_, jti, r, rfl, -⟩
    exact early (((h₂.cons (o := .time) rfl at_).cons (o := .uuid4) rfl jti).cons
      (o := .http (svc.grantFor e record.ownerSub record.scopes record.tenant at_.whole jti)) rfl r) err

/-- What an `Authorization` header presents. -/
def credentialOf (authorization : Option Str) : Str := strip (partition ' ' (authorization.getD [])).2.2

/-- The upstream vouched for this caller, who presented no personal access token. -/
def Authenticated (authorization : Option Str) (t : Trace proxyOps) (caller : Caller) : Prop :=
  isWellFormed (credentialOf authorization) = .ok false ∧ ∃ v : JsonValue,
    did (.http (svc.keycloak.introspectRequest (credentialOf authorization)))
      (HttpOutcome.response 200 (.value v)) ∈ t ∧ svc.readClaims v.val = .ok caller

theorem Authenticated.mono {authorization : Option Str} {t t' : Trace proxyOps} {caller : Caller}
    (h : svc.Authenticated authorization t caller) (ht : t <:+ t') :
    svc.Authenticated authorization t' caller := by
  obtain ⟨hw, v, hm, hv⟩ := h
  exact ⟨hw, v, ht.subset hm, hv⟩

theorem readClaims_failure {claims : Json} {e : Exc} (h : svc.readClaims claims = .error e) :
    e.IsFailure := by
  have h401 : 400 ≤ 401 := by decide
  unfold readClaims at h
  split at h
  · split at h
    · rw [← Except.error.inj h]
      exact h401
    split at h
    · split at h
      · rw [← Except.error.inj h]
        exact h401
      split at h
      · rw [← Except.error.inj h]
        exact h401
      split at h
      · rw [← Except.error.inj h]
        exact (by decide : 400 ≤ 403)
      split at h
      · cases h
      · rw [← Except.error.inj h]
        trivial
    · rw [← Except.error.inj h]
      trivial
  · rw [← Except.error.inj h]
    trivial

theorem sat_authenticate {Q : Trace proxyOps → Op → Prop} {t : Trace proxyOps}
    (authorization : Option Str) (hq : ∀ t req, req.isGrant = false → Q t (.http req)) :
    (svc.authenticate authorization).Sat Q (fun t' x =>
      (∃ caller, x = .ok caller ∧ svc.Authenticated authorization t' caller) ∨
      ∃ e, x = .error e ∧ e.IsFailure) t := by
  have failed : ∀ {α : Type} {P : Prop} {e : Exc}, e.IsFailure →
      P ∨ ∃ e', (.error e : Except Exc α) = .error e' ∧ e'.IsFailure := fun h => .inr ⟨_, rfl, h⟩
  unfold authenticate
  dsimp only
  split
  · exact failed (show 400 ≤ 401 by decide)
  · refine Prog.Sat.lift_bind (fun wellFormed hw => ?_) (fun e he => failed (isWellFormed_failure he))
    cases wellFormed with
    | true => exact failed (show 400 ≤ 403 by decide)
    | false =>
        refine Prog.Sat.bind (svc.keycloak.sat_introspect (hq _ _ rfl)) ?_ ?_
        · intro t' claims _ hc
          rw [Prog.sat_lift]
          obtain ⟨v, rfl, hm⟩ := hc.1 claims rfl
          cases hr : svc.readClaims v.val with
          | error e => exact failed (svc.readClaims_failure hr)
          | ok caller => exact .inl ⟨caller, rfl, hw, v, hm, hr⟩
        · exact fun t' e _ he => failed (he.2 e rfl)

/-- How an operation of a caller ends: the caller was authenticated, or it failed. -/
def Manages {α : Type} (authorization : Option Str) (t : Trace proxyOps) (x : Except Exc α) : Prop :=
  (∃ caller, svc.Authenticated authorization t caller) ∨ ∃ e, x = .error e ∧ e.IsFailure

/-- The rest of an operation, after the caller was authenticated. -/
theorem sat_manages {α : Type} {Q : Trace proxyOps → Op → Prop} {authorization : Option Str}
    {t : Trace proxyOps} {caller : Caller} {p : Run α} (h : svc.Authenticated authorization t caller)
    (hp : p.Sat Q (fun _ _ => True) t) : p.Sat Q (svc.Manages authorization) t :=
  hp.suffix.mono (fun _ _ h => h) (fun _ _ hx => .inl ⟨caller, h.mono svc hx.1⟩)

theorem manages_of_failed {α : Type} {authorization : Option Str} {t : Trace proxyOps} {e : Exc}
    (h : (∃ caller, (.error e : Except Exc Caller) = .ok caller ∧
        svc.Authenticated authorization t caller) ∨
      ∃ e', (.error e : Except Exc Caller) = .error e' ∧ e'.IsFailure) :
    svc.Manages authorization t (.error e : Except Exc α) := by
  rcases h with ⟨caller, h, -⟩ | ⟨e', h, hf⟩
  · cases h
  · rw [Except.error.inj h]
    exact .inr ⟨e', rfl, hf⟩

/-! ### Trial exchanges -/

/-- Whether a call asks for a JWT Authorization Grant. -/
def isGrantCall : Call proxyOps → Bool
  | ⟨.http req, _⟩ => req.isGrant
  | _ => false

/-- The number of grants asked for. -/
def grantCalls (t : Trace proxyOps) : ℕ := t.countP isGrantCall

omit [Platform] in
theorem grantCalls_cons (c : Call proxyOps) (t : Trace proxyOps) :
    grantCalls (c :: t) = grantCalls t + if isGrantCall c then 1 else 0 := List.countP_cons

omit [Platform] in
/-- A part that asks for no grant leaves their number as it is. -/
theorem sat_grantless {α : Type} {Q : Trace proxyOps → Op → Prop} {t : Trace proxyOps} {p : Run α}
    {P : Trace proxyOps → Except Exc α → Prop}
    (hp : p.Sat (fun _ (o : Op) => ∃ req : HttpRequest, o = .http req ∧ req.isGrant = false) P t)
    (hq : ∀ t req, Q t (.http req)) :
    p.Sat Q (fun t' x => grantCalls t' = grantCalls t ∧ P t' x) t := by
  refine (hp.invariant (I := fun t' => grantCalls t' = grantCalls t) rfl ?_).mono ?_ (fun t x h => h)
  · rintro t' _ r hI ⟨req, rfl, hreq⟩
    rw [grantCalls_cons, hI, show isGrantCall (did (.http req) r) = false from hreq]
    rfl
  · rintro t' _ ⟨-, req, rfl, -⟩
    exact hq t' req

/-- A trial exchange at an entry, with these scopes, was answered with 200. -/
def TriedAt (caller : Caller) (tenant : Str) (t : Trace proxyOps) (scopes : List Str)
    (e : ResourceEntry) : Prop :=
  ∃ (at_ : Seconds) (jti : Uuid) (body : BodyJson),
    did (.http (svc.grantFor e caller.subject scopes tenant at_.whole jti))
      (HttpOutcome.response 200 body) ∈ t

/-- A trial exchange at the entry a url leads to. -/
def Tried (caller : Caller) (tenant : Str) (t : Trace proxyOps) (scopes : List Str) (url : Str) :
    Prop :=
  ∃ e, svc.entry url = .ok e ∧ svc.TriedAt caller tenant t scopes e

theorem TriedAt.mono {caller : Caller} {tenant : Str} {t t' : Trace proxyOps} {scopes : List Str}
    {e : ResourceEntry} (h : svc.TriedAt caller tenant t scopes e) (ht : t <:+ t') :
    svc.TriedAt caller tenant t' scopes e := by
  obtain ⟨at_, jti, body, hm⟩ := h
  exact ⟨at_, jti, body, ht.subset hm⟩

/-! ### Creation -/

/-- What a creation has established when it inserts a row. -/
structure Inserts (authorization : Option Str) (body : Option Json) (t : Trace proxyOps) (record : PatRecord) (hash : Bytes)
    (caller : Caller) (request : CreateRequest) (raw : Bytes) (token : Str) : Prop where
  vouched : svc.Authenticated authorization t caller
  parsed : svc.parseCreate body = .ok request
  tenant : tenantFor caller request.organization = .ok record.tenant
  realm : record.realmIssuer = svc.pat.realmIssuer
  owner : record.ownerSub = caller.subject
  resources : record.resources = request.resources
  scopes : ∀ s ∈ record.scopes, s ∈ svc.pat.scopes
  tried : ∀ url ∈ record.resources, ∃ scopes, svc.Tried caller record.tenant t scopes url ∧
    (request.allPermittedScopes = false → scopes = record.scopes)
  trials : grantCalls t = record.resources.length
  clock : did .utcnow record.createdAt ∈ t
  expires : plusDays record.createdAt request.lifetimeDays = .ok record.expiresAt
  fresh : record.lastUsedAt = none ∧ record.revokedAt = none
  random : ∃ h, did (.tokenBytes randomBytes) ⟨raw, h⟩ ∈ t
  generated : tokenFrom raw = .ok token
  hashed : tokenHash token = .ok hash

def CreateActs (authorization : Option Str) (body : Option Json) (t : Trace proxyOps) : Op → Prop
  | .http _ => True
  | .time => True
  | .uuid4 => True
  | .utcnow => True
  | .tokenBytes _ => True
  | .insert record hash => ∃ caller request raw token,
      svc.Inserts authorization body t record hash caller request raw token
  | _ => False

theorem CreateActs.not_seal {authorization : Option Str} {body : Option Json} {t : Trace proxyOps}
    {o : Op} (h : svc.CreateActs authorization body t o) : o.isSeal = false := by
  cases o with
  | fernetEncrypt blob => exact absurd h id
  | _ => rfl

section Trials

variable {Q : Trace proxyOps → Op → Prop} (hhttp : ∀ t req, Q t (.http req))
  (htime : ∀ t, Q t .time) (huuid : ∀ t, Q t .uuid4)

include hhttp htime huuid

theorem sat_trialExchange {t : Trace proxyOps} (caller : Caller) (e : ResourceEntry)
    (scopes : List Str) (tenant : Str) :
    (svc.trialExchange caller e scopes tenant).Sat Q (fun t' x => ∀ granted, x = .ok granted →
      grantCalls t' = grantCalls t + 1 ∧ svc.TriedAt caller tenant t' scopes e) t := by
  refine Prog.Sat.bind (svc.sat_requestGrant (htime _) (fun _ => huuid _) (fun _ _ => hhttp _ _)) ?_
    (fun _ _ _ _ _ h => nomatch h)
  rintro t' ⟨status, body⟩ _ ⟨at_, jti, r, rfl, hr⟩
  obtain rfl := hr status body rfl
  rw [Prog.sat_lift]
  intro granted h
  have hs : status = 200 := by
    unfold grantedScopes at h
    obtain ⟨payload, -, h⟩ := bind_eq_ok.mp h
    by_contra hs
    rw [if_pos hs] at h
    cases h
  refine ⟨?_, at_, jti, body, ?_⟩
  · rw [grantCalls_cons, grantCalls_cons, grantCalls_cons,
      show isGrantCall (did (.http (svc.grantFor e caller.subject scopes tenant at_.whole jti))
        (HttpOutcome.response status body)) = true from svc.isGrant_grantFor _ _ _ _ _ _]
    rfl
  · rw [hs]
    exact List.mem_cons_self

theorem sat_trialNamed (caller : Caller) (scopes : List Str) (tenant : Str) (urls : List Str)
    (t : Trace proxyOps) :
    (svc.trialNamed caller scopes tenant urls).Sat Q (fun t' x => x = .ok () →
      grantCalls t' = grantCalls t + urls.length ∧
      ∀ url ∈ urls, svc.Tried caller tenant t' scopes url) t := by
  induction urls generalizing t with
  | nil => exact fun _ => ⟨rfl, fun _ h => nomatch h⟩
  | cons url urls ih =>
      refine Prog.Sat.lift_bind (fun e he => ?_) (fun _ _ h => nomatch h)
      refine Prog.Sat.bind (svc.sat_trialExchange hhttp htime huuid caller e scopes tenant) ?_
        (fun _ _ _ _ h => nomatch h)
      intro t₁ granted _ hg
      obtain ⟨hn, htried⟩ := hg granted rfl
      dsimp only
      split
      · exact fun h => nomatch h
      · refine (ih t₁).suffix.mono (fun _ _ h => h) ?_
        rintro t₂ x ⟨ht, h⟩ hx
        obtain ⟨hm, hrest⟩ := h hx
        refine ⟨by rw [hm, hn, List.length_cons]; omega, ?_⟩
        intro u hu
        rcases List.mem_cons.mp hu with rfl | hu
        · exact ⟨e, he, htried.mono svc ht⟩
        · exact hrest u hu

theorem sat_trialPermitted (caller : Caller) (tenant : Str) (urls permitted : List Str)
    (t : Trace proxyOps) :
    (svc.trialPermitted caller tenant permitted urls).Sat Q
      (fun t' x => ∀ scopes, x = .ok scopes → (∀ s ∈ scopes, s ∈ permitted) ∧
        grantCalls t' = grantCalls t + urls.length ∧
        ∀ url ∈ urls, ∃ tried, svc.Tried caller tenant t' tried url) t := by
  induction urls generalizing permitted t with
  | nil =>
      intro scopes h
      rw [← Except.ok.inj h]
      exact ⟨fun s hs => hs, rfl, fun _ h => nomatch h⟩
  | cons url urls ih =>
      refine Prog.Sat.lift_bind (fun e he => ?_) (fun _ _ _ h => nomatch h)
      refine Prog.Sat.bind (svc.sat_trialExchange hhttp htime huuid caller e permitted tenant) ?_
        (fun _ _ _ _ _ h => nomatch h)
      intro t₁ granted _ hg
      obtain ⟨hn, htried⟩ := hg granted rfl
      refine (ih (permitted.filter (fun s => granted.contains s)) t₁).suffix.mono (fun _ _ h => h) ?_
      rintro t₂ x ⟨ht, h⟩ scopes hx
      obtain ⟨hsub, hm, hrest⟩ := h scopes hx
      refine ⟨fun s hs => List.mem_of_mem_filter (hsub s hs), ?_, ?_⟩
      · rw [hm, hn, List.length_cons]
        omega
      · intro u hu
        rcases List.mem_cons.mp hu with rfl | hu
        · exact ⟨permitted, e, he, htried.mono svc ht⟩
        · exact hrest u hu

/-- The scopes of a new token are offered ones, and each of its resources was tried once. -/
theorem sat_grantedSet {t : Trace proxyOps} (caller : Caller) (request : CreateRequest) (tenant : Str)
    (hreq : ∀ s ∈ request.scopes, s ∈ svc.pat.scopes) :
    (svc.grantedSet caller request tenant).Sat Q
      (fun t' x => ∀ scopes, x = .ok scopes → (∀ s ∈ scopes, s ∈ svc.pat.scopes) ∧
        grantCalls t' = grantCalls t + request.resources.length ∧
        ∀ url ∈ request.resources, ∃ tried, svc.Tried caller tenant t' tried url ∧
          (request.allPermittedScopes = false → tried = scopes)) t := by
  unfold grantedSet
  split
  · next hall =>
      refine Prog.Sat.bind (svc.sat_trialPermitted hhttp htime huuid caller tenant _ _ t) ?_
        (fun _ _ _ _ _ h => nomatch h)
      intro t permitted _ hp
      split
      · exact fun _ h => nomatch h
      · intro scopes h
        obtain ⟨hsub, hn, htried⟩ := hp permitted rfl
        rw [← Except.ok.inj h]
        refine ⟨hsub, hn, fun url hu => ?_⟩
        obtain ⟨tried, ht⟩ := htried url hu
        exact ⟨tried, ht, fun hf => nomatch hall.symm.trans hf⟩
  · refine Prog.Sat.bind (svc.sat_trialNamed hhttp htime huuid caller _ tenant _ t) ?_
      (fun _ _ _ _ _ h => nomatch h)
    intro t u _ hp scopes h
    obtain ⟨hn, htried⟩ := hp rfl
    rw [← Except.ok.inj h]
    exact ⟨hreq, hn, fun url hu => ⟨_, htried url hu, fun _ => rfl⟩⟩

end Trials

/-- The request is what the parts of the body were read as; `listed` are the resources it names. -/
structure ReadFrom (d : Dict) (listed : List Str) (request : CreateRequest) : Prop where
  name : tokenName d = .ok request.name
  names : stringList (Dict.get? d "resources") "resources" = .ok listed
  nonempty : listed ≠ []
  resources : svc.checkResources listed = .ok request.resources
  scopes : svc.readScopes d = .ok (request.scopes, request.allPermittedScopes)
  days : lifetime d = .ok (request.lifetimeDays, request.allowLongLifetime)
  organization : readOrganization d = .ok request.organization

theorem parseCreate_eq_ok {body : Option Json} {request : CreateRequest}
    (h : svc.parseCreate body = .ok request) :
    ∃ d listed, body = some (.obj d) ∧ svc.ReadFrom d listed request := by
  unfold parseCreate at h
  split at h
  · next d =>
      obtain ⟨name, hname, h⟩ := bind_eq_ok.mp h
      obtain ⟨listed, hlisted, h⟩ := bind_eq_ok.mp h
      split_ifs at h with hne
      obtain ⟨urls, hurls, h⟩ := bind_eq_ok.mp h
      obtain ⟨⟨scopes, allPermitted⟩, hscopes, h⟩ := bind_eq_ok.mp h
      obtain ⟨⟨days, longOk⟩, hdays, h⟩ := bind_eq_ok.mp h
      obtain ⟨organization, horganization, h⟩ := bind_eq_ok.mp h
      rw [← Except.ok.inj h]
      exact ⟨d, listed, rfl, hname, hlisted, by simpa using hne, hurls, hscopes, hdays, horganization⟩
  · cases h

theorem offered_of_readScopes {d : Dict} {scopes : List Str} {allPermitted : Bool}
    (h : svc.readScopes d = .ok (scopes, allPermitted)) : ∀ s ∈ scopes, s ∈ svc.pat.scopes := by
  unfold readScopes at h
  obtain ⟨named, -, h⟩ := bind_eq_ok.mp h
  dsimp only at h
  split_ifs at h with hout
  split at h
  · split_ifs at h
    obtain ⟨rfl, -⟩ := Prod.mk.inj (Except.ok.inj h)
    intro s hm
    by_contra hc
    have : s ∈ named.filter (fun s => !svc.pat.scopes.contains s) := by
      simpa [List.mem_filter] using ⟨hm, hc⟩
    simp only [Bool.not_eq_true', Bool.not_eq_false, List.isEmpty_iff] at hout
    rw [hout] at this
    cases this
  · cases h

theorem parseCreate_scopes {body : Option Json} {request : CreateRequest}
    (h : svc.parseCreate body = .ok request) : ∀ s ∈ request.scopes, s ∈ svc.pat.scopes := by
  obtain ⟨d, listed, -, hread⟩ := svc.parseCreate_eq_ok h
  exact svc.offered_of_readScopes hread.scopes

/-- **The specification of a creation.** -/
theorem sat_createFlow (authorization : Option Str) (body : Option Json) :
    (svc.createFlow authorization body).Sat (svc.CreateActs authorization body)
      (svc.Manages authorization) [] := by
  have hhttp : ∀ t req, svc.CreateActs authorization body t (.http req) := fun _ _ => trivial
  refine Prog.Sat.bind (sat_grantless (svc.sat_authenticate authorization
    (fun _ req h => ⟨req, rfl, h⟩)) hhttp) ?_ ?_
  rotate_left
  · exact fun t e _ h => svc.manages_of_failed h.2
  rintro t caller _ ⟨hn, ⟨_, heq, hvouched⟩ | ⟨e, h, -⟩⟩
  rotate_left
  · cases h
  obtain rfl := Except.ok.inj heq
  refine svc.sat_manages hvouched ?_
  refine Prog.Sat.lift_bind (fun request hparsed => ?_) (fun _ _ => trivial)
  refine Prog.Sat.lift_bind (fun tenant htenant => ?_) (fun _ _ => trivial)
  refine Prog.Sat.bind (P := fun t' _ => grantCalls t' = 0) ?_ ?_ (fun _ _ _ _ => trivial)
  · refine Prog.Sat.attempt_bind (sat_grantless (svc.keycloak.sat_ensureLink caller
      (fun _ req h => ⟨req, rfl, h⟩)) hhttp) ?_
    rintro t' x ht ⟨hn', -⟩
    split <;> exact hn'.trans hn
  intro t₁ _ ht₁ hn₁
  refine Prog.Sat.bind (svc.sat_grantedSet hhttp (fun _ => trivial) (fun _ => trivial) caller request
    tenant (svc.parseCreate_scopes hparsed)) ?_ (fun _ _ _ _ => trivial)
  intro t₂ scopes ht₂ hgranted
  obtain ⟨hscopes, hcount, htried⟩ := hgranted scopes rfl
  refine sat_ask_bind trivial (fun now => ?_)
  refine sat_ask_bind trivial (fun id => ?_)
  refine Prog.Sat.lift_bind (fun expiresAt hexp => ?_) (fun _ _ => trivial)
  refine Prog.Sat.bind (P := fun t' x => ∀ token, x = .ok token → ∃ raw : Reply (.tokenBytes randomBytes),
    t' = did (.tokenBytes randomBytes) raw :: did .uuid4 id :: did .utcnow now :: t₂ ∧
      tokenFrom raw.val = .ok token) ?_ ?_ (fun _ _ _ _ => trivial)
  · refine sat_ask_bind trivial (fun raw => ?_)
    rw [Prog.sat_lift]
    exact fun token h => ⟨raw, rfl, h⟩
  · intro t₃ token _ htoken
    obtain ⟨raw, rfl, hraw⟩ := htoken token rfl
    have hsuf₂ : t₂ <:+ did (.tokenBytes randomBytes) raw :: did .uuid4 id :: did .utcnow now :: t₂ :=
      ((List.suffix_cons _ _).trans (List.suffix_cons _ _)).trans (List.suffix_cons _ _)
    have hsuf := (ht₁.trans ht₂).trans hsuf₂
    refine Prog.Sat.lift_bind (fun hash hhash => ?_) (fun _ _ => trivial)
    refine sat_ask_bind ⟨caller, request, raw.val, token, ?_⟩ (fun r => ?_)
    · exact
        { vouched := hvouched.mono svc hsuf
          parsed := hparsed
          tenant := htenant
          realm := rfl
          owner := rfl
          resources := rfl
          scopes := hscopes
          tried := by
            intro url hu
            obtain ⟨tried, ⟨e, he, ht⟩, hsame⟩ := htried url hu
            exact ⟨tried, ⟨e, he, ht.mono svc hsuf₂⟩, hsame⟩
          trials := by
            rw [grantCalls_cons, grantCalls_cons, grantCalls_cons, hcount, hn₁]
            exact Nat.zero_add _
          clock := by simp
          expires := hexp
          fresh := ⟨rfl, rfl⟩
          random := ⟨raw.property, List.mem_cons_self⟩
          generated := hraw
          hashed := hhash }
    · exact sat_statement_bind (fun _ _ => trivial) (fun _ => trivial)

def ListActs (authorization : Option Str) (t : Trace proxyOps) : Op → Prop
  | .http _ => True
  | .listForOwner realm owner => realm = svc.pat.realmIssuer ∧
      ∃ caller, svc.Authenticated authorization t caller ∧ owner = caller.subject
  | _ => False

def RevokeActs (authorization : Option Str) (t : Trace proxyOps) : Op → Prop
  | .http _ => True
  | .revoke realm owner _ => realm = svc.pat.realmIssuer ∧
      ∃ caller, svc.Authenticated authorization t caller ∧ owner = caller.subject
  | _ => False

theorem ListActs.not_seal {authorization : Option Str} {t : Trace proxyOps} {o : Op}
    (h : svc.ListActs authorization t o) : o.isSeal = false := by
  cases o with
  | fernetEncrypt blob => exact absurd h id
  | _ => rfl

theorem RevokeActs.not_seal {authorization : Option Str} {t : Trace proxyOps} {o : Op}
    (h : svc.RevokeActs authorization t o) : o.isSeal = false := by
  cases o with
  | fernetEncrypt blob => exact absurd h id
  | _ => rfl

theorem sat_listFlow (authorization : Option Str) :
    (svc.listFlow authorization).Sat (svc.ListActs authorization) (svc.Manages authorization) [] := by
  refine Prog.Sat.bind (svc.sat_authenticate authorization (fun _ _ _ => trivial)) ?_
    (fun _ _ _ h => svc.manages_of_failed h)
  rintro t caller _ (⟨_, heq, hvouched⟩ | ⟨e, h, -⟩)
  · obtain rfl := Except.ok.inj heq
    refine svc.sat_manages hvouched (sat_ask_bind ⟨rfl, caller, hvouched, rfl⟩ (fun r => ?_))
    cases r <;> trivial
  · cases h

theorem sat_revokeFlow (tokenId : Str) (authorization : Option Str) :
    (svc.revokeFlow tokenId authorization).Sat (svc.RevokeActs authorization)
      (svc.Manages authorization) [] := by
  refine Prog.Sat.bind (svc.sat_authenticate authorization (fun _ _ _ => trivial)) ?_
    (fun _ _ _ h => svc.manages_of_failed h)
  rintro t caller _ (⟨_, heq, hvouched⟩ | ⟨e, h, -⟩)
  · obtain rfl := Except.ok.inj heq
    refine svc.sat_manages hvouched ?_
    unfold revoke
    split
    · trivial
    · refine sat_ask_bind ⟨rfl, caller, hvouched, rfl⟩ (fun r => ?_)
      refine sat_statement_bind (fun p _ => ?_) (fun _ => trivial)
      obtain ⟨revoked, at_⟩ := p
      cases revoked <;> trivial
  · cases h

end CimdProxy.PatService
