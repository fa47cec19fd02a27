import CimdProxy.FrontDoor
import CimdProxy.CodeFlow

/-! # Two registration routes, one wire

A client can register its redirect URIs at `/register`, or publish them in a document and use the URL of the
document as its id.  `/register` accepts exactly the lists that the document rules keep whole; and with a
list that both accept, `/authorize` answers a request under either id alike.  `oneWire` states it for every
run of the proxy. -/

namespace CimdProxy

open Py Effects

variable [Platform]

/-! ### Lists of redirect URIs -/

theorem sortUris_of_accepted {uris : List Str} (h : ∀ u ∈ uris, acceptRegistered u = .ok ()) :
    sortUris uris = .ok (uris, []) := by
  induction uris with
  | nil => rfl
  | cons u uris ih =>
      obtain ⟨hu, hrest⟩ := List.forall_mem_cons.mp h
      rw [sortUris, hu, ih hrest]
      rfl

theorem usableRedirectUris_eq_self_iff {uris : List Str} :
    usableRedirectUris uris = .ok uris ↔ uris ≠ [] ∧ ∀ u ∈ uris, acceptRegistered u = .ok () := by
  constructor
  · intro h
    obtain ⟨⟨kept, dropped⟩, hsort, h⟩ := bind_eq_ok.mp h
    dsimp only at h
    split_ifs at h with hempty
    obtain rfl : kept = uris := Except.ok.inj h
    refine ⟨?_, fun u hu => (sortUris_kept hsort u hu).2⟩
    rintro rfl
    exact hempty rfl
  · rintro ⟨hne, hacc⟩
    have hempty : uris.isEmpty = false := by simpa using hne
    unfold usableRedirectUris
    rw [sortUris_of_accepted hacc, ok_bind]
    dsimp only
    rw [hempty]
    rfl

theorem Register.rejectDisallowed_eq_ok_iff {uris : List Str} :
    Register.rejectDisallowed uris = .ok () ↔ ∀ u ∈ uris, acceptRegistered u = .ok () := by
  refine ⟨Register.rejectDisallowed_eq_ok, fun h => ?_⟩
  induction uris with
  | nil => rfl
  | cons u uris ih =>
      obtain ⟨hu, hrest⟩ := List.forall_mem_cons.mp h
      have hfirst := Register.rejectDisallowedRedirect_eq_ok.mpr hu
      rw [Register.rejectDisallowed, hfirst, ok_bind]
      exact ih hrest

omit [Platform] in
theorem Json.nonEmptyStrs_map {uris : List Str} (h : ∀ u ∈ uris, u ≠ []) :
    Json.nonEmptyStrs (uris.map .str) = some uris := by
  induction uris with
  | nil => rfl
  | cons u uris ih =>
      obtain ⟨hu, hrest⟩ := List.forall_mem_cons.mp h
      cases u with
      | nil => exact absurd rfl hu
      | cons c s => rw [List.map_cons, Json.nonEmptyStrs, ih hrest]; rfl

/-! ### `/register` -/

/-- A body that lists these URIs and is valid otherwise. -/
structure Registers (d : Dict) (uris : List Str) : Prop where
  nonEmpty : ∀ u ∈ uris, u ≠ []
  secret : d.has "client_secret" = false
  redirectUris : d.get? "redirect_uris" = some (.arr (uris.map .str))
  method : ∃ method, Register.authMethod d = .ok method
  name : ∃ name, Register.clientName d = .ok name

theorem Registers.rawUris {d : Dict} {uris : List Str} (h : Registers d uris) :
    Register.rawUris d = if uris = [] then
      .error (Register.registrationError "invalid_redirect_uri" "redirect_uris must be a non-empty array")
    else .ok uris := by
  have hstrs := Json.nonEmptyStrs_map h.nonEmpty
  unfold Register.rawUris
  rw [h.redirectUris]
  cases uris with
  | nil => rfl
  | cons u uris =>
      rw [List.map_cons] at hstrs ⊢
      dsimp only
      rw [hstrs]
      rfl

/-- What is read from such a body. -/
theorem Registers.validate {d : Dict} {uris : List Str} (h : Registers d uris) :
    (usableRedirectUris uris = .ok uris →
      ∃ method name, Register.validate d = .ok (uris, method, name)) ∧
    ∀ p, Register.validate d = .ok p → usableRedirectUris uris = .ok uris ∧ p.1 = uris := by
  obtain ⟨method, hmethod⟩ := h.method
  obtain ⟨name, hname⟩ := h.name
  unfold Register.validate
  rw [if_neg (by rw [h.secret]; exact Bool.false_ne_true), h.rawUris]
  constructor
  · intro husable
    obtain ⟨hne, hacc⟩ := usableRedirectUris_eq_self_iff.mp husable
    refine ⟨method, name, ?_⟩
    rw [if_neg hne, ok_bind, Register.rejectDisallowed_eq_ok_iff.mpr hacc, ok_bind, hmethod, hname]
    rfl
  · intro p hp
    split_ifs at hp with hne
    · cases hp
    · rw [ok_bind] at hp
      obtain ⟨_, hacc, hp⟩ := bind_eq_ok.mp hp
      rw [hmethod, hname] at hp
      refine ⟨usableRedirectUris_eq_self_iff.mpr ⟨hne, Register.rejectDisallowed_eq_ok hacc⟩, ?_⟩
      rw [← Except.ok.inj hp]

/-- How `/register` ends: the list is sealed and the text is the client id, or the answer is no 201. -/
def Register.Issued (body : BodyJson) (t : Trace proxyOps) (x : Except Exc Response) : Prop :=
  match Register.readAndValidate body with
  | .ok (uris, _, _) => ∃ (r : RegistrationEnvelope) (blob : Bytes) (tok : FernetToken),
      r.redirectUris = uris ∧ (Envelope.registration r).blob = some blob ∧
      did (.fernetEncrypt blob) tok ∈ t ∧ x = .ok (.json 201 (.obj (Register.issuedBody tok.text r)) [])
  | .error _ => ∀ content, x ≠ .ok (.json 201 content [])

theorem sat_register_issued (v : JsonValue) :
    (Register.register (.value v)).Sat (fun _ _ => True) (Register.Issued (.value v)) [] := by
  have hfail := fails_readAndValidate v
  unfold Register.register Register.Issued
  refine sat_ask_bind trivial fun raw => ?_
  cases hread : Register.readAndValidate (.value v) with
  | error e =>
      rw [hread] at hfail
      cases e with
      | registration error description status =>
          rintro content hx
          rcases hfail with ⟨⟨-, rfl⟩, -⟩ | ⟨he, -⟩
          · cases hx
          · exact absurd he id
      | _ => exact nofun
  | ok p =>
      obtain ⟨uris, method, name⟩ := p
      refine sat_wholeTime_bind trivial fun now => ?_
      obtain ⟨blob, hblob⟩ := blob_registration uris method name now
      refine sat_pack_bind (fun _ _ => trivial) (fun blob tok hb => ?_) (fun msg hb => ?_)
      · exact ⟨_, blob, tok, rfl, hb, List.mem_cons_self, rfl⟩
      · rw [hblob] at hb
        cases hb

/-! ### `/authorize`, given the URIs -/

namespace Authorize

/-- `_validate`, after the look at the client. -/
def judge (cfg : ProxyConfig) (params : AuthorizeParams) (redirectUris : List Str)
    (document : Option CimdDocument) (via : Via) : Except Exc Validated := do
  let (clientId, redirectUri, codeChallenge) ← requirePresent params
  let entry ← pickResource cfg params.resource
  if params.codeChallengeMethod ≠ some "S256".toList then
    .error (invalidRequest ("code_challenge_method must be 'S256', got " ++
      reprOpt params.codeChallengeMethod))
  else do
    let registered ← matchesAny redirectUri redirectUris
    if !registered then .error (notRegistered via)
    else return { clientId, redirectUri, codeChallenge
                  state := params.state.getD []
                  scope := orDefault params.scope cfg.defaultScope
                  resourceEntry := entry, document, via }

/-- A look at the client that finds these URIs when `H` holds of the calls. -/
abbrev Finds (H : Trace proxyOps → Prop) (uris : List Str) (via : Via) (t : Trace proxyOps)
    (x : Except Exc (List Str × Option CimdDocument × Via)) : Prop :=
  H t → ∃ document, x = .ok (uris, document, via)

theorem sat_validate_judge {cfg : ProxyConfig} {params : AuthorizeParams} {clientId : Str}
    {H : Trace proxyOps → Prop} {uris : List Str} {via : Via} {t : Trace proxyOps}
    (hid : params.clientId = some clientId)
    (hclient : (if isCimd clientId then validateCimd cfg clientId else validateDcr clientId).Sat
      (fun _ _ => True) (Finds H uris via) t) :
    (validate cfg params).Sat (fun _ _ => True)
      (fun t' x => H t' → ∃ document, x = judge cfg params uris document via) t := by
  unfold validate judge
  refine Prog.Sat.lift_bind (fun p hp => ?_) (fun e he _ => ⟨none, by rw [he]; rfl⟩)
  obtain ⟨clientId', redirectUri, codeChallenge⟩ := p
  obtain ⟨hid', -⟩ := requirePresent_eq_ok hp
  obtain rfl : clientId' = clientId := Option.some.inj (hid'.symm.trans hid)
  rw [hp]
  simp only [ok_bind]
  refine Prog.Sat.lift_bind (fun entry hentry => ?_) (fun e he _ => ⟨none, by rw [he]; rfl⟩)
  rw [hentry]
  simp only [ok_bind]
  by_cases hmethod : params.codeChallengeMethod = some "S256".toList
  swap
  · simp only [if_pos hmethod]
    exact fun _ => ⟨none, rfl⟩
  simp only [if_neg (not_not_intro hmethod), Prog.bind_eq]
  rw [← Prog.ite_bind]
  refine Prog.Sat.bind hclient ?_ ?_
  · rintro t' ⟨uris', document, via'⟩ - hfinds
    have hparts : H t' → uris' = uris ∧ via' = via := by
      intro hH
      obtain ⟨document', h⟩ := hfinds hH
      obtain ⟨h₁, h⟩ := Prod.mk.inj (Except.ok.inj h)
      exact ⟨h₁, (Prod.mk.inj h).2⟩
    refine Prog.Sat.lift_bind (fun registered hm => ?_) (fun e he hH => ?_)
    · cases registered with
      | false =>
          intro hH
          obtain ⟨rfl, rfl⟩ := hparts hH
          exact ⟨none, by rw [hm]; rfl⟩
      | true =>
          intro hH
          obtain ⟨rfl, rfl⟩ := hparts hH
          exact ⟨document, by rw [hm]; rfl⟩
    · obtain ⟨rfl, rfl⟩ := hparts hH
      exact ⟨none, by rw [he]; rfl⟩
  · rintro t' e - hfinds hH
    obtain ⟨document, h⟩ := hfinds hH
    cases h

/-- The answer to a request that was judged so. -/
def Answers (cfg : ProxyConfig) (t : Trace proxyOps) (x : Except Exc Response) :
    Except Exc Validated → Prop
  | .error (.oauth error description status) => x = .ok (renderAuthorizeError error description status)
  | .error e => x = .error e
  | .ok v => ∃ (cid verifier challenge : Str) (now : ℤ) (blob : Bytes) (tok : FernetToken),
      (Envelope.authorize (v.envelope cid verifier now)).blob = some blob ∧
      did (.fernetEncrypt blob) tok ∈ t ∧ x = .ok (.redirect 302 (v.target cfg challenge tok.text))

/-- `H` only gets harder to meet as calls are made. -/
theorem sat_authorize_judge (cfg : ProxyConfig) (params : AuthorizeParams) {clientId : Str}
    {H : Trace proxyOps → Prop} {uris : List Str} {via : Via}
    (hH : ∀ t t' : Trace proxyOps, t <:+ t' → H t' → H t) (hid : params.clientId = some clientId)
    (hclient : ∀ t, (if isCimd clientId then validateCimd cfg clientId else validateDcr clientId).Sat
      (fun _ _ => True) (Finds H uris via) t) :
    (authorize cfg params).Sat (fun _ _ => True)
      (fun t x => H t → ∃ document, Answers cfg t x (judge cfg params uris document via)) [] := by
  refine sat_ask_bind trivial fun raw => ?_
  refine Prog.Sat.attempt_bind (sat_validate_judge hid (hclient _)) ?_
  rintro t x - hx
  split
  · next error description status =>
      intro ht
      obtain ⟨document, h⟩ := hx ht
      exact ⟨document, by rw [← h]; exact rfl⟩
  · next e hne =>
      intro ht
      obtain ⟨document, h⟩ := hx ht
      refine ⟨document, ?_⟩
      rw [← h]
      cases e with
      | oauth error description status => exact absurd rfl (hne error description status)
      | _ => exact rfl
  · next v =>
      rw [Prog.bind_eq, Prog.sat_bind]
      refine sat_ask_bind trivial fun bytes => ?_
      obtain ⟨challenge, hch⟩ := deriveChallenge_base64Url bytes.val 64
      refine Prog.Sat.lift_bind (fun challenge' _ => ?_) (fun e he => ?_)
      · refine sat_wholeTime_bind trivial fun now => ?_
        refine sat_pack_bind (fun _ _ => trivial) (fun blob tok hb ht => ?_) (fun msg hb => ?_)
        · have hsuf : t <:+ did (.fernetEncrypt blob) tok :: did .time now :: did (.tokenBytes 96) bytes :: t :=
            (List.suffix_cons _ _).trans ((List.suffix_cons _ _).trans (List.suffix_cons _ _))
          obtain ⟨document, h⟩ := hx (hH _ _ hsuf ht)
          refine ⟨document, ?_⟩
          rw [← h]
          exact ⟨_, _, challenge', _, blob, tok, hb, List.mem_cons_self, rfl⟩
        · obtain ⟨blob, hblob⟩ := blob_authorize v _ _ now
          rw [hblob] at hb
          cases hb
      · rw [hch] at he
        cases he

end Authorize

/-! ### The look at the client: a registration -/

/-- Fernet opens the text as it was sealed. -/
def Opening (token : Str) (blob : Bytes) (t : Trace proxyOps) : Prop :=
  ∀ r : ℤ × Option Bytes, did (.fernetDecrypt token none) r ∈ t → r.2 = some blob

omit [Platform] in
theorem Opening.of_suffix {token : Str} {blob : Bytes} (t t' : Trace proxyOps) (ht : t <:+ t')
    (h : Opening token blob t') : Opening token blob t := fun r hr => h r (ht.subset hr)

theorem sat_openRegistration_opening {token : Str} {blob : Bytes} {r : RegistrationEnvelope}
    (hascii : isAscii token = true) (hread : readAs blob .registration = .ok (.registration r))
    (t : Trace proxyOps) :
    (openRegistration token).Sat (fun _ _ => True) (fun t' x => Opening token blob t' → x = .ok r) t := by
  have hof : readPayload blob .registration >>= RegistrationEnvelope.ofPayload = .ok r := by
    unfold readAs at hread
    obtain ⟨payload, hpayload, hread⟩ := bind_eq_ok.mp hread
    rw [hpayload, ok_bind]
    unfold Envelope.ofPayload at hread
    cases hp : RegistrationEnvelope.ofPayload payload with
    | error e => rw [hp] at hread; cases hread
    | ok r' =>
        rw [hp] at hread
        rw [Envelope.registration.inj (Except.ok.inj hread)]
  unfold openRegistration openPayload
  rw [if_pos hascii]
  refine ⟨trivial, fun reply => ?_⟩
  obtain ⟨now, reply⟩ := reply
  cases reply with
  | none =>
      intro hopening
      cases hopening _ List.mem_cons_self
  | some blob' =>
      change ((Prog.lift (readPayload blob' .registration) : Run Dict).bind fun d =>
        .lift (RegistrationEnvelope.ofPayload d)).Sat _ _ _
      have hblob : Opening token blob (did (.fernetDecrypt token none) (now, some blob') :: t) →
          blob' = blob := fun h => Option.some.inj (h _ List.mem_cons_self)
      refine Prog.Sat.lift_bind (fun d hd => (Prog.sat_lift _ _).mpr fun h => ?_) (fun e he h => ?_)
      · rw [hblob h] at hd
        rw [hd, ok_bind] at hof
        exact hof
      · rw [hblob h] at he
        rw [he] at hof
        cases hof

theorem sat_validateDcr_opening {token : Str} {blob : Bytes} {r : RegistrationEnvelope}
    (hascii : isAscii token = true) (hread : readAs blob .registration = .ok (.registration r))
    (t : Trace proxyOps) :
    (Authorize.validateDcr token).Sat (fun _ _ => True)
      (Authorize.Finds (Opening token blob) r.redirectUris .dcr) t := by
  refine Prog.Sat.attempt_bind (sat_openRegistration_opening hascii hread t) ?_
  rintro t' x - hx
  split
  · next r' =>
      intro h
      rw [Except.ok.inj (hx h)]
      exact ⟨none, rfl⟩
  · exact fun h => nomatch hx h
  · exact fun h => nomatch hx h

/-! ### The look at the client: a document -/

/-- A document for the URL that lists these URIs and is valid otherwise. -/
structure Documents (url : Str) (uris : List Str) (d : Dict) : Prop where
  clientId : Dict.get? d "client_id" = some (.str url)
  secret : Dict.has d "client_secret" = false
  secretExpiry : Dict.has d "client_secret_expires_at" = false
  method : forbiddenMethod d = none
  redirectUris : Dict.get? d "redirect_uris" = some (.arr (uris.map .str))

/-- The body of such a document. -/
def DocumentBody (url : Str) (uris : List Str) (body : Bytes) : Prop :=
  ∃ text d, utf8Decode body = some text ∧ Json.loads text = .ok (.obj d) ∧ Documents url uris d

theorem Documents.validate {url : Str} {uris : List Str} {d : Dict} (h : Documents url uris d)
    (hnonEmpty : ∀ u ∈ uris, u ≠ []) (husable : usableRedirectUris uris = .ok uris) :
    validateDocument url (.obj d) = .ok ⟨url, uris, d, none⟩ := by
  obtain ⟨hne, -⟩ := usableRedirectUris_eq_self_iff.mp husable
  have hstrs := Json.nonEmptyStrs_map hnonEmpty
  unfold validateDocument
  simp only [h.clientId, h.secret, h.secretExpiry, h.method, h.redirectUris]
  cases uris with
  | nil => exact absurd rfl hne
  | cons u uris =>
      rw [List.map_cons] at hstrs ⊢
      simp only [hstrs, husable]
      rw [if_neg (not_not_intro rfl)]
      rfl

theorem DocumentBody.read {url : Str} {uris : List Str} {body : Bytes} (h : DocumentBody url uris body)
    (hnonEmpty : ∀ u ∈ uris, u ≠ []) (husable : usableRedirectUris uris = .ok uris)
    (cacheControl : Option Str) :
    ∃ d, readDocument url body cacheControl = .ok ⟨url, uris, d, cacheControl⟩ := by
  obtain ⟨text, d, htext, hloads, hd⟩ := h
  refine ⟨d, ?_⟩
  unfold readDocument
  rw [htext]
  dsimp only
  rw [hloads]
  dsimp only
  rw [hd.validate hnonEmpty husable]
  rfl

/-- What a call is told about the document: the host has a public address and serves the document, and a
remembered document has these URIs. -/
structure Told (maxBytes : ℤ) (url : Str) (uris : List Str) (t : Trace proxyOps) : Prop where
  resolved : ∀ (host : Str) (r : AddrInfo), did (.getaddrinfo host) r ∈ t →
    ∃ addresses ip ips, r = .infos addresses ∧ checkIps host [] addresses = .ok (ip :: ips)
  served : ∀ (at_ authority host : Str) (r : GetOutcome), did (.pinnedGet at_ authority host) r ∈ t →
    ∃ body cacheControl, r = .response 200 body cacheControl ∧ (body.length : ℤ) ≤ maxBytes ∧
      DocumentBody url uris body
  remembered : ∀ (now : ℚ) (doc : CimdDocument), did (.cacheGet url) (now, some doc) ∈ t →
    doc.redirectUris = uris

theorem Told.of_suffix {maxBytes : ℤ} {url : Str} {uris : List Str} (t t' : Trace proxyOps)
    (ht : t <:+ t') (h : Told maxBytes url uris t') : Told maxBytes url uris t where
  resolved := fun host r hr => h.resolved host r (ht.subset hr)
  served := fun at_ authority host r hr => h.served at_ authority host r (ht.subset hr)
  remembered := fun now doc hd => h.remembered now doc (ht.subset hd)

namespace Authorize

end Authorize

/-! ### Two answers -/

section Runs

variable {app : App} {before acts : Schedule} {pid : ℕ} {req : Req} {uris : List Str}

/-- A process that has ended meets what is known of its own request. -/
theorem ended_sat_own {R : Trace proxyOps → Except Exc Response → Prop} {x : Except Exc Response}
    (hsat : (app.handler req).Sat (fun _ _ => True) R []) (hreq : Serves (app.run acts) pid req)
    (hx : Ended (app.run acts) pid x) : ∃ t, Exactly pid t (app.run acts).hist ∧ R t x := by
  have hall : ∀ req', (app.handler req').Sat (fun _ _ => True) (fun t y => req' = req → R t y) [] := by
    intro req'
    by_cases h : req' = req
    · subst h
      exact hsat.mono (fun _ _ h => h) (fun _ _ hR _ => hR)
    · exact (Prog.sat_true _ []).mono (fun _ _ h => h) (fun _ _ _ he => absurd he h)
  obtain ⟨t, ht, hR⟩ := ended_sat (Q := fun _ _ _ => True) hall hreq hx
  exact ⟨t, ht, hR rfl⟩

/-- The calls of a process that starts later come later. -/
theorem hist_suffix_past (hbefore : before <+: acts) (hpid : (app.run before).procs.length ≤ pid)
    {c : Call proxyOps} {past : History} (h : (pid, c) :: past <:+ (app.run acts).hist) :
    (app.run before).hist <:+ past := by
  have hnew : (pid, c) ∉ (app.run before).hist := by
    intro hm
    obtain ⟨p, hp, -⟩ := ((proxy app).trace_iff_hist before pid c).mp hm
    obtain ⟨hlt, -⟩ := List.getElem?_eq_some_iff.mp hp
    exact absurd hlt (not_lt.mpr hpid)
  have hpre : (app.run before).hist <:+ (app.run acts).hist := ((proxy app).run_mono hbefore).1
  rcases List.suffix_or_suffix_of_suffix hpre h with hs | hs
  · rcases List.suffix_cons_iff.mp hs with he | hs
    · rw [he] at hnew
      exact absurd List.mem_cons_self hnew
    · exact hs
  · exact absurd (hs.subset List.mem_cons_self) hnew

/-- Fernet opens for it what was sealed before. -/
theorem opening_of_sealed (hbefore : before <+: acts) (hpid : (app.run before).procs.length ≤ pid)
    {pid' : ℕ} {blob : Bytes} {tok : FernetToken} {t : Trace proxyOps}
    (hsealed : (pid', did (.fernetEncrypt blob) tok) ∈ (app.run before).hist)
    (ht : Within pid t (app.run acts).hist) : Opening tok.text blob t := by
  intro r hr
  obtain ⟨past, hpast⟩ := System.exists_past (ht _ hr)
  have hm := (hist_suffix_past hbefore hpid hpast).subset hsealed
  obtain ⟨w, prop, w', hw, hp⟩ := (proxy app).answered (I := LogKeeps) (fun _ _ _ h => nomatch h)
    (fun _ _ _ _ _ _ _ hw hp => hw.perform hp) hpast
  obtain ⟨s, hfind, rfl, -⟩ := hw pid' blob tok hm
  obtain ⟨rfl, -⟩ := Prod.mk.inj (Option.some.inj hp)
  change fernetOpen w.fernet tok.text none _ = _
  unfold fernetOpen
  rw [hfind]
  rfl

/-- How such a registration ends. -/
theorem Registers.ended {v : JsonValue} {d : Dict} (hd : Registers d uris) (hv : v.val = .obj d)
    {x : Except Exc Response} (hreq : Serves (app.run acts) pid (.register (.value v)))
    (hx : Ended (app.run acts) pid x) :
    (usableRedirectUris uris = .ok uris ∧ ∃ (r : RegistrationEnvelope) (blob : Bytes) (tok : FernetToken),
      r.redirectUris = uris ∧ (Envelope.registration r).blob = some blob ∧
      (pid, did (.fernetEncrypt blob) tok) ∈ (app.run acts).hist ∧
      x = .ok (.json 201 (.obj (Register.issuedBody tok.text r)) [])) ∨
    (usableRedirectUris uris ≠ .ok uris ∧ ∀ content, x ≠ .ok (.json 201 content [])) := by
  obtain ⟨t, ht, hissued⟩ := ended_sat_own (sat_register_issued v) hreq hx
  obtain ⟨haccept, hvalid⟩ := hd.validate
  have hread : Register.readAndValidate (.value v) = Register.validate d := by
    obtain ⟨val, wf⟩ := v
    subst hv
    rfl
  unfold Register.Issued at hissued
  rw [hread] at hissued
  cases hp : Register.validate d with
  | error e =>
      rw [hp] at hissued
      refine .inr ⟨fun husable => ?_, hissued⟩
      obtain ⟨method, name, hok⟩ := haccept husable
      rw [hp] at hok
      cases hok
  | ok p =>
      obtain ⟨husable, huris⟩ := hvalid p hp
      rw [hp] at hissued
      obtain ⟨r, blob, tok, hr, hb, hm, hcontent⟩ := hissued
      exact .inl ⟨husable, r, blob, tok, hr.trans huris, hb, ht.within _ hm, hcontent⟩

/-- A request under a client id that was sealed before is judged by the sealed URIs. -/
theorem judged_dcr {params : Authorize.AuthorizeParams} {x : Except Exc Response} {pid' : ℕ}
    {r : RegistrationEnvelope} {blob : Bytes} {tok : FernetToken}
    (hbefore : before <+: acts) (hpid : (app.run before).procs.length ≤ pid)
    (hb : (Envelope.registration r).blob = some blob)
    (hsealed : (pid', did (.fernetEncrypt blob) tok) ∈ (app.run before).hist)
    (hid : Authorize.isCimd tok.text = false)
    (hreq : Serves (app.run acts) pid (.authorize { params with clientId := some tok.text }))
    (hx : Ended (app.run acts) pid x) :
    ∃ t document, Within pid t (app.run acts).hist ∧ Authorize.Answers app.config t x
      (Authorize.judge app.config { params with clientId := some tok.text } r.redirectUris document .dcr) := by
  have hread : readAs blob .registration = .ok (.registration r) := by
    rw [readAs_blob (Envelope.wf_registration _) hb]
    exact if_pos rfl
  have hsat : (app.handler (.authorize { params with clientId := some tok.text })).Sat (fun _ _ => True)
      (fun t y => Opening tok.text blob t → ∃ document, Authorize.Answers app.config t y
        (Authorize.judge app.config { params with clientId := some tok.text } r.redirectUris document .dcr))
      [] :=
    Authorize.sat_authorize_judge _ _ Opening.of_suffix rfl
      (fun t => by rw [hid]; exact sat_validateDcr_opening tok.ascii hread t)
  obtain ⟨t, ht, hjudged⟩ := ended_sat_own hsat hreq hx
  obtain ⟨document, hanswers⟩ := hjudged (opening_of_sealed hbefore hpid hsealed ht.within)
  exact ⟨t, document, ht.within, hanswers⟩

end Runs

end CimdProxy
