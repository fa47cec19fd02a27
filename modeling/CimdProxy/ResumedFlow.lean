import CimdProxy.PkceGate
import CimdProxy.RegistrationRoutes
import CimdProxy.UpstreamReplies

/-! # Flows resumed from a sealed string

`/callback` and `/token` go on from strings that the proxy has sealed before.  When such a string is
presented, their endings are known: `/callback` turns it away exactly when it is too old, and else goes
back to the client; `/token` turns a matching code away exactly when it is too old, and else relays what
the upstream says. -/

namespace CimdProxy

open Py Effects

variable [Platform]

/-! ### Opening what was sealed -/

/-- Fernet's replies to `token` are those for the blob that was sealed under it at `stamp`. -/
def Reopening (token : Str) (ttl : Option ℕ) (stamp : ℤ) (blob : Bytes) (t : Trace proxyOps) : Prop :=
  ∀ r : ℤ × Option Bytes, did (.fernetDecrypt token ttl) r ∈ t →
    r.2 = if withinTtl ttl stamp r.1 then some blob else none

omit [Platform] in
theorem Reopening.of_suffix {token : Str} {ttl : Option ℕ} {stamp : ℤ} {blob : Bytes}
    {t t' : Trace proxyOps} (h : Reopening token ttl stamp blob t') (ht : t <:+ t') :
    Reopening token ttl stamp blob t := fun r hr => h r (ht.subset hr)

omit [Platform] in
/-- A conditional promise whose condition has already failed. -/
theorem Prog.sat_vacuous {α : Type} {H : Trace proxyOps → Prop} {R : Trace proxyOps → Except Exc α → Prop}
    {t : Trace proxyOps} (hH : ∀ t', t <:+ t' → ¬ H t') (p : Run α) :
    p.Sat (fun _ _ => True) (fun t' x => H t' → R t' x) t :=
  (Prog.sat_true p t).suffix.mono (fun _ _ h => h) (fun t' _ h hH' => absurd hH' (hH t' h.1))

/-- An open function on the bytes of an envelope of its kind. -/
theorem bind_of_readAs {α : Type} {k : Kind} {of : Dict → Except Exc α} {wrap : α → Envelope}
    (hof : ∀ d, Envelope.ofPayload d k = (of d).map wrap) (hinj : Function.Injective wrap) {blob : Bytes}
    {a : α} (h : readAs blob k = .ok (wrap a)) : (readPayload blob k >>= of) = .ok a := by
  obtain ⟨payload, hpayload, hread⟩ := bind_eq_ok.mp h
  rw [hof] at hread
  rw [hpayload, ok_bind]
  cases ha : of payload with
  | error e => rw [ha] at hread; cases hread
  | ok a' =>
      rw [ha] at hread
      rw [hinj (Except.ok.inj hread)]

/-- An open function asks Fernet once, and on a sealed string only its age decides. -/
theorem sat_open_sealed {α : Type} {k : Kind} {of : Dict → Except Exc α} {token : Str} {blob : Bytes} {a : α}
    (ha : isAscii token = true) (hread : (readPayload blob k >>= of) = .ok a) (stamp : ℤ)
    (t : Trace proxyOps) :
    ((openPayload token k).bind (fun d => .lift (of d))).Sat (fun _ _ => True)
      (fun t' x => ∃ r : ℤ × Option Bytes, t' = did (.fernetDecrypt token k.ttl) r :: t ∧
        (Reopening token k.ttl stamp blob t' →
          x = if withinTtl k.ttl stamp r.1 then .ok a else .error (.envelope "envelope invalid or expired"))) t := by
  unfold openPayload
  rw [if_pos ha]
  refine ⟨trivial, fun r => ?_⟩
  obtain ⟨now, reply⟩ := r
  have hreply : ∀ {t'}, Reopening token k.ttl stamp blob (did (.fernetDecrypt token k.ttl) (now, reply) :: t') →
      reply = if withinTtl k.ttl stamp now then some blob else none :=
    fun h => h (now, reply) List.mem_cons_self
  cases reply with
  | none =>
      refine ⟨(now, none), rfl, fun h => ?_⟩
      have hlate := hreply h
      split_ifs at hlate with hw
      exact (if_neg hw).symm
  | some blob' =>
      have hprog : (Prog.lift (readPayload blob' k) : Run Dict).bind (fun d => .lift (of d)) =
          .lift (readPayload blob' k >>= of) := by
        cases readPayload blob' k <;> rfl
      change ((Prog.lift (readPayload blob' k) : Run Dict).bind fun d => .lift (of d)).Sat _ _ _
      rw [hprog, Prog.sat_lift]
      refine ⟨(now, some blob'), rfl, fun h => ?_⟩
      have hopen := hreply h
      split_ifs at hopen with hw
      rw [Option.some.inj hopen, hread]
      exact (if_pos hw).symm

section Runs

variable {app : App} {before acts : Schedule} {pid pid' : ℕ} {blob : Bytes} {tok : FernetToken}

/-- What was sealed before a process began opens for it, unless it is too old. -/
theorem reopening_of_sealed (hbefore : before <+: acts) (hpid : (app.run before).procs.length ≤ pid)
    (hsealed : (pid', did (.fernetEncrypt blob) tok) ∈ (app.run before).hist) (ttl : Option ℕ)
    {t : Trace proxyOps} (ht : Within pid t (app.run acts).hist) :
    Reopening tok.text ttl tok.stamp blob t := by
  intro r hr
  obtain ⟨past, hpast⟩ := System.exists_past (ht _ hr)
  have hm := (hist_suffix_past hbefore hpid hpast).subset hsealed
  obtain ⟨w, prop, w', hw, hp⟩ := (proxy app).answered (I := LogKeeps) (fun _ _ _ h => nomatch h)
    (fun _ _ _ _ _ _ _ hw hp => hw.perform hp) hpast
  obtain ⟨s, hfind, hb, hstamp⟩ := hw pid' blob tok hm
  obtain ⟨rfl, -⟩ := Prod.mk.inj (Option.some.inj hp)
  change fernetOpen w.fernet tok.text ttl _ = _
  unfold fernetOpen
  rw [hfind]
  dsimp only
  rw [hb, hstamp]

end Runs

/-! ### `/callback` -/

namespace Callback

/-- The answer to a request whose state was opened as `env`. -/
def Responds (cfg : ProxyConfig) (params : CallbackParams) (env : AuthorizeEnvelope) (t : Trace proxyOps)
    (x : Except Exc Response) : Prop :=
  match params.error with
  | some error =>
      x = .ok (.redirect 302 (location env (errorParams cfg env error params.errorDescription)))
  | none =>
      match params.code with
      | none => x = .ok missingCode
      | some code => ∃ (now : Seconds) (blob : Bytes) (tok : FernetToken),
          did .time now ∈ t ∧ (Envelope.code (codeEnvelope env code now.whole)).blob = some blob ∧
          did (.fernetEncrypt blob) tok ∈ t ∧ x = .ok (.redirect 302 (location env (codeParams cfg env tok.text)))

omit [Platform] in
theorem blob_codeEnvelope (env : AuthorizeEnvelope) (code : Str) (now : Seconds) :
    ∃ blob, (Envelope.code (codeEnvelope env code now.whole)).blob = some blob := by
  have hdigits := now.digits_whole_add (k := codeTtlSeconds) (by decide)
  apply Envelope.blob_eq_some
  simpa [Envelope.fields, Json.digitsFitMembers, Json.digitsFit, codeEnvelope] using hdigits

theorem sat_respond (cfg : ProxyConfig) (params : CallbackParams) (env : AuthorizeEnvelope)
    (t : Trace proxyOps) :
    (respond cfg params env).Sat (fun _ _ => True) (Responds cfg params env) t := by
  unfold respond Responds
  cases params.error with
  | some error => exact rfl
  | none =>
      cases params.code with
      | none => exact rfl
      | some code =>
          refine sat_wholeTime_bind trivial fun now => ?_
          refine sat_pack_bind (fun _ _ => trivial) (fun blob tok hb => ?_) (fun msg hb => ?_)
          · exact ⟨now, blob, tok, List.mem_cons_of_mem _ List.mem_cons_self, hb, List.mem_cons_self, rfl⟩
          · obtain ⟨blob, hblob⟩ := blob_codeEnvelope env code now
            rw [hblob] at hb
            cases hb

/-- A state that the proxy has sealed is turned away exactly when it is too old. -/
theorem sat_callback_sealed (cfg : ProxyConfig) {params : CallbackParams} {state : Str}
    (hs : params.state = some state) (ha : isAscii state = true) {env : AuthorizeEnvelope} {blob : Bytes}
    (hread : readAs blob .authorize = .ok (.authorize env)) (stamp : ℤ) :
    (callback cfg params).Sat (fun _ _ => True)
      (fun t x => Reopening state (some 600) stamp blob t →
        ∃ r : ℤ × Option Bytes, did (.fernetDecrypt state (some 600)) r ∈ t ∧
          if withinTtl (some 600) stamp r.1 then Responds cfg params env t x else x = .ok stateInvalid) [] := by
  have hof : (readPayload blob .authorize >>= AuthorizeEnvelope.ofPayload) = .ok env :=
    bind_of_readAs (fun _ => rfl) (fun _ _ h => Envelope.authorize.inj h) hread
  unfold callback
  rw [hs]
  refine Prog.Sat.attempt_bind (sat_open_sealed (k := .authorize) ha hof stamp []) ?_
  rintro t x - ⟨r, ht, hx⟩
  have hin : did (.fernetDecrypt state (some 600)) r ∈ t := by
    rw [ht]
    exact List.mem_cons_self
  by_cases hre : Reopening state (some 600) stamp blob t
  swap
  · exact Prog.sat_vacuous (fun _ h hre' => hre (hre'.of_suffix h)) _
  rw [hx hre]
  by_cases hw : withinTtl (some 600) stamp r.1 = true
  · rw [if_pos (show withinTtl (Kind.ttl .authorize) stamp r.1 = true from hw)]
    refine (sat_respond cfg params env t).suffix.mono (fun _ _ _ => trivial) ?_
    rintro t' y ⟨hsuf, hy⟩ -
    exact ⟨r, hsuf.subset hin, by rw [if_pos hw]; exact hy⟩
  · rw [if_neg (show ¬ withinTtl (Kind.ttl .authorize) stamp r.1 = true from hw)]
    exact fun _ => ⟨r, hin, by rw [if_neg hw]⟩

end Callback

/-! ### `/token` -/

namespace Token

/-- The end of a redemption at `entry`, by what came of its upstream request. -/
def Replied (t : Trace proxyOps) (entry : ResourceEntry) (y : Except Exc Response) : HttpOutcome → Prop
  | .response status body => Finalised t entry status body y
  | .httpError _ text => y = .error (serverError ("upstream unreachable: " ++ text))
  | .raised msg => y = .error (.library msg)

/-- The end of a redemption whose code was opened as `env`, for `entry`. -/
def Redeemed (cfg : ProxyConfig) (env : CodeEnvelope) (entry : ResourceEntry) (t : Trace proxyOps)
    (y : Except Exc Response) : Prop :=
  ∃ now : Seconds, did .time now ∈ t ∧
    if env.exp ≤ now.whole then y = .error (invalidGrant "code envelope expired")
    else ∃ outcome : HttpOutcome, did (.http (redeemRequest cfg env entry)) outcome ∈ t ∧
      Replied t entry y outcome

/-- The form presents what was sealed with the code. -/
structure Matches (form : TokenForm) (env : CodeEnvelope) (verifier : Str) : Prop where
  codeVerifier : form.codeVerifier = some verifier
  redirectUri : ∀ u, form.redirectUri = some u → u = env.redirectUri
  clientId : ∀ u, form.clientId = some u → u = env.clientId
  challenge : verifyChallenge verifier env.clientCodeChallenge = .ok true

omit [Platform] in
theorem Matches.checkCode {form : TokenForm} {env : CodeEnvelope} {verifier : Str}
    (h : Matches form env verifier) (now : ℤ) :
    checkCode form verifier env now =
      if env.exp ≤ now then .error (invalidGrant "code envelope expired") else .ok () := by
  by_cases hexp : env.exp ≤ now
  · rw [if_pos hexp]
    exact if_pos hexp
  · rw [if_neg hexp, checkCode_of_matching (not_le.mp hexp) h.redirectUri h.clientId, h.challenge]
    rfl

theorem sat_redeem_replied (cfg : ProxyConfig) (env : CodeEnvelope) (entry : ResourceEntry)
    (t : Trace proxyOps) :
    ((postForm (tokenUrl entry.issuer) (authCodeForm cfg env entry)).bind
      (finaliseUpstreamResponse entry.url)).Sat (fun _ _ => True)
      (fun t' y => ∃ outcome : HttpOutcome, did (.http (redeemRequest cfg env entry)) outcome ∈ t' ∧
        Replied t' entry y outcome) t := by
  refine sat_ask_bind trivial fun outcome => ?_
  have hin : did (.http (redeemRequest cfg env entry)) outcome ∈
      (did (.http (redeemRequest cfg env entry)) outcome :: t : Trace proxyOps) := List.mem_cons_self
  cases outcome with
  | httpError name text => exact ⟨_, hin, rfl⟩
  | raised msg => exact ⟨_, hin, rfl⟩
  | response status body =>
      refine (@sat_finalise_finalised _ entry _ _).suffix.mono (fun _ _ _ => trivial) ?_
      rintro t' y ⟨hsuf, -, hy⟩
      exact ⟨_, hsuf.subset hin, hy⟩

/-- A code that the proxy has sealed, with the form that belongs to it, is turned away exactly when it is
too old. -/
theorem sat_handleAuthCode_sealed (cfg : ProxyConfig) {form : TokenForm} {code verifier : Str}
    (hcode : form.code = some code) (ha : isAscii code = true) {env : CodeEnvelope} {blob : Bytes}
    (hread : readAs blob .code = .ok (.code env)) (hform : Matches form env verifier)
    {entry : ResourceEntry} (hentry : cfg.resourceByUrl env.resource = .ok (some entry)) (stamp : ℤ) :
    (handleAuthCode cfg form).Sat (fun _ _ => True)
      (fun t y => Reopening code none stamp blob t → Redeemed cfg env entry t y) [] := by
  have hof : (readPayload blob .code >>= CodeEnvelope.ofPayload) = .ok env :=
    bind_of_readAs (fun _ => rfl) (fun _ _ h => Envelope.code.inj h) hread
  have hsealed : ∀ refusing, sealedEntry cfg env.resource refusing = .ok entry := by
    intro refusing
    unfold sealedEntry
    rw [hentry]
    rfl
  unfold handleAuthCode
  rw [hcode, hform.codeVerifier]
  refine Prog.Sat.attempt_bind (sat_open_sealed (k := .code) ha hof stamp []) ?_
  rintro t x - ⟨r, -, hx⟩
  by_cases hre : Reopening code none stamp blob t
  swap
  · exact Prog.sat_vacuous (fun _ h hre' => hre (hre'.of_suffix h)) _
  rw [hx hre, if_pos (show withinTtl (Kind.ttl .code) stamp r.1 = true from rfl)]
  refine sat_wholeTime_bind trivial fun now => ?_
  rw [hform.checkCode]
  by_cases hexp : env.exp ≤ now.whole
  · rw [if_pos hexp]
    exact fun _ => ⟨now, List.mem_cons_self, by rw [if_pos hexp]⟩
  · rw [if_neg hexp, hsealed]
    refine (sat_redeem_replied cfg env entry _).suffix.mono (fun _ _ _ => trivial) ?_
    rintro t' y ⟨hsuf, hy⟩ -
    exact ⟨now, hsuf.subset List.mem_cons_self, by rw [if_neg hexp]; exact hy⟩

theorem sat_token_sealed (cfg : ProxyConfig) (svc : Option PatService) {form : TokenForm}
    {code verifier : Str} (hg : form.grantType = some "authorization_code".toList)
    (hcode : form.code = some code) (ha : isAscii code = true) {env : CodeEnvelope} {blob : Bytes}
    (hread : readAs blob .code = .ok (.code env)) (hform : Matches form env verifier)
    {entry : ResourceEntry} (hentry : cfg.resourceByUrl env.resource = .ok (some entry)) (stamp : ℤ) :
    (token cfg svc form).Sat (fun _ _ => True)
      (fun t x => Reopening code none stamp blob t → ∃ y, Redeemed cfg env entry t y ∧ x = caught y) [] := by
  have hd : dispatch cfg svc form = handleAuthCode cfg form := if_pos hg
  rw [token_eq, hd]
  refine Prog.Sat.attempt_bind (sat_handleAuthCode_sealed cfg hcode ha hread hform hentry stamp) ?_
  exact fun t y _ hy => (Prog.sat_lift _ _).mpr fun h => ⟨y, hy h, rfl⟩

end Token

end CimdProxy
