import CimdProxy.CodeFlow

/-! # The gate at `/token`

`/authorize` takes any code challenge and `/token` compares it with what the presented verifier
hashes to.  `pkce_gate_total_iff` says for which verifiers and challenges the comparison lets through
exactly the verifier of the challenge and answers every other one with an OAuth error: the hash is
taken of ASCII text only, and only ASCII strings are compared. -/

namespace CimdProxy

open Py Effects

theorem verifyChallenge_of_ascii {verifier challenge : Str} (hv : isAscii verifier = true)
    (hc : isAscii challenge = true) :
    verifyChallenge verifier challenge = .ok (base64Url (sha256 (utf8 verifier)) == challenge) := by
  simp only [verifyChallenge, deriveChallenge, encodeAscii, hv, if_true, ok_bind, pure_eq_ok,
    compareDigest, base64Url_ascii, hc, Bool.and_self]

/-- Text that is not ASCII is not compared, and the exception is no OAuth error. -/
theorem verifyChallenge_of_not_ascii {verifier challenge : Str}
    (h : ¬ (isAscii verifier = true ∧ isAscii challenge = true)) :
    ∃ e, verifyChallenge verifier challenge = .error e ∧
      ∀ error description status, e ≠ .oauth error description status := by
  by_cases hv : isAscii verifier = true
  · have hc : ¬ isAscii challenge = true := fun hc => h ⟨hv, hc⟩
    refine ⟨.typeError "comparing strings with non-ASCII characters is not supported", ?_, ?_⟩
    · simp only [verifyChallenge, deriveChallenge, encodeAscii, hv, if_true, ok_bind, pure_eq_ok,
        compareDigest, hc, Bool.and_false, Bool.false_eq_true, if_false]
    · intro error description status h
      cases h
  · refine ⟨.valueError "'ascii' codec can't encode characters: ordinal not in range(128)", ?_, ?_⟩
    · simp only [verifyChallenge, deriveChallenge, encodeAscii, hv, Bool.false_eq_true, if_false,
        error_bind]
    · intro error description status h
      cases h

section Gate

variable [Platform]

namespace Token

/-- What `/token` decides about an opened code before it asks the upstream. -/
def gate (cfg : ProxyConfig) (form : TokenForm) (verifier : Str) (env : CodeEnvelope) (now : ℤ) :
    Except Exc ResourceEntry := do
  checkCode form verifier env now
  sealedEntry cfg env.resource "refusing token exchange"

/-- The upstream was asked. -/
def GoesOn (t : Trace proxyOps) : Prop := ∃ r reply, did (.http r) reply ∈ t

omit [Platform] in
theorem GoesOn.mono {t t' : Trace proxyOps} (h : GoesOn t) (ht : t <:+ t') : GoesOn t' := by
  obtain ⟨r, reply, hm⟩ := h
  exact ⟨r, reply, ht.subset hm⟩

/-- The gate decided at a reading of the clock: it let the request go on, or the request ended in its
error. -/
def Decided (cfg : ProxyConfig) (form : TokenForm) (verifier : Str) (env : CodeEnvelope)
    (t : Trace proxyOps) (x : Except Exc Response) : Prop :=
  ∃ now : Seconds, did .time now ∈ t ∧
    ((∃ entry, gate cfg form verifier env now.whole = .ok entry ∧ GoesOn t) ∨
      ∃ e, gate cfg form verifier env now.whole = .error e ∧ ¬ GoesOn t ∧ x = .error e)

/-- A code that was opened is decided about. -/
def Gated (cfg : ProxyConfig) (form : TokenForm) (code verifier : Str) (t : Trace proxyOps)
    (x : Except Exc Response) : Prop :=
  (∀ env, ¬ Opened t code (.code env)) ∨
    ∃ env, Opened t code (.code env) ∧ Decided cfg form verifier env t x

theorem opened_singleton {code : Str} {now : ℤ} {reply : Option Bytes} {env : CodeEnvelope} :
    Opened [did (.fernetDecrypt code none) (now, reply)] code (.code env) ↔
      ∃ blob, reply = some blob ∧ readAs blob .code = .ok (.code env) := by
  constructor
  · rintro ⟨now', blob, hm, hr⟩
    cases List.mem_singleton.mp hm
    exact ⟨blob, rfl, hr⟩
  · rintro ⟨blob, rfl, hr⟩
    exact ⟨now, blob, List.mem_singleton_self _, hr⟩

theorem readAs_code {blob : Bytes} {env : CodeEnvelope} :
    readAs blob .code = .ok (.code env) ↔
      (readPayload blob .code >>= CodeEnvelope.ofPayload) = .ok env := by
  unfold readAs
  cases readPayload blob .code with
  | error e => simp
  | ok d =>
      simp only [ok_bind, Envelope.ofPayload]
      cases CodeEnvelope.ofPayload d <;> simp [Except.map]

/-- `openCode` asks Fernet, and returns the code that was opened, if one was. -/
theorem sat_openCode_complete {code : Str} (ha : isAscii code = true) :
    (openCode code).Sat (fun _ _ => True)
      (fun t x => (∃ r, t = [did (.fernetDecrypt code none) r]) ∧
        ∀ env, x = .ok env ↔ Opened t code (.code env)) [] := by
  unfold openCode openPayload
  rw [if_pos ha]
  refine ⟨trivial, fun r => ?_⟩
  obtain ⟨now, reply⟩ := r
  cases reply with
  | none => exact ⟨⟨_, rfl⟩, fun env => iff_of_false nofun (fun h => nomatch opened_singleton.mp h)⟩
  | some blob =>
      have hread : ∀ env, (readPayload blob .code >>= CodeEnvelope.ofPayload) = .ok env ↔
          Opened [did (.fernetDecrypt code none) (now, some blob)] code (.code env) := by
        intro env
        rw [opened_singleton, ← readAs_code]
        simp
      have hprog : (Prog.lift (readPayload blob .code) : Run Dict).bind
          (fun d => .lift (CodeEnvelope.ofPayload d)) =
            .lift (readPayload blob .code >>= CodeEnvelope.ofPayload) := by
        cases readPayload blob .code <;> rfl
      change ((Prog.lift (readPayload blob .code) : Run Dict).bind
        (fun d => .lift (CodeEnvelope.ofPayload d))).Sat _ _ _
      rw [hprog, Prog.sat_lift]
      exact ⟨⟨_, rfl⟩, hread⟩

theorem sat_gated (cfg : ProxyConfig) {form : TokenForm} {code verifier : Str}
    (hcode : form.code = some code) (hverifier : form.codeVerifier = some verifier)
    (ha : isAscii code = true) :
    (handleAuthCode cfg form).Sat (fun _ _ => True) (Gated cfg form code verifier) [] := by
  unfold handleAuthCode
  rw [hcode, hverifier]
  refine Prog.Sat.attempt_bind (sat_openCode_complete ha) ?_
  rintro t x - ⟨⟨r, rfl⟩, hx⟩
  have hno : ¬ GoesOn [did (.fernetDecrypt code none) r] := by
    rintro ⟨r', reply, hm⟩
    cases List.mem_singleton.mp hm
  cases x with
  | error e =>
      have hlost : ∀ y, Gated cfg form code verifier [did (.fernetDecrypt code none) r] y :=
        fun y => .inl (fun env ho => nomatch (hx env).mpr ho)
      split
      · exact hlost _
      · exact hlost _
      · next h => cases h
  | ok env =>
      have hopened := (hx env).mp rfl
      refine sat_wholeTime_bind trivial (fun now => ?_)
      set t := did .time now :: [did (.fernetDecrypt code none) r] with ht
      have hsuffix : [did (.fernetDecrypt code none) r] <:+ t := List.suffix_cons _ _
      have hnow : did .time now ∈ t := List.mem_cons_self
      have hno' : ¬ GoesOn t := by
        rintro ⟨r', reply, hm⟩
        rcases List.mem_cons.mp hm with he | hm
        · cases he
        · exact hno ⟨r', reply, hm⟩
      have hstop : ∀ {e : Exc}, gate cfg form verifier env now.whole = .error e →
          Gated cfg form code verifier t (.error e) :=
        fun he => .inr ⟨env, hopened.mono hsuffix, now, hnow, .inr ⟨_, he, hno', rfl⟩⟩
      refine Prog.Sat.lift_bind (fun u hcheck => ?_) (fun e he => hstop ?_)
      · refine Prog.Sat.lift_bind (fun entry hentry => ?_) (fun e he => hstop ?_)
        · have hgo : ∀ t' y, GoesOn t' → t <:+ t' → Gated cfg form code verifier t' y := by
            intro t' y hgo hsuf
            refine .inr ⟨env, hopened.mono (hsuffix.trans hsuf), now, hsuf.subset hnow,
              .inl ⟨entry, ?_, hgo⟩⟩
            rw [gate, hcheck, ok_bind, hentry]
          refine Prog.Sat.bind (sat_postForm trivial) ?_ ?_
          · rintro t' reply - ⟨outcome, rfl, -⟩
            refine (Prog.sat_true _ _).suffix.mono (fun _ _ _ => trivial) ?_
            rintro t'' y ⟨hsuf, -⟩
            have hask : GoesOn (did (.http (formRequest (tokenUrl entry.issuer)
                (authCodeForm cfg env entry))) outcome :: t) := ⟨_, _, List.mem_cons_self⟩
            exact hgo t'' y (hask.mono hsuf) ((List.suffix_cons _ _).trans hsuf)
          · rintro t' e - ⟨outcome, rfl, -⟩
            exact hgo _ _ ⟨_, _, List.mem_cons_self⟩ (List.suffix_cons _ _)
        · rw [gate, hcheck, ok_bind, he]
      · rw [gate, he, error_bind]

theorem sat_token_gated (cfg : ProxyConfig) (svc : Option PatService) {form : TokenForm}
    {code verifier : Str} (hg : form.grantType = some "authorization_code".toList)
    (hcode : form.code = some code) (hverifier : form.codeVerifier = some verifier)
    (ha : isAscii code = true) :
    (token cfg svc form).Sat (fun _ _ => True)
      (fun t x => ∃ y, Gated cfg form code verifier t y ∧ x = caught y) [] := by
  have hd : dispatch cfg svc form = handleAuthCode cfg form := if_pos hg
  rw [token_eq, hd]
  refine Prog.Sat.attempt_bind (sat_gated cfg hcode hverifier ha) ?_
  exact fun t y _ hy => (Prog.sat_lift _ _).mpr ⟨y, hy, rfl⟩

omit [Platform] in
/-- Before it expires, with nothing that contradicts it, a code is decided by the challenge alone. -/
theorem checkCode_of_matching {form : TokenForm} {verifier : Str} {env : CodeEnvelope} {now : ℤ}
    (hfresh : now < env.exp) (hredirect : ∀ u, form.redirectUri = some u → u = env.redirectUri)
    (hclient : ∀ u, form.clientId = some u → u = env.clientId) :
    checkCode form verifier env now = (do
      if ← verifyChallenge verifier env.clientCodeChallenge then return ()
      else .error (invalidGrant "PKCE code_verifier does not match code_challenge")) := by
  have agrees : ∀ {o : Option Str} {v : Str}, (∀ u, o = some u → u = v) →
      ¬ (o.isSome = true ∧ o ≠ some v) := by
    rintro o v h ⟨hs, hne⟩
    obtain ⟨u, rfl⟩ := Option.isSome_iff_exists.mp hs
    exact hne (by rw [h u rfl])
  unfold checkCode
  rw [if_neg (not_le.mpr hfresh), if_neg (agrees hredirect), if_neg (agrees hclient)]

end Token

variable {app : App} {acts : Schedule} {pid : ℕ}

/-- A sealed text that does not age opens as what it was sealed from. -/
theorem opens_of_seals {pid' : ℕ} {e : Envelope} {tok : FernetToken} {past past' : History}
    {opened : Reply (.fernetDecrypt tok.text none)} (hs : Seals past pid' e tok past')
    (hk : e.kind.ttl = none) (hr : e.reread = e)
    (hread : (pid, did (.fernetDecrypt tok.text none) opened) :: past <:+ (app.run acts).hist) :
    Opens (app.run acts).hist pid tok.text e past := by
  obtain ⟨hwf, blob, hb, hm⟩ := hs
  obtain ⟨w, p, w', hw, hp⟩ := (proxy app).answered (I := LogKeeps) (fun _ _ _ h => nomatch h)
    (fun w h pid o p r w' hw hp => hw.perform hp) hread
  obtain ⟨s, hfind, hsb, -⟩ := hw pid' blob tok (hm.subset List.mem_cons_self)
  obtain ⟨hopened, -⟩ := Prod.mk.inj (Option.some.inj hp)
  have hopen : fernetOpen w.fernet tok.text none p.1 = some blob := by
    rw [fernetOpen, hfind]
    exact congrArg some hsb
  rw [hopen] at hopened
  refine ⟨p.1, blob, ?_, ?_⟩
  · rw [hk, hopened]
    exact hread
  · rw [readAs_blob hwf hb, if_pos rfl, hr]

/-- One text opens as one code. -/
theorem opens_unique {pid' : ℕ} {code : Str} {env env' : CodeEnvelope} {past past' : History}
    (h : Opens (app.run acts).hist pid code (.code env) past)
    (h' : Opens (app.run acts).hist pid' code (.code env') past') : env' = env := by
  obtain ⟨now, blob, hm, hr⟩ := h
  obtain ⟨now', blob', hm', hr'⟩ := h'
  obtain ⟨q, tok, p, hs, htext, -⟩ := decrypted_encrypted hm
  obtain ⟨q', tok', p', hs', htext', -⟩ := decrypted_encrypted hm'
  obtain ⟨rfl, -⟩ := encrypted_unique
    (((hs.trans (List.suffix_cons _ _)).trans hm).subset List.mem_cons_self)
    (((hs'.trans (List.suffix_cons _ _)).trans hm').subset List.mem_cons_self)
    (htext.trans htext'.symm)
  exact Envelope.code.inj (Except.ok.inj (hr'.symm.trans hr))

/-- A redemption that has ended was decided about by the gate. -/
theorem gated_of_ended {form : Token.TokenForm} {code verifier : Str} {x : Except Exc Response}
    (hserves : Serves (app.run acts) pid (.token form))
    (hg : form.grantType = some "authorization_code".toList) (hcode : form.code = some code)
    (hverifier : form.codeVerifier = some verifier) (ha : isAscii code = true)
    (hended : Ended (app.run acts) pid x) :
    ∃ t y, Exactly pid t (app.run acts).hist ∧ Token.Gated app.config form code verifier t y ∧
      x = Token.caught y := by
  have hsat : ∀ req, ((proxy app).handler req).Sat (fun _ _ => True) (fun t x => req = .token form →
      ∃ y, Token.Gated app.config form code verifier t y ∧ x = Token.caught y) [] := by
    intro req
    by_cases hreq : req = .token form
    · rw [hreq]
      exact (Token.sat_token_gated app.config app.patService hg hcode hverifier ha).mono
        (fun _ _ h => h) (fun _ _ h _ => h)
    · exact (Prog.sat_true _ _).mono (fun _ _ h => h) (fun _ _ _ h => absurd h hreq)
  obtain ⟨t, ht, h⟩ := ended_sat hsat hserves hended
  obtain ⟨y, hy, hx⟩ := h rfl
  exact ⟨t, y, ht, hy, hx⟩

/-- The code of the request `a` that `b` minted is presented with the verifier: before it expires, with a
redirect URI and a client id that fit where they are given, by a process that has ended in `x`. -/
structure Presents (app : App) (c : State) (pid : ℕ) (form : Token.TokenForm) (a : Accepted)
    (b : Returned) (verifier : Str) (x : Except Exc Response) : Prop where
  serves : Serves c pid (.token form)
  grant : form.grantType = some "authorization_code".toList
  code : form.code = some b.tok.text
  verifier : form.codeVerifier = some verifier
  minted : ∃ (past : History) (opened : Reply (.fernetDecrypt b.tok.text none)), b.In app c past a ∧
    (pid, did (.fernetDecrypt b.tok.text none) opened) :: past <:+ c.hist
  fresh : ∀ now : Seconds, (pid, did .time now) ∈ c.hist → now.whole < (b.envelope a).exp
  redirect : ∀ u, form.redirectUri = some u → u = a.validated.redirectUri
  client : ∀ u, form.clientId = some u → u = a.validated.clientId
  ended : Ended c pid x

/-- What the gate decides about a presented code. -/
theorem Presents.gate_eq {form : Token.TokenForm} {a : Accepted} {b : Returned} {verifier : Str}
    {x : Except Exc Response} (h : Presents app (app.run acts) pid form a b verifier x) {now : Seconds}
    (hnow : (pid, did .time now) ∈ (app.run acts).hist) :
    Token.gate app.config form verifier (b.envelope a) now.whole =
      (verifyChallenge verifier a.validated.codeChallenge >>= fun ok =>
        if ok then .ok a.validated.resourceEntry
        else .error (invalidGrant "PKCE code_verifier does not match code_challenge")) := by
  obtain ⟨past, opened, hminted, -⟩ := h.minted
  obtain ⟨past', opening, -, -, -, ha⟩ := hminted.sealed
  have hentry : Token.sealedEntry app.config (b.envelope a).resource "refusing token exchange" =
      .ok a.validated.resourceEntry := by
    have hurl : app.config.resourceByUrl (b.envelope a).resource =
        .ok (some a.validated.resourceEntry) := resourceByUrl_of_pickResource ha.entry
    rw [Token.sealedEntry, hurl, ok_bind]
    rfl
  have hchallenge : (b.envelope a).clientCodeChallenge = a.validated.codeChallenge := rfl
  rw [Token.gate, Token.checkCode_of_matching (h.fresh now hnow) h.redirect h.client, hchallenge]
  cases verifyChallenge verifier a.validated.codeChallenge with
  | error e => rfl
  | ok ok =>
      cases ok with
      | false => rfl
      | true => exact hentry

/-- The code that is presented is the one that is opened and decided about. -/
theorem Presents.decided {form : Token.TokenForm} {a : Accepted} {b : Returned} {verifier : Str}
    {x : Except Exc Response} (h : Presents app (app.run acts) pid form a b verifier x) :
    ∃ t y, Exactly pid t (app.run acts).hist ∧ x = Token.caught y ∧
      Token.Decided app.config form verifier (b.envelope a) t y := by
  obtain ⟨past, opened, hminted, hpresented⟩ := h.minted
  obtain ⟨past', opening, hseal, -⟩ := hminted.sealed
  have hopens := opens_of_seals hseal rfl rfl hpresented
  obtain ⟨t, y, ht, hgated, hx⟩ :=
    gated_of_ended h.serves h.grant h.code h.verifier b.tok.ascii h.ended
  refine ⟨t, y, ht, hx, ?_⟩
  rcases hgated with hnone | ⟨env, hopened, hdecided⟩
  · obtain ⟨now, blob, hm, hr⟩ := hopens
    exact absurd ⟨now, blob, (ht _).mpr (hm.subset List.mem_cons_self), hr⟩ (hnone _)
  · obtain ⟨past'', ho⟩ := hopened.opens ht.within
    rw [opens_unique ho hopens]
    exact hdecided

omit [Platform] in
/-- An OAuth error of the gate. -/
def Refused (x : Except Exc Response) : Prop :=
  ∃ error description : Str, (error = "invalid_grant" ∨ error = "invalid_request") ∧
    x = .ok (.json 400 (errorBody error description) [])

omit [Platform] in
/-- The gate works: the process asks the upstream exactly for the verifier of the challenge, and
otherwise refuses. -/
def GateHolds (c : State) (pid : ℕ) (verifier challenge : Str) (x : Except Exc Response) : Prop :=
  ((∃ r reply, (pid, did (.http r) reply) ∈ c.hist) ↔
    isAscii verifier = true ∧ base64Url (sha256 (utf8 verifier)) = challenge) ∧
  ((∃ r reply, (pid, did (.http r) reply) ∈ c.hist) ∨ Refused x)

/-- **The PKCE gate.**  A code that was minted for an accepted request, presented after that and before
it expires with nothing that contradicts it, meets a working gate exactly when the verifier and the
challenge of the request are both ASCII. -/
theorem pkce_gate_total_iff (app : App) (acts : Schedule) (pid : ℕ) (form : Token.TokenForm)
    (a : Accepted) (b : Returned) (verifier : Str) (x : Except Exc Response)
    (h : Presents app (app.run acts) pid form a b verifier x) :
    GateHolds (app.run acts) pid verifier a.validated.codeChallenge x ↔
      isAscii verifier = true ∧ isAscii a.validated.codeChallenge = true := by
  obtain ⟨t, y, ht, rfl, now, hnow, hdecided⟩ := h.decided
  rw [h.gate_eq ((ht _).mp hnow)] at hdecided
  have hasked : Token.GoesOn t ↔ ∃ r reply, (pid, did (.http r) reply) ∈ (app.run acts).hist :=
    exists_congr (fun r => exists_congr (fun reply => ht _))
  unfold GateHolds
  rw [← hasked]
  by_cases hascii : isAscii verifier = true ∧ isAscii a.validated.codeChallenge = true
  · refine iff_of_true ?_ hascii
    rw [verifyChallenge_of_ascii hascii.1 hascii.2, ok_bind] at hdecided
    by_cases hmatch : base64Url (sha256 (utf8 verifier)) = a.validated.codeChallenge
    · rw [if_pos (beq_iff_eq.mpr hmatch)] at hdecided
      obtain ⟨entry, -, hgo⟩ | ⟨e, he, -⟩ := hdecided
      · exact ⟨iff_of_true hgo ⟨hascii.1, hmatch⟩, .inl hgo⟩
      · cases he
    · rw [if_neg (fun h => hmatch (beq_iff_eq.mp h))] at hdecided
      obtain ⟨entry, he, -⟩ | ⟨e, he, hno, rfl⟩ := hdecided
      · cases he
      · obtain rfl := Except.error.inj he
        exact ⟨iff_of_false hno (fun h => hmatch h.2), .inr ⟨_, _, .inl rfl, rfl⟩⟩
  · refine iff_of_false ?_ hascii
    obtain ⟨e, he, hnot⟩ := verifyChallenge_of_not_ascii hascii
    rw [he, error_bind] at hdecided
    obtain ⟨entry, hok, -⟩ | ⟨e', he', hno, rfl⟩ := hdecided
    · cases hok
    · obtain rfl := Except.error.inj he'
      rintro ⟨-, hgo | ⟨error, description, -, hx⟩⟩
      · exact hno hgo
      · have hcaught : Token.caught (.error e) = .error e := by
          cases e with
          | oauth error description status => exact absurd rfl (hnot error description status)
          | _ => rfl
        rw [hcaught] at hx
        cases hx

/-! ### Two presentations -/

omit [Platform] in
/-- The client redeems its code with the given verifier. -/
def redeemWith (verifier : Str) (steps : ℕ) : Schedule :=
  sampleReturn ++ .start (.token { sampleForm with codeVerifier := some verifier }) ::
    List.replicate steps (.act 3 idleReply)

/-- Whether a form agrees with the code sealed in the bytes, and the code is still good at zero. -/
def agrees (form : Token.TokenForm) (blob : Bytes) : Bool :=
  match readAs blob .code with
  | .ok (.code env) =>
      decide (0 < env.exp) && form.redirectUri == some env.redirectUri &&
        form.clientId == some env.clientId
  | _ => false

omit [Platform] in
/-- Whether every clock of the history stands at zero. -/
def clocksAtZero (h : History) : Bool :=
  h.all (fun e => match e with
    | (_, ⟨.time, now⟩) => decide (Seconds.whole now = 0)
    | _ => true)

/-- Whether the process has ended, the last but `n` of its calls the opening of a code that agrees with
its form. -/
def presents (c : State) (pid n : ℕ) : Bool :=
  match c.procs[pid]?, c.hist.drop n with
  | some ⟨.token form, _, prog⟩, (p, ⟨.fernetDecrypt code none, (_, some blob)⟩) :: _ =>
      decide (p = pid) && decide (form.grantType = some "authorization_code".toList) &&
        decide (form.code = some code) && form.codeVerifier.isSome && agrees form blob &&
        clocksAtZero c.hist &&
        match prog with
        | .call _ _ => false
        | _ => true
  | _, _ => false

theorem presents_of {n : ℕ} (h : presents (app.run acts) pid n = true) :
    ∃ form a b verifier x, Presents app (app.run acts) pid form a b verifier x := by
  unfold presents at h
  split at h
  · next form t prog p code now blob past hproc hdrop =>
      simp only [Bool.and_eq_true, decide_eq_true_eq] at h
      obtain ⟨⟨⟨⟨⟨⟨rfl, hgrant⟩, hcode⟩, hverifier⟩, hagrees⟩, hclocks⟩, hprog⟩ := h
      have hsuffix : (p, did (.fernetDecrypt code none) (now, some blob)) :: past <:+
          (app.run acts).hist := hdrop ▸ List.drop_suffix _ _
      obtain ⟨verifier, hverifier⟩ := Option.isSome_iff_exists.mp hverifier
      unfold agrees at hagrees
      split at hagrees
      · next env henv =>
          simp only [Bool.and_eq_true, decide_eq_true_eq, beq_iff_eq] at hagrees
          obtain ⟨⟨hexp, hredirect⟩, hclient⟩ := hagrees
          have hopens : Opens (app.run acts).hist p code (.code env) past :=
            ⟨now, blob, hsuffix, henv⟩
          obtain ⟨a, b, rfl, rfl, hb⟩ := returned_of_opens hopens List.suffix_rfl
          have hended : ∃ x, Ended (app.run acts) p x := by
            cases prog with
            | ret r => exact ⟨.ok r, _, hproc, rfl⟩
            | raise e => exact ⟨.error e, _, hproc, rfl⟩
            | call o k => cases hprog
          obtain ⟨x, hx⟩ := hended
          refine ⟨form, a, b, verifier, x, ?_⟩
          exact
            { serves := ⟨_, hproc, rfl⟩
              grant := hgrant
              code := hcode
              verifier := hverifier
              minted := ⟨past, _, hb, hsuffix⟩
              fresh := fun now hm => by
                have hz := List.all_eq_true.mp hclocks _ hm
                rw [of_decide_eq_true hz]
                exact hexp
              redirect := fun u hu => Option.some.inj (hu.symm.trans hredirect)
              client := fun u hu => Option.some.inj (hu.symm.trans hclient)
              ended := hx }
      · cases hagrees
  · cases h

omit [Platform] in
/-- Whether the process has ended in an exception without asking the upstream. -/
def raisesUnasked (c : State) (pid : ℕ) : Bool :=
  (match c.procs[pid]? with
    | some ⟨_, _, .raise _⟩ => true
    | _ => false) && c.hist.all (fun e => !(e.1 == pid && e.2.1.isHttp))

omit [Platform] in
theorem not_gateHolds_of_raisesUnasked {c : State} {verifier challenge : Str}
    {x : Except Exc Response} (h : raisesUnasked c pid = true) (hx : Ended c pid x) :
    ¬ GateHolds c pid verifier challenge x := by
  obtain ⟨hraise, hquiet⟩ := Bool.and_eq_true_iff.mp h
  rintro ⟨-, ⟨r, reply, hm⟩ | ⟨error, description, -, rfl⟩⟩
  · have hq := List.all_eq_true.mp hquiet _ hm
    simp [Op.isHttp] at hq
  · obtain ⟨p, hp, hprog⟩ := hx
    obtain ⟨req, t, prog⟩ := p
    obtain rfl : prog = .ret _ := hprog
    rw [hp] at hraise
    cases hraise

end Gate

theorem redeemWith_presents :
    letI := Platform.plain
    presents (logApp.run (redeemWith "dBjftJeZ4CVP-mB92K27uhbUJU1p1r_wW1gFWFOEjXk" 3)) 3 2 = true ∧
      presents (logApp.run (redeemWith "é" 2)) 3 1 = true ∧
      raisesUnasked (logApp.run (redeemWith "é" 2)) 3 = true := by
  decide +kernel

theorem pkce_gate_total_iff_sample :
    letI := Platform.plain
    ∃ form a b verifier x,
      Presents logApp (logApp.run (redeemWith "dBjftJeZ4CVP-mB92K27uhbUJU1p1r_wW1gFWFOEjXk" 3)) 3 form
        a b verifier x ∧
      (GateHolds (logApp.run (redeemWith "dBjftJeZ4CVP-mB92K27uhbUJU1p1r_wW1gFWFOEjXk" 3)) 3 verifier
        a.validated.codeChallenge x ↔
        isAscii verifier = true ∧ isAscii a.validated.codeChallenge = true) := by
  let := Platform.plain
  obtain ⟨form, a, b, verifier, x, h⟩ := presents_of redeemWith_presents.1
  exact ⟨form, a, b, verifier, x, h, pkce_gate_total_iff logApp _ 3 form a b verifier x h⟩

/-- A verifier that is not ASCII ends in an exception. -/
theorem non_ascii_verifier_escapes :
    letI := Platform.plain
    ∃ form a b verifier x, Presents logApp (logApp.run (redeemWith "é" 2)) 3 form a b verifier x ∧
      ¬ GateHolds (logApp.run (redeemWith "é" 2)) 3 verifier a.validated.codeChallenge x := by
  let := Platform.plain
  obtain ⟨form, a, b, verifier, x, h⟩ := presents_of redeemWith_presents.2.1
  exact ⟨form, a, b, verifier, x, h,
    not_gateHolds_of_raisesUnasked redeemWith_presents.2.2 h.ended⟩

end CimdProxy
