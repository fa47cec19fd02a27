import CimdProxy.SecretOutput

/-! # The sign-in and the loopback listener

The command and the requests that reach its listener, in any order: a system of one command and any
number of redirects over the `Receiver`, which keeps the first redirect it accepts.  `Entitled` says what
the command must have in hand when it posts a code, sends the access token or prints a token;
`creates_only_signed_in` that it always has. -/

namespace CimdProxy.PatCli

open Py Effects

/-! ### The listener -/

/-- Who acts: the command, and the requests that reach its listener. -/
inductive Party where
  | command
  | redirect (target : Str)

/-- `LoopbackReceiver`: whether it has been opened, and what it has received. -/
structure Receiver where
  listening : Bool
  received : Option Params

/-- `_accept` keeps the first redirect, `wait` reads it; everything else is as proposed. -/
def Receiver.perform (w : Receiver) : (o : Op) → Reply o → Option (Reply o × Receiver)
  | .listen, port => some (port, { w with listening := true })
  | .accept params, _ =>
      if w.listening then
        match w.received with
        | some _ => some (false, w)
        | none => some (true, { w with received := some params })
      else none
  | .wait _, _ => some (w.received, w)
  | _, r => some (r, w)

variable [Platform]

def signInSystem (ctx : Context) (cmd : Command) : System cliOps CliExc ℕ Party Receiver where
  handler
    | .command => cmd.main ctx
    | .redirect target => doGet target
  init := ⟨false, none⟩
  perform := Receiver.perform

/-- What can happen while the command runs: a request reaches the listener, or somebody goes on. -/
inductive Move where
  | redirect (target : Str)
  | act (pid : ℕ) (propose : (o : Op) → Reply o)

omit [Platform] in
def Move.action : Move → Action cliOps Party
  | .redirect target => .start (.redirect target)
  | .act pid propose => .act pid propose

abbrev SignInRun : Type := Config cliOps CliExc ℕ Party Receiver

/-- A run of one command, which is the process 0. -/
def signInRun (ctx : Context) (cmd : Command) (moves : List Move) : SignInRun :=
  (signInSystem ctx cmd).run (.start .command :: moves.map Move.action)

/-! ### What the command has in hand -/

/-- The redirect answers the sign-in with this state at this issuer, and brings this code. -/
structure Answers (params : Params) (state issuer code : Str) : Prop where
  ours : params.get? "state" = some state
  fromIssuer : ∃ iss, params.get? "iss" = some iss ∧ rstripSlash iss = issuer
  noError : params.get? "error" = none
  brings : params.get? "code" = some code
  nonempty : code ≠ []

/-- The sign-in page was opened, or its URL printed. -/
def Shown (t : Trace cliOps) (url : Str) : Prop :=
  did (.browse url) () ∈ t ∨ did (.stderr ("Sign in at:\n  " ++ url ++ ['\n'])) () ∈ t

/-- The state was made at random and sent with the sign-in page. -/
def StateSent (t : Trace cliOps) (state : Str) : Prop :=
  (∃ b : Reply (.tokenBytes 32), did (.tokenBytes 32) b ∈ t ∧ state = base64Url b.val) ∧
  ∃ page query, Shown t (page ++ '?' :: urlencode query) ∧ ("state".toList, state) ∈ query

/-- The metadata document at the issuer names the issuer and this token endpoint. -/
def Discovered (t : Trace cliOps) (issuer endpoint : Str) : Prop :=
  ∃ (req : Request) (v : JsonValue) (d : Dict), did (.http req) (Outcome.response 200 (.value v)) ∈ t ∧
    req.url = issuer ++ serverMetadata ∧ v.val = .obj d ∧
    rstripSlash (textOr (d.get? "issuer") []) = issuer ∧
    ∃ u, d.get? "token_endpoint" = some (.str u) ∧ endpoint = rstripSlash u

/-- The request redeems the code of the redirect `params` at the token endpoint. -/
def Redeems (t : Trace cliOps) (params : Params) (req : Request) (fields : List (Str × Str)) : Prop :=
  ∃ state issuer code verifier uri clientId, Answers params state issuer code ∧ StateSent t state ∧
    Discovered t issuer req.url ∧
    fields = [("grant_type".toList, "authorization_code".toList), ("code".toList, code),
      ("code_verifier".toList, verifier), ("redirect_uri".toList, uri), ("client_id".toList, clientId)]

/-- The token endpoint has granted this access token. -/
def Granted (t : Trace cliOps) (accessToken : Str) : Prop :=
  accessToken ≠ [] ∧
  ∃ (req : Request) (v : JsonValue) (d : Dict), did (.http req) (Outcome.response 200 (.value v)) ∈ t ∧
    (∃ fields, req.payload = .form fields) ∧ v.val = .obj d ∧
    d.get? "access_token" = some (.str accessToken)

/-- The request goes to the management endpoint of the issuer. -/
def Manages (t : Trace cliOps) (req : Request) : Prop :=
  ∃ issuer endpoint tail, Discovered t issuer endpoint ∧ req.url = issuer ++ "/pat/tokens" ++ tail

def NoForm (t : Trace cliOps) : Prop :=
  ∀ (req : Request) r fields, did (.http req) r ∈ t → req.payload ≠ .form fields

def NoCredentials (t : Trace cliOps) : Prop :=
  ∀ (req : Request) r credentials, did (.http req) r ∈ t →
    ("Authorization".toList, credentials) ∉ req.headers

def NoStdout (t : Trace cliOps) : Prop := ∀ text r, did (.stdout text) r ∉ t

/-- The redirect has been read. -/
def Waited (t : Trace cliOps) : Prop := ∃ timeout r, did (.wait timeout) r ∈ t

/-- What the command has in hand when it makes a call after the calls `t`: `Arrived` says of a redirect
how it came.  A form is a redemption, an `Authorization` header carries the access token, and after the
redirect has been read every request goes to a secure URL. -/
def Entitled (cmd : Command) (t : Trace cliOps) (Arrived : Params → Prop) : Op → Prop
  | .accept _ => False
  | .http req =>
      (∀ fields, req.payload = .form fields →
        NoForm t ∧ SecureUrl req.url ∧ ∃ params, Arrived params ∧ Redeems t params req fields) ∧
      (∀ credentials, ("Authorization".toList, credentials) ∈ req.headers →
        NoCredentials t ∧ SecureUrl req.url ∧ Manages t req ∧
        ∃ accessToken, Granted t accessToken ∧ credentials = "Bearer " ++ accessToken) ∧
      (Waited t → SecureUrl req.url)
  | .stdout text => ∀ args, cmd = .create args →
      NoStdout t ∧ ∃ token, CreatedToken t token ∧ text = token ++ ['\n']
  | _ => True

theorem Entitled.congr {cmd : Command} {t t' : Trace cliOps} {Arrived Arrived' : Params → Prop} {o : Op}
    (h : Entitled cmd t Arrived o) (ht : ∀ c, c ∈ t ↔ c ∈ t')
    (harrived : ∀ params, Arrived params → Arrived' params) : Entitled cmd t' Arrived' o := by
  cases o with
  | http req =>
      simp only [Entitled, NoForm, NoCredentials, Redeems, StateSent, Shown, Discovered, Granted, Manages,
        Waited, ht] at h ⊢
      refine ⟨fun fields hf => ?_, h.2⟩
      obtain ⟨hno, hsecure, params, hp, hrest⟩ := h.1 fields hf
      exact ⟨hno, hsecure, params, harrived params hp, hrest⟩
  | stdout text =>
      simp only [Entitled, NoStdout, CreatedToken, ht] at h ⊢
      exact h
  | accept params => exact h
  | _ => trivial

/-! ### Up to the sign-in -/

section Command

variable {cmd : Command} {t t' : Trace cliOps} {α : Type}

/-- What the command may do, as far as it knows. -/
abbrev Allowed (cmd : Command) (t : Trace cliOps) : Op → Prop :=
  Entitled cmd t fun params => ∃ timeout, did (.wait timeout) (some params : Option Params) ∈ t

/-- Only plain calls so far. -/
abbrev Before (t : Trace cliOps) : Prop := ∀ c ∈ t, Plain c.1

omit [Platform] in
theorem Before.cons (ht : Before t) {o : Op} (ho : Plain o) (r : Reply o) : Before (did o r :: t) :=
  List.forall_mem_cons.mpr ⟨ho, ht⟩

omit [Platform] in
theorem Before.noForm (ht : Before t) : NoForm t := fun _ _ fields hm => (ht _ hm).2.1 fields

omit [Platform] in
theorem Before.noCredentials (ht : Before t) : NoCredentials t :=
  fun _ _ _ hm hc => (ht _ hm).2.2 _ hc rfl

omit [Platform] in
theorem Before.noStdout (ht : Before t) : NoStdout t := fun _ _ hm => ht _ hm

theorem Plain.allowed {o : Op} (ho : Plain o) (ht : Before t) : Allowed cmd t o := by
  cases o with
  | http req =>
      refine ⟨fun fields h => absurd h (ho.2.1 fields), fun _ h => absurd rfl (ho.2.2 _ h), ?_⟩
      rintro ⟨timeout, r, hm⟩
      exact (ht _ hm).elim
  | stdout text => exact ho.elim
  | accept params => exact ho.elim
  | _ => trivial

theorem Same.sat {p : Script α} (hp : Same p) (ht : Before t) :
    p.Sat (Allowed cmd) (fun t' _ => Before t') t := by
  have hplain := Prog.Twin.sat hp (fun o r ho => ⟨.same o r, ho.2.early, ho.2.early⟩) t
  refine (hplain.invariant ht fun t o r ht ho => ht.cons ho.2 r).mono ?_ fun _ _ h => h.1
  rintro t o ⟨ht, -, ho⟩
  exact ho.allowed ht

/-- The document of `_get_json` is the body of a reply with status 200. -/
theorem sat_getJson {step : Step} (hstep : step ≠ .management ∧ step ≠ .redemption) (url : Str)
    (ht : Before t) : (getJson step url).Sat (Allowed cmd) (fun t' x => Before t' ∧
      ∀ d, x = .ok (some d) → ∃ (req : Request) (v : JsonValue),
        did (.http req) (Outcome.response 200 (.value v)) ∈ t' ∧ req.url = url ∧ v.val = .obj d) t := by
  have haccept : ∀ h ∈ [("Accept".toList, "application/json".toList)], h.1 ≠ "Authorization".toList := by
    decide
  have hplain : Plain (.http ⟨step, .get, url, [("Accept", "application/json")], .none⟩) :=
    ⟨hstep, by nofun, haccept⟩
  refine ⟨hplain.allowed ht, fun outcome => ?_⟩
  have hbefore := ht.cons hplain outcome
  cases (outcome : Outcome) with
  | httpError name => exact ⟨hbefore, nofun⟩
  | refused r => exact ⟨hbefore, nofun⟩
  | response status body =>
      change Prog.Sat _ _ (if _ then _ else if _ then _ else _) _
      split_ifs with h404 h200
      · exact ⟨hbefore, nofun⟩
      · exact ⟨hbefore, nofun⟩
      · obtain rfl := not_not.mp h200
        cases body with
        | tooDeep => exact ⟨hbefore, nofun⟩
        | invalid msg => exact ⟨hbefore, nofun⟩
        | value v =>
            dsimp only
            split
            · next d hv =>
                refine ⟨hbefore, fun d' hd => ?_⟩
                obtain rfl := Option.some.inj (Except.ok.inj hd)
                exact ⟨_, v, List.mem_cons_self, rfl, hv⟩
            · exact ⟨hbefore, nofun⟩

/-- The endpoints were read from the metadata of a secure issuer. -/
structure Found (t : Trace cliOps) (e : Endpoints) : Prop where
  issuer : SecureUrl e.issuer
  token : SecureUrl e.token
  document : Discovered t e.issuer e.token

theorem requireSecureMember_eq_ok {d : Dict} {key what v : Str}
    (h : requireSecureMember d key what = .ok v) :
    ∃ u, d.get? key = some (.str u) ∧ SecureUrl u ∧ v = rstripSlash u := by
  unfold requireSecureMember at h
  split at h
  · cases h
  · next u hu => exact ⟨u, hu, requireSecure_eq_ok.mp h⟩
  · cases h
  · cases h
  · split_ifs at h

omit [Platform] in
theorem mapError_eq_ok {f : CliExc → CliExc} {x : Except CliExc α} {a : α}
    (h : Except.mapError f x = .ok a) : x = .ok a := by
  cases x with
  | error e => cases h
  | ok a' => exact h

theorem endpointsOf_eq_ok {issuer : Str} {d : Dict} {e : Endpoints} (h : endpointsOf issuer d = .ok e) :
    e.issuer = issuer ∧ rstripSlash (textOr (d.get? "issuer") []) = issuer ∧
      ∃ u, d.get? "token_endpoint" = some (.str u) ∧ SecureUrl u ∧ e.token = rstripSlash u := by
  unfold endpointsOf at h
  split_ifs at h with hissuer
  obtain ⟨offered, -, h⟩ := bind_eq_ok.mp h
  split_ifs at h with hoffered
  obtain ⟨authorization, -, h⟩ := bind_eq_ok.mp (mapError_eq_ok h)
  obtain ⟨token, htoken, h⟩ := bind_eq_ok.mp h
  obtain ⟨registration, -, h⟩ := bind_eq_ok.mp h
  obtain rfl := Except.ok.inj h
  exact ⟨rfl, not_not.mp hissuer, requireSecureMember_eq_ok htoken⟩

theorem sat_readEndpoints (proxy : Str) (ht : Before t) : (readEndpoints proxy).Sat (Allowed cmd)
    (fun t' x => Before t' ∧ ∀ e, x = .ok e → Found t' e) t := by
  refine Prog.Sat.lift_bind (fun issuer hissuer => ?_) fun e _ => ⟨ht, nofun⟩
  obtain ⟨hsecure, rfl⟩ := requireSecure_eq_ok.mp hissuer
  refine Prog.Sat.bind (sat_getJson ⟨by nofun, by nofun⟩ _ ht) ?_ ?_
  · rintro t' document - ⟨ht', hdocument⟩
    cases document with
    | none => exact ⟨ht', nofun⟩
    | some d =>
        refine (Prog.sat_lift _ _).mpr ⟨ht', fun e he => ?_⟩
        obtain ⟨req, v, hm, hurl, hv⟩ := hdocument d rfl
        obtain ⟨hi, hnamed, u, hu, hutoken, htoken⟩ := endpointsOf_eq_ok he
        refine ⟨?_, ?_, req, v, d, hm, ?_, hv, ?_, u, hu, htoken⟩
        · rw [hi]
          exact secureUrl_rstripSlash hsecure
        · rw [htoken]
          exact secureUrl_rstripSlash hutoken
        · rw [hurl, hi]
        · rw [hnamed, hi]
  · rintro t' e - ⟨ht', -⟩
    exact ⟨ht', nofun⟩

/-! ### The sign-in -/

theorem Discovered.mono {issuer endpoint : Str} (h : Discovered t issuer endpoint) (ht : t ⊆ t') :
    Discovered t' issuer endpoint := by
  obtain ⟨req, v, d, hm, rest⟩ := h
  exact ⟨req, v, d, ht hm, rest⟩

omit [Platform] in
theorem StateSent.mono {state : Str} (h : StateSent t state) (ht : t ⊆ t') : StateSent t' state := by
  obtain ⟨⟨b, hb, hstate⟩, page, query, hshown, hq⟩ := h
  exact ⟨⟨b, ht hb, hstate⟩, page, query, hshown.imp (fun h => ht h) (fun h => ht h), hq⟩

theorem Found.mono {e : Endpoints} (h : Found t e) (ht : t ⊆ t') : Found t' e :=
  ⟨h.issuer, h.token, h.document.mono ht⟩

/-- A secure URL is not empty. -/
theorem secureUrl_ne_nil {u : Str} (h : SecureUrl u) : u ≠ [] := by
  rintro rfl
  obtain ⟨parts, hp, hs⟩ := h
  have hempty : urlsplit [] = .ok ⟨[], [], [], [], []⟩ := rfl
  rw [hempty] at hp
  obtain rfl := Except.ok.inj hp
  exact (isSecure_spec hs).1 rfl

omit [Platform] in
theorem getD_eq_some {x : Option Str} {s : Str} (h : x.getD [] = s) (hs : s ≠ []) : x = some s := by
  cases x with
  | none => exact absurd h.symm hs
  | some s' => exact congrArg some h

omit [Platform] in
/-- What passes `check_redirect` answers this sign-in. -/
theorem answers_of_checkRedirect {params : Params} {state issuer code : Str} (hstate : state ≠ [])
    (hissuer : issuer ≠ []) (h : checkRedirect params state issuer = .ok code) :
    Answers params state issuer code := by
  obtain ⟨same, hsame, h⟩ := bind_eq_ok.mp h
  split_ifs at h with hforeign hiss
  have hours : (params.get? "state").getD [] = state := by
    unfold compareDigest at hsame
    split_ifs at hsame
    · obtain rfl := Except.ok.inj hsame
      simpa using hforeign
    · cases hsame
  obtain ⟨iss, hget⟩ : ∃ iss, params.get? "iss" = some iss := by
    cases hget : params.get? "iss" with
    | some iss => exact ⟨iss, rfl⟩
    | none =>
        rw [hget] at hiss
        exact absurd (not_not.mp hiss).symm hissuer
  rw [hget] at hiss
  cases herror : params.get? "error" with
  | some error =>
      rw [herror] at h
      cases h
  | none =>
      rw [herror] at h
      dsimp only at h
      split at h
      · next c rest hcode =>
          obtain rfl := Except.ok.inj h
          exact ⟨getD_eq_some hours hstate, ⟨iss, hget, not_not.mp hiss⟩, herror, hcode,
            List.cons_ne_nil _ _⟩
      · cases h

/-- The session a sign-in ends in. -/
structure Session (t : Trace cliOps) (s : SignedIn) : Prop where
  issuer : SecureUrl s.endpoints.issuer
  document : Discovered t s.endpoints.issuer s.endpoints.token
  granted : Granted t s.accessToken
  unused : NoCredentials t
  silent : NoStdout t

theorem sat_openBrowser (browser : Browser) (url : Str) (ht : Before t) :
    (openBrowser browser url).Sat (Allowed cmd) (fun t' x => Before t' ∧ (x = .ok () → Shown t' url)) t := by
  have hbrowse : ∀ {t : Trace cliOps}, Before t → (ask (.browse url)).Sat (Allowed cmd)
      (fun t' x => Before t' ∧ (x = .ok () → Shown t' url)) t := by
    intro t ht
    have hplain : Plain (.browse url) := trivial
    exact ⟨trivial, fun _ => ⟨ht.cons hplain _, fun _ => .inl List.mem_cons_self⟩⟩
  have hprint : ∀ text, Plain (.stderr text) := fun _ => trivial
  cases browser with
  | given => exact hbrowse ht
  | printOnly => exact ⟨trivial, fun _ => ⟨ht.cons (hprint _) _, fun _ => .inr List.mem_cons_self⟩⟩
  | default => exact ⟨trivial, fun _ => hbrowse (ht.cons (hprint _) _)⟩

omit [Platform] in
theorem jsonObject_eq_ok {body : Body} {d : Dict} (h : jsonObject body = .ok d) :
    ∃ v, body = .value v ∧ v.val = .obj d := by
  unfold jsonObject at h
  split at h
  · cases h
  · cases h
  · next v =>
      split at h
      · next d' hv => exact ⟨v, rfl, hv.trans (congrArg _ (Except.ok.inj h))⟩
      · cases h

/-- The redemption of a code that came with an answer. -/
theorem sat_redeem {e : Endpoints} {params : Params} {state code : Str} (verifier uri clientId : Str)
    (hfound : Found t e) (hanswers : Answers params state e.issuer code) (hsent : StateSent t state)
    (ht : Before t) (timeout : Timeout) :
    (redeem e code verifier uri clientId).Sat (Allowed cmd) (fun t' x => ∀ s, x = .ok s → Session t' s)
      (did (.wait timeout) (some params : Option Params) :: t) := by
  have hsub := List.subset_cons_self (did (.wait timeout) (some params : Option Params)) t
  have haccept : "Authorization".toList ≠ "Accept".toList := by decide
  have hnoForm : NoForm (did (.wait timeout) (some params : Option Params) :: t) := by
    intro req r fields hm
    rcases List.mem_cons.mp hm with he | hm
    · cases congrArg Sigma.fst he
    · exact ht.noForm req r fields hm
  refine ⟨⟨?_, ?_, fun _ => hfound.token⟩, fun outcome => ?_⟩
  · intro fields hfields
    refine ⟨hnoForm, hfound.token, params, ⟨timeout, List.mem_cons_self⟩, ?_⟩
    exact ⟨state, e.issuer, code, verifier, uri, clientId, hanswers, hsent.mono hsub,
      hfound.document.mono hsub, (Payload.form.inj hfields).symm⟩
  · intro credentials hm
    exact absurd (congrArg Prod.fst (List.mem_singleton.mp hm)) haccept
  · cases (outcome : Outcome) with
    | httpError name => exact nofun
    | refused r => exact nofun
    | response status body =>
        change Prog.Sat _ _ (if _ then _ else _) _
        split_ifs with h200
        · exact Prog.Sat.lift_bind (fun _ _ => nofun) fun _ _ => nofun
        · obtain rfl := not_not.mp h200
          refine Prog.Sat.lift_bind (fun d hd => ?_) fun _ _ => nofun
          split
          · next c accessToken htoken =>
              intro s hs
              obtain rfl := Except.ok.inj hs
              obtain ⟨v, rfl, hv⟩ := jsonObject_eq_ok hd
              refine ⟨hfound.issuer, hfound.document.mono (List.Subset.trans hsub (List.subset_cons_self _ _)),
                ⟨List.cons_ne_nil _ _, _, v, d, List.mem_cons_self, ⟨_, rfl⟩, hv, htoken⟩, ?_, ?_⟩
              · intro req r credentials hm hc
                rcases List.mem_cons.mp hm with he | hm
                · obtain rfl := Op.http.inj (congrArg Sigma.fst he)
                  exact absurd (congrArg Prod.fst (List.mem_singleton.mp hc)) haccept
                · rcases List.mem_cons.mp hm with he | hm
                  · cases congrArg Sigma.fst he
                  · exact ht.noCredentials req r credentials hm hc
              · intro text r hm
                rcases List.mem_cons.mp hm with he | hm
                · cases congrArg Sigma.fst he
                · rcases List.mem_cons.mp hm with he | hm
                  · cases congrArg Sigma.fst he
                  · exact ht.noStdout text r hm
          · exact nofun

omit [Platform] in
theorem base64Url_ne_nil : ∀ {m : Bytes}, m ≠ [] → base64Url m ≠ []
  | [], h => absurd rfl h
  | [_], _ => List.cons_ne_nil _ _
  | [_, _], _ => List.cons_ne_nil _ _
  | _ :: _ :: _ :: _, _ => List.cons_ne_nil _ _

section Calls

omit [Platform]

variable {Q : Trace cliOps → Op → Prop} {R : Trace cliOps → Except CliExc α → Prop}

theorem sat_ask_bind {o : Op} {f : Reply o → Script α} (hq : Q t o)
    (hf : ∀ r, (f r).Sat Q R (did o r :: t)) : ((ask o).bind f).Sat Q R t := ⟨hq, hf⟩

theorem sat_tokenUrlsafe_bind {n : ℕ} {f : Str → Script α} (hq : Q t (.tokenBytes n))
    (hf : ∀ b : Reply (.tokenBytes n), (f (base64Url b.val)).Sat Q R (did (.tokenBytes n) b :: t)) :
    ((tokenUrlsafe n).bind f).Sat Q R t := ⟨hq, hf⟩

/-- A wait that returns, with or without a redirect. -/
theorem sat_wait_bind {timeout : Timeout} {f : Option Params → Script α} (hq : Q t (.wait timeout))
    (hf : ∀ received : Option Params, (f received).Sat Q R (did (.wait timeout) received :: t))
    (hlarge : ∀ e, R (did (.wait timeout) (none : Option Params) :: t) (.error e)) :
    ((wait timeout).bind f).Sat Q R t := by
  refine ⟨hq, fun received => ?_⟩
  cases (received : Option Params) with
  | some params => exact hf (some params)
  | none =>
      change Prog.Sat _ _ (Prog.bind (if _ then _ else _) _) _
      split_ifs
      · exact hlarge _
      · exact hf none

end Calls

omit [Platform] in
theorem same_pkcePair : Same pkcePair := (same_tokenUrlsafe 64).bind fun _ => rfl

/-- `sign_in`: the session comes from the code of a redirect that answers the state it made. -/
theorem sat_signIn {e : Endpoints} (about loginScope : Str) (timeout : Timeout) (browser : Browser)
    (hfound : Found t e) (ht : Before t) : (signIn e about loginScope timeout browser).Sat (Allowed cmd)
      (fun t' x => ∀ s, x = .ok s → Session t' s) t := by
  have hlisten : Plain .listen := trivial
  have hbytes : Plain (.tokenBytes 32) := trivial
  refine sat_ask_bind trivial fun port => ?_
  refine Prog.Sat.bind ((same_register e _).sat (ht.cons hlisten port)) ?_ fun _ _ _ _ => nofun
  intro t₁ clientId hsuf₁ ht₁
  refine Prog.Sat.bind (same_pkcePair.sat ht₁) ?_ fun _ _ _ _ => nofun
  intro t₂ pair hsuf₂ ht₂
  refine sat_tokenUrlsafe_bind trivial fun b => ?_
  refine Prog.Sat.bind (sat_openBrowser browser _ (ht₂.cons hbytes b)) ?_ fun _ _ _ _ => nofun
  rintro t₃ ⟨⟩ hsuf₃ ⟨ht₃, hshown⟩
  have hsub : t ⊆ t₃ := by
    intro c hc
    have h₁ := hsuf₁.subset (List.mem_cons_of_mem _ hc)
    exact hsuf₃.subset (List.mem_cons_of_mem _ (hsuf₂.subset h₁))
  have hsent : StateSent t₃ (base64Url b.val) := by
    refine ⟨⟨b, hsuf₃.subset List.mem_cons_self, rfl⟩, _, _, hshown rfl, ?_⟩
    exact List.mem_append_left _ (by simp)
  refine sat_wait_bind trivial (fun received => ?_) fun _ => nofun
  cases received with
  | none => exact nofun
  | some params =>
      refine Prog.Sat.lift_bind (fun code hcode => ?_) fun _ _ => nofun
      have hissuer : e.issuer ≠ [] := secureUrl_ne_nil hfound.issuer
      have hstate : base64Url b.val ≠ [] := by
        refine base64Url_ne_nil fun hempty => ?_
        have hlength := b.property
        rw [hempty] at hlength
        cases hlength
      exact sat_redeem _ _ _ (hfound.mono hsub) (answers_of_checkRedirect hstate hissuer hcode) hsent ht₃
        timeout

theorem sat_session (ctx : Context) (args : CommonArgs) : (session ctx args).Sat (Allowed cmd)
    (fun t' x => ∀ s, x = .ok s → Session t' s.1) [] := by
  have hstart : Before [] := fun _ hc => nomatch hc
  refine Prog.Sat.lift_bind (fun rs _ => ?_) fun _ _ => nofun
  have hrest : ∀ {t : Trace cliOps}, Before t → ∀ proxy : Str, ((readEndpoints proxy).bind fun endpoints =>
      (signIn endpoints (rs.headD []) args.loginScope args.timeout (browserOf ctx args)).bind
        fun signedIn => .ret (signedIn, rs)).Sat (Allowed cmd)
      (fun t' x => ∀ s, x = .ok s → Session t' s.1) t := by
    intro t ht proxy
    refine Prog.Sat.bind (sat_readEndpoints proxy ht) ?_ fun _ _ _ _ => nofun
    rintro t' e - ⟨ht', hfound⟩
    refine Prog.Sat.bind (sat_signIn _ _ _ _ (hfound e rfl) ht') ?_ fun _ _ _ _ => nofun
    intro t'' s _ hs s' hs'
    obtain rfl := Except.ok.inj hs'
    exact hs s rfl
  have hdiscover : ((discoverProxy (rs.headD [])).bind fun proxy =>
      (readEndpoints proxy).bind fun endpoints =>
      (signIn endpoints (rs.headD []) args.loginScope args.timeout (browserOf ctx args)).bind
        fun signedIn => .ret (signedIn, rs)).Sat (Allowed cmd)
      (fun t' x => ∀ s, x = .ok s → Session t' s.1) [] :=
    Prog.Sat.bind ((same_discoverProxy _).sat hstart) (fun t' proxy _ ht' => hrest ht' proxy)
      fun _ _ _ _ => nofun
  rcases args.proxy with _ | _ | ⟨c, proxy⟩
  · exact hdiscover
  · exact hdiscover
  · exact hrest hstart (c :: proxy)

/-! ### The management request -/

/-- The management request of a session carries its access token to its issuer. -/
theorem Session.allowed {s : SignedIn} (h : Session t s) {step : Step} {method : Method} {tail : Str}
    {payload : Payload} (hpayload : ∀ fields, payload ≠ .form fields) :
    Allowed cmd t (.http ⟨step, method, s.endpoints.patTokens ++ tail, s.headers, payload⟩) := by
  have hsecure : SecureUrl (s.endpoints.patTokens ++ tail) := by
    have happend := secureUrl_append h.issuer ("pat/tokens" ++ tail)
    have hurl : s.endpoints.patTokens ++ tail = s.endpoints.issuer ++ '/' :: ("pat/tokens" ++ tail) :=
      List.append_assoc _ _ _
    rw [hurl]
    exact happend
  refine ⟨fun fields hf => absurd hf (hpayload fields), ?_, fun _ => hsecure⟩
  intro credentials hm
  refine ⟨h.unused, hsecure, ⟨_, _, tail, h.document, rfl⟩, s.accessToken, h.granted, ?_⟩
  exact congrArg Prod.snd (List.mem_singleton.mp hm)

theorem managementRequest_allowed {s : SignedIn × List Str} (h : Session t s.1) :
    Allowed cmd t (.http (cmd.managementRequest s)) := by
  cases cmd with
  | create args =>
      have hreq : Allowed (.create args) t (.http ⟨.management, .post, s.1.endpoints.patTokens ++ [],
          s.1.headers, .json (creationBody args s.2)⟩) := h.allowed nofun
      rw [List.append_nil] at hreq
      exact hreq
  | list args =>
      have hreq : Allowed (.list args) t (.http ⟨.management, .get, s.1.endpoints.patTokens ++ [],
          s.1.headers, .none⟩) := h.allowed nofun
      rw [List.append_nil] at hreq
      exact hreq
  | revoke args => exact h.allowed nofun

omit [Platform] in
/-- The token that is printed is the one of the reply. -/
theorem sat_readCreated {Q : Trace cliOps → Op → Prop} (status : ℕ) (answer : Body) :
    (readCreated status answer).Sat Q (fun t' x => t' = t ∧ ∀ (created : Dict) token,
      x = .ok (created, token) → status = 201 ∧ ∃ v, answer = .value v ∧ v.val = .obj created ∧
        Dict.get? created "token" = some (.str token)) t := by
  unfold readCreated
  split_ifs with hstatus
  · exact Prog.Sat.lift_bind (fun _ _ => ⟨rfl, nofun⟩) fun _ _ => ⟨rfl, nofun⟩
  · refine Prog.Sat.lift_bind (fun d hd => ?_) fun _ _ => ⟨rfl, nofun⟩
    obtain ⟨v, rfl, hv⟩ := jsonObject_eq_ok hd
    split
    · next token htoken =>
        refine ⟨rfl, fun created token' he => ?_⟩
        obtain ⟨rfl, rfl⟩ := Prod.mk.inj (Except.ok.inj he)
        exact ⟨not_not.mp hstatus, v, rfl, hv, htoken⟩
    · exact ⟨rfl, nofun⟩

/-- What a command makes of the answer to its management request. -/
theorem sat_finish {s : SignedIn × List Str} (h : Session t s.1) (status : ℕ) (answer : Body) :
    (cmd.finish (status, answer)).Sat (Allowed cmd) (fun _ _ => True)
      (did (.http (cmd.managementRequest s)) (Outcome.response status answer) :: t) := by
  cases cmd with
  | create args =>
      refine Prog.Sat.bind (sat_readCreated status answer) ?_ fun _ _ _ _ => trivial
      rintro t' ⟨created, token⟩ - ⟨rfl, hread⟩
      obtain ⟨rfl, v, rfl, hv, htoken⟩ := hread created token rfl
      refine Prog.Sat.lift_bind (fun line _ => ?_) fun _ _ => trivial
      refine ⟨trivial, fun _ => ⟨fun _ _ => ⟨?_, token, ?_, rfl⟩, fun _ => trivial⟩⟩
      · intro text r hm
        rcases List.mem_cons.mp hm with he | hm
        · cases congrArg Sigma.fst he
        · rcases List.mem_cons.mp hm with he | hm
          · cases congrArg Sigma.fst he
          · exact h.silent text r hm
      · exact ⟨_, v, created, rfl, rfl, List.mem_cons_of_mem _ List.mem_cons_self, hv, htoken⟩
  | list args =>
      have hread : ∀ t, (readListing status answer).Sat (Allowed (.list args)) (fun _ _ => True) t := by
        intro t
        unfold readListing
        split_ifs
        · exact Prog.Sat.lift_bind (fun _ _ => trivial) fun _ _ => trivial
        · exact Prog.Sat.lift_bind (fun _ _ => (Prog.sat_lift _ _).mpr trivial) fun _ _ => trivial
      refine Prog.Sat.bind (hread _) (fun t' tokens _ _ => ?_) fun _ _ _ _ => trivial
      exact Prog.Sat.lift_bind (fun text _ => ⟨nofun, fun _ => trivial⟩) fun _ _ => trivial
  | revoke args =>
      have hread : ∀ t, (readRevocation status answer).Sat (Allowed (.revoke args)) (fun _ _ => True) t := by
        intro t
        unfold readRevocation
        split_ifs
        · exact Prog.Sat.lift_bind (fun _ _ => trivial) fun _ _ => trivial
        · trivial
      exact Prog.Sat.bind (hread _) (fun t' _ _ _ => ⟨trivial, fun _ => trivial⟩) fun _ _ _ _ => trivial

/-- What `_run` adds is a line on stderr. -/
theorem sat_run (prog : Str) {action : Script Unit} (h : action.Sat (Allowed cmd) (fun _ _ => True) t) :
    (run prog action).Sat (Allowed cmd) (fun _ _ => True) t := by
  refine Prog.Sat.attempt_bind h ?_
  rintro t' (e | ⟨⟩) - -
  · cases e with
    | cliError msg => exact ⟨trivial, fun _ => trivial⟩
    | httpError name => exact ⟨trivial, fun _ => trivial⟩
    | recursionError => trivial
    | raised e => trivial
  · trivial

theorem sat_main (ctx : Context) (cmd : Command) :
    (cmd.main ctx).Sat (Allowed cmd) (fun _ _ => True) [] := by
  have haction : (cmd.action ctx).Sat (Allowed cmd) (fun _ _ => True) [] := by
    rw [action_eq]
    refine Prog.Sat.bind (sat_session ctx cmd.common) ?_ fun _ _ _ _ => trivial
    intro t s _ hs
    have hsession := hs s rfl
    refine ⟨managementRequest_allowed hsession, fun outcome => ?_⟩
    cases (outcome : Outcome) with
    | response status body => exact sat_finish hsession status body
    | httpError name => trivial
    | refused r => trivial
  cases cmd with
  | create args => exact sat_run _ haction
  | list args => exact sat_run _ haction
  | revoke args => exact sat_run _ haction

end Command

/-! ### Any order of redirects -/

/-- The first redirect the listener received, and the request that brought it. -/
def firstReceived (h : List (Event cliOps)) : Option (ℕ × Params) :=
  h.reverse.findSome? (fun e => match e with
    | (pid, ⟨.accept params, _⟩) => some (pid, params)
    | _ => none)

/-- The calls of the command among the events. -/
def ownCalls (past : List (Event cliOps)) : Trace cliOps :=
  (past.filter (fun e => e.1 == 0)).map Prod.snd

/-- The first request for `/callback` that the listener received had these parameters. -/
def FirstCallback (c : SignInRun) (past : List (Event cliOps)) (params : Params) : Prop :=
  ∃ pid target parts, firstReceived past = some (pid, params) ∧
    (c.procs[pid]?).map Proc.req = some (.redirect target) ∧ urlsplit target = .ok parts ∧
    parts.path = callbackPath ∧ params = parseQs parts.query

/-- What the processes may call. -/
def Issues (cmd : Command) : Party → Trace cliOps → Op → Prop
  | .command, t, o => Allowed cmd t o
  | .redirect target, _, o => ∃ parts, urlsplit target = .ok parts ∧ parts.path = callbackPath ∧
      o = .accept (parseQs parts.query)

theorem issues_handler (ctx : Context) (cmd : Command) (party : Party) :
    ((signInSystem ctx cmd).handler party).Sat (Issues cmd party) (fun _ _ => True) [] := by
  cases party with
  | command => exact sat_main ctx cmd
  | redirect target =>
      change (doGet target).Sat _ _ _
      unfold doGet
      cases htarget : urlsplit target with
      | error msg => trivial
      | ok parts =>
          dsimp only
          split_ifs with hpath
          · trivial
          · exact ⟨⟨parts, htarget, not_not.mp hpath, rfl⟩, fun _ => trivial⟩

section Events

omit [Platform]

variable {h h' past : List (Event cliOps)} {c : Call cliOps}

theorem mem_ownCalls : c ∈ ownCalls past ↔ (0, c) ∈ past := by
  simp [ownCalls]

theorem firstReceived_cons (e : Event cliOps) (h : List (Event cliOps)) :
    firstReceived (e :: h) = (firstReceived h).or (firstReceived [e]) := by
  unfold firstReceived
  rw [List.reverse_cons, List.findSome?_append]
  rfl

/-- What has been received stays the first. -/
theorem firstReceived_mono {x : ℕ × Params} (hs : h <:+ h') (hx : firstReceived h = some x) :
    firstReceived h' = some x := by
  obtain ⟨more, rfl⟩ := hs
  induction more with
  | nil => exact hx
  | cons e more ih => rw [List.cons_append, firstReceived_cons, ih, Option.some_or]

theorem mem_of_firstReceived {pid : ℕ} {params : Params} (hx : firstReceived h = some (pid, params)) :
    ∃ r, (pid, did (.accept params) r) ∈ h := by
  obtain ⟨⟨pid', o, r⟩, hm, he⟩ := List.exists_of_findSome?_eq_some hx
  cases o with
  | accept params' =>
      obtain ⟨rfl, rfl⟩ := Prod.mk.inj (Option.some.inj he)
      exact ⟨r, List.mem_reverse.mp hm⟩
  | _ => cases he

/-- The receiver holds the first redirect of the history. -/
theorem received_perform {w w' : Receiver} {pid : ℕ} {o : Op} {prop r : Reply o}
    (hw : w.received = (firstReceived h).map Prod.snd) (hp : w.perform o prop = some (r, w')) :
    w'.received = (firstReceived ((pid, ⟨o, r⟩) :: h)).map Prod.snd := by
  rw [firstReceived_cons]
  cases o with
  | accept params =>
      unfold Receiver.perform at hp
      dsimp only at hp
      split_ifs at hp
      cases hreceived : w.received with
      | some params' =>
          rw [hreceived] at hp hw
          obtain ⟨-, rfl⟩ := Prod.mk.inj (Option.some.inj hp)
          obtain ⟨x, hx, -⟩ := Option.map_eq_some_iff.mp hw.symm
          rw [hx] at hw ⊢
          exact hreceived.trans hw
      | none =>
          rw [hreceived] at hp hw
          obtain ⟨-, rfl⟩ := Prod.mk.inj (Option.some.inj hp)
          rw [Option.map_eq_none_iff.mp hw.symm]
          rfl
  | _ =>
      obtain ⟨-, rfl⟩ := Prod.mk.inj (Option.some.inj hp)
      rw [hw]
      cases firstReceived h <;> rfl

end Events

/-- Process 0 is the command, all through the run. -/
theorem command_first (ctx : Context) (cmd : Command) (moves : List Move) :
    ∃ p, (signInRun ctx cmd moves).procs[0]? = some p ∧ p.req = .command := by
  have hpre : [Action.start Party.command] <+: .start .command :: moves.map Move.action :=
    List.prefix_append [_] _
  obtain ⟨p, hp, hreq, -⟩ := ((signInSystem ctx cmd).run_mono hpre).2 0 _ rfl
  exact ⟨p, hp, hreq⟩

/-- What the wait returns is the first redirect the listener had received by then. -/
theorem waited_first {ctx : Context} {cmd : Command} {moves : List Move} {past : List (Event cliOps)}
    {timeout : Timeout} {params : Params} (hpast : past <:+ (signInRun ctx cmd moves).hist)
    (hm : (0, did (.wait timeout) (some params : Option Params)) ∈ past) :
    ∃ pid, firstReceived past = some (pid, params) := by
  obtain ⟨before, hbefore⟩ := System.exists_past hm
  obtain ⟨w, prop, w', hw, hperform⟩ := (signInSystem ctx cmd).answered
    (I := fun w h => w.received = (firstReceived h).map Prod.snd) rfl
    (fun w h pid o prop r w' => received_perform) (hbefore.trans hpast)
  have hreply : w.received = some params := (Prod.mk.inj (Option.some.inj hperform)).1
  obtain ⟨⟨pid, params'⟩, hx, rfl⟩ := Option.map_eq_some_iff.mp (hw.symm.trans hreply)
  exact ⟨pid, firstReceived_mono ((List.suffix_cons _ _).trans hbefore) hx⟩

/-- A redirect that was received came to `/callback`. -/
theorem firstCallback {ctx : Context} {cmd : Command} {moves : List Move} {past : List (Event cliOps)}
    {pid : ℕ} {params : Params} (hpast : past <:+ (signInRun ctx cmd moves).hist)
    (hx : firstReceived past = some (pid, params)) :
    FirstCallback (signInRun ctx cmd moves) past params := by
  obtain ⟨r, hm⟩ := mem_of_firstReceived hx
  obtain ⟨before, hbefore⟩ := System.exists_past hm
  obtain ⟨p, hp, -, t, hissued, -⟩ := (signInSystem ctx cmd).issued (issues_handler ctx cmd)
    (hbefore.trans hpast)
  have hproc : (signInRun ctx cmd moves).procs[pid]? = some p := hp
  cases hreq : p.req with
  | command =>
      rw [hreq] at hissued
      exact hissued.elim
  | redirect target =>
      rw [hreq] at hissued
      obtain ⟨parts, htarget, hpath, ho⟩ := hissued
      refine ⟨pid, target, parts, hx, ?_, htarget, hpath, Op.accept.inj ho⟩
      rw [hproc, Option.map_some, hreq]

/-- The run shows the command doing only what it is entitled to. -/
def OnlyEntitled (cmd : Command) (c : SignInRun) : Prop :=
  ∀ o r past, (0, did o r) :: past <:+ c.hist → Entitled cmd (ownCalls past) (FirstCallback c past) o

/-- **An aborted sign-in creates nothing.**  In every run of a command, whatever reaches its listener and
in whatever order, and whatever the proxy answers: it posts a form once at most, to redeem the code that
the first `/callback` request brought with its own state and the discovered issuer; it sends an
`Authorization` header once at most, with the access token of that redemption; all that is sent after the
redirect goes to secure URLs; and `pat-create` prints the token of a 201 reply and nothing else. -/
theorem creates_only_signed_in (ctx : Context) (cmd : Command) (moves : List Move) :
    OnlyEntitled cmd (signInRun ctx cmd moves) := by
  intro o r past hs
  have hpast : past <:+ (signInRun ctx cmd moves).hist := (List.suffix_cons _ _).trans hs
  obtain ⟨p, hp, -, t, hallowed, ht⟩ := (signInSystem ctx cmd).issued (issues_handler ctx cmd) hs
  obtain ⟨p', hp', hreq⟩ := command_first ctx cmd moves
  obtain rfl : p = p' := Option.some.inj (hp.symm.trans hp')
  rw [hreq] at hallowed
  refine hallowed.congr (fun c => (ht c).trans mem_ownCalls.symm) ?_
  rintro params ⟨timeout, hm⟩
  obtain ⟨pid, hx⟩ := waited_first hpast ((ht _).mp hm)
  exact firstCallback hpast hx

/-- What the sample command prints, when the redirects of `targets` arrive before it waits. -/
def samplePrints (targets : List Str) : Str :=
  letI := Platform.plain
  let goOn := Move.act 0 (signingIn (granting "token"))
  let arrive := targets.mapIdx (fun i target =>
    [Move.redirect target, Move.act (i + 1) (signingIn (granting "token"))])
  stdoutText (ownCalls (signInRun sampleContext sampleCreate
    (List.replicate 6 goOn ++ arrive.flatten ++ List.replicate 5 goOn)).hist)

def sampleTarget (state : Str) : Str :=
  "/callback?state=" ++ state ++ "&iss=https%3A%2F%2Fproxy.example&code=xyz"

/-- The redirect of the sign-in first, and then a foreign one: the token is printed. -/
example : samplePrints [sampleTarget (List.replicate 43 'A'), sampleTarget "foreign"] = "kmb_pat_x\n" := by
  decide +kernel

/-- The foreign redirect first. -/
example : samplePrints [sampleTarget "foreign", sampleTarget (List.replicate 43 'A')] = [] := by
  decide +kernel

end CimdProxy.PatCli
