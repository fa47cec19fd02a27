import CimdProxy.App

/-! # Runs of the proxy

The specifications of the endpoints, put together: `handler_sat` says what every request may do and
how it may end.  The lemmas after it say what that means for the history of a run.

* `decrypted_encrypted`: what Fernet opens was encrypted earlier in the run.
* `encrypted_minted`: what was encrypted is an envelope that an endpoint had reason to mint.
* `opened_minted`: the two together, for a string that was opened as an envelope.
* `cached_fetched`: a document in the cache was fetched earlier in the run. -/

namespace CimdProxy

open Py Effects

variable [Platform] (app : App)

/-! ### What a request may do -/

/-- The envelopes a request may mint. -/
def App.Mints : Req → Trace proxyOps → Envelope → Prop
  | .register body => Register.Mints body
  | .authorize params => Authorize.Mints app.config params
  | .callback params => Callback.Mints params
  | .token form => Token.Mints app.config form
  | _ => fun _ _ => False

/-- What a request may do otherwise. -/
def App.Acts : Req → Trace proxyOps → Op → Prop
  | .register _ => Reads
  | .authorize _ => Reads
  | .callback _ => Reads
  | .token form => Token.Acts app.config app.patService form
  | .createToken authorization body => fun t o => ∃ svc, app.patService = some svc ∧
      svc.CreateActs authorization (PatApi.bodyOrNone body) t o
  | .listTokens authorization => fun t o => ∃ svc, app.patService = some svc ∧
      svc.ListActs authorization t o
  | .revokeToken _ authorization => fun t o => ∃ svc, app.patService = some svc ∧
      svc.RevokeActs authorization t o

/-- How a management request ends: the caller was authenticated, or the answer is a refusal. -/
def App.Manages (authorization : Option Str) (t : Trace proxyOps) (x : Except Exc Response) : Prop :=
  (∃ svc caller, app.patService = some svc ∧ svc.Authenticated authorization t caller) ∨
  ∀ r, x = .ok r → 400 ≤ r.status

/-- How a request may end. -/
def App.Concludes : Req → Trace proxyOps → Except Exc Response → Prop
  | .register _ => Register.Concludes
  | .authorize params => Authorize.Concludes app.config params
  | .callback params => Callback.Concludes params
  | .token form => Token.Concludes app.config form
  | .createToken authorization _ => app.Manages authorization
  | .listTokens authorization => app.Manages authorization
  | .revokeToken _ authorization => app.Manages authorization

/-- The local specification of a request. -/
def App.Issues (req : Req) : Trace proxyOps → Op → Prop := Conduct (app.Mints req) (app.Acts req)

/-- An operation of the token service behind its endpoint. -/
theorem sat_answer {α : Type} {svc : PatService} (hsvc : app.patService = some svc)
    {authorization : Option Str} {S : Trace proxyOps → Op → Prop}
    {mints : Trace proxyOps → Envelope → Prop} {acts : Trace proxyOps → Op → Prop} {p : Run α}
    (hp : p.Sat S (svc.Manages authorization) []) (hS : ∀ t o, S t o → o.isSeal = false)
    (hacts : ∀ t o, S t o → acts t o) (f : α → Response) :
    (PatApi.answer p f).Sat (Conduct mints acts) (app.Manages authorization) [] := by
  refine Prog.Sat.attempt_bind (sat_acts hp .nil hS hacts) ?_
  rintro t x _ ⟨-, ⟨caller, hc⟩ | ⟨e, rfl, he⟩⟩
  · have hdone : ∀ y, app.Manages authorization t y := fun y => .inl ⟨svc, caller, hsvc, hc⟩
    split <;> exact hdone _
  · split
    · next h => cases h
    · next status error description h =>
        cases h
        exact .inr (fun r hr => by rw [← Except.ok.inj hr]; exact he)
    · next error description status h =>
        cases h
        exact .inr (fun r hr => by rw [← Except.ok.inj hr]; exact he)
    · exact .inr (fun r hr => nomatch hr)

/-- A management route, with or without the service. -/
theorem sat_manage {authorization : Option Str} {mints : Trace proxyOps → Envelope → Prop}
    {acts : Trace proxyOps → Op → Prop} {route : PatService → Run Response}
    (h : ∀ svc, app.patService = some svc →
      (route svc).Sat (Conduct mints acts) (app.Manages authorization) []) :
    (app.manage route).Sat (Conduct mints acts) (app.Manages authorization) [] := by
  unfold App.manage
  split
  · next svc hsvc => exact h svc hsvc
  · exact .inr (fun r hr => by rw [← Except.ok.inj hr]; exact (by decide : 400 ≤ 404))

/-- **Every request meets its specification.** -/
theorem handler_sat (req : Req) : (app.handler req).Sat (app.Issues req) (app.Concludes req) [] := by
  cases req with
  | register body => exact Register.sat_register body
  | authorize params => exact Authorize.sat_authorize app.config params
  | callback params => exact Callback.sat_callback app.config params
  | token form => exact Token.sat_token app.config app.patService form
  | createToken authorization body =>
      refine sat_manage app (fun svc hsvc => ?_)
      exact sat_answer app hsvc (svc.sat_createFlow authorization _) (fun _ _ h => h.not_seal)
        (fun _ _ h => ⟨svc, hsvc, h⟩) _
  | listTokens authorization =>
      refine sat_manage app (fun svc hsvc => ?_)
      exact sat_answer app hsvc (svc.sat_listFlow authorization) (fun _ _ h => h.not_seal)
        (fun _ _ h => ⟨svc, hsvc, h⟩) _
  | revokeToken tokenId authorization =>
      refine sat_manage app (fun svc hsvc => ?_)
      exact sat_answer app hsvc (svc.sat_revokeFlow tokenId authorization) (fun _ _ h => h.not_seal)
        (fun _ _ h => ⟨svc, hsvc, h⟩) _

/-! Each statement on the table belongs to one route. -/

/-- The route behind a statement, and what its specification asks there. -/
def App.Tables (req : Req) (t : Trace proxyOps) : Op → Prop
  | .insert record hash => ∃ svc authorization body, app.patService = some svc ∧
      req = .createToken authorization body ∧
      svc.CreateActs authorization (PatApi.bodyOrNone body) t (.insert record hash)
  | .listForOwner realm owner => ∃ svc authorization, app.patService = some svc ∧
      req = .listTokens authorization ∧ svc.ListActs authorization t (.listForOwner realm owner)
  | .revoke realm owner id => ∃ svc tokenId authorization, app.patService = some svc ∧
      req = .revokeToken tokenId authorization ∧
      svc.RevokeActs authorization t (.revoke realm owner id)
  | .findByHash hash => ∃ svc form, app.patService = some svc ∧ req = .token form ∧
      form.grantType = some tokenExchange ∧ svc.ExchangeActs form.exchangeParams t (.findByHash hash)
  | .touch id usedAt => ∃ svc form, app.patService = some svc ∧ req = .token form ∧
      form.grantType = some tokenExchange ∧ svc.ExchangeActs form.exchangeParams t (.touch id usedAt)
  | _ => True

variable {app}

/-- Reading is no statement on the table. -/
theorem Reads.tables {req : Req} {t : Trace proxyOps} {o : Op} (h : Reads t o) :
    app.Tables req t o := by
  cases o <;> trivial

theorem tables_token {form : Token.TokenForm} {t : Trace proxyOps} {o : Op}
    (h : Token.Acts app.config app.patService form t o) : app.Tables (.token form) t o := by
  rcases h with h | ⟨-, r, entry, rfl, -⟩ | ⟨svc, hsvc, hgrant, h⟩
  · exact h.tables
  · trivial
  · cases o with
    | findByHash hash => exact ⟨svc, form, hsvc, rfl, hgrant, h⟩
    | touch id usedAt => exact ⟨svc, form, hsvc, rfl, hgrant, h⟩
    | _ => trivial

/-- **A statement on the table is issued by its route.** -/
theorem App.Issues.tables {req : Req} {t : Trace proxyOps} {o : Op} (h : app.Issues req t o) :
    app.Tables req t o := by
  cases hseal : o.isSeal with
  | true => cases o <;> trivial
  | false =>
      have hacts : app.Acts req t o := Conduct.allowed h hseal
      cases req with
      | register body => exact Reads.tables hacts
      | authorize params => exact Reads.tables hacts
      | callback params => exact Reads.tables hacts
      | token form => exact tables_token hacts
      | createToken authorization body =>
          obtain ⟨svc, hsvc, hacts⟩ := hacts
          cases o with
          | insert record hash => exact ⟨svc, authorization, body, hsvc, rfl, hacts⟩
          | _ => trivial
      | listTokens authorization =>
          obtain ⟨svc, hsvc, hacts⟩ := hacts
          cases o with
          | listForOwner realm owner => exact ⟨svc, authorization, hsvc, rfl, hacts⟩
          | _ => trivial
      | revokeToken tokenId authorization =>
          obtain ⟨svc, hsvc, hacts⟩ := hacts
          cases o with
          | revoke realm owner id => exact ⟨svc, tokenId, authorization, hsvc, rfl, hacts⟩
          | _ => trivial

/-! ### States and histories -/

/-- A history of the proxy, newest first. -/
abbrev History : Type := List (Event proxyOps)

/-- A state of the running proxy. -/
abbrev State : Type := Effects.Config proxyOps Exc Response Req World

/-- What a schedule does. -/
abbrev Schedule : Type := List (Action proxyOps Req)

/-- The state a schedule leads to. -/
def App.run (acts : Schedule) : State := (proxy app).run acts

/-- The process with the given number serves the request. -/
def Serves (c : State) (pid : ℕ) (req : Req) : Prop := ∃ p, c.procs[pid]? = some p ∧ p.req = req

/-- The process has ended, with a response or an exception. -/
def Ended (c : State) (pid : ℕ) (x : Except Exc Response) : Prop :=
  ∃ p, c.procs[pid]? = some p ∧ p.prog = .lift x

/-- The request has been answered. -/
abbrev Answered (c : State) (pid : ℕ) (r : Response) : Prop := Ended c pid (.ok r)

variable {acts : Schedule}

omit [Platform] in
theorem Serves.unique {c : State} {pid : ℕ} {req req' : Req} (h : Serves c pid req)
    (h' : Serves c pid req') : req = req' := by
  obtain ⟨p, hp, rfl⟩ := h
  obtain ⟨p', hp', rfl⟩ := h'
  rw [Option.some.inj (hp.symm.trans hp')]

/-- The calls of a trace, as events of a process. -/
def Within (pid : ℕ) (t : Trace proxyOps) (h : History) : Prop := ∀ c ∈ t, (pid, c) ∈ h

omit [Platform] in
theorem Within.mono {pid : ℕ} {t : Trace proxyOps} {h h' : History} (ht : Within pid t h)
    (hs : h <:+ h') : Within pid t h' := fun c hc => hs.subset (ht c hc)

/-- The trace consists of the calls of the process. -/
def Exactly (pid : ℕ) (t : Trace proxyOps) (h : History) : Prop := ∀ c, c ∈ t ↔ (pid, c) ∈ h

omit [Platform] in
theorem Exactly.within {pid : ℕ} {t : Trace proxyOps} {h : History} (ht : Exactly pid t h) :
    Within pid t h := fun c hc => (ht c).mp hc

/-- What a process issues, its request allows. -/
theorem issues {pid : ℕ} {o : Op} {r : Reply o} {past : History}
    (h : (pid, did o r) :: past <:+ (app.run acts).hist) :
    ∃ req t, Serves (app.run acts) pid req ∧ app.Issues req t o ∧ Exactly pid t past := by
  obtain ⟨p, hp, -, t, hq, ht⟩ := (proxy app).issued (handler_sat app) h
  exact ⟨p.req, t, ⟨p, hp, rfl⟩, hq, ht⟩

/-! ### Fernet -/

/-- Every entry of the log comes from an encryption in the history. -/
def LogExplained (w : World) (h : History) : Prop :=
  ∀ s ∈ w.fernet, ∃ (pid : ℕ) (token : FernetToken),
    (pid, did (.fernetEncrypt s.blob) token) ∈ h ∧ token.text = s.token ∧ token.stamp = s.stamp

omit [Platform] in
theorem LogExplained.perform {w w' : World} {h : History} {pid : ℕ} {o : Op} {p r : Reply o}
    (hw : LogExplained w h) (hp : w.perform o p = some (r, w')) :
    LogExplained w' ((pid, did o r) :: h) := by
  intro s hs
  have old : s ∈ w.fernet → ∃ (pid' : ℕ) (token : FernetToken),
      (pid', did (.fernetEncrypt s.blob) token) ∈ (pid, did o r) :: h ∧ token.text = s.token ∧
        token.stamp = s.stamp := by
    intro hs
    obtain ⟨pid', token, hm, ht⟩ := hw s hs
    exact ⟨pid', token, List.mem_cons_of_mem _ hm, ht⟩
  rcases World.perform_fernet hp with he | ⟨blob, token, hcall, -, he⟩
  · exact old (he ▸ hs)
  · rw [he] at hs
    rcases List.mem_cons.mp hs with rfl | hs
    · exact ⟨pid, token, by rw [hcall]; exact List.mem_cons_self, rfl, rfl⟩
    · exact old hs

/-- **What Fernet opens was encrypted earlier**, and is within its time-to-live. -/
theorem decrypted_encrypted {pid : ℕ} {token : Str} {ttl : Option ℕ} {now : ℤ} {blob : Bytes}
    {past : History}
    (h : (pid, did (.fernetDecrypt token ttl) (now, some blob)) :: past <:+ (app.run acts).hist) :
    ∃ (pid' : ℕ) (tok : FernetToken) (past' : History),
      (pid', did (.fernetEncrypt blob) tok) :: past' <:+ past ∧ tok.text = token ∧
        withinTtl ttl tok.stamp now = true := by
  obtain ⟨w, prop, w', hw, hp⟩ := (proxy app).answered (I := LogExplained)
    (fun s hs => nomatch hs) (fun w h pid o p r w' hw hp => hw.perform hp) h
  obtain ⟨hr, rfl⟩ := Prod.mk.inj (Option.some.inj hp)
  obtain ⟨rfl, hopen⟩ := Prod.mk.inj hr
  unfold fernetOpen at hopen
  split at hopen
  · cases hopen
  · next s hs =>
      split_ifs at hopen with httl
      obtain rfl := Option.some.inj hopen
      obtain ⟨pid', tok, hm, htext, hstamp⟩ := hw s (List.mem_of_find?_eq_some hs)
      obtain ⟨past', hpast⟩ := System.exists_past hm
      refine ⟨pid', tok, past', hpast, ?_, hstamp ▸ httl⟩
      rw [htext]
      simpa using List.find?_some hs

/-- Every encryption of the history is in the log. -/
def LogKeeps (w : World) (h : History) : Prop :=
  ∀ (pid : ℕ) (blob : Bytes) (tok : FernetToken), (pid, did (.fernetEncrypt blob) tok) ∈ h →
    ∃ s, w.fernet.find? (fun x => x.token == tok.text) = some s ∧ s.blob = blob ∧ s.stamp = tok.stamp

omit [Platform] in
theorem LogKeeps.perform {w w' : World} {h : History} {pid : ℕ} {o : Op} {p r : Reply o}
    (hw : LogKeeps w h) (hp : w.perform o p = some (r, w')) :
    LogKeeps w' ((pid, did o r) :: h) := by
  intro pid' blob tok hm
  rcases List.mem_cons.mp hm with he | hm
  · obtain ⟨-, hcall⟩ := Prod.mk.inj he
    cases hcall
    obtain ⟨s, hb, -, hst, hfind⟩ := World.perform_fernetEncrypt hp
    exact ⟨s, hfind, hb, hst⟩
  · obtain ⟨s, hfind, hs⟩ := hw pid' blob tok hm
    exact ⟨s, World.perform_find? hp hfind, hs⟩

theorem run_logKeeps (acts : Schedule) : LogKeeps (app.run acts).world (app.run acts).hist :=
  (proxy app).world_induction (I := LogKeeps) (fun _ _ _ h => nomatch h)
    (fun _ _ _ _ _ _ _ hw hp => hw.perform hp) acts

/-- A text was encrypted once: it stands for one blob and one timestamp. -/
theorem encrypted_unique {pid pid' : ℕ} {blob blob' : Bytes} {tok tok' : FernetToken}
    (h : (pid, did (.fernetEncrypt blob) tok) ∈ (app.run acts).hist)
    (h' : (pid', did (.fernetEncrypt blob') tok') ∈ (app.run acts).hist)
    (htext : tok.text = tok'.text) : blob = blob' ∧ tok.stamp = tok'.stamp := by
  obtain ⟨s, hs, rfl, hst⟩ := run_logKeeps acts pid blob tok h
  obtain ⟨s', hs', rfl, hst'⟩ := run_logKeeps acts pid' blob' tok' h'
  rw [htext, hs'] at hs
  obtain rfl := Option.some.inj hs
  exact ⟨rfl, hst.symm.trans hst'⟩

/-- The process `pid` sealed the envelope `e` as `tok`, after the events `past`. -/
def Seals (h : History) (pid : ℕ) (e : Envelope) (tok : FernetToken) (past : History) : Prop :=
  e.WF ∧ ∃ blob, e.blob = some blob ∧ (pid, did (.fernetEncrypt blob) tok) :: past <:+ h

omit [Platform] in
theorem Seals.mono {h h' : History} {pid : ℕ} {e : Envelope} {tok : FernetToken} {past : History}
    (hs : Seals h pid e tok past) (hh : h <:+ h') : Seals h' pid e tok past := by
  obtain ⟨hwf, blob, hb, hm⟩ := hs
  exact ⟨hwf, blob, hb, hm.trans hh⟩

/-- The process `pid` opened `token` as the envelope `e`, after the events `past`. -/
def Opens (h : History) (pid : ℕ) (token : Str) (e : Envelope) (past : History) : Prop :=
  ∃ now blob, (pid, did (.fernetDecrypt token e.kind.ttl) (now, some blob)) :: past <:+ h ∧
    readAs blob e.kind = .ok e

theorem Opened.opens {t : Trace proxyOps} {token : Str} {e : Envelope} {pid : ℕ} {h : History}
    (ho : Opened t token e) (ht : Within pid t h) : ∃ past, Opens h pid token e past := by
  obtain ⟨now, blob, hm, hr⟩ := ho
  obtain ⟨past, hpast⟩ := System.exists_past (ht _ hm)
  exact ⟨past, now, blob, hpast, hr⟩

/-- **What is encrypted is an envelope that the endpoint had reason to mint.** -/
theorem encrypted_minted {pid : ℕ} {blob : Bytes} {tok : FernetToken} {past : History}
    (h : (pid, did (.fernetEncrypt blob) tok) :: past <:+ (app.run acts).hist) :
    ∃ req e t, Serves (app.run acts) pid req ∧ e.WF ∧ e.blob = some blob ∧ app.Mints req t e ∧
      Within pid t past := by
  obtain ⟨req, t, hreq, ⟨-, e, hwf, hb, hm⟩, ht⟩ := issues h
  exact ⟨req, e, t, hreq, hwf, hb, hm, ht.within⟩

/-- **What is opened was minted**: the opened envelope is the minted one, but for the order of the
members in a value from the upstream. -/
theorem opened_minted {pid : ℕ} {token : Str} {e : Envelope} {h past : History}
    (ho : Opens h pid token e past) (hh : h <:+ (app.run acts).hist) :
    ∃ pid' req e' tok past' t, Serves (app.run acts) pid' req ∧ Seals past pid' e' tok past' ∧
      tok.text = token ∧ e = e'.reread ∧ app.Mints req t e' ∧ Within pid' t past' := by
  obtain ⟨now, blob, hm, hr⟩ := ho
  obtain ⟨pid', tok, past', hs, htext, -⟩ := decrypted_encrypted (hm.trans hh)
  have hpast : past <:+ (app.run acts).hist := ((List.suffix_cons _ _).trans hm).trans hh
  obtain ⟨req, e', t, hreq, hwf, hb, hmint, ht⟩ := encrypted_minted (hs.trans hpast)
  refine ⟨pid', req, e', tok, past', t, hreq, ⟨hwf, blob, hb, hs⟩, htext, ?_, hmint, ht⟩
  rw [readAs_blob hwf hb] at hr
  split_ifs at hr
  exact (Except.ok.inj hr).symm

/-- Two envelopes under one blob read the same. -/
theorem reread_eq_of_blob {e e' : Envelope} {blob : Bytes} (hwf : e.WF) (hwf' : e'.WF)
    (h : e.blob = some blob) (h' : e'.blob = some blob) : e.reread = e'.reread := by
  have h₁ := readAs_blob hwf h e'.kind
  rw [readAs_blob hwf' h', if_pos rfl] at h₁
  split_ifs at h₁
  exact (Except.ok.inj h₁).symm

/-! Which endpoint mints which kind. -/

/-- The kind of envelope a request can mint. -/
def Req.mintedKind : Req → Option Kind
  | .register _ => some .registration
  | .authorize _ => some .authorize
  | .callback _ => some .code
  | .token _ => some .refresh
  | _ => none

theorem mintedKind_of_mints {req : Req} {t : Trace proxyOps} {e : Envelope} (h : app.Mints req t e) :
    req.mintedKind = some e.kind := by
  cases req with
  | register body =>
      obtain ⟨r, rfl, -⟩ := h
      rfl
  | authorize params =>
      obtain ⟨v, cid, verifier, now, rfl, -⟩ := h
      rfl
  | callback params =>
      obtain ⟨state, code, env, now, -, -, rfl, -⟩ := h
      rfl
  | token form =>
      obtain ⟨entry, r, d, v, c, rfl, -⟩ := h
      rfl
  | createToken authorization body => exact h.elim
  | listTokens authorization => exact h.elim
  | revokeToken tokenId authorization => exact h.elim

theorem mints_authorize {req : Req} {t : Trace proxyOps} {e : AuthorizeEnvelope}
    (h : app.Mints req t (.authorize e)) :
    ∃ params, req = .authorize params ∧ Authorize.Mints app.config params t (.authorize e) := by
  have hk := mintedKind_of_mints h
  cases req with
  | authorize params => exact ⟨params, rfl, h⟩
  | _ => cases hk

theorem mints_code {req : Req} {t : Trace proxyOps} {e : CodeEnvelope} (h : app.Mints req t (.code e)) :
    ∃ params, req = .callback params ∧ Callback.Mints params t (.code e) := by
  have hk := mintedKind_of_mints h
  cases req with
  | callback params => exact ⟨params, rfl, h⟩
  | _ => cases hk

theorem mints_refresh {req : Req} {t : Trace proxyOps} {e : RefreshEnvelope}
    (h : app.Mints req t (.refresh e)) :
    ∃ form, req = .token form ∧ Token.Mints app.config form t (.refresh e) := by
  have hk := mintedKind_of_mints h
  cases req with
  | token form => exact ⟨form, rfl, h⟩
  | _ => cases hk

theorem mints_registration {req : Req} {t : Trace proxyOps} {e : RegistrationEnvelope}
    (h : app.Mints req t (.registration e)) :
    ∃ body, req = .register body ∧ Register.Mints body t (.registration e) := by
  have hk := mintedKind_of_mints h
  cases req with
  | register body => exact ⟨body, rfl, h⟩
  | _ => cases hk

/-- A process that has sealed something is done, and ended by its specification. -/
theorem sealed_ended {pid : ℕ} {req : Req} {blob : Bytes} {tok : FernetToken}
    (hreq : Serves (app.run acts) pid req)
    (hm : (pid, did (.fernetEncrypt blob) tok) ∈ (app.run acts).hist) :
    ∃ t, did (.fernetEncrypt blob) tok ∈ t ∧ Within pid t (app.run acts).hist ∧
      ((∃ r, Answered (app.run acts) pid r ∧ app.Concludes req t (.ok r)) ∨
        ∃ e, app.Concludes req t (.error e)) := by
  obtain ⟨p, hp, hin⟩ := ((proxy app).trace_iff_hist acts pid _).mp hm
  obtain ⟨p', hp', rfl⟩ := hreq
  obtain rfl := Option.some.inj (hp.symm.trans hp')
  refine ⟨p.trace, hin, fun c hc => ((proxy app).trace_iff_hist acts pid c).mpr ⟨p, hp, hc⟩, ?_⟩
  rcases (proxy app).ended (handler_sat app) hp with ⟨r, hr, hc⟩ | ⟨e, he, hc⟩ | ⟨o, k, -, hq⟩
  · exact .inl ⟨r, ⟨p, hp, hr⟩, hc⟩
  · exact .inr ⟨e, hc⟩
  · exact absurd hin (hq.1.not_mem _ rfl)

/-- A process that has ended meets every specification of the requests. -/
theorem ended_sat {Q : Req → Trace proxyOps → Op → Prop}
    {R : Req → Trace proxyOps → Except Exc Response → Prop}
    (hsat : ∀ req, (app.handler req).Sat (Q req) (R req) []) {pid : ℕ} {req : Req}
    {x : Except Exc Response} (hreq : Serves (app.run acts) pid req)
    (hx : Ended (app.run acts) pid x) :
    ∃ t, Exactly pid t (app.run acts).hist ∧ R req t x := by
  obtain ⟨p, hp, hprog⟩ := hx
  obtain ⟨p', hp', rfl⟩ := hreq
  obtain rfl := Option.some.inj (hp.symm.trans hp')
  refine ⟨p.trace, fun c => ?_, ?_⟩
  · refine Iff.trans ?_ ((proxy app).trace_iff_hist acts pid c).symm
    constructor
    · exact fun hc => ⟨p, hp, hc⟩
    · rintro ⟨p'', hp'', hc⟩
      rw [Option.some.inj (hp.symm.trans hp'')]
      exact hc
  · have h := (proxy app).procs_sat hsat acts p (List.mem_of_getElem? hp)
    rw [hprog] at h
    exact (Prog.sat_lift _ _).mp h

/-- It did so by its own. -/
theorem ended_concludes {pid : ℕ} {req : Req} {x : Except Exc Response}
    (hreq : Serves (app.run acts) pid req) (hx : Ended (app.run acts) pid x) :
    ∃ t, Exactly pid t (app.run acts).hist ∧ app.Concludes req t x :=
  ended_sat (handler_sat app) hreq hx

/-! ### The document cache -/

/-- What a request puts into the cache, it fetched. -/
theorem puts_fetched {req : Req} {t : Trace proxyOps} {key : Str} {value : CimdDocument} {ttl : ℤ}
    (h : app.Acts req t (.cachePut key value ttl)) : FetchedIn t key value := by
  cases req with
  | register body => exact h
  | authorize params => exact h
  | callback params => exact h
  | token form =>
      rcases h with h | ⟨-, r, entry, h, -⟩ | ⟨s, -, -, h⟩
      · exact h
      · cases h
      · exact h.elim
  | createToken authorization body => exact h.elim fun _ h => h.2.elim
  | listTokens authorization => exact h.elim fun _ h => h.2.elim
  | revokeToken tokenId authorization => exact h.elim fun _ h => h.2.elim

/-- Every entry of the cache comes from a write in the history. -/
def CacheExplained (w : World) (h : History) : Prop :=
  ∀ e ∈ w.cache, ∃ (pid : ℕ) (ttl : ℤ) (now : ℚ), (pid, did (.cachePut e.key e.value ttl) now) ∈ h

omit [Platform] in
theorem mem_of_mem_cacheRead {entries : List CacheEntry} {key : Str} {now : ℚ} {e : CacheEntry}
    (h : e ∈ (cacheRead entries key now).2) : e ∈ entries := by
  unfold cacheRead at h
  split at h
  · exact h
  · split_ifs at h
    · exact List.mem_of_mem_filter h
    · exact h

omit [Platform] in
theorem CacheExplained.perform {w w' : World} {h : History} {pid : ℕ} {o : Op} {p r : Reply o}
    (hw : CacheExplained w h) (hp : w.perform o p = some (r, w')) :
    CacheExplained w' ((pid, did o r) :: h) := by
  intro e he
  have old : e ∈ w.cache → ∃ (pid' : ℕ) (ttl : ℤ) (now : ℚ),
      (pid', did (.cachePut e.key e.value ttl) now) ∈ (pid, did o r) :: h := by
    intro he
    obtain ⟨pid', ttl, now, hm⟩ := hw e he
    exact ⟨pid', ttl, now, List.mem_cons_of_mem _ hm⟩
  rcases World.perform_cache hp with hc | ⟨key, now, -, hc⟩ | ⟨key, value, ttl, now, hcall, hc⟩
  · exact old (hc ▸ he)
  · rw [hc] at he
    exact old (mem_of_mem_cacheRead he)
  · rw [hc] at he
    unfold cacheWrite at he
    split_ifs at he
    · exact old he
    · rcases List.mem_cons.mp he with rfl | he
      · exact ⟨pid, ttl, now, by rw [hcall]; exact List.mem_cons_self⟩
      · exact old (List.mem_of_mem_filter he)

/-- **A document in the cache was fetched earlier**, from the URL it is kept under. -/
theorem cached_fetched {pid : ℕ} {key : Str} {now : ℚ} {doc : CimdDocument} {past : History}
    (h : (pid, did (.cacheGet key) (now, some doc)) :: past <:+ (app.run acts).hist) :
    ∃ pid' t, FetchedIn t key doc ∧ Within pid' t past := by
  obtain ⟨w, prop, w', hw, hp⟩ := (proxy app).answered (I := CacheExplained)
    (fun s hs => nomatch hs) (fun w h pid o p r w' hw hp => hw.perform hp) h
  obtain ⟨hr, -⟩ := Prod.mk.inj (Option.some.inj hp)
  obtain ⟨rfl, hread⟩ := Prod.mk.inj hr
  unfold cacheRead at hread
  split at hread
  · cases hread
  · next e he =>
      split_ifs at hread
      · obtain rfl := Option.some.inj hread
        have hkey : e.key = key := by simpa using List.find?_some he
        obtain ⟨pid', ttl, at_, hm⟩ := hw e (List.mem_of_find?_eq_some he)
        obtain ⟨past', hpast⟩ := System.exists_past hm
        have hsuf : past <:+ (app.run acts).hist := (List.suffix_cons _ _).trans h
        obtain ⟨req, t, -, hq, ht⟩ := issues (hpast.trans hsuf)
        refine ⟨pid', t, ?_, ht.within.mono ((List.suffix_cons _ _).trans hpast)⟩
        rw [← hkey]
        exact puts_fetched hq.2

end CimdProxy
