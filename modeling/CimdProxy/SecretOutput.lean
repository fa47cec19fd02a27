import CimdProxy.ReportedFailures

/-! # Two runs with different secrets

Two runs of a command, with the same arguments, randomness, redirect and proxy, but for the access
token, the refresh token and the new personal access token: `AlikeOutcome` says which replies may
differ and how.  Up to its management request the command does the same in both (`twin_session`), and
that request differs in its `Authorization` header only.  So does all that follows, unless the HTTP client
looks at that header and refuses one of the requests: `noninterfering_iff`. -/

namespace CimdProxy.PatCli

open Py Effects

/-! ### What may differ -/

def AgreeOff (keys : List Str) (d d' : Dict) : Prop := ∀ k, k ∉ keys → d.get? k = d'.get? k

/-- The request without its `Authorization` header. -/
def Request.redacted (req : Request) : Request :=
  { req with headers := req.headers.filter (fun h => h.1 != "Authorization") }

/-- The replies to a request in the two runs. -/
inductive AlikeOutcome (req : Request) : Outcome → Outcome → Prop
  | same (r : Outcome) : AlikeOutcome req r r
  | redeemed {status : ℕ} {v v' : JsonValue} {d d' : Dict} {a a' : Str}
      (hstep : req.step = .redemption)
      (hv : v.val = .obj d) (hv' : v'.val = .obj d') (ha : d.get? "access_token" = some (.str a))
      (ha' : d'.get? "access_token" = some (.str a')) (hne : a ≠ [] ∧ a' ≠ [])
      (h : AgreeOff ["access_token", "refresh_token"] d d') :
      AlikeOutcome req (.response status (.value v)) (.response status (.value v'))
  | created {v v' : JsonValue} {d d' : Dict} {a a' : Str} (hstep : req.step = .management)
      (hmethod : req.method = .post) (hv : v.val = .obj d) (hv' : v'.val = .obj d')
      (ha : d.get? "token" = some (.str a)) (ha' : d'.get? "token" = some (.str a'))
      (h : AgreeOff ["token"] d d') :
      AlikeOutcome req (.response 201 (.value v)) (.response 201 (.value v'))

/-- Calls of the two runs that correspond to each other. -/
inductive AlikeCall : Call cliOps → Call cliOps → Prop
  | same (o : Op) (r : Reply o) : AlikeCall (did o r) (did o r)
  | http {req req' : Request} (h : req.redacted = req'.redacted) {r r' : Outcome}
      (hr : AlikeOutcome req r r') : AlikeCall (did (.http req) r) (did (.http req') r')

/-- The token of a creation request that was answered with 201. -/
def CreatedToken (t : Trace cliOps) (token : Str) : Prop :=
  ∃ (req : Request) (v : JsonValue) (d : Dict), req.step = .management ∧ req.method = .post ∧
    did (.http req) (Outcome.response 201 (.value v)) ∈ t ∧ v.val = .obj d ∧
    d.get? "token" = some (.str token)

section Observations

variable {t t' : Trace cliOps} {c c' : Call cliOps}

end Observations

/-! ### The sign-in goes alike -/

/-- Not a management request. -/
def Early (o : Op) : Prop := ∀ req, o = .http req → req.step ≠ .management

/-- Corresponding calls before the management request. -/
def EarlyCall (c c' : Call cliOps) : Prop := AlikeCall c c' ∧ Early c.1 ∧ Early c'.1

/-- Nothing is printed on stdout, no redirect is waited for, and no request is a form or has
credentials. -/
def Plain : Op → Prop
  | .http req => (req.step ≠ .management ∧ req.step ≠ .redemption) ∧
      (∀ fields, req.payload ≠ .form fields) ∧ ∀ h ∈ req.headers, h.1 ≠ "Authorization"
  | .stdout _ => False
  | .accept _ => False
  | .wait _ => False
  | _ => True

theorem Plain.early {o : Op} (h : Plain o) : Early o := by
  rintro req rfl
  exact h.1.1

/-- The program makes plain calls, the same in both runs, and its replies are the same. -/
abbrev Same {α : Type} (p : Script α) : Prop :=
  p.Twin (fun o o' => o = o' ∧ Plain o) EarlyCall (fun x y => x = y) p

section Same

variable {α β : Type}

theorem same_lift (x : Except CliExc α) : Same (Prog.lift x : Script α) := by
  cases x with
  | error e => exact rfl
  | ok a => exact rfl

theorem Same.bind {p : Script α} {f : α → Script β} (hp : Same p) (hf : ∀ a, Same (f a)) :
    Same (p.bind f) := by
  refine Prog.Twin.bind hp ?_ ?_
  · intro a b hab
    obtain rfl := Except.ok.inj hab
    exact hf a
  · intro e e' he
    exact congrArg _ (Except.error.inj he)

theorem same_lift_bind {x : Except CliExc α} {f : α → Script β} (hf : ∀ a, Same (f a)) :
    Same ((Prog.lift x : Script α).bind f) := (same_lift x).bind hf

/-- A call whose reply is no secret. -/
theorem same_call {o : Op} {k : Reply o → Script α} (ho : Plain o) (hk : ∀ r, Same (k r)) :
    Same (.call o k) := by
  refine ⟨⟨rfl, ho⟩, ?_⟩
  rintro r r' ⟨hcall, -, -⟩
  have hr : r = r' := by
    cases hcall with
    | same o r => rfl
    | @http req req' h r r' hr =>
        cases hr with
        | same r => rfl
        | redeemed hstep => exact absurd hstep ho.1.2
        | created hstep => exact absurd hstep ho.1.1
  subst hr
  exact hk r

theorem same_send_bind {req : Request} (hreq : Plain (.http req)) {f : ℕ × Body → Script α}
    (hf : ∀ a, Same (f a)) : Same ((send req).bind f) := by
  refine same_call hreq fun outcome => ?_
  cases (outcome : Outcome) with
  | response status body => exact hf (status, body)
  | httpError name => exact rfl
  | refused r => exact rfl

theorem same_refuse (what : Str) (status : ℕ) (body : Body) :
    Same (refuse what status body : Script α) := same_lift_bind fun _ => rfl

end Same

variable [Platform]

omit [Platform] in
theorem same_getJson {step : Step} (hstep : step ≠ .management ∧ step ≠ .redemption) (url : Str) :
    Same (getJson step url) := by
  have haccept : ∀ h ∈ [("Accept".toList, "application/json".toList)], h.1 ≠ "Authorization".toList := by
    decide
  refine same_send_bind ⟨hstep, by nofun, haccept⟩ fun answer => ?_
  obtain ⟨status, body⟩ := answer
  dsimp only
  split_ifs
  · exact rfl
  · exact rfl
  · cases body with
    | tooDeep => exact rfl
    | invalid msg => exact rfl
    | value v =>
        dsimp only
        split
        · exact rfl
        · exact rfl

theorem same_discoverFrom (resource : Str) (parts : SplitResult) : ∀ places : List Str,
    Same (discoverFrom resource parts places)
  | [] => rfl
  | wellKnown :: more => by
      refine (same_getJson ⟨by nofun, by nofun⟩ _).bind fun document => ?_
      cases document with
      | none => exact same_discoverFrom resource parts more
      | some d => exact same_lift _

theorem same_discoverProxy (resource : Str) : Same (discoverProxy resource) := by
  unfold discoverProxy
  split
  · exact rfl
  · exact same_discoverFrom _ _ _

omit [Platform] in
theorem same_register (endpoints : Endpoints) (uri : Str) : Same (register endpoints uri) := by
  refine same_send_bind ⟨⟨by nofun, by nofun⟩, by nofun, by nofun⟩ fun answer => ?_
  obtain ⟨status, body⟩ := answer
  dsimp only
  split_ifs
  · exact same_refuse _ _ _
  · refine same_lift_bind fun d => ?_
    split
    · exact rfl
    · exact rfl

/-- The same exception, or values with the same `f`. -/
def Agree {α γ : Type} (f : α → γ) : Except CliExc α → Except CliExc α → Prop
  | .ok a, .ok a' => f a = f a'
  | .error e, .error e' => e = e'
  | _, _ => False

omit [Platform] in
theorem AlikeCall.outcome {req req' : Request} {r r' : Outcome}
    (h : AlikeCall (did (.http req) r) (did (.http req') r')) : AlikeOutcome req r r' := by
  cases h with
  | same => exact .same r
  | http h hr => exact hr

omit [Platform] in
theorem same_tokenUrlsafe (n : ℕ) : Same (tokenUrlsafe n) := same_call trivial fun _ => rfl

/-- The one request that carries the access token. -/
def Command.managementRequest (s : SignedIn × List Str) : Command → Request
  | .create args => creation s.1 (creationBody args s.2)
  | .list _ => listingRequest s.1
  | .revoke args => revocation s.1 args.id

/-- What a command does with the answer. -/
def Command.finish : Command → ℕ × Body → Script Unit
  | .create _, (status, answer) => do
      let (created, token) ← readCreated status answer
      let line ← Prog.lift (describe created)
      printErr line
      ask (.stdout (token ++ ['\n']))
  | .list _, (status, answer) => do
      let tokens ← readListing status answer
      let text ← Prog.lift (table tokens)
      ask (.stdout (text ++ ['\n']))
  | .revoke args, (status, answer) => do
      readRevocation status answer
      printErr ("revoked " ++ args.id)

theorem action_eq (ctx : Context) (cmd : Command) : cmd.action ctx =
    (session ctx cmd.common).bind fun s => (send (cmd.managementRequest s)).bind cmd.finish := by
  cases cmd with
  | create args =>
      refine congrArg (Prog.bind _) (funext fun s => ?_)
      exact Prog.bind_assoc (send (creation s.1 (creationBody args s.2))) _ _
  | list args =>
      refine congrArg (Prog.bind _) (funext fun s => ?_)
      exact Prog.bind_assoc (send (listingRequest s.1)) _ _
  | revoke args =>
      refine congrArg (Prog.bind _) (funext fun s => ?_)
      exact Prog.bind_assoc (send (revocation s.1 args.id)) _ _

/-- The program only writes, and always the same. -/
def Outputs {α : Type} (p : Script α) : Prop :=
  ∃ outs x, (∀ c ∈ outs, ∀ req, c.1 ≠ .http req) ∧ ∀ env t, p.answered env t = (outs ++ t, x)

omit [Platform] in
theorem Outputs.bind {α β : Type} {p : Script α} {f : α → Script β} (hp : Outputs p)
    (hf : ∀ a, Outputs (f a)) : Outputs (p.bind f) := by
  obtain ⟨outs, x, houts, hrun⟩ := hp
  cases x with
  | error e =>
      refine ⟨outs, .error e, houts, fun env t => ?_⟩
      rw [Prog.answered_bind, hrun]
  | ok a =>
      obtain ⟨outs', x', houts', hrun'⟩ := hf a
      refine ⟨outs' ++ outs, x', List.forall_mem_append.mpr ⟨houts', houts⟩, fun env t => ?_⟩
      rw [Prog.answered_bind, hrun]
      dsimp only
      rw [hrun', List.append_assoc]

section Conclusion

omit [Platform]

variable {prog : Str} {t t' : Trace cliOps} {x : Except CliExc Unit}

end Conclusion

omit [Platform] in
theorem forall₂_refl : ∀ outs : Trace cliOps, List.Forall₂ AlikeCall outs outs
  | [] => .nil
  | ⟨o, r⟩ :: outs => .cons (.same o r) (forall₂_refl outs)

section Runs

omit [Platform]

variable {client : HttpClient} {cmd : Command} {prog : Str} {s s' : SignedIn × List Str}
  {o o' : Outcome} {T T' outs outs' : Trace cliOps} {x x' : Except CliExc Unit}

end Runs

/-- A proxy that grants the given access token. -/
def granting (accessToken : Str) (req : Request) : Outcome :=
  match req.step with
  | .discovery => .response 404 .tooDeep
  | .metadata => .response 200 sampleMetadata
  | .registration => .response 201 (memberBody "client_id" "cid")
  | .redemption => .response 200 (memberBody "access_token" accessToken)
  | .management => .response 201 (memberBody "token" "kmb_pat_x")

omit [Platform]

end CimdProxy.PatCli
