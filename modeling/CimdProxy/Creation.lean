import CimdProxy.Solo
import CimdProxy.TokenTable

/-! # Creating a token is all or nothing

`sat_create` is the local specification of `PatService.create`: it inserts at most once, as its last
call, and only after the trial exchange at every named resource was granted; the scopes of the row are
the named ones, or those offered ones that every trial granted.  `create_all_or_nothing` is what
follows for a whole creation and the token table. -/

namespace CimdProxy

open Py Effects

variable [Platform]

def Op.isInsert : Op → Bool
  | .insert _ _ => true
  | _ => false

omit [Platform] in
/-- A part that performs nothing of a kind keeps the trace free of it. -/
theorem sat_free {α : Type} {p : Run α} {kind : Op → Bool} {Q : Trace proxyOps → Op → Prop}
    {P : Trace proxyOps → Except Exc α → Prop} {t : Trace proxyOps} (hp : p.Sat Q P t)
    (ht : Free kind t) (hQ : ∀ t o, Q t o → kind o = false) :
    p.Sat Q (fun t' x => Free kind t' ∧ P t' x) t := by
  refine (hp.invariant ht ?_).mono (fun _ _ h => h.2) (fun _ _ h => h)
  exact fun t o r h ho => h.cons (hQ t o ho) r

namespace PatService

variable (svc : PatService)

/-! ### The trial exchanges of a trace -/

/-- The scopes a reply to a trial exchange grants; `none` when it grants nothing. -/
def grantedBy : HttpOutcome → Option (List Str)
  | .response status body =>
      if status = 200 then
        match jsonObject body with
        | .ok payload => some (splitWs (textOr (payload.get? "scope") ""))
        | .error _ => none
      else none
  | _ => none

/-- The scopes a reply grants. -/
def grants (o : HttpOutcome) : List Str := (grantedBy o).getD []

theorem grantedScopes_eq_ok {e : ResourceEntry} {status : ℕ} {body : BodyJson} {granted : List Str} :
    grantedScopes e (status, body) = .ok granted ↔
      grantedBy (.response status body) = some granted := by
  unfold grantedScopes grantedBy
  dsimp only
  cases jsonObject body with
  | error err => by_cases hs : status = 200 <;> simp [hs]
  | ok payload => by_cases hs : status = 200 <;> simp [hs]

/-- A grant asked for, with the reply. -/
def grantCall : Call proxyOps → Option (HttpRequest × HttpOutcome)
  | ⟨.http req, r⟩ => if req.isGrant then some (req, r) else none
  | _ => none

omit [Platform] in
theorem grantCall_http (req : HttpRequest) (r : HttpOutcome) :
    grantCall (did (.http req) r) = if req.isGrant then some (req, r) else none := rfl

/-- The grants asked for, oldest first. -/
def trials (t : Trace proxyOps) : List (HttpRequest × HttpOutcome) := t.reverse.filterMap grantCall

omit [Platform] in
theorem trials_cons (c : Call proxyOps) (t : Trace proxyOps) :
    trials (c :: t) = trials t ++ (grantCall c).toList := by
  unfold trials
  rw [List.reverse_cons, List.filterMap_append]
  cases h : grantCall c <;> simp [h]

omit [Platform] in
theorem trials_cons_other {c : Call proxyOps} (h : grantCall c = none) (t : Trace proxyOps) :
    trials (c :: t) = trials t := by
  rw [trials_cons, h]
  exact List.append_nil _

/-- A trial at the entry of a url that granted something. -/
def Succeeds (caller : Caller) (tenant url : Str) (trial : HttpRequest × HttpOutcome) : Prop :=
  ∃ e asked at_ jti, svc.entry url = .ok e ∧
    trial.1 = svc.grantFor e caller.subject asked tenant at_ jti ∧ (grantedBy trial.2).isSome = true

section Trials

variable {Q : Trace proxyOps → Op → Prop} (hhttp : ∀ t req, Q t (.http req))
  (htime : ∀ t, Q t .time) (huuid : ∀ t, Q t .uuid4)

include hhttp htime huuid

/-- A trial exchange that returns adds one trial, with what it returns granted. -/
theorem sat_trialExchange_grants {t : Trace proxyOps} (caller : Caller) (e : ResourceEntry)
    (scopes : List Str) (tenant : Str) :
    (svc.trialExchange caller e scopes tenant).Sat Q (fun t' x => ∀ granted, x = .ok granted →
      ∃ at_ jti o, trials t' = trials t ++ [(svc.grantFor e caller.subject scopes tenant at_ jti, o)] ∧
        grantedBy o = some granted) t := by
  refine Prog.Sat.bind (svc.sat_requestGrant (htime _) (fun _ => huuid _) (fun _ _ => hhttp _ _)) ?_
    (fun _ _ _ _ _ h => nomatch h)
  rintro t' ⟨status, body⟩ _ ⟨at_, jti, r, rfl, hr⟩
  obtain rfl := hr status body rfl
  rw [Prog.sat_lift]
  intro granted h
  refine ⟨at_.whole, jti, .response status body, ?_, grantedScopes_eq_ok.mp h⟩
  rw [trials_cons, trials_cons_other rfl, trials_cons_other rfl]
  rfl

theorem sat_trialNamed_grants (caller : Caller) (scopes : List Str) (tenant : Str) (urls : List Str)
    (t : Trace proxyOps) :
    (svc.trialNamed caller scopes tenant urls).Sat Q (fun t' x => x = .ok () →
      ∃ new, trials t' = trials t ++ new ∧ List.Forall₂ (svc.Succeeds caller tenant) urls new ∧
        ∀ trial ∈ new, ∀ s ∈ scopes, s ∈ grants trial.2) t := by
  induction urls generalizing t with
  | nil => exact fun _ => ⟨[], (List.append_nil _).symm, .nil, fun _ h => nomatch h⟩
  | cons url urls ih =>
      refine Prog.Sat.lift_bind (fun e he => ?_) (fun _ _ h => nomatch h)
      refine Prog.Sat.bind (svc.sat_trialExchange_grants hhttp htime huuid caller e scopes tenant) ?_
        (fun _ _ _ _ h => nomatch h)
      intro t₁ granted _ hg
      obtain ⟨at_, jti, o, ht₁, ho⟩ := hg granted rfl
      dsimp only
      split
      · exact fun h => nomatch h
      next hmissing =>
      refine (ih t₁).mono (fun _ _ h => h) (fun t₂ x h hx => ?_)
      obtain ⟨new, ht₂, hall, hin⟩ := h hx
      have hgranted : ∀ s ∈ scopes, s ∈ grants o := by
        intro s hs
        simp only [Bool.not_eq_true', Bool.not_eq_false, List.isEmpty_iff, List.filter_eq_nil_iff]
          at hmissing
        rw [grants, ho]
        simpa using hmissing s hs
      refine ⟨(svc.grantFor e caller.subject scopes tenant at_ jti, o) :: new, ?_,
        .cons ⟨e, scopes, at_, jti, he, rfl, by rw [ho]; rfl⟩ hall, ?_⟩
      · rw [ht₂, ht₁, List.append_assoc]
        rfl
      · exact List.forall_mem_cons.mpr ⟨hgranted, hin⟩

theorem sat_trialPermitted_grants (caller : Caller) (tenant : Str) (urls permitted : List Str)
    (t : Trace proxyOps) :
    (svc.trialPermitted caller tenant permitted urls).Sat Q (fun t' x => ∀ scopes, x = .ok scopes →
      ∃ new, trials t' = trials t ++ new ∧ List.Forall₂ (svc.Succeeds caller tenant) urls new ∧
        scopes = permitted.filter (fun s => new.all (fun trial => (grants trial.2).contains s))) t := by
  induction urls generalizing permitted t with
  | nil =>
      intro scopes h
      refine ⟨[], (List.append_nil _).symm, .nil, ?_⟩
      rw [← Except.ok.inj h]
      exact (List.filter_eq_self.mpr fun _ _ => rfl).symm
  | cons url urls ih =>
      refine Prog.Sat.lift_bind (fun e he => ?_) (fun _ _ _ h => nomatch h)
      refine Prog.Sat.bind (svc.sat_trialExchange_grants hhttp htime huuid caller e permitted tenant) ?_
        (fun _ _ _ _ _ h => nomatch h)
      intro t₁ granted _ hg
      obtain ⟨at_, jti, o, ht₁, ho⟩ := hg granted rfl
      refine (ih (permitted.filter (fun s => granted.contains s)) t₁).mono (fun _ _ h => h) ?_
      intro t₂ x h scopes hx
      obtain ⟨new, ht₂, hall, hscopes⟩ := h scopes hx
      refine ⟨(svc.grantFor e caller.subject permitted tenant at_ jti, o) :: new, ?_,
        .cons ⟨e, permitted, at_, jti, he, rfl, by rw [ho]; rfl⟩ hall, ?_⟩
      · rw [ht₂, ht₁, List.append_assoc]
        rfl
      · -- the request shrinks as it goes, and what is left is what every reply granted
        rw [hscopes, List.filter_filter]
        refine List.filter_congr (fun s _ => ?_)
        rw [List.all_cons, grants, ho, Option.getD_some, Bool.and_comm]

end Trials

/-! ### What a creation inserts -/

/-- What a creation has established when it inserts a row, and what the row holds. -/
structure Entitled (caller : Caller) (request : CreateRequest) (t : Trace proxyOps)
    (record : PatRecord) (hash : Bytes) : Prop where
  tenant : tenantFor caller request.organization = .ok record.tenant
  realm : record.realmIssuer = svc.pat.realmIssuer
  owner : record.ownerSub = caller.subject
  name : record.name = request.name
  resources : record.resources = request.resources
  clock : did .utcnow record.createdAt ∈ t
  expires : plusDays record.createdAt request.lifetimeDays = .ok record.expiresAt
  hashed : ∃ token, tokenHash token = .ok hash
  tried : List.Forall₂ (svc.Succeeds caller record.tenant) request.resources (trials t)
  carried : ∀ s ∈ record.scopes, ∀ trial ∈ trials t, s ∈ grants trial.2
  named : request.allPermittedScopes = false → record.scopes = request.scopes
  permitted : request.allPermittedScopes = true → record.scopes ≠ [] ∧
    record.scopes.Sublist svc.pat.scopes ∧
    ∀ s ∈ svc.pat.scopes, (∀ trial ∈ trials t, s ∈ grants trial.2) → s ∈ record.scopes

/-- What a creation may do: call the upstream, read clocks and randomness, and insert once. -/
def CreateOnly (caller : Caller) (request : CreateRequest) (t : Trace proxyOps) : Op → Prop
  | .http _ => True
  | .time => True
  | .uuid4 => True
  | .utcnow => True
  | .tokenBytes _ => True
  | .insert record hash => Free Op.isInsert t ∧ svc.Entitled caller request t record hash
  | _ => False

/-- How a creation ends: with the row it inserted, under the hash of the token it returns, or without
an inserted row. -/
def CreateConcludes (caller : Caller) (request : CreateRequest) (t : Trace proxyOps) :
    Except Exc (PatRecord × Str) → Prop
  | .ok (record, token) => ∃ hash before, t = did (.insert record hash) (.ok ()) :: before ∧
      tokenHash token = .ok hash ∧ Free Op.isInsert before ∧
      svc.Entitled caller request before record hash
  | .error _ => Free Op.isInsert t ∨ ∃ record hash msg before,
      t = did (.insert record hash) (.error msg) :: before ∧ Free Op.isInsert before

theorem CreateConcludes.of_free {caller : Caller} {request : CreateRequest} {t : Trace proxyOps}
    (h : Free Op.isInsert t) (e : Exc) : svc.CreateConcludes caller request t (.error e) := .inl h

/-- The scopes of a new token, by the trials of the trace. -/
theorem sat_grantedSet_grants {Q : Trace proxyOps → Op → Prop} (hhttp : ∀ t req, Q t (.http req))
    (htime : ∀ t, Q t .time) (huuid : ∀ t, Q t .uuid4) {t : Trace proxyOps} (caller : Caller)
    (request : CreateRequest) (tenant : Str) (ht : trials t = []) :
    (svc.grantedSet caller request tenant).Sat Q (fun t' x => ∀ scopes, x = .ok scopes →
      List.Forall₂ (svc.Succeeds caller tenant) request.resources (trials t') ∧
      (∀ s ∈ scopes, ∀ trial ∈ trials t', s ∈ grants trial.2) ∧
      (request.allPermittedScopes = false → scopes = request.scopes) ∧
      (request.allPermittedScopes = true → scopes ≠ [] ∧ scopes.Sublist svc.pat.scopes ∧
        ∀ s ∈ svc.pat.scopes, (∀ trial ∈ trials t', s ∈ grants trial.2) → s ∈ scopes)) t := by
  unfold grantedSet
  split
  · next hall =>
      refine Prog.Sat.bind (svc.sat_trialPermitted_grants hhttp htime huuid caller tenant _ _ t) ?_
        (fun _ _ _ _ _ h => nomatch h)
      intro t' permitted _ hp
      obtain ⟨new, ht', htried, hpermitted⟩ := hp permitted rfl
      rw [ht, List.nil_append] at ht'
      split
      · exact fun _ h => nomatch h
      next hne =>
      intro scopes h
      obtain rfl := Except.ok.inj h
      have hmem : ∀ s, s ∈ permitted ↔ s ∈ svc.pat.scopes ∧ ∀ trial ∈ trials t', s ∈ grants trial.2 := by
        intro s
        rw [hpermitted, List.mem_filter, ht', List.all_eq_true]
        simp only [List.contains_iff_mem]
      refine ⟨ht' ▸ htried, fun s hs => ((hmem s).mp hs).2, (fun hf => nomatch hall.symm.trans hf),
        fun _ => ⟨by simpa using hne, ?_, fun s hs hg => (hmem s).mpr ⟨hs, hg⟩⟩⟩
      rw [hpermitted]
      exact List.filter_sublist
  · next hall =>
      refine Prog.Sat.bind (svc.sat_trialNamed_grants hhttp htime huuid caller _ tenant _ t) ?_
        (fun _ _ _ _ _ h => nomatch h)
      intro t' u _ hp scopes h
      obtain ⟨new, ht', htried, hin⟩ := hp rfl
      obtain rfl := Except.ok.inj h
      rw [ht, List.nil_append] at ht'
      refine ⟨ht' ▸ htried, fun s hs trial htrial => hin trial (ht' ▸ htrial) s hs, fun _ => rfl, ?_⟩
      exact fun h => absurd h hall

omit [Platform] in
/-- A part that asks for no grant adds no trial. -/
theorem sat_trials {α : Type} {Q : Trace proxyOps → Op → Prop} {t : Trace proxyOps} {p : Run α}
    {P : Trace proxyOps → Except Exc α → Prop}
    (hp : p.Sat (fun _ (o : Op) => ∃ req : HttpRequest, o = .http req ∧ req.isGrant = false) P t)
    (hq : ∀ t req, Q t (.http req)) :
    p.Sat Q (fun t' x => trials t' = trials t ∧ P t' x) t := by
  refine (hp.invariant (I := fun t' => trials t' = trials t) rfl ?_).mono ?_ (fun t x h => h)
  · rintro t' _ r hI ⟨req, rfl, hreq⟩
    have hnone : grantCall (did (.http req) r) = none :=
      (grantCall_http req r).trans (by rw [hreq]; rfl)
    rw [trials_cons_other hnone, hI]
  · rintro t' _ ⟨-, req, rfl, -⟩
    exact hq t' req

/-- What the link and the trials ask for. -/
def AsksUpstream (_ : Trace proxyOps) : Op → Prop
  | .http _ => True
  | .time => True
  | .uuid4 => True
  | _ => False

omit [Platform] in
theorem AsksUpstream.not_insert {t : Trace proxyOps} {o : Op} (h : AsksUpstream t o) :
    o.isInsert = false := by
  cases o with
  | insert record hash => exact h.elim
  | _ => rfl

theorem AsksUpstream.createOnly {caller : Caller} {request : CreateRequest} {t : Trace proxyOps} {o : Op}
    (h : AsksUpstream t o) : svc.CreateOnly caller request t o := by
  cases o <;> first | exact trivial | exact h.elim

theorem sat_linkOwner_trials (caller : Caller) (t : Trace proxyOps) :
    (svc.linkOwner caller).Sat AsksUpstream (fun t' _ => trials t' = trials t) t := by
  refine Prog.Sat.attempt_bind (sat_trials (svc.keycloak.sat_ensureLink caller
    (fun _ req h => ⟨req, rfl, h⟩)) (fun _ _ => trivial)) ?_
  rintro t' x - ⟨ht, -⟩
  split <;> exact ht

/-- **The specification of `create`.** -/
theorem sat_create (caller : Caller) (request : CreateRequest) :
    (svc.create caller request).Sat (svc.CreateOnly caller request)
      (svc.CreateConcludes caller request) [] := by
  refine Prog.Sat.lift_bind (fun tenant htenant => ?_) (fun e _ => .of_free svc .nil e)
  -- before the insert nothing of the table is touched
  refine Prog.Sat.bind ((sat_free (svc.sat_linkOwner_trials caller []) .nil
    (fun _ _ h => h.not_insert)).mono (fun _ _ h => h.createOnly svc) (fun _ _ h => h)) ?_
    (fun t e _ h => .of_free svc h.1 e)
  rintro t₁ _ - ⟨hfree₁, ht₁⟩
  refine Prog.Sat.bind ((sat_free (svc.sat_grantedSet_grants (Q := AsksUpstream) (fun _ _ => trivial)
    (fun _ => trivial) (fun _ => trivial) caller request tenant ht₁) hfree₁
    (fun _ _ h => h.not_insert)).mono (fun _ _ h => h.createOnly svc) (fun _ _ h => h)) ?_
    (fun t e _ h => .of_free svc h.1 e)
  rintro t₂ scopes - ⟨hfree₂, hgranted⟩
  obtain ⟨htried, hcarried, hnamed, hpermitted⟩ := hgranted scopes rfl
  refine sat_ask_bind trivial (fun now => ?_)
  refine sat_ask_bind trivial (fun id => ?_)
  have hfree₃ := (hfree₂.cons (o := .utcnow) rfl now).cons (o := .uuid4) rfl id
  refine Prog.Sat.lift_bind (fun expiresAt hexp => ?_) (fun e _ => .of_free svc hfree₃ e)
  refine sat_ask_bind trivial (fun raw => ?_)
  have hfree₄ := hfree₃.cons (o := .tokenBytes randomBytes) rfl raw
  refine Prog.Sat.lift_bind (x := tokenFrom raw.val) (fun token _ => ?_) (fun e _ => .of_free svc hfree₄ e)
  refine Prog.Sat.lift_bind (fun hash hhash => ?_) (fun e _ => .of_free svc hfree₄ e)
  have htrials : trials (did (.tokenBytes randomBytes) raw :: did .uuid4 id :: did .utcnow now :: t₂) =
      trials t₂ := by
    rw [trials_cons_other rfl, trials_cons_other rfl, trials_cons_other rfl]
  have hent : svc.Entitled caller request
      (did (.tokenBytes randomBytes) raw :: did .uuid4 id :: did .utcnow now :: t₂)
      { id, tenant, realmIssuer := svc.pat.realmIssuer, ownerSub := caller.subject
        name := request.name, resources := request.resources, scopes
        createdAt := now, expiresAt, lastUsedAt := none, revokedAt := none } hash :=
    { tenant := htenant
      realm := rfl
      owner := rfl
      name := rfl
      resources := rfl
      clock := by simp
      expires := hexp
      hashed := ⟨token, hhash⟩
      tried := htrials ▸ htried
      carried := htrials ▸ hcarried
      named := hnamed
      permitted := htrials ▸ hpermitted }
  refine sat_ask_bind ⟨hfree₄, hent⟩ (fun r => ?_)
  cases r with
  | error msg => exact .inr ⟨_, _, msg, _, rfl, hfree₄⟩
  | ok u => exact ⟨hash, _, rfl, hhash, hfree₄, hent⟩

/-! ### Whole creations -/

/-- A reply to a trial that makes a creation fail: no grant, or one without a scope that was named. -/
def Refuses (request : CreateRequest) (o : HttpOutcome) : Prop :=
  grantedBy o = none ∨ (request.allPermittedScopes = false ∧ ∃ s ∈ request.scopes, s ∉ grants o)

theorem Entitled.not_refuses {svc : PatService} {caller : Caller} {request : CreateRequest}
    {t : Trace proxyOps} {record : PatRecord} {hash : Bytes}
    (h : svc.Entitled caller request t record hash) {trial : HttpRequest × HttpOutcome}
    (ht : trial ∈ trials t) : ¬ Refuses request trial.2 := by
  rintro (hnone | ⟨hall, s, hs, hn⟩)
  · obtain ⟨url, -, e, asked, at_, jti, -, -, hsome⟩ := exists_of_mem_right h.tried ht
    rw [hnone] at hsome
    cases hsome
  · rw [← h.named hall] at hs
    exact hn (h.carried s hs trial ht)

/-- A call that is no successful insert, and that a creation may make, leaves the table alone. -/
theorem table_of_createOnly {svc : PatService} {caller : Caller} {request : CreateRequest}
    {t : Trace proxyOps} {c : Call proxyOps} (hc : svc.CreateOnly caller request t c.1)
    (hn : ∀ record hash, c ≠ did (.insert record hash) (.ok ())) {w w' : World} {p : Reply c.1}
    (hp : w.perform c.1 p = some (c.2, w')) : w'.table = w.table := by
  obtain ⟨o, r⟩ := c
  rcases World.perform_table hp with h | ⟨record, hash, h, -⟩ | ⟨realm, owner, id, at_, h, -⟩ |
    ⟨id, at_, h, -⟩
  · exact h
  · exact absurd h (hn record hash)
  · cases h
    exact hc.elim
  · cases h
    exact hc.elim

omit [Platform] in
theorem table_of_insert {w w' : World} {record : PatRecord} {hash : Bytes} {p : Except Str Unit}
    (hp : w.perform (.insert record hash) p = some (.ok (), w')) :
    w'.table = newRow record hash :: w.table := by
  cases p with
  | error msg => cases hp
  | ok u =>
      simp only [World.perform] at hp
      split_ifs at hp
      obtain ⟨-, rfl⟩ := Prod.mk.inj (Option.some.inj hp)
      rfl

/-- **Creation is all or nothing, and never exceeds what was granted.** -/
theorem create_all_or_nothing (caller : Caller) (request : CreateRequest) {w w' : World}
    {t : Trace proxyOps} {x : Except Exc (PatRecord × Str)}
    (h : (svc.create caller request).Ends World.perform w t x w') :
    (∀ e, x = .error e → w'.table = w.table) ∧
    (∀ e t₁ w₁, (svc.linkOwner caller).Ends World.perform w t₁ (.error e) w₁ → t₁ <:+ t →
      ∃ e', x = .error e') ∧
    (∀ trial ∈ trials t, Refuses request trial.2 → ∃ e, x = .error e) ∧
    (∀ later before record hash r, t = later ++ did (.insert record hash) r :: before →
      Free Op.isInsert later ∧ Free Op.isInsert before ∧
        svc.Entitled caller request before record hash) ∧
    ∀ record token, x = .ok (record, token) → ∃ hash before, tokenHash token = .ok hash ∧
      t = did (.insert record hash) (.ok ()) :: before ∧ w'.table = newRow record hash :: w.table ∧
      svc.Entitled caller request before record hash := by
  obtain ⟨hcalls, hend⟩ := (svc.sat_create caller request).ends h
  rw [List.append_nil] at hend
  have honly : ∀ c ∈ t, ∃ t₀, svc.CreateOnly caller request t₀ c.1 := by
    intro c hc
    obtain ⟨later, before, rfl⟩ := List.append_of_mem hc
    exact ⟨_, hcalls later c before rfl⟩
  -- a part of the run without a successful insert
  have hkeep : ∀ t' : Trace proxyOps, (∀ c ∈ t', c ∈ t) →
      (∀ record hash, did (.insert record hash) (.ok ()) ∉ t') →
      ∀ c ∈ t', ∀ w w' p, World.perform w c.1 p = some (c.2, w') → w'.table = w.table := by
    intro t' hsub hn c hc w w' p hp
    obtain ⟨t₀, h₀⟩ := honly c (hsub c hc)
    refine table_of_createOnly h₀ (fun record hash he => ?_) hp
    exact hn record hash (he ▸ hc)
  refine ⟨fun e he => ?_, fun e t₁ w₁ hlink ht₁ => ?_, fun trial htrial href => ?_,
    fun later before record hash r ht => ?_, fun record token hx => ?_⟩
  · subst he
    refine h.unchanged (hkeep t (fun _ hc => hc) (fun record hash hm => ?_))
    rcases hend with hfree | ⟨record', hash', msg, before, rfl, hfree⟩
    · exact hfree.not_mem _ rfl hm
    · rcases List.mem_cons.mp hm with heq | hm
      · cases heq
      · exact hfree.not_mem _ rfl hm
  · rcases Prog.Ends.of_bind h with ⟨e', -, rfl⟩ | ⟨tenant, s₁, s₂, w₂, htenant, hrest, rfl⟩
    · exact ⟨e', rfl⟩
    · cases hx : tenantFor caller request.organization with
      | error e' => rw [hx] at htenant; cases htenant
      | ok tenant' =>
          rw [hx] at htenant
          cases htenant
          rcases Prog.Ends.of_bind hrest with ⟨e', -, rfl⟩ | ⟨_, u₁, u₂, w₃, hok, -, rfl⟩
          · exact ⟨e', rfl⟩
          · rw [List.append_nil] at ht₁
            obtain ⟨-, hbad⟩ := hlink.unique hok ht₁ (List.suffix_append _ _)
            cases hbad
  · cases x with
    | error e => exact ⟨e, rfl⟩
    | ok r =>
        obtain ⟨record, token⟩ := r
        obtain ⟨hash, before, rfl, -, -, hent⟩ := hend
        rw [trials_cons_other rfl] at htrial
        exact absurd href (hent.not_refuses htrial)
  · obtain ⟨hfree, hent⟩ := hcalls later _ before ht
    rw [List.append_nil] at hfree hent
    refine ⟨fun c hc => ?_, hfree, hent⟩
    obtain ⟨front, back, rfl⟩ := List.append_of_mem hc
    have hsplit : t = front ++ c :: (back ++ did (.insert record hash) r :: before) := by
      rw [ht]
      simp
    have hcall := hcalls front c _ hsplit
    obtain ⟨o, reply⟩ := c
    cases o with
    | insert record' hash' =>
        have := hcall.1 (did (.insert record hash) r) (by simp)
        cases this
    | _ => rfl
  · subst hx
    obtain ⟨hash, before, rfl, hhash, hfree, hent⟩ := hend
    refine ⟨hash, before, hhash, rfl, ?_, hent⟩
    obtain ⟨w₁, r, hw₁, hp⟩ := h.last (f := World.table)
      (hkeep before (fun _ hc => List.mem_cons_of_mem _ hc) (fun _ _ hm => hfree.not_mem _ rfl hm))
    rw [table_of_insert hp, hw₁]

end PatService

/-! ### A creation that succeeds -/

/-- A service for two resources of one realm. -/
def patService : @PatService Platform.plain :=
  letI := Platform.plain
  { config := { logConfig with resources :=
      [⟨"https://log.example", "https://id.example/realms/r", "log", "", "log-pat", "s0"⟩,
        ⟨"https://mem.example/mcp", "https://id.example/realms/r", "mem", "", "mem-pat", "s1"⟩] }
    pat := ⟨"postgresql://db", "pat", "https://id.example/realms/r", "proxy", "admin", "secret",
      ["read".toList, "write".toList],
      ⟨"https://proxy.example", [⟨"k", ⟨2 ^ 2048 - 1, 65537, 1⟩⟩], "k", by decide⟩⟩
    keycloak := ⟨"https://id.example/realms/r", "https://id.example/admin/realms/r", "admin", "secret",
      "proxy"⟩ }

def alice : Caller := ⟨"alice", .null, ["acme".toList]⟩

/-- A request for a token at both resources. -/
def laptopRequest : CreateRequest where
  name := "laptop"
  resources := ["https://log.example".toList, "https://mem.example/mcp".toList]
  scopes := ["read".toList]
  lifetimeDays := 90
  allowLongLifetime := false
  organization := none
  allPermittedScopes := false

/-- Whether a run ended in a token. -/
def returnsToken (r : Option (Trace proxyOps × Except Exc (PatRecord × Str) × World)) : Bool :=
  match r with
  | some (_, .ok _, _) => true
  | _ => false

omit [Platform] in
theorem laptop_created :
    letI := Platform.plain
    returnsToken ((patService.create alice laptopRequest).play World.perform (realmReplies 0)
      World.init) = true := by
  decide +kernel

omit [Platform] in
theorem create_all_or_nothing_laptop :
    letI := Platform.plain
    ∃ t record token w', (patService.create alice laptopRequest).Ends World.perform World.init t
        (.ok (record, token)) w' ∧
      ∃ hash, tokenHash token = .ok hash ∧ w'.table = [newRow record hash] := by
  let := Platform.plain
  have hcreated := laptop_created
  unfold returnsToken at hcreated
  split at hcreated
  · next t r w' hplay =>
      obtain ⟨record, token⟩ := r
      have ht := Prog.ends_of_play hplay
      obtain ⟨-, -, -, -, hok⟩ := patService.create_all_or_nothing alice laptopRequest ht
      obtain ⟨hash, before, hhash, -, htable, -⟩ := hok record token rfl
      exact ⟨t, record, token, w', ht, hash, hhash, htable⟩
  · cases hcreated

end CimdProxy
