import CimdProxy.Keycloak

/-! # Linking an owner, any number of times at once

Any number of `ensure_link` calls for one owner, interleaved with each other over the realm's store of
identity links: a POST for a provider that is already linked is answered with 409.  A call reads the
links before it makes one, so two calls can both find none, and the second POST is refused.
`linksSafely_iff` says that this is the only way for a call to fail. -/

namespace CimdProxy

open Py Effects

variable [Platform]

/-! ### The realm -/

/-- A federated identity of the owner. -/
structure Link where
  provider : Str
  userId : Str
deriving DecidableEq

/-- The federated identities of the owner, at most one for each provider. -/
structure Links where
  entries : List Link
  nodup : (entries.map Link.provider).Nodup

def Links.find? (links : Links) (provider : Str) : Option Link :=
  links.entries.find? (fun l => l.provider == provider)

/-- A provider that is linked keeps its link. -/
def Links.add (links : Links) (l : Link) : Links :=
  if h : l.provider ∈ links.entries.map Link.provider then links
  else ⟨links.entries ++ [l], by
    rw [List.map_append, List.nodup_append]
    refine ⟨links.nodup, List.nodup_singleton _, ?_⟩
    rintro p hp q hq rfl
    rw [List.map_singleton, List.mem_singleton] at hq
    exact h (hq ▸ hp)⟩

def Link.member (l : Link) : Json :=
  .obj [("identityProvider", .str l.provider), ("userId", .str l.userId)]

/-- The list that `GET .../federated-identity` answers with. -/
def Links.listing (links : Links) : JsonValue :=
  ⟨.arr (links.entries.map Link.member), by
    have hmember : ∀ l : Link, Json.WF l.member := by
      intro l
      refine ⟨?_, trivial, trivial, trivial⟩
      simp only [List.map_cons, List.map_nil]
      decide
    change Json.WFElems _
    induction links.entries with
    | nil => trivial
    | cons l ls ih => exact ⟨hmember l, ih⟩⟩

/-- The link a request asks for. -/
def HttpRequest.link (req : HttpRequest) : Option Link :=
  match req.json with
  | some (.obj d) =>
      match Dict.get? d "identityProvider", Dict.get? d "userId" with
      | some (.str provider), some (.str userId) => some ⟨provider, userId⟩
      | _, _ => none
  | _ => none

/-- The caller, when the owner is `subject`. -/
def Caller.as (caller : Caller) (subject : Str) : Caller := { caller with subject := subject }

namespace KeycloakClient

variable (kc : KeycloakClient) (subject : Str)

/-- The links of the owner. -/
def linksUrl : Str := kc.adminBase ++ "/users/" ++ subject ++ "/federated-identity"

/-- The admin API of the realm: it logs the proxy in, lists the links, and makes one unless there is one
for the provider.  The proposal decides between 201 and 204 and brings the admin's access token. -/
def respond (links : Links) (req : HttpRequest) (prop : HttpOutcome) : Option (HttpOutcome × Links) :=
  match req.method, req.link with
  | .get, _ =>
      if req.url = kc.linksUrl subject then some (.response 200 (.value links.listing), links) else none
  | .post, some l =>
      if req.url = kc.linksUrl subject ++ '/' :: l.provider then
        match links.find? l.provider with
        | some _ => some (.response 409 (.invalid []), links)
        | none =>
            match prop with
            | .response 201 _ => some (prop, links.add l)
            | _ => some (.response 204 (.invalid []), links.add l)
      else none
  | .post, none =>
      match prop with
      | .response 200 body => if (accessTokenOf body).isOk then some (prop, links) else none
      | _ => none

def realmPerform (links : Links) : (o : Op) → Reply o → Option (Reply o × Links)
  | .http req, prop => kc.respond subject links req prop
  | _, _ => none

/-- Calls of `ensure_link` for one owner; the other data of the caller may differ. -/
def linking (links : Links) : System proxyOps Exc Unit Caller Links where
  handler := fun caller => kc.ensureLink (caller.as subject)
  init := links
  perform := kc.realmPerform subject

/-! ### One call -/

variable {kc : KeycloakClient} {subject : Str}

/-- What is left when the links have been found to lack the provider. -/
def making (kc : KeycloakClient) (caller : Caller) (token : Str) : Run Unit := do
  let (status, _) ← send (kc.linkRequest (kc.linksUrl caller.subject) token caller)
  if status ≠ 201 ∧ status ≠ 204 then
    .raise (serverError ("linking the owner failed with HTTP " ++ intText status))
  else return ()

/-- What is left when the proxy is logged in. -/
def reading (kc : KeycloakClient) (caller : Caller) (token : Str) : Run Unit := do
  let (status, body) ← send ⟨.get, kc.linksUrl caller.subject, [], none, none, some token⟩
  if status ≠ 200 then
    .raise (serverError ("reading the owner's identity links failed with HTTP " ++ intText status))
  else do
    let links ← .lift (jsonOf body)
    let elements ← .lift (linkElements links)
    let linked ← .lift (kc.findLink caller.subject elements)
    if linked then return () else kc.making caller token

theorem ensureLink_eq (caller : Caller) :
    kc.ensureLink caller = kc.adminToken.bind (kc.reading caller) := rfl

omit [Platform] in
/-- The search for the link of the owner, in the list the realm answers with. -/
theorem findLink_listing (entries : List Link) :
    kc.findLink subject (entries.map Link.member) =
      match entries.find? (fun l => l.provider == kc.idpAlias) with
      | some l => if l.userId = subject then .ok true
          else .error (.linkConflict "the owner is linked to the token issuer under another id")
      | none => .ok false := by
  induction entries with
  | nil => rfl
  | cons l ls ih =>
      have hmember : kc.findLink subject ((l :: ls).map Link.member) =
          if l.provider == kc.idpAlias then
            if l.userId == subject then .ok true
            else .error (.linkConflict "the owner is linked to the token issuer under another id")
          else kc.findLink subject (ls.map Link.member) := rfl
      rw [hmember, List.find?_cons, ih]
      cases l.provider == kc.idpAlias with
      | false => rfl
      | true =>
          rw [if_pos rfl]
          dsimp only
          by_cases hs : l.userId = subject
          · rw [if_pos (beq_iff_eq.mpr hs), if_pos hs]
          · rw [if_neg (by simpa using hs), if_neg hs]

/-- A call that has not read the links yet, with the number of requests it has made. -/
inductive Underway (kc : KeycloakClient) (subject : Str) : Run Unit → ℕ → Prop
  | entering (caller : Caller) : Underway kc subject (kc.ensureLink (caller.as subject)) 0
  | reading (caller : Caller) (token : Str) :
      Underway kc subject (kc.reading (caller.as subject) token) 1

/-- The end of the reading, by the link that was found. -/
def AfterReading (kc : KeycloakClient) (subject : Str) (p : Run Unit) (n : ℕ) : Option Link → Prop
  | none => n = 2 ∧ ∃ (caller : Caller) (token : Str), p = kc.making (caller.as subject) token
  | some l => if l.userId = subject then p = .ret () else ∃ msg, p = .raise (.linkConflict msg)

theorem respond_of_perform {w w' : Links} {req : HttpRequest} {prop r : HttpOutcome}
    (h : kc.realmPerform subject w (.http req) prop = some (r, w')) :
    kc.respond subject w req prop = some (r, w') := h

/-! What the admin API answers, request by request. -/

section Respond

variable {req : HttpRequest} {w w' : Links} {prop r : HttpOutcome}

theorem respond_login (hm : req.method = .post) (hl : req.link = none)
    (h : kc.respond subject w req prop = some (r, w')) :
    w' = w ∧ ∃ body token, r = .response 200 body ∧ accessTokenOf body = .ok token := by
  unfold respond at h
  rw [hm, hl] at h
  dsimp only at h
  split at h
  · next body =>
      split_ifs at h with htoken
      obtain ⟨rfl, rfl⟩ := Prod.mk.inj (Option.some.inj h)
      cases hbody : accessTokenOf body with
      | error e =>
          rw [hbody] at htoken
          cases htoken
      | ok token => exact ⟨rfl, body, token, rfl, hbody⟩
  · cases h

theorem respond_read (hm : req.method = .get) (h : kc.respond subject w req prop = some (r, w')) :
    w' = w ∧ r = .response 200 (.value w.listing) := by
  unfold respond at h
  rw [hm] at h
  dsimp only at h
  split_ifs at h
  obtain ⟨rfl, rfl⟩ := Prod.mk.inj (Option.some.inj h)
  exact ⟨rfl, rfl⟩

theorem respond_make {l : Link} (hm : req.method = .post) (hl : req.link = some l)
    (h : kc.respond subject w req prop = some (r, w')) :
    (w.find? l.provider = none ∧ w' = w.add l ∧
      ∃ status body, r = .response status body ∧ (status = 201 ∨ status = 204)) ∨
    (∃ l', w.find? l.provider = some l') ∧ w' = w ∧ ∃ body, r = .response 409 body := by
  unfold respond at h
  rw [hm, hl] at h
  dsimp only at h
  split_ifs at h
  cases hlinked : w.find? l.provider with
  | some l' =>
      rw [hlinked] at h
      obtain ⟨rfl, rfl⟩ := Prod.mk.inj (Option.some.inj h)
      exact .inr ⟨⟨l', rfl⟩, rfl, _, rfl⟩
  | none =>
      rw [hlinked] at h
      dsimp only at h
      split at h
      · obtain ⟨rfl, rfl⟩ := Prod.mk.inj (Option.some.inj h)
        exact .inl ⟨rfl, rfl, 201, _, rfl, .inl rfl⟩
      · obtain ⟨rfl, rfl⟩ := Prod.mk.inj (Option.some.inj h)
        exact .inl ⟨rfl, rfl, 204, _, rfl, .inr rfl⟩

end Respond

/-- Before the POST a call leaves the links alone. -/
theorem Underway.step {p : Run Unit} {n : ℕ} (h : Underway kc subject p n) {o : Op}
    {k : Reply o → Run Unit} (hp : p = .call o k) {w w' : Links} {prop r : Reply o}
    (hw : kc.realmPerform subject w o prop = some (r, w')) :
    w' = w ∧ (Underway kc subject (k r) (n + 1) ∨
      AfterReading kc subject (k r) (n + 1) (w.find? kc.idpAlias)) := by
  cases h with
  | entering caller =>
      rw [ensureLink_eq] at hp
      cases hp
      obtain ⟨rfl, body, token, rfl, htoken⟩ := respond_login rfl rfl (respond_of_perform hw)
      refine ⟨rfl, .inl ?_⟩
      have hnext : Underway kc subject ((Prog.lift (accessTokenOf body) : Run Str).bind
          (kc.reading (caller.as subject))) 1 := by
        rw [htoken]
        exact .reading caller token
      exact hnext
  | reading caller token =>
      cases hp
      obtain ⟨rfl, rfl⟩ := respond_read rfl (respond_of_perform hw)
      refine ⟨rfl, .inr ?_⟩
      change AfterReading kc subject ((Prog.lift (kc.findLink subject (w'.entries.map Link.member))).bind
        fun linked => if linked then .ret () else kc.making (caller.as subject) token) 2
        (w'.entries.find? _)
      rw [findLink_listing]
      cases w'.entries.find? (fun l => l.provider == kc.idpAlias) with
      | none => exact ⟨rfl, caller, token, rfl⟩
      | some l =>
          dsimp only
          by_cases hs : l.userId = subject
          · rw [if_pos hs]
            exact (if_pos hs).mpr rfl
          · rw [if_neg hs]
            exact (if_neg hs).mpr ⟨_, rfl⟩

/-- The POST makes the link, or it is refused. -/
theorem making_step {caller : Caller} {token : Str} {o : Op} {k : Reply o → Run Unit}
    (hp : kc.making (caller.as subject) token = .call o k) {w w' : Links} {prop r : Reply o}
    (hw : kc.realmPerform subject w o prop = some (r, w')) :
    (w.find? kc.idpAlias = none ∧ w' = w.add ⟨kc.idpAlias, subject⟩ ∧ k r = .ret ()) ∨
    (∃ l, w.find? kc.idpAlias = some l) ∧ w' = w ∧ ∃ e, k r = .raise e := by
  cases hp
  rcases respond_make (l := ⟨kc.idpAlias, subject⟩) rfl rfl (respond_of_perform hw) with
    ⟨hnone, rfl, status, body, rfl, hstatus⟩ | ⟨hsome, rfl, body, rfl⟩
  · refine .inl ⟨hnone, rfl, ?_⟩
    change (if status ≠ 201 ∧ status ≠ 204 then _ else _) = _
    rw [if_neg (by omega)]
    rfl
  · exact .inr ⟨hsome, rfl, _, rfl⟩

/-! ### Any number of calls -/

abbrev LinkCall : Type := Proc proxyOps Exc Unit Caller

abbrev LinkRun : Type := Config proxyOps Exc Unit Caller Links

/-- The next request of the call is the POST. -/
def Posts (p : LinkCall) : Prop :=
  ∃ (req : HttpRequest) (k : HttpOutcome → Run Unit), p.prog = .call (.http req) k ∧ req.link.isSome = true

/-- The program can take its next step. -/
def GoesOn (kc : KeycloakClient) (subject : Str) (links : Links) (p : Run Unit) : Prop :=
  ∃ o k, p = .call o k ∧ ∃ prop, (kc.realmPerform subject links o prop).isSome = true

/-- The calls that have ended did so with `P`; the others can go on, and have made two requests at
most. -/
def AllEnd (kc : KeycloakClient) (subject : Str) (P : Except Exc Unit → Prop) (c : LinkRun) : Prop :=
  ∀ p ∈ c.procs, (∃ x, p.prog = Prog.lift x ∧ P x) ∨
    p.trace.length ≤ 2 ∧ GoesOn kc subject c.world p.prog

/-- What linking promises of a run that started with `links`: the calls return and the owner is linked
under the own subject, unless the owner is linked under another id, which is a conflict. -/
structure LinksSafely (kc : KeycloakClient) (subject : Str) (links : Links) (c : LinkRun) : Prop where
  returns : (∀ l, links.find? kc.idpAlias = some l → l.userId = subject) →
    AllEnd kc subject (fun x => x = .ok ()) c ∧
    (∀ l, c.world.find? kc.idpAlias = some l → l.userId = subject) ∧
    ((∃ p ∈ c.procs, p.prog = .ret ()) → ∃ l, c.world.find? kc.idpAlias = some l)
  conflicts : ∀ l, links.find? kc.idpAlias = some l → l.userId ≠ subject →
    AllEnd kc subject (fun x => ∃ msg, x = .error (.linkConflict msg)) c ∧ c.world = links

/-- No call takes its POST when the owner is linked already. -/
def Uncontended (kc : KeycloakClient) (subject : Str) (links : Links)
    (acts : List (Action proxyOps Caller)) : Prop :=
  ∀ acts₀ pid propose p, acts₀ ++ [.act pid propose] <+: acts →
    ((kc.linking subject links).run acts₀).procs[pid]? = some p → Posts p →
    ((kc.linking subject links).run acts₀).world.find? kc.idpAlias = none

omit [Platform] in
theorem find?_add {links : Links} {l : Link} (h : links.find? l.provider = none) :
    (links.add l).find? l.provider = some l := by
  have hnone : ∀ l' ∈ links.entries, (l'.provider == l.provider) = false := by
    intro l' hl'
    simpa using List.find?_eq_none.mp h l' hl'
  have habsent : l.provider ∉ links.entries.map Link.provider := by
    intro hm
    obtain ⟨l', hl', hp⟩ := List.mem_map.mp hm
    have hne := hnone l' hl'
    rw [hp, beq_self_eq_true] at hne
    cases hne
  unfold Links.add Links.find?
  rw [dif_neg habsent, List.find?_append]
  have hold : links.entries.find? (fun l' => l'.provider == l.provider) = none := h
  rw [hold]
  simp

omit [Platform] in
theorem making_posts (caller : Caller) (token : Str) : ∃ (req : HttpRequest) (k : HttpOutcome → Run Unit),
    kc.making (caller.as subject) token = .call (.http req) k ∧ req.link.isSome = true :=
  ⟨_, _, rfl, rfl⟩

theorem Underway.not_posts {p : Run Unit} {n : ℕ} (h : Underway kc subject p n) {req : HttpRequest}
    {k : HttpOutcome → Run Unit} (hp : p = .call (.http req) k) : req.link = none := by
  cases h with
  | entering caller =>
      cases hp
      rfl
  | reading caller token =>
      cases hp
      rfl

theorem goesOn_http {links : Links} {req : HttpRequest} {k : HttpOutcome → Run Unit} (prop : HttpOutcome)
    (h : (kc.respond subject links req prop).isSome = true) :
    GoesOn kc subject links (.call (.http req) k) := ⟨_, _, rfl, prop, h⟩

theorem isSome_read {links : Links} {req : HttpRequest} {prop : HttpOutcome} (hm : req.method = .get)
    (hurl : req.url = kc.linksUrl subject) : (kc.respond subject links req prop).isSome = true := by
  unfold respond
  rw [hm]
  dsimp only
  rw [if_pos hurl]
  rfl

theorem isSome_make {links : Links} {req : HttpRequest} {l : Link} (hm : req.method = .post)
    (hl : req.link = some l) (hurl : req.url = kc.linksUrl subject ++ '/' :: l.provider) :
    (kc.respond subject links req (.raised [])).isSome = true := by
  unfold respond
  rw [hm, hl]
  dsimp only
  rw [if_pos hurl]
  cases links.find? l.provider with
  | none => rfl
  | some l' => rfl

theorem Underway.goesOn {p : Run Unit} {n : ℕ} (h : Underway kc subject p n) (links : Links) :
    n ≤ 2 ∧ GoesOn kc subject links p := by
  cases h with
  | entering caller =>
      have hwf : Json.WF (.obj [("access_token", .str [])]) := ⟨List.nodup_singleton _, trivial, trivial⟩
      refine ⟨by omega, goesOn_http (.response 200 (.value ⟨_, hwf⟩)) ?_⟩
      rfl
  | reading caller token => exact ⟨by omega, goesOn_http (.raised []) (isSome_read rfl rfl)⟩

theorem making_goesOn (caller : Caller) (token : Str) (links : Links) :
    GoesOn kc subject links (kc.making (caller.as subject) token) :=
  goesOn_http (.raised []) (isSome_make (l := ⟨kc.idpAlias, subject⟩) rfl rfl rfl)

/-- As long as nobody posts in vain: a call is on its way, or it has returned and the owner is linked. -/
structure Harmless (kc : KeycloakClient) (subject : Str) (c : LinkRun) : Prop where
  own : ∀ l, c.world.find? kc.idpAlias = some l → l.userId = subject
  calls : ∀ p ∈ c.procs, Underway kc subject p.prog p.trace.length ∨
    (p.trace.length = 2 ∧ ∃ (caller : Caller) (token : Str), p.prog = kc.making (caller.as subject) token) ∨
    (p.prog = .ret () ∧ ∃ l, c.world.find? kc.idpAlias = some l)

theorem Harmless.allEnd {c : LinkRun} (h : Harmless kc subject c) :
    AllEnd kc subject (fun x => x = .ok ()) c := by
  intro p hp
  rcases h.calls p hp with hu | ⟨hn, caller, token, hm⟩ | ⟨hr, -⟩
  · exact .inr (hu.goesOn _)
  · rw [hn, hm]
    exact .inr ⟨le_rfl, making_goesOn caller token _⟩
  · exact .inl ⟨.ok (), hr, rfl⟩

/-- One step of a call that does not post in vain. -/
theorem Harmless.step {c : LinkRun} (h : Harmless kc subject c) {pid : ℕ} {caller : Caller}
    {t : Trace proxyOps} {o : Op} {k : Reply o → Run Unit} (hp : c.procs[pid]? = some ⟨caller, t, .call o k⟩)
    {prop r : Reply o} {w : Links} (hw : kc.realmPerform subject c.world o prop = some (r, w))
    (hpost : Posts ⟨caller, t, .call o k⟩ → c.world.find? kc.idpAlias = none) :
    Harmless kc subject ⟨w, c.procs.set pid ⟨caller, did o r :: t, k r⟩, (pid, did o r) :: c.hist⟩ := by
  rcases h.calls _ (List.mem_of_getElem? hp) with hu | ⟨hn, caller', token, hm⟩ | ⟨hr, -⟩
  · obtain ⟨rfl, hnext⟩ := hu.step rfl hw
    refine ⟨h.own, fun p hmem => ?_⟩
    rcases List.mem_or_eq_of_mem_set hmem with hmem | rfl
    · exact h.calls p hmem
    · rcases hnext with hnext | hnext
      · exact .inl hnext
      · cases hlinked : c.world.find? kc.idpAlias with
        | none =>
            rw [hlinked] at hnext
            exact .inr (.inl hnext)
        | some l =>
            rw [hlinked] at hnext
            exact .inr (.inr ⟨(if_pos (h.own l hlinked)).mp hnext, l, rfl⟩)
  · obtain ⟨req, k', hcall, hlink⟩ : ∃ (req : HttpRequest) (k' : HttpOutcome → Run Unit),
        kc.making (caller'.as subject) token = .call (.http req) k' ∧ req.link.isSome = true :=
      making_posts caller' token
    have hposts : Posts ⟨caller, t, .call o k⟩ := ⟨req, k', hm.trans hcall, hlink⟩
    rcases making_step hm.symm hw with ⟨-, rfl, hret⟩ | ⟨⟨l, hl⟩, -⟩
    · have hadded := find?_add (l := ⟨kc.idpAlias, subject⟩) (hpost hposts)
      refine ⟨fun l hl => ?_, fun p hmem => ?_⟩
      · rw [← Option.some.inj (hadded.symm.trans hl)]
      · rcases List.mem_or_eq_of_mem_set hmem with hmem | rfl
        · rcases h.calls p hmem with hu | hm | ⟨hr, -⟩
          · exact .inl hu
          · exact .inr (.inl hm)
          · exact .inr (.inr ⟨hr, _, hadded⟩)
        · exact .inr (.inr ⟨hret, _, hadded⟩)
    · cases (hpost hposts).symm.trans hl
  · cases hr

/-- While the owner is linked under another id: nobody gets as far as the POST. -/
structure Foreign (kc : KeycloakClient) (subject : Str) (links : Links) (c : LinkRun) : Prop where
  unchanged : c.world = links
  calls : ∀ p ∈ c.procs, Underway kc subject p.prog p.trace.length ∨
    ∃ msg, p.prog = .raise (.linkConflict msg)

theorem Foreign.allEnd {links : Links} {c : LinkRun} (h : Foreign kc subject links c) :
    AllEnd kc subject (fun x => ∃ msg, x = .error (.linkConflict msg)) c := by
  intro p hp
  rcases h.calls p hp with hu | ⟨msg, hm⟩
  · exact .inr (hu.goesOn _)
  · exact .inl ⟨.error _, hm, msg, rfl⟩

theorem Foreign.not_posts {links : Links} {c : LinkRun} (h : Foreign kc subject links c) {p : LinkCall}
    (hp : p ∈ c.procs) : ¬ Posts p := by
  rintro ⟨req, k, hcall, hlink⟩
  rcases h.calls p hp with hu | ⟨msg, hm⟩
  · rw [hu.not_posts hcall] at hlink
    cases hlink
  · cases hcall.symm.trans hm

theorem foreign_run {links : Links} {l : Link} (hl : links.find? kc.idpAlias = some l)
    (hforeign : l.userId ≠ subject) (acts : List (Action proxyOps Caller)) :
    Foreign kc subject links ((kc.linking subject links).run acts) := by
  refine (kc.linking subject links).run_induction (I := fun c => Foreign kc subject links c) ?_ ?_ ?_ acts
  · exact ⟨rfl, fun p hp => nomatch hp⟩
  · rintro c caller ⟨hworld, hcalls⟩
    refine ⟨hworld, fun p hp => ?_⟩
    rcases List.mem_append.mp hp with hp | hp
    · exact hcalls p hp
    · rw [List.mem_singleton.mp hp]
      exact .inl (.entering caller)
  · rintro c pid caller t o k prop r w ⟨hworld, hcalls⟩ hp hw
    rcases hcalls _ (List.mem_of_getElem? hp) with hu | ⟨msg, hm⟩
    · obtain ⟨rfl, hnext⟩ := hu.step rfl hw
      refine ⟨hworld, fun p hmem => ?_⟩
      rcases List.mem_or_eq_of_mem_set hmem with hmem | rfl
      · exact hcalls p hmem
      · rcases hnext with hnext | hnext
        · exact .inl hnext
        · rw [hworld, hl] at hnext
          exact .inr ((if_neg hforeign).mp hnext)
    · cases hm

theorem harmless_run {links : Links} (hown : ∀ l, links.find? kc.idpAlias = some l → l.userId = subject)
    {acts : List (Action proxyOps Caller)} (hacts : Uncontended kc subject links acts) :
    Harmless kc subject ((kc.linking subject links).run acts) := by
  induction acts using List.reverseRecOn with
  | nil => exact ⟨hown, fun p hp => nomatch hp⟩
  | append_singleton acts a ih =>
      have ih := ih fun acts₀ pid propose p hpre => hacts acts₀ pid propose p
        (hpre.trans (List.prefix_append _ _))
      rw [System.run_snoc]
      rcases (kc.linking subject links).step_cases ((kc.linking subject links).run acts) a with he |
        ⟨caller, -, he⟩ | ⟨pid, propose, caller, t, o, k, r, w, ha, hp, hw, he⟩
      · rw [he]
        exact ih
      · rw [he]
        refine ⟨ih.own, fun p hp => ?_⟩
        rcases List.mem_append.mp hp with hp | hp
        · exact ih.calls p hp
        · rw [List.mem_singleton.mp hp]
          exact .inl (.entering caller)
      · rw [he]
        refine ih.step hp hw fun hposts => hacts acts pid propose _ ?_ hp hposts
        rw [ha]

/-- In any run a call is on its way, or it has ended. -/
def Shaped (kc : KeycloakClient) (subject : Str) (p : Run Unit) : Prop :=
  (∃ n, Underway kc subject p n) ∨
    (∃ (caller : Caller) (token : Str), p = kc.making (caller.as subject) token) ∨ ∃ x, p = Prog.lift x

theorem Shaped.step {p : Run Unit} (h : Shaped kc subject p) {o : Op} {k : Reply o → Run Unit}
    (hp : p = .call o k) {w w' : Links} {prop r : Reply o}
    (hw : kc.realmPerform subject w o prop = some (r, w')) : Shaped kc subject (k r) := by
  rcases h with ⟨n, hu⟩ | ⟨caller, token, hm⟩ | ⟨x, hx⟩
  · obtain ⟨-, hnext | hnext⟩ := hu.step hp hw
    · exact .inl ⟨_, hnext⟩
    · cases hlinked : w.find? kc.idpAlias with
      | none =>
          rw [hlinked] at hnext
          exact .inr (.inl hnext.2)
      | some l =>
          rw [hlinked] at hnext
          unfold AfterReading at hnext
          dsimp only at hnext
          split_ifs at hnext
          · exact .inr (.inr ⟨.ok (), hnext⟩)
          · obtain ⟨msg, hmsg⟩ := hnext
            exact .inr (.inr ⟨.error _, hmsg⟩)
  · rcases making_step (hm.symm.trans hp) hw with ⟨-, -, hret⟩ | ⟨-, -, e, hraise⟩
    · exact .inr (.inr ⟨.ok (), hret⟩)
    · exact .inr (.inr ⟨.error e, hraise⟩)
  · cases x <;> cases hx.symm.trans hp

theorem shaped_run {links : Links} (acts : List (Action proxyOps Caller)) :
    ∀ p ∈ ((kc.linking subject links).run acts).procs, Shaped kc subject p.prog := by
  refine (kc.linking subject links).run_induction
    (I := fun c => ∀ p ∈ c.procs, Shaped kc subject p.prog) ?_ ?_ ?_ acts
  · exact fun p hp => nomatch hp
  · intro c caller ih p hp
    rcases List.mem_append.mp hp with hp | hp
    · exact ih p hp
    · rw [List.mem_singleton.mp hp]
      exact .inl ⟨0, .entering caller⟩
  · intro c pid caller t o k prop r w ih hp hw p hmem
    rcases List.mem_or_eq_of_mem_set hmem with hmem | rfl
    · exact ih p hmem
    · exact (ih _ (List.mem_of_getElem? hp)).step rfl hw

omit [Platform] in
theorem link_linkRequest (url token : Str) (caller : Caller) :
    (kc.linkRequest url token caller).link = some ⟨kc.idpAlias, caller.subject⟩ := rfl

theorem respond_refused {w : Links} {req : HttpRequest} {l l' : Link} (hm : req.method = .post)
    (hl : req.link = some l) (hurl : req.url = kc.linksUrl subject ++ '/' :: l.provider)
    (hlinked : w.find? l.provider = some l') (prop : HttpOutcome) :
    kc.respond subject w req prop = some (.response 409 (.invalid []), w) := by
  unfold respond
  rw [hm, hl]
  dsimp only
  rw [if_pos hurl, hlinked]

/-- A POST in vain ends a call in a `ServerError`, for good. -/
theorem raises_of_contended {links : Links} {acts₀ acts : List (Action proxyOps Caller)} {pid : ℕ}
    {propose : (o : Op) → Reply o} {p : LinkCall} {l : Link}
    (hpre : acts₀ ++ [.act pid propose] <+: acts)
    (hp : ((kc.linking subject links).run acts₀).procs[pid]? = some p)
    (hmaking : ∃ (caller : Caller) (token : Str), p.prog = kc.making (caller.as subject) token)
    (hl : ((kc.linking subject links).run acts₀).world.find? kc.idpAlias = some l) :
    ∃ p' ∈ ((kc.linking subject links).run acts).procs, ∃ e, p'.prog = .raise e := by
  obtain ⟨caller, t, prog⟩ := p
  obtain ⟨caller', token, rfl⟩ := hmaking
  have hrefused : ∀ (req : HttpRequest) (prop : HttpOutcome), req = kc.linkRequest (kc.linksUrl subject)
      token (caller'.as subject) → (kc.linking subject links).perform
        ((kc.linking subject links).run acts₀).world (.http req) prop =
      some ((.response 409 (.invalid []) : HttpOutcome), ((kc.linking subject links).run acts₀).world) := by
    rintro req prop rfl
    exact respond_refused rfl (link_linkRequest _ _ _) rfl hl prop
  have hstep := (kc.linking subject links).step_act hp (hrefused _ (propose (.http _)) rfl)
  have hended : ∃ p₁ : LinkCall, ((kc.linking subject links).run (acts₀ ++ [.act pid propose])).procs[pid]? =
      some p₁ ∧ p₁.prog = .raise (serverError ("linking the owner failed with HTTP " ++ intText 409)) := by
    rw [System.run_snoc, hstep]
    exact ⟨_, System.getElem?_set_self' hp, rfl⟩
  obtain ⟨p₁, hp₁, hraise⟩ := hended
  obtain ⟨p', hp', -, -, hkeep⟩ := ((kc.linking subject links).run_mono hpre).2 pid p₁ hp₁
  have hsame : p' = p₁ := by
    apply hkeep
    intro o k hcall
    cases hraise.symm.trans hcall
  subst hsame
  exact ⟨p', List.mem_of_getElem? hp', _, hraise⟩

/-- **When linking is safe.**  In any run of any number of calls the promise is kept exactly when no call
takes its POST while the owner is linked already. -/
theorem linksSafely_iff (kc : KeycloakClient) (subject : Str) (links : Links)
    (acts : List (Action proxyOps Caller)) :
    LinksSafely kc subject links ((kc.linking subject links).run acts) ↔
      Uncontended kc subject links acts := by
  constructor
  · intro h acts₀ pid propose p hpre hp hposts
    have hmem := List.mem_of_getElem? hp
    by_contra hlinked
    obtain ⟨l, hl⟩ := Option.ne_none_iff_exists'.mp hlinked
    have hown : ∀ l, links.find? kc.idpAlias = some l → l.userId = subject := by
      intro l hl
      by_contra hforeign
      exact (foreign_run hl hforeign acts₀).not_posts hmem hposts
    have hmaking : ∃ (caller : Caller) (token : Str), p.prog = kc.making (caller.as subject) token := by
      obtain ⟨req, k, hcall, hlink⟩ := hposts
      rcases shaped_run acts₀ p hmem with ⟨n, hu⟩ | hm | ⟨x, hx⟩
      · rw [hu.not_posts hcall] at hlink
        cases hlink
      · exact hm
      · cases x <;> cases hx.symm.trans hcall
    obtain ⟨p', hp', e, he⟩ := raises_of_contended hpre hp hmaking hl
    rcases (h.returns hown).1 p' hp' with ⟨x, hx, rfl⟩ | ⟨-, o, k, hcall, -⟩
    · cases he.symm.trans hx
    · cases he.symm.trans hcall
  · intro h
    constructor
    · intro hown
      have hrun := harmless_run hown h
      refine ⟨hrun.allEnd, hrun.own, ?_⟩
      rintro ⟨p, hp, hret⟩
      rcases hrun.calls p hp with hu | ⟨-, caller, token, hm⟩ | ⟨-, hlinked⟩
      · obtain ⟨-, o, k, hcall, -⟩ := hu.goesOn links
        cases hret.symm.trans hcall
      · cases hret.symm.trans hm
      · exact hlinked
    · intro l hl hforeign
      have hrun := foreign_run hl hforeign acts
      exact ⟨hrun.allEnd, hrun.unchanged⟩

/-! ### Two calls that both find no link -/

def sampleKeycloak : KeycloakClient where
  issuer := "https://kc.example/realms/x"
  adminBase := "https://kc.example/admin/realms/x"
  clientId := "admin"
  clientSecret := "secret"
  idpAlias := "pat-idp"

def noLinks : Links := ⟨[], List.nodup_nil⟩

/-- The admin login is granted. -/
def loggingIn : (o : Op) → Reply o
  | .http _ =>
      .response 200 (.value ⟨.obj [("access_token", .str "admin-at")], List.nodup_singleton _, trivial, trivial⟩)
  | o => idleReply o

def sampleCaller : Caller := ⟨"u-1", .str "alice", []⟩

/-- Both log in and read, then both post. -/
def racingActs : List (Action proxyOps Caller) :=
  [.start sampleCaller, .start sampleCaller, .act 0 loggingIn, .act 1 loggingIn, .act 0 loggingIn,
    .act 1 loggingIn, .act 0 loggingIn, .act 1 loggingIn]

/-- The call has failed. -/
def LinkCall.failed (p : LinkCall) : Bool :=
  match p.prog with
  | .raise _ => true
  | _ => false

omit [Platform] in
/-- The second of two calls that both find no link fails. -/
theorem racing_fails :
    letI := Platform.plain
    ¬ LinksSafely sampleKeycloak "u-1" noLinks ((sampleKeycloak.linking "u-1" noLinks).run racingActs) := by
  let := Platform.plain
  intro h
  have hraised : ((sampleKeycloak.linking "u-1" noLinks).run racingActs).procs.any LinkCall.failed =
      true := by
    decide +kernel
  obtain ⟨p, hp, hraise⟩ := List.any_eq_true.mp hraised
  have hnone : ∀ l, noLinks.find? sampleKeycloak.idpAlias = some l → l.userId = "u-1" := nofun
  rcases (h.returns hnone).1 p hp with ⟨x, hx, rfl⟩ | ⟨-, o, k, hcall, -⟩
  · rw [LinkCall.failed, hx] at hraise
    cases hraise
  · rw [LinkCall.failed, hcall] at hraise
    cases hraise

end KeycloakClient

end CimdProxy
