import CimdProxy.Provenance
import CimdProxy.TokenLifetime

/-! # What a creation inserts, the schema accepts

The CHECK constraints of the token table live twice: in the schema, and spread over the parsing of
claims and bodies.  `row_checks_iff` says when the two agree: for every caller and body that are
accepted, a row that `create` inserts passes every CHECK exactly when the organization it is bound to is
not the empty alias, which the parsing of a list or a map of aliases lets through. -/

namespace CimdProxy

open Py Effects

variable [Platform] {svc : PatService}

/-! ### What a parsed body guarantees -/

omit [Platform] in
theorem tokenName_length {d : Dict} {name : Str} (h : PatService.tokenName d = .ok name) :
    1 ≤ name.length ∧ name.length ≤ 100 := by
  unfold PatService.tokenName at h
  split at h
  · split_ifs at h with hlen
    rw [← Except.ok.inj h]
    exact hlen
  · cases h

theorem name_length_of_parseCreate {body : Option Json} {request : CreateRequest}
    (h : svc.parseCreate body = .ok request) : 1 ≤ request.name.length ∧ request.name.length ≤ 100 := by
  obtain ⟨d, listed, -, hread⟩ := svc.parseCreate_eq_ok h
  exact tokenName_length hread.name

theorem resources_ne_nil_of_parseCreate {body : Option Json} {request : CreateRequest}
    (h : svc.parseCreate body = .ok request) : request.resources ≠ [] := by
  obtain ⟨d, listed, -, -, hne, hurls⟩ := parseCreate_resources h
  intro hnil
  have hlen := (checkResources_eq_ok hurls).length_eq
  rw [hnil] at hlen
  exact hne (List.length_eq_zero_iff.mp hlen)

omit [Platform] in
theorem tokenHash_length {token : Str} {hash : Bytes} (h : tokenHash token = .ok hash) :
    hash.length = 32 := by
  obtain ⟨bytes, -, h⟩ := bind_eq_ok.mp h
  rw [← Except.ok.inj h]
  exact sha256_length bytes

/-! ### The organization -/

/-- The alias a creation is bound to, named by the request or the only one of the caller, is not
empty. -/
def NamesAlias (aliases : List Str) : Option Str → Prop
  | some organization => organization ≠ []
  | none => aliases ≠ [[]]

omit [Platform] in
theorem tenantFor_eq_ok {caller : Caller} {organization : Option Str} {tenant : Str}
    (h : tenantFor caller organization = .ok tenant) : tenant ∈ caller.organizations ∧
      (tenant ≠ [] ↔ NamesAlias caller.organizations organization) := by
  unfold tenantFor at h
  split at h
  · next org =>
      split_ifs at h with hmem
      obtain rfl := Except.ok.inj h
      exact ⟨by simpa using hmem, Iff.rfl⟩
  · split at h
    · cases h
    · next org horgs =>
        obtain rfl := Except.ok.inj h
        unfold NamesAlias
        rw [horgs]
        exact ⟨List.mem_singleton_self _, by simp⟩
    · cases h

theorem organizations_of_readClaims {claims : Json} {caller : Caller}
    (h : svc.readClaims claims = .ok caller) :
    ∃ d, claims = .obj d ∧ caller.organizations = organizations (Dict.get? d "organization") := by
  unfold PatService.readClaims at h
  split at h
  · next d =>
      split at h
      · cases h
      split at h
      · split at h
        · cases h
        split at h
        · cases h
        split at h
        · cases h
        split at h
        · rw [← Except.ok.inj h]
          exact ⟨d, rfl, rfl⟩
        · cases h
      · cases h
  · cases h

/-! ### The rows -/

/-- A row that a creation inserts passes every CHECK exactly when its tenant is not empty. -/
theorem satisfiesChecks_of_entitled {caller : Caller} {body : Option Json} {request : CreateRequest}
    (hparsed : svc.parseCreate body = .ok request) {t : Trace proxyOps} {record : PatRecord}
    {hash : Bytes} (h : svc.Entitled caller request t record hash) :
    (newRow record hash).satisfiesChecks = true ↔ record.tenant ≠ [] := by
  have hname := name_length_of_parseCreate hparsed
  have hresources := resources_ne_nil_of_parseCreate hparsed
  have hdays := lifetimeDays_pos hparsed
  obtain ⟨token, htoken⟩ := h.hashed
  have hexpires : record.createdAt < record.expiresAt := by
    have hlater : 0 < request.lifetimeDays * microsPerDay := by
      have hday : request.lifetimeDays * microsPerDay = 86400000000 * request.lifetimeDays := mul_comm _ _
      omega
    rw [plusDays_eq_ok h.expires]
    exact lt_add_of_pos_right _ hlater
  unfold Row.satisfiesChecks newRow
  simp [h.name, h.resources, hname.1, hname.2, hresources, tokenHash_length htoken, hexpires]

/-- **When the schema accepts what a creation inserts.** -/
theorem row_checks_iff (svc : PatService) (claims : Json) (caller : Caller) (body : Option Json)
    (request : CreateRequest) (hclaims : svc.readClaims claims = .ok caller)
    (hparsed : svc.parseCreate body = .ok request) {w w' : World} {t : Trace proxyOps}
    {x : Except Exc (PatRecord × Str)} (hrun : (svc.create caller request).Ends World.perform w t x w')
    {later before : Trace proxyOps} {record : PatRecord} {hash : Bytes} {r : Except Str Unit}
    (hinsert : t = later ++ did (.insert record hash) r :: before) :
    ((newRow record hash).satisfiesChecks = true ∧
      ∃ d, claims = .obj d ∧ record.tenant ∈ organizations (Dict.get? d "organization")) ↔
      NamesAlias caller.organizations request.organization := by
  obtain ⟨hcalls, -⟩ := (svc.sat_create caller request).ends hrun
  obtain ⟨-, hent⟩ := hcalls later _ before hinsert
  obtain ⟨hmem, halias⟩ := tenantFor_eq_ok hent.tenant
  obtain ⟨d, hd, horgs⟩ := organizations_of_readClaims hclaims
  rw [satisfiesChecks_of_entitled hparsed hent, halias]
  exact and_iff_left ⟨d, hd, horgs ▸ hmem⟩

/-! ### An alias and an empty alias -/

/-- The claims of an interactive session with the given organizations. -/
def sessionClaims (aliases : List Str) : Json :=
  .obj [("active", .bool true), ("iss", .str "https://id.example/realms/r"), ("typ", .str "Bearer"),
    ("sub", .str "alice"), ("sid", .str "s"), ("organization", .arr (aliases.map .str))]

/-- The realm of `realmReplies`, with a table that refuses the row. -/
def refusingReplies : (o : Op) → Reply o
  | .insert _ _ => .error "new row violates check constraint"
  | o => realmReplies 0 o

/-- The row that the last call of a run inserts. -/
def lastRow (t : Trace proxyOps) : Option (PatRecord × Bytes) :=
  match t with
  | ⟨.insert record hash, _⟩ :: _ => some (record, hash)
  | _ => none

omit [Platform] in
theorem exists_of_lastRow {t : Trace proxyOps} {record : PatRecord} {hash : Bytes}
    (h : lastRow t = some (record, hash)) :
    ∃ (r : Except Str Unit) (before : Trace proxyOps), t = did (.insert record hash) r :: before := by
  unfold lastRow at h
  split at h
  · next record' hash' r before =>
      obtain ⟨rfl, rfl⟩ := Prod.mk.inj (Option.some.inj h)
      exact ⟨r, before, rfl⟩
  · cases h

/-- A service, the claims of a session, and the run of a creation for it against the given replies. -/
def sessionRow (aliases : List Str) (ω : (o : Op) → Reply o) : Option (PatRecord × Bytes) :=
  letI := Platform.plain
  match patService.readClaims (sessionClaims aliases),
    patService.parseCreate (some (lifetimeBody 90)) with
  | .ok caller, .ok request =>
      match (patService.create caller request).play World.perform ω World.init with
      | some (t, _, _) => lastRow t
      | none => none
  | _, _ => none

omit [Platform] in
theorem exists_of_sessionRow {aliases : List Str} {ω : (o : Op) → Reply o} {record : PatRecord}
    {hash : Bytes} (h : sessionRow aliases ω = some (record, hash)) :
    letI := Platform.plain
    ∃ caller request w t x w' r before,
      patService.readClaims (sessionClaims aliases) = .ok caller ∧
      patService.parseCreate (some (lifetimeBody 90)) = .ok request ∧
      (patService.create caller request).Ends World.perform w t x w' ∧
      t = did (.insert record hash) r :: before := by
  let := Platform.plain
  unfold sessionRow at h
  split at h
  · next caller request hcaller hrequest =>
      split at h
      · next t x w' hplay =>
          obtain ⟨r, before, ht⟩ := exists_of_lastRow h
          exact ⟨caller, request, _, t, x, w', r, before, hcaller, hrequest,
            Prog.ends_of_play hplay, ht⟩
      · cases h
  · cases h

/-- Whether a row was inserted that passes the CHECKs, or one that does not. -/
def rowChecks (row : Option (PatRecord × Bytes)) : Option Bool :=
  row.map (fun r => (newRow r.1 r.2).satisfiesChecks)

omit [Platform] in
theorem row_checks_iff_acme :
    letI := Platform.plain
    ∃ caller request record hash, patService.readClaims (sessionClaims ["acme".toList]) = .ok caller ∧
      patService.parseCreate (some (lifetimeBody 90)) = .ok request ∧
      (newRow record hash).satisfiesChecks = true ∧
      NamesAlias caller.organizations request.organization := by
  let := Platform.plain
  have hrow : rowChecks (sessionRow ["acme".toList] (realmReplies 0)) = some true := by decide +kernel
  obtain ⟨⟨record, hash⟩, hs, hchecks⟩ := Option.map_eq_some_iff.mp hrow
  obtain ⟨caller, request, w, t, x, w', r, before, hcaller, hrequest, hrun, ht⟩ :=
    exists_of_sessionRow hs
  have hsplit : t = [] ++ did (.insert record hash) r :: before := ht
  have h := row_checks_iff patService _ caller _ request hcaller hrequest hrun hsplit
  obtain ⟨d, hd, horgs⟩ := organizations_of_readClaims hcaller
  obtain ⟨hcalls, -⟩ := (patService.sat_create caller request).ends hrun
  obtain ⟨-, hent⟩ := hcalls [] _ before ht
  exact ⟨caller, request, record, hash, hcaller, hrequest, hchecks,
    h.mp ⟨hchecks, d, hd, horgs ▸ (tenantFor_eq_ok hent.tenant).1⟩⟩

omit [Platform] in
/-- A session whose claim lists the one empty alias is authenticated, and a creation for it inserts a
row with an empty tenant, which the schema refuses. -/
theorem empty_alias_inserted :
    letI := Platform.plain
    ∃ caller request w t x w' record hash r before,
      patService.readClaims (sessionClaims [[]]) = .ok caller ∧
      patService.parseCreate (some (lifetimeBody 90)) = .ok request ∧
      (patService.create caller request).Ends World.perform w t x w' ∧
      t = did (.insert record hash) r :: before ∧ record.tenant = [] ∧
      (newRow record hash).satisfiesChecks = false := by
  let := Platform.plain
  have hrow : rowChecks (sessionRow [[]] refusingReplies) = some false := by decide +kernel
  obtain ⟨⟨record, hash⟩, hs, hchecks⟩ := Option.map_eq_some_iff.mp hrow
  obtain ⟨caller, request, w, t, x, w', r, before, hcaller, hrequest, hrun, ht⟩ :=
    exists_of_sessionRow hs
  refine ⟨caller, request, w, t, x, w', record, hash, r, before, hcaller, hrequest, hrun, ht, ?_, hchecks⟩
  obtain ⟨hcalls, -⟩ := (patService.sat_create caller request).ends hrun
  obtain ⟨-, hent⟩ := hcalls [] _ before ht
  by_contra hne
  rw [(satisfiesChecks_of_entitled hrequest hent).mpr hne] at hchecks
  cases hchecks

end CimdProxy
