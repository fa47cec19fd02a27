import CimdProxy.Creation

/-! # When the expiry of a token can be computed

`parse_create` bounds the lifetime of a token from below only.  `create` adds it to the clock after the
owner has been linked and the trial exchanges have been made, and that addition is the only step of
`create` that raises an `OverflowError` (`sat_create_overflow`).  `expiry_computed_iff` is the exact
condition under which it does not. -/

namespace CimdProxy

open Py Effects

variable [Platform]

def Exc.IsOverflow : Exc → Prop
  | .overflowError _ => True
  | _ => False

/-- An outcome that is no `OverflowError`. -/
def NoOverflow {α : Type} (x : Except Exc α) : Prop := ∀ e, x = .error e → ¬ e.IsOverflow

section NoOverflow

variable {α β : Type} {Q : Trace proxyOps → Op → Prop}

omit [Platform] in
theorem NoOverflow.ok (a : α) : NoOverflow (.ok a) := fun _ h => nomatch h

omit [Platform] in
theorem NoOverflow.error {e : Exc} (h : ¬ e.IsOverflow) : NoOverflow (.error e : Except Exc α) :=
  fun _ he => Except.error.inj he ▸ h

omit [Platform] in
theorem NoOverflow.bind {x : Except Exc α} {f : α → Except Exc β} (hx : NoOverflow x)
    (hf : ∀ a, NoOverflow (f a)) : NoOverflow (x >>= f) := by
  cases x with
  | error e => exact .error (hx e rfl)
  | ok a => exact hf a

omit [Platform] in
theorem sat_noOverflow_bind {p : Run α} {f : α → Run β} {t : Trace proxyOps}
    (hp : p.Sat Q (fun _ x => NoOverflow x) t)
    (hf : ∀ a t, (f a).Sat Q (fun _ x => NoOverflow x) t) :
    (p.bind f).Sat Q (fun _ x => NoOverflow x) t :=
  Prog.Sat.bind hp (fun t' a _ _ => hf a t') (fun _ e _ h => .error (h e rfl))

omit [Platform] in
theorem sat_noOverflow_lift_bind {x : Except Exc α} {f : α → Run β} {t : Trace proxyOps}
    (hx : NoOverflow x) (hf : ∀ a, (f a).Sat Q (fun _ x => NoOverflow x) t) :
    ((Prog.lift x).bind f).Sat Q (fun _ x => NoOverflow x) t :=
  Prog.Sat.lift_bind (fun a _ => hf a) (fun e he => .error (hx e he))

end NoOverflow

/-! ### The link and the trials raise no `OverflowError` -/

section Upstream

variable {t : Trace proxyOps}

omit [Platform] in
theorem sat_send_noOverflow (req : HttpRequest) (t : Trace proxyOps) :
    (send req).Sat PatService.AsksUpstream (fun _ x => NoOverflow x) t := by
  refine sat_ask_bind trivial (fun r => ?_)
  rcases r with ⟨status, body⟩ | ⟨name, text⟩ | msg
  · exact .ok _
  · exact .error id
  · exact .error id

omit [Platform] in
theorem noOverflow_jsonOf (body : BodyJson) : NoOverflow (jsonOf body) := by
  cases body with
  | value v => exact .ok _
  | invalid msg => exact .error id

omit [Platform] in
theorem noOverflow_linkElements (links : Json) : NoOverflow (KeycloakClient.linkElements links) := by
  cases links <;> first | exact .ok _ | exact .error id

namespace KeycloakClient

variable (kc : KeycloakClient)

omit [Platform] in
theorem noOverflow_findLink (subject : Str) (links : List Json) :
    NoOverflow (kc.findLink subject links) := by
  induction links with
  | nil => exact .ok _
  | cons link links ih =>
      cases link with
      | obj d =>
          rw [findLink]
          split_ifs
          · exact .ok _
          · exact .error id
          · exact ih
      | _ => exact .error id

theorem noOverflow_accessTokenOf (body : BodyJson) : NoOverflow (accessTokenOf body) := by
  refine (noOverflow_jsonOf body).bind (fun v => ?_)
  cases v with
  | obj d =>
      dsimp only
      split
      · exact .ok _
      · exact .error id
  | _ => exact .error id

theorem sat_ensureLink_noOverflow (caller : Caller) (t : Trace proxyOps) :
    (kc.ensureLink caller).Sat PatService.AsksUpstream (fun _ x => NoOverflow x) t := by
  refine sat_noOverflow_bind (sat_noOverflow_bind (sat_send_noOverflow _ _) ?_) ?_
  · rintro ⟨status, body⟩ t
    dsimp only
    split
    · exact .error id
    · exact (Prog.sat_lift _ _).mpr (noOverflow_accessTokenOf body)
  rintro token t
  refine sat_noOverflow_bind (sat_send_noOverflow _ _) ?_
  rintro ⟨status, body⟩ t
  dsimp only
  split
  · exact .error id
  refine sat_noOverflow_lift_bind (noOverflow_jsonOf body) (fun links => ?_)
  refine sat_noOverflow_lift_bind (noOverflow_linkElements links) (fun elements => ?_)
  refine sat_noOverflow_lift_bind (kc.noOverflow_findLink caller.subject elements) (fun linked => ?_)
  split
  · exact .ok _
  · refine sat_noOverflow_bind (sat_send_noOverflow _ _) ?_
    rintro ⟨status, body⟩ t
    dsimp only
    split
    · exact .error id
    · exact .ok _

end KeycloakClient

theorem noOverflow_splitUrl (url : Str) : NoOverflow (splitUrl url) := by
  unfold splitUrl
  cases urlsplit url with
  | ok p => exact .ok _
  | error msg => exact .error id

theorem noOverflow_resourceByUrl (cfg : ProxyConfig) (url : Str) : NoOverflow (cfg.resourceByUrl url) := by
  refine NoOverflow.bind ?_ (fun target => .ok _)
  unfold normaliseRequestedUrl
  split
  · exact .ok _
  · refine (noOverflow_splitUrl url).bind (fun p => ?_)
    split <;> exact .ok _

omit [Platform] in
theorem noOverflow_tokenFrom (raw : Bytes) : NoOverflow (tokenFrom raw) := by
  have hbase : ∀ value width, NoOverflow (base62 value width) := by
    intro value width
    unfold base62
    dsimp only
    split
    · exact .error id
    · exact .ok _
  refine (hbase _ _).bind (fun random => ?_)
  refine NoOverflow.bind ?_ (fun check => .ok _)
  refine NoOverflow.bind ?_ (fun bytes => hbase _ _)
  unfold encodeAscii
  split
  · exact .ok _
  · exact .error id

namespace PatService

variable (svc : PatService)

theorem sat_linkOwner_noOverflow (caller : Caller) (t : Trace proxyOps) :
    (svc.linkOwner caller).Sat AsksUpstream (fun _ x => NoOverflow x) t := by
  refine Prog.Sat.attempt_bind (svc.keycloak.sat_ensureLink_noOverflow caller t) (fun t' x _ hx => ?_)
  split
  · exact .ok _
  · exact .error id
  · next e _ => exact .error (hx e rfl)

theorem noOverflow_entry (url : Str) : NoOverflow (svc.entry url) := by
  refine (noOverflow_resourceByUrl svc.config url).bind (fun found => ?_)
  cases found with
  | none => exact .error id
  | some e => exact .ok _

theorem sat_trialExchange_noOverflow (caller : Caller) (e : ResourceEntry) (scopes : List Str)
    (tenant : Str) (t : Trace proxyOps) :
    (svc.trialExchange caller e scopes tenant).Sat AsksUpstream (fun _ x => NoOverflow x) t := by
  refine sat_noOverflow_bind ?_ ?_
  · unfold requestGrant AssertionSigner.sign
    rw [if_neg (by decide)]
    exact ⟨trivial, fun at_ => ⟨trivial, fun jti => sat_send_noOverflow _ _⟩⟩
  · rintro ⟨status, body⟩ t'
    refine (Prog.sat_lift _ _).mpr (NoOverflow.bind ?_ (fun payload => ?_))
    · unfold jsonObject
      split
      · exact .ok _
      · exact .error id
      · exact .error id
    · dsimp only
      split
      · exact .error id
      · exact .ok _

theorem sat_grantedSet_noOverflow (caller : Caller) (request : CreateRequest) (tenant : Str)
    (t : Trace proxyOps) :
    (svc.grantedSet caller request tenant).Sat AsksUpstream (fun _ x => NoOverflow x) t := by
  have hpermitted : ∀ (urls permitted : List Str) (t : Trace proxyOps),
      (svc.trialPermitted caller tenant permitted urls).Sat AsksUpstream (fun _ x => NoOverflow x) t := by
    intro urls
    induction urls with
    | nil => exact fun permitted t => .ok _
    | cons url urls ih =>
        intro permitted t
        refine sat_noOverflow_lift_bind (svc.noOverflow_entry url) (fun e => ?_)
        exact sat_noOverflow_bind (svc.sat_trialExchange_noOverflow caller e permitted tenant t)
          (fun granted t => ih _ t)
  have hnamed : ∀ (urls : List Str) (t : Trace proxyOps),
      (svc.trialNamed caller request.scopes tenant urls).Sat AsksUpstream (fun _ x => NoOverflow x) t := by
    intro urls
    induction urls with
    | nil => exact fun t => .ok _
    | cons url urls ih =>
        intro t
        refine sat_noOverflow_lift_bind (svc.noOverflow_entry url) (fun e => ?_)
        refine sat_noOverflow_bind (svc.sat_trialExchange_noOverflow caller e _ tenant t)
          (fun granted t => ?_)
        dsimp only
        split
        · exact .error id
        · exact ih t
  unfold grantedSet
  split
  · refine sat_noOverflow_bind (hpermitted _ _ t) (fun permitted t => ?_)
    split
    · exact .error id
    · exact .ok _
  · exact sat_noOverflow_bind (hnamed _ t) (fun _ t => .ok _)

/-! ### The one step that can overflow -/

def Op.isClock : Op → Bool
  | .utcnow => true
  | _ => false

omit [Platform] in
theorem AsksUpstream.not_clock {t : Trace proxyOps} {o : Op} (h : AsksUpstream t o) :
    Op.isClock o = false := by
  cases o with
  | utcnow => exact h.elim
  | _ => rfl

/-- The overflow of a creation is that of its expiry. -/
def OverflowsByExpiry {α : Type} (days : ℤ) (t : Trace proxyOps) (x : Except Exc α) : Prop :=
  ∀ e, x = .error e → e.IsOverflow → ∀ now, did .utcnow now ∈ t → plusDays now days = .error e

omit [Platform] in
theorem OverflowsByExpiry.of_noOverflow {α : Type} {days : ℤ} {t : Trace proxyOps} {x : Except Exc α}
    (h : NoOverflow x) : OverflowsByExpiry days t x := fun e he ho => absurd ho (h e he)

theorem sat_create_overflow (caller : Caller) (request : CreateRequest) :
    (svc.create caller request).Sat (fun _ _ => True)
      (OverflowsByExpiry request.lifetimeDays) [] := by
  have htenant : NoOverflow (tenantFor caller request.organization) := by
    unfold tenantFor
    split
    · split
      · exact .ok _
      · exact .error id
    · split
      · exact .error id
      · exact .ok _
      · exact .error id
  refine Prog.Sat.lift_bind (fun tenant _ => ?_) (fun e he => .of_noOverflow (.error (htenant e he)))
  have hnoclock : ∀ {α : Type} {p : Run α} {t : Trace proxyOps},
      p.Sat AsksUpstream (fun _ x => NoOverflow x) t → Free Op.isClock t →
      p.Sat (fun _ _ => True) (fun t' x => Free Op.isClock t' ∧ NoOverflow x) t := fun hp ht =>
    (sat_free hp ht (fun _ _ h => h.not_clock)).mono (fun _ _ _ => trivial) (fun _ _ h => h)
  refine Prog.Sat.bind (hnoclock (svc.sat_linkOwner_noOverflow caller []) .nil) ?_
    (fun _ e _ h => .of_noOverflow (.error (h.2 e rfl)))
  rintro t₁ _ - ⟨ht₁, -⟩
  refine Prog.Sat.bind (hnoclock (svc.sat_grantedSet_noOverflow caller request tenant t₁) ht₁) ?_
    (fun _ e _ h => .of_noOverflow (.error (h.2 e rfl)))
  rintro t₂ scopes - ⟨ht₂, -⟩
  refine sat_ask_bind trivial (fun now => ?_)
  refine sat_ask_bind trivial (fun id => ?_)
  refine Prog.Sat.lift_bind (fun expiresAt _ => ?_) (fun e he => ?_)
  · -- nothing after the expiry overflows
    refine sat_ask_bind trivial (fun raw => ?_)
    refine Prog.Sat.lift_bind (x := tokenFrom raw.val) (fun token _ => ?_)
      (fun e he => .of_noOverflow (.error (noOverflow_tokenFrom _ e he)))
    refine Prog.Sat.lift_bind (fun hash _ => ?_) (fun e he => .of_noOverflow (.error ?_))
    · refine sat_ask_bind trivial (fun r => ?_)
      cases r with
      | ok u => exact .of_noOverflow (.ok _)
      | error msg => exact .of_noOverflow (.error not_false)
    · unfold tokenHash encodeAscii at he
      split at he
      · cases he
      · rw [← Except.error.inj he]
        exact not_false
  · intro e' he' _ now' hm
    obtain rfl := Except.error.inj he'
    rcases List.mem_cons.mp hm with hc | hm
    · cases hc
    · rcases List.mem_cons.mp hm with hc | hm
      · cases hc
        exact he
      · exact absurd hm (ht₂.not_mem _ rfl)

end PatService

end Upstream

/-! ### The expiry -/

/-- The first microsecond of the year 2000, and that of the year 2201. -/
def year2000 : Datetime := 946684800000000

def year2201 : Datetime := 7289654400000000

/-- The expiry of a creation can be computed: it is exactly the lifetime after the clock, and no run of
the creation at that clock ends in an `OverflowError`. -/
def ExpiryComputed (svc : PatService) (caller : Caller) (request : CreateRequest) (now : Datetime) :
    Prop :=
  plusDays now request.lifetimeDays = .ok (now + request.lifetimeDays * microsPerDay) ∧
  ∀ (w : World) (t : Trace proxyOps) (x : Except Exc (PatRecord × Str)) (w' : World),
    (svc.create caller request).Ends World.perform w t x w' → did .utcnow now ∈ t → NoOverflow x

omit [Platform] in
theorem plusDays_exact_iff {now days : ℤ} (hnow : year2000 ≤ now) (hdays : 1 ≤ days) :
    plusDays now days = .ok (now + days * microsPerDay) ↔ now + days * microsPerDay ≤ maxDatetime := by
  have hpos : |days| = days := abs_of_nonneg (by omega)
  unfold plusDays
  rw [hpos]
  have hstart : (946684800000000 : ℤ) ≤ now := hnow
  have hmax : maxDatetime = 253402300799999999 := rfl
  have hday : days * microsPerDay = 86400000000 * days := mul_comm _ _
  rw [hday]
  split_ifs with h1 h2
  · exact iff_of_false (fun h => nomatch h) (by omega)
  · exact iff_of_false (fun h => nomatch h) (by omega)
  · exact iff_of_true rfl (by omega)

omit [Platform] in
theorem lifetime_pos {d : Dict} {days : ℤ} {longOk : Bool} (h : lifetime d = .ok (days, longOk)) :
    1 ≤ days := by
  unfold lifetime at h
  split at h
  · next n _ =>
      split_ifs at h with hn
      split at h
      · split_ifs at h
        rw [← (Prod.mk.inj (Except.ok.inj h)).1]
        exact not_lt.mp hn
      · cases h
  · cases h

theorem lifetimeDays_pos {svc : PatService} {body : Option Json} {request : CreateRequest}
    (h : svc.parseCreate body = .ok request) : 1 ≤ request.lifetimeDays := by
  obtain ⟨d, listed, -, hread⟩ := svc.parseCreate_eq_ok h
  exact lifetime_pos hread.days

/-- **When the expiry can be computed.** -/
theorem expiry_computed_iff (svc : PatService) (caller : Caller) (body : Option Json)
    (request : CreateRequest) (now : Datetime) (hparsed : svc.parseCreate body = .ok request)
    (hnow : year2000 ≤ now ∧ now < year2201) :
    ExpiryComputed svc caller request now ↔
      now + request.lifetimeDays * microsPerDay ≤ maxDatetime := by
  have hiff := plusDays_exact_iff hnow.1 (lifetimeDays_pos hparsed)
  constructor
  · exact fun h => hiff.mp h.1
  · intro h
    refine ⟨hiff.mpr h, fun w t x w' hrun hclock e he ho => ?_⟩
    obtain ⟨-, hend⟩ := (svc.sat_create_overflow caller request).ends hrun
    rw [List.append_nil] at hend
    have herr := hend e he ho now hclock
    rw [hiff.mpr h] at herr
    cases herr

/-! ### A lifetime past the year 9999 -/

/-- A body that asks for the given lifetime. -/
def lifetimeBody (days : ℤ) : Json :=
  .obj [("name", .str "laptop"), ("resources", .arr [.str "https://log.example/"]),
    ("scopes", .arr [.str "read"]), ("expires_in_days", .int days), ("allow_long_lifetime", .bool true)]

/-- A moment in the year 2026. -/
def someNow : Datetime := 1780000000000000

def shortRequest : CreateRequest :=
  letI := Platform.plain
  Except.value (patService.parseCreate (some (lifetimeBody 90))) (by decide +kernel)

def longRequest : CreateRequest :=
  letI := Platform.plain
  Except.value (patService.parseCreate (some (lifetimeBody 3000000))) (by decide +kernel)

omit [Platform] in
theorem someNow_range : year2000 ≤ someNow ∧ someNow < year2201 := by decide +kernel

omit [Platform] in
theorem expiry_computed_iff_short :
    letI := Platform.plain
    patService.parseCreate (some (lifetimeBody 90)) = .ok shortRequest ∧
      ExpiryComputed patService alice shortRequest someNow := by
  let := Platform.plain
  have hparsed : patService.parseCreate (some (lifetimeBody 90)) = .ok shortRequest := Except.eq_value _ _
  refine ⟨hparsed, (expiry_computed_iff patService alice _ _ someNow hparsed someNow_range).mpr ?_⟩
  decide +kernel

/-- The run of a creation that overflows: the error, after the requests to the upstream. -/
def overflows (x : Except Exc (PatRecord × Str)) : Bool :=
  match x with
  | .error (.overflowError _) => true
  | _ => false

omit [Platform] in
/-- Three million days are accepted, the owner is linked and the trial is made, and then the expiry
cannot be computed. -/
theorem long_lifetime_overflows :
    letI := Platform.plain
    patService.parseCreate (some (lifetimeBody 3000000)) = .ok longRequest ∧
      (year2000 ≤ someNow ∧ someNow < year2201) ∧
      (patService.linkOwner alice).eval (realmReplies someNow) = .ok () ∧
      (patService.grantedSet alice longRequest "acme").eval (realmReplies someNow) =
        .ok ["read".toList] ∧
      overflows ((patService.create alice longRequest).eval (realmReplies someNow)) = true ∧
      ¬ ExpiryComputed patService alice longRequest someNow := by
  let := Platform.plain
  have hparsed : patService.parseCreate (some (lifetimeBody 3000000)) = .ok longRequest :=
    Except.eq_value _ _
  refine ⟨hparsed, someNow_range, ?_, ?_, ?_, fun h => ?_⟩
  · decide +kernel
  · decide +kernel
  · decide +kernel
  · have hle := h.1
    revert hle
    decide +kernel

end CimdProxy
