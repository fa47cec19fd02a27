import CimdProxy.Provenance

/-! # The resources of a token

A body lists resources as its caller spells them.  `parse_create` drops repeated spellings first and
looks the resources up afterwards, so two spellings of one resource give one url twice.
`resources_distinct_iff` says for which bodies that does not happen, and with it what a repeated url
spoils: the trials of the creation and the exchange without a resource. -/

namespace CimdProxy

open Py Effects

section Lists

variable {α β : Type}

theorem nodup_eraseDups [BEq α] [LawfulBEq α] (l : List α) : l.eraseDups.Nodup := by
  induction hn : l.length using Nat.strong_induction_on generalizing l with
  | _ n ih =>
      cases l with
      | nil => exact List.nodup_nil
      | cons a as =>
          rw [List.eraseDups_cons, List.nodup_cons]
          have hlt : (as.filter (fun b => !b == a)).length < n := by
            have := List.length_filter_le (fun b => !b == a) as
            rw [List.length_cons] at hn
            omega
          refine ⟨?_, ih _ hlt _ rfl⟩
          simp [List.mem_eraseDups]

/-- What a functional relation makes of distinct elements is distinct exactly when it is injective on
them. -/
theorem nodup_iff_of_forall₂ {r : α → β → Prop} (hr : ∀ a b b', r a b → r a b' → b = b') {as : List α}
    {bs : List β} (h : List.Forall₂ r as bs) (has : as.Nodup) :
    bs.Nodup ↔ ∀ a ∈ as, ∀ a' ∈ as, ∀ b, r a b → r a' b → a = a' := by
  induction h with
  | nil => exact ⟨(fun _ a ha => nomatch ha), fun _ => List.nodup_nil⟩
  | @cons a b as bs hab h ih =>
      rw [List.nodup_cons] at has ⊢
      rw [ih has.2]
      constructor
      · rintro ⟨hb, hinj⟩ x hx x' hx' y hy hy'
        rcases List.mem_cons.mp hx with rfl | hm
        · rcases List.mem_cons.mp hx' with rfl | hm'
          · rfl
          · obtain ⟨b', hb', hr'⟩ := exists_of_mem_left h hm'
            obtain rfl := hr _ _ _ hab hy
            obtain rfl := hr _ _ _ hr' hy'
            exact absurd hb' hb
        · rcases List.mem_cons.mp hx' with rfl | hm'
          · obtain ⟨b', hb', hr'⟩ := exists_of_mem_left h hm
            obtain rfl := hr _ _ _ hab hy'
            obtain rfl := hr _ _ _ hr' hy
            exact absurd hb' hb
          · exact hinj x hm x' hm' y hy hy'
      · intro hinj
        refine ⟨fun hb => ?_, fun x hx x' hx' y hy hy' => ?_⟩
        · obtain ⟨a', ha', hr'⟩ := exists_of_mem_right h hb
          have := hinj a List.mem_cons_self a' (List.mem_cons_of_mem _ ha') b hab hr'
          exact has.1 (this ▸ ha')
        · exact hinj x (List.mem_cons_of_mem _ hx) x' (List.mem_cons_of_mem _ hx') y hy hy'

end Lists

section Service

variable [Platform] {app : App} {svc : PatService} {d : Dict} {request : CreateRequest}

/-- Different spellings in the list of a body lead to different resources. -/
def SpellingsDistinct (svc : PatService) (d : Dict) : Prop :=
  ∀ xs a b ea eb, Dict.get? d "resources" = some (.arr xs) → .str a ∈ xs → .str b ∈ xs →
    svc.config.resourceByUrl a = .ok (some ea) → svc.config.resourceByUrl b = .ok (some eb) →
    ea.url = eb.url → a = b

/-- The resources of a parsed body are different, each is tried once when the token is created, and a
token that names one resource only is exchangeable without saying which. -/
structure ResourcesDistinct (app : App) (svc : PatService) (d : Dict) (request : CreateRequest) :
    Prop where
  nodup : request.resources.Nodup
  trials : ∀ acts, ∀ p ∈ (app.run acts).procs, ∀ authorization body record hash reply t,
    p.req = .createToken authorization body → PatApi.bodyOrNone body = some (.obj d) →
    did (.insert record hash) reply :: t <:+ p.trace →
    record.resources.Nodup ∧ PatService.grantCalls t = request.resources.toFinset.card
  exchangeable : ∀ (record : PatRecord) (url : Str), record.resources = request.resources →
    record.realmIssuer = svc.pat.realmIssuer → (∀ u ∈ request.resources, u = url) →
    ∃ e, svc.resolveResource record none = .ok e ∧ e.url = url

omit [Platform] in
theorem mem_nonEmptyStrs {xs : List Json} {ss : List Str} (h : Json.nonEmptyStrs xs = some ss) {a : Str} :
    a ∈ ss ↔ .str a ∈ xs := by
  induction xs generalizing ss with
  | nil =>
      rw [← Option.some.inj h]
      simp
  | cons x xs ih =>
      unfold Json.nonEmptyStrs at h
      split at h
      · next he => cases he
      · next c s xs' he =>
          obtain ⟨rfl, rfl⟩ := List.cons.inj he
          obtain ⟨ss', hss', rfl⟩ := Option.map_eq_some_iff.mp h
          simp [ih hss']
      · cases h

omit [Platform] in
/-- What was listed, without repetitions. -/
theorem listed_spec {listed : List Str}
    (h : stringList (Dict.get? d "resources") "resources" = .ok listed) :
    ∃ xs, Dict.get? d "resources" = some (.arr xs) ∧ listed.Nodup ∧ ∀ a, a ∈ listed ↔ .str a ∈ xs := by
  unfold stringList at h
  dsimp only at h
  split at h
  · next xs hxs =>
      split at h
      · next ss hss =>
          rw [← Except.ok.inj h]
          exact ⟨xs, hxs, nodup_eraseDups ss, fun a => List.mem_eraseDups.trans (mem_nonEmptyStrs hss)⟩
      · cases h
  · cases h

theorem nodup_iff_spellingsDistinct (h : svc.parseCreate (some (.obj d)) = .ok request) :
    request.resources.Nodup ↔ SpellingsDistinct svc d := by
  obtain ⟨d', listed, hd, hlisted, -, hurls⟩ := parseCreate_resources h
  obtain rfl := Json.obj.inj (Option.some.inj hd)
  obtain ⟨xs, hxs, hnodup, hmem⟩ := listed_spec hlisted
  have hfun := checkResources_eq_ok hurls
  rw [nodup_iff_of_forall₂ ?_ hfun hnodup]
  · constructor
    · intro hinj xs' a b ea eb hxs' ha hb hea heb hurl
      obtain rfl := Json.arr.inj (Option.some.inj (hxs.symm.trans hxs'))
      have found : ∀ {l e}, .str l ∈ xs → svc.config.resourceByUrl l = .ok (some e) →
          ∃ e', svc.config.resourceByUrl l = .ok (some e') ∧ e'.acceptsPat = true ∧ e'.url = e.url := by
        intro l e hl he
        obtain ⟨url, -, e', he', haccepts, -⟩ := exists_of_mem_left hfun ((hmem l).mpr hl)
        obtain rfl := Option.some.inj (Except.ok.inj (he.symm.trans he'))
        exact ⟨e, he, haccepts, rfl⟩
      refine hinj a ((hmem a).mpr ha) b ((hmem b).mpr hb) ea.url (found ha hea) ?_
      rw [hurl]
      exact found hb heb
    · rintro hdist a ha b hb url ⟨ea, hea, -, rfl⟩ ⟨eb, heb, -, hurl⟩
      exact hdist xs a b ea eb hxs ((hmem a).mp ha) ((hmem b).mp hb) hea heb hurl.symm
  · rintro a url url' ⟨e, he, -, rfl⟩ ⟨e', he', -, rfl⟩
    rw [Option.some.inj (Except.ok.inj (he.symm.trans he'))]

/-- **When the resources of a token are distinct.** -/
theorem resources_distinct_iff (env : Env) (files : Files) (cfg : ProxyConfig) (app : App)
    (svc : PatService) (hp : PatLoaded env files cfg app svc) (d : Dict) (request : CreateRequest)
    (h : svc.parseCreate (some (.obj d)) = .ok request) :
    ResourcesDistinct app svc d request ↔ SpellingsDistinct svc d := by
  rw [← nodup_iff_spellingsDistinct h]
  refine ⟨fun hr => hr.nodup, fun hnodup => ⟨hnodup, ?_, ?_⟩⟩
  · intro acts p hmem authorization body record hash reply t hreq hbody hsuf
    have hissued := (proxy app).trace_issued (handler_sat app) acts p hmem _ _ _ hsuf
    rw [hreq] at hissued
    obtain ⟨svc', hsvc', caller, request', raw, token, hins⟩ := hissued.2
    obtain rfl := Option.some.inj (hp.service.symm.trans hsvc')
    have hparsed := hins.parsed
    rw [hbody, h] at hparsed
    obtain rfl := Except.ok.inj hparsed
    rw [hins.trials, hins.resources, List.toFinset_card_of_nodup hnodup]
    exact ⟨hnodup, rfl⟩
  · intro record url hresources hrealm hall
    obtain ⟨d', listed, -, -, hne, hurls⟩ := parseCreate_resources h
    -- the resources are not empty, and there is only one
    have hone : request.resources = [url] := by
      have hlen := (checkResources_eq_ok hurls).length_eq
      cases hres : request.resources with
      | nil =>
          rw [hres] at hlen
          exact absurd (List.length_eq_zero_iff.mp hlen) hne
      | cons u us =>
          rw [hres] at hall hnodup
          obtain rfl := hall u List.mem_cons_self
          cases us with
          | nil => rfl
          | cons v vs =>
              have hv := hall v (List.mem_cons_of_mem _ List.mem_cons_self)
              rw [hv, List.nodup_cons] at hnodup
              exact absurd List.mem_cons_self hnodup.1
    obtain ⟨e, he, haccepts, hurl⟩ := exists_entry_of_mem h (hone ▸ List.mem_singleton_self url)
    have hissuer : e.issuer = record.realmIssuer := by
      rw [hp.pat.2] at he
      exact (hp.settings.2 e (mem_of_resourceByUrl he) haccepts).trans hrealm.symm
    refine ⟨e, ?_, hurl⟩
    unfold PatService.resolveResource PatService.targetResource
    rw [hresources, hone]
    change (svc.config.resourceByUrl url >>= _) = _
    rw [he, ok_bind]
    dsimp only
    rw [if_neg (by simp [hurl]), if_neg (by rw [haccepts, hissuer]; simp)]
    rfl

end Service

/-! ### One resource, named once and named twice -/

/-- A body that names these resources. -/
def bodyNaming (resources : List Str) : Dict :=
  [("name", .str "laptop"), ("resources", .arr (resources.map .str)), ("scopes", .arr [.str "read"])]

/-- What the service makes of it. -/
def parsedResources (resources : List Str) : Option (List Str) :=
  letI := Platform.plain
  patApp.patService.bind (fun svc =>
    ((svc.parseCreate (some (.obj (bodyNaming resources)))).toOption).map CreateRequest.resources)

theorem exists_of_parsedResources {resources urls : List Str}
    (h : parsedResources resources = some urls) :
    letI := Platform.plain
    ∃ svc request, PatLoaded patEnv patFiles patConfig patApp svc ∧
      svc.parseCreate (some (.obj (bodyNaming resources))) = .ok request ∧ request.resources = urls := by
  let := Platform.plain
  obtain ⟨svc, hp⟩ := patLoaded_patApp
  unfold parsedResources at h
  rw [hp.service, Option.bind_some] at h
  obtain ⟨request, hrequest, hurls⟩ := Option.map_eq_some_iff.mp h
  refine ⟨svc, request, hp, ?_, hurls⟩
  cases hparse : svc.parseCreate (some (.obj (bodyNaming resources))) with
  | error e =>
      rw [hparse] at hrequest
      cases hrequest
  | ok request' =>
      rw [hparse] at hrequest
      rw [Option.some.inj hrequest]

theorem resources_distinct_iff_once :
    letI := Platform.plain
    ∃ svc request, PatLoaded patEnv patFiles patConfig patApp svc ∧
      svc.parseCreate (some (.obj (bodyNaming ["https://log.example/"]))) = .ok request ∧
      ResourcesDistinct patApp svc (bodyNaming ["https://log.example/"]) request := by
  let := Platform.plain
  have hurls : parsedResources ["https://log.example/"] = some ["https://log.example".toList] := by
    decide +kernel
  obtain ⟨svc, request, hp, hparse, hres⟩ := exists_of_parsedResources hurls
  have hnodup : request.resources.Nodup := by simp [hres]
  exact ⟨svc, request, hp, hparse,
    (resources_distinct_iff patEnv patFiles patConfig patApp svc hp _ request hparse).mpr
      ((nodup_iff_spellingsDistinct hparse).mp hnodup)⟩

/-- Two accepted spellings of one resource give its url twice. -/
theorem resources_repeated :
    letI := Platform.plain
    ∃ svc request, PatLoaded patEnv patFiles patConfig patApp svc ∧
      svc.parseCreate (some (.obj (bodyNaming ["https://log.example", "https://log.example/"]))) =
        .ok request ∧
      request.resources = ["https://log.example".toList, "https://log.example".toList] ∧
      ¬ ResourcesDistinct patApp svc (bodyNaming ["https://log.example", "https://log.example/"])
        request := by
  let := Platform.plain
  have hurls : parsedResources ["https://log.example", "https://log.example/"] =
      some ["https://log.example".toList, "https://log.example".toList] := by
    decide +kernel
  obtain ⟨svc, request, hp, hparse, hres⟩ := exists_of_parsedResources hurls
  refine ⟨svc, request, hp, hparse, hres, fun hdist => ?_⟩
  have hnodup := hdist.nodup
  rw [hres] at hnodup
  simp at hnodup

end CimdProxy
