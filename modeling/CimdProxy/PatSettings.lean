import CimdProxy.IndexTables
import CimdProxy.Provenance

/-! # Personal access tokens are configured fully or not at all

`pat_all_or_nothing` is what a loaded configuration promises the token service: without a database url no
entry accepts personal access tokens and no variable of theirs is set, and with one every entry that
accepts them has a secret and the issuer of the tokens, there are scopes, and one key signs. -/

namespace CimdProxy

open Py

section Settings

variable [Platform]

/-- The variable belongs to the settings for personal access tokens. -/
def IsPatName (name : Str) : Prop := "PAT_" <+: name ∨ contains "_PAT_CLIENT_" name = true

omit [Platform] in
theorem contains_append (part a b : Str) : contains part (a ++ (part ++ b)) = true := by
  induction a with
  | nil =>
      rw [List.nil_append]
      cases h : part ++ b with
      | nil =>
          have hpart : part = [] := (List.append_eq_nil_iff.mp h).1
          rw [hpart]
          rfl
      | cons c t =>
          have hpre : part.isPrefixOf (c :: t) = true := by
            rw [← h]
            exact List.isPrefixOf_iff_prefix.mpr (List.prefix_append _ _)
          rw [contains, hpre]
          rfl
  | cons c a ih =>
      rw [List.cons_append, contains, ih, Bool.or_true]

omit [Platform] in
/-- The names of the token client of an entry. -/
theorem isPatName_client (i : ℕ) (field : Str) :
    IsPatName (resourcePrefix i ++ ("PAT_CLIENT_" ++ field)) := by
  refine .inr ?_
  have hname : resourcePrefix i ++ ("PAT_CLIENT_" ++ field) =
      ("RESOURCE_" ++ intText i) ++ ("_PAT_CLIENT_" ++ field) := by
    unfold resourcePrefix
    rw [List.append_assoc]
    rfl
  rw [hname]
  exact contains_append _ _ _

omit [Platform] in
theorem Env.get?_eq_some {env : Env} {name value : Str} (h : env.get? name = some value) :
    (name, value) ∈ env.vars := by
  obtain ⟨v, hv, rfl⟩ := Option.map_eq_some_iff.mp h
  have hname : v.1 = name := by simpa using List.find?_some hv
  rw [← hname]
  exact List.mem_of_find?_eq_some hv

/-- The token client of a loaded entry. -/
theorem patClient_of_loadResource {env : Env} {i : ℕ} {e : ResourceEntry}
    (h : loadResource env i = .ok e) :
    patClient env (resourcePrefix i) = .ok (e.patClientId, e.patClientSecret) := by
  unfold loadResource at h
  dsimp only at h
  split_ifs at h
  obtain ⟨url, -, h⟩ := bind_eq_ok.mp h
  obtain ⟨issuer, -, h⟩ := bind_eq_ok.mp h
  obtain ⟨clientId, -, h⟩ := bind_eq_ok.mp h
  obtain ⟨⟨pid, psec⟩, hclient, h⟩ := bind_eq_ok.mp h
  dsimp only at h
  split_ifs at h
  rw [← Except.ok.inj h]
  exact hclient

omit [Platform] in
theorem patClient_eq_ok {env : Env} {pre clientId clientSecret : Str}
    (h : patClient env pre = .ok (clientId, clientSecret)) :
    clientId = strip (env.getD (pre ++ "PAT_CLIENT_ID") "") ∧
      (clientId = [] ↔ clientSecret = []) := by
  unfold patClient at h
  dsimp only at h
  split_ifs at h with hboth
  obtain ⟨rfl, rfl⟩ := Prod.mk.inj (Except.ok.inj h)
  refine ⟨rfl, ?_⟩
  rw [← List.isEmpty_iff, ← List.isEmpty_iff]
  have := bne_eq_false_iff_eq.mp (Bool.eq_false_of_not_eq_true hboth)
  rw [this]

omit [Platform] in
/-- Nothing is stray exactly when every variable of the tokens is blank. -/
theorem strayPatKeys_eq_nil {env : Env} (h : strayPatKeys env = []) :
    ∀ v ∈ env.vars, IsPatName v.1 → strip v.2 = [] := by
  intro v hv hname
  by_contra hne
  have hmem : v.1 ∈ strayPatKeys env := by
    refine List.mem_map.mpr ⟨v, List.mem_filter.mpr ⟨hv, ?_⟩, rfl⟩
    rw [Bool.and_eq_true, Bool.or_eq_true]
    exact ⟨hname.imp List.isPrefixOf_iff_prefix.mpr id, by simpa using hne⟩
  rw [h] at hmem
  exact nomatch hmem

/-- What `_load_pat` has checked of the settings it returns. -/
structure PatConfigured (env : Env) (files : Files) (resources : List ResourceEntry)
    (pat : PatConfig) : Prop where
  accepted : ∃ e ∈ resources, e.acceptsPat = true
  issuers : ∀ e ∈ resources, e.acceptsPat = true → e.issuer = pat.realmIssuer
  scopes : ∃ raw, strip raw ≠ [] ∧ pat.scopes = splitWs (strip raw)
  signer : SignerLoaded env files pat.signer

theorem loadPat_cases {env : Env} {files : Files} {publicUrl : Str} {resources : List ResourceEntry}
    {result : Option PatConfig} (h : loadPat env files publicUrl resources = .ok result) :
    (result = none ∧ ∀ v ∈ env.vars, IsPatName v.1 → strip v.2 = []) ∨
    ∃ pat, result = some pat ∧ PatConfigured env files resources pat := by
  unfold loadPat at h
  dsimp only at h
  by_cases hdb : (strip (env.getD "PAT_DATABASE_URL" "")).isEmpty = true
  · rw [if_pos hdb] at h
    by_cases hstray : (!(strayPatKeys env).isEmpty) = true
    · rw [if_pos hstray] at h
      cases h
    · rw [if_neg hstray] at h
      exact .inl ⟨(Except.ok.inj h).symm, strayPatKeys_eq_nil (by simpa using hstray)⟩
  rw [if_neg hdb] at h
  by_cases hschema : (!isSchemaName (strip (env.getD "PAT_DATABASE_SCHEMA" "cimd_proxy"))) = true
  · rw [if_pos hschema] at h
    cases h
  rw [if_neg hschema] at h
  obtain ⟨realm, -, h⟩ := bind_eq_ok.mp h
  obtain ⟨scopes, hscopes, h⟩ := bind_eq_ok.mp h
  by_cases hnone : (resources.filter ResourceEntry.acceptsPat).isEmpty = true
  · rw [if_pos hnone] at h
    cases h
  rw [if_neg hnone] at h
  obtain ⟨_, hissuers, h⟩ := bind_eq_ok.mp h
  obtain ⟨idpAlias, -, h⟩ := bind_eq_ok.mp h
  obtain ⟨adminId, -, h⟩ := bind_eq_ok.mp h
  obtain ⟨adminSecret, -, h⟩ := bind_eq_ok.mp h
  obtain ⟨signer, hsigner, h⟩ := bind_eq_ok.mp h
  obtain ⟨raw, -, rfl, hne⟩ := required_eq_ok.mp hscopes
  refine .inr ⟨_, (Except.ok.inj h).symm, ?_, ?_, ⟨raw, hne, rfl⟩, loadSigner_eq_ok hsigner⟩
  · simpa using hnone
  · exact fun e he ha => checkPatIssuers_eq_ok hissuers e (List.mem_filter.mpr ⟨he, ha⟩)

omit [Platform] in
/-- Between separators only there is nothing. -/
theorem forall_of_splitOnP_eq_nil {p : Char → Bool} {s : Str} (h : ∀ w ∈ s.splitOnP p, w = []) :
    ∀ c ∈ s, p c = true := by
  induction s with
  | nil => exact fun c hc => nomatch hc
  | cons x xs ih =>
      rw [List.splitOnP_cons_eq_if_modifyHead] at h
      by_cases hx : p x = true
      · rw [if_pos hx] at h
        intro c hc
        rcases List.mem_cons.mp hc with rfl | hc
        · exact hx
        · exact ih (fun w hw => h w (List.mem_cons_of_mem _ hw)) c hc
      · rw [if_neg hx] at h
        cases hxs : xs.splitOnP p with
        | nil => exact absurd hxs (List.splitOnP_ne_nil _ _)
        | cons v vs =>
            rw [hxs, List.modifyHead_cons] at h
            exact nomatch h _ List.mem_cons_self

omit [Platform] in
/-- Text that is not blank has a word. -/
theorem splitWs_ne_nil {s : Str} (h : strip s ≠ []) : splitWs (strip s) ≠ [] := by
  have hlast := List.rdropWhile_last_not isSpace (s.dropWhile isSpace) h
  intro hnil
  apply hlast
  refine forall_of_splitOnP_eq_nil (fun w hw => ?_) _ (List.getLast_mem h)
  have := List.filter_eq_nil_iff.mp hnil w hw
  simpa using this

omit [Platform] in
theorem countP_eq_one {α : Type} {f : α → Str} {l : List α} {k : Str} (hn : (l.map f).Nodup)
    (hk : k ∈ l.map f) : l.countP (fun a => f a == k) = 1 := by
  have hcount := List.count_eq_one_of_mem hn hk
  rw [List.count, List.countP_map] at hcount
  exact hcount

/-- **Personal access tokens are configured fully or not at all.** -/
theorem pat_all_or_nothing (env : Env) (files : Files) (cfg : ProxyConfig)
    (h : loadConfig env files = .ok cfg) :
    (cfg.pat = none → (∀ e ∈ cfg.resources, e.acceptsPat = false) ∧
      ∀ v ∈ env.vars, IsPatName v.1 → strip v.2 = []) ∧
    ∀ pat, cfg.pat = some pat →
      (∃ e ∈ cfg.resources, e.acceptsPat = true) ∧
      (∀ e ∈ cfg.resources, e.acceptsPat = true →
        e.patClientSecret ≠ [] ∧ e.issuer = pat.realmIssuer) ∧
      pat.scopes ≠ [] ∧ (∀ s ∈ pat.scopes, s ≠ [] ∧ ∀ c ∈ s, isSpace c = false) ∧
      pat.signer.keys.countP (fun k => k.kid == pat.signer.activeKid) = 1 := by
  obtain ⟨hresources, -, -, hpat⟩ := loadConfig_eq_ok h
  have hclient : ∀ e ∈ cfg.resources, ∃ i,
      patClient env (resourcePrefix i) = .ok (e.patClientId, e.patClientSecret) := by
    intro e he
    obtain ⟨i, hi⟩ := List.mem_iff_getElem?.mp he
    exact ⟨i, patClient_of_loadResource (loadResources_getElem hresources hi)⟩
  rcases loadPat_cases hpat with ⟨hnone, hblank⟩ | ⟨pat, hsome, hp⟩
  · refine ⟨fun _ => ⟨fun e he => ?_, hblank⟩, fun pat hpat => ?_⟩
    · obtain ⟨i, hi⟩ := hclient e he
      obtain ⟨hid, -⟩ := patClient_eq_ok hi
      -- a variable that made the entry accept tokens would not be blank
      have hempty : e.patClientId = [] := by
        rw [hid]
        unfold Env.getD
        cases hget : env.get? (resourcePrefix i ++ "PAT_CLIENT_ID") with
        | none => rfl
        | some value => exact hblank _ (Env.get?_eq_some hget) (isPatName_client i "ID")
      unfold ResourceEntry.acceptsPat
      rw [hempty]
      rfl
    · rw [hnone] at hpat
      cases hpat
  · refine ⟨fun hnone => ?_, fun pat' hpat' => ?_⟩
    · rw [hnone] at hsome
      cases hsome
    · rw [hsome] at hpat'
      obtain rfl := Option.some.inj hpat'
      obtain ⟨raw, hraw, hscopes⟩ := hp.scopes
      refine ⟨hp.accepted, fun e he ha => ⟨?_, hp.issuers e he ha⟩, ?_, ?_, ?_⟩
      · obtain ⟨i, hi⟩ := hclient e he
        obtain ⟨-, hboth⟩ := patClient_eq_ok hi
        rw [ne_eq, ← hboth]
        simpa [ResourceEntry.acceptsPat] using ha
      · rw [hscopes]
        exact splitWs_ne_nil hraw
      · rw [hscopes]
        exact fun s hs => isWord_of_mem_splitWs hs
      · exact countP_eq_one hp.signer.distinct hp.signer.active

end Settings

theorem pat_all_or_nothing_patEnv :
    letI := Platform.plain
    ∃ pat, patConfig.pat = some pat ∧ pat.scopes ≠ [] ∧
      pat.signer.keys.countP (fun k => k.kid == pat.signer.activeKid) = 1 := by
  let := Platform.plain
  have hsome : patConfig.pat.isSome = true := by decide +kernel
  obtain ⟨pat, hpat⟩ := Option.isSome_iff_exists.mp hsome
  obtain ⟨-, hconfigured⟩ := pat_all_or_nothing patEnv patFiles patConfig (Except.eq_value _ _)
  obtain ⟨-, -, hscopes, -, hkey⟩ := hconfigured pat hpat
  exact ⟨pat, hpat, hscopes, hkey⟩

end CimdProxy
