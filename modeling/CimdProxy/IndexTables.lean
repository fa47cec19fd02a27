import CimdProxy.TokenTable
import CimdProxy.DigitText

/-! # The indexed tables of the environment

Two tables are written as variables with an index in their name.  `tables_complete` says that neither
loader drops an index silently: what it returns has one entry for each index that any variable mentions,
and reads the entry from the variables of that index.  The loaders look for gaps in different ways, and
the names of different indices overlap as strings; what counts is the number between the fixed part of
the name and the next underscore. -/

namespace CimdProxy

open Py

section Tables

variable [Platform]

/-- The name begins with the fixed part, a digit string for the index and an underscore. -/
def Mentions (pre key : Str) (i : ℕ) : Prop := ∃ d tail, key = pre ++ (d ++ '_' :: tail) ∧ Denotes d i

/-- Some variable of the environment mentions the index. -/
def Env.Mentions (env : Env) (pre : Str) (i : ℕ) : Prop := ∃ key ∈ env.keys, CimdProxy.Mentions pre key i

theorem mentions_intText (pre tail : Str) (i : ℕ) : Mentions pre (pre ++ (intText i ++ '_' :: tail)) i :=
  ⟨intText i, tail, rfl, Denotes.toDigits i⟩

omit [Platform] in
theorem Env.mem_keys_iff {env : Env} {name : Str} : name ∈ env.keys ↔ (env.get? name).isSome = true := by
  unfold Env.keys Env.get?
  rw [Option.isSome_map, List.find?_isSome, List.mem_map]
  simp

omit [Platform] in
theorem Env.any_prefix_congr {env env' : Env} {pre : Str}
    (h : ∀ name, pre <+: name → env.get? name = env'.get? name) :
    env.keys.any (fun k => pre.isPrefixOf k) = env'.keys.any (fun k => pre.isPrefixOf k) := by
  have hmem : ∀ k, pre.isPrefixOf k = true → (k ∈ env.keys ↔ k ∈ env'.keys) := by
    intro k hk
    rw [Env.mem_keys_iff, Env.mem_keys_iff, h k (List.isPrefixOf_iff_prefix.mp hk)]
  rw [Bool.eq_iff_iff, List.any_eq_true, List.any_eq_true]
  constructor
  · rintro ⟨k, hk, hp⟩
    exact ⟨k, (hmem k hp).mp hk, hp⟩
  · rintro ⟨k, hk, hp⟩
    exact ⟨k, (hmem k hp).mpr hk, hp⟩

/-! ### The resource table -/

/-- The index a name mentions is the one the loader reads. -/
theorem resourceIndex_of_mentions (hd : LawfulDigits) {key : Str} {i : ℕ} {found : Option ℤ}
    (hm : Mentions "RESOURCE_" key i) (h : resourceIndex key = .ok found) : found = some (i : ℤ) := by
  obtain ⟨d, tail, rfl, hden⟩ := hm
  have hpre : ("RESOURCE_" : Str).isPrefixOf ("RESOURCE_" ++ (d ++ '_' :: tail)) = true :=
    List.isPrefixOf_iff_prefix.mpr (List.prefix_append _ _)
  have hdrop : (("RESOURCE_" : Str) ++ (d ++ '_' :: tail)).drop 9 = d ++ '_' :: tail :=
    List.drop_left' rfl
  have hdigit := hd.isDigitText hden.1 (isSome_digitVal_of_decimalFrom hden.2)
  unfold resourceIndex at h
  rw [if_pos hpre, hdrop, partition_append hden.not_underscore] at h
  dsimp only at h
  rw [hdigit, Bool.true_and, if_pos rfl, hd.intOf_eq hden] at h
  split_ifs at h with hlong
  · exact (Except.ok.inj h).symm

/-- What the scan for the highest index returns. -/
theorem foldlM_highest {keys : List Str} {start highest : ℤ}
    (h : keys.foldlM (fun highest key => do
      match ← resourceIndex key with
      | some n => return if highest < n then n else highest
      | none => return highest) start = .ok highest) :
    start ≤ highest ∧ ∀ key ∈ keys, ∃ found, resourceIndex key = .ok found ∧
      ∀ n, found = some n → n ≤ highest := by
  induction keys generalizing start with
  | nil =>
      obtain rfl := Except.ok.inj h
      exact ⟨le_rfl, fun key hkey => nomatch hkey⟩
  | cons key keys ih =>
      rw [List.foldlM_cons] at h
      obtain ⟨next, hnext, h⟩ := bind_eq_ok.mp h
      obtain ⟨found, hfound, hnext⟩ := bind_eq_ok.mp hnext
      obtain ⟨hle, hall⟩ := ih h
      have hstart : start ≤ next ∧ ∀ n, found = some n → n ≤ next := by
        cases found with
        | none =>
            obtain rfl := Except.ok.inj hnext
            exact ⟨le_rfl, fun n hn => nomatch hn⟩
        | some n =>
            obtain rfl := Except.ok.inj hnext
            refine ⟨by split_ifs <;> omega, fun m hm => ?_⟩
            obtain rfl := Option.some.inj hm
            split_ifs <;> omega
      refine ⟨hstart.1.trans hle, fun k hk => ?_⟩
      rcases List.mem_cons.mp hk with rfl | hk
      · exact ⟨found, hfound, fun n hn => (hstart.2 n hn).trans hle⟩
      · exact hall k hk

/-- The variables of an index. -/
theorem mentions_of_loadResource {env : Env} {i : ℕ} {e : ResourceEntry}
    (h : loadResource env i = .ok e) : env.Mentions "RESOURCE_" i := by
  unfold loadResource at h
  dsimp only at h
  split_ifs at h with hnone
  have hany : env.keys.any (fun k => (resourcePrefix i).isPrefixOf k) = true := by simpa using hnone
  obtain ⟨key, hkey, hpre⟩ := List.any_eq_true.mp hany
  obtain ⟨tail, rfl⟩ := List.isPrefixOf_iff_prefix.mp hpre
  have hname : resourcePrefix i ++ tail = "RESOURCE_" ++ (intText i ++ '_' :: tail) := by
    unfold resourcePrefix
    rw [List.append_assoc, List.append_assoc]
    rfl
  exact ⟨_, hkey, by rw [hname]; exact mentions_intText _ _ _⟩

/-- A loaded table has an entry for each index that any variable mentions, and no other. -/
theorem loadResources_mentions_iff (hd : LawfulDigits) {env : Env} {rs : List ResourceEntry}
    (h : loadResources env = .ok rs) (i : ℕ) : env.Mentions "RESOURCE_" i ↔ i < rs.length := by
  constructor
  · rintro ⟨key, hkey, hm⟩
    obtain ⟨highest, hhighest, h⟩ := bind_eq_ok.mp h
    obtain ⟨found, hfound, hle⟩ := (foldlM_highest hhighest).2 key hkey
    have hi := hle _ (resourceIndex_of_mentions hd hm hfound)
    rw [← (mapM_eq_ok.mp h).length_eq, List.length_range]
    omega
  · intro hi
    obtain ⟨e, he⟩ : ∃ e, rs[i]? = some e := ⟨_, List.getElem?_eq_getElem hi⟩
    exact mentions_of_loadResource (loadResources_getElem h he)

/-- An entry reads the variables of its index only. -/
theorem loadResource_congr {env env' : Env} {i : ℕ}
    (h : ∀ name, resourcePrefix i <+: name → env.get? name = env'.get? name) :
    loadResource env i = loadResource env' i := by
  have hget : ∀ field, env.get? (resourcePrefix i ++ field) = env'.get? (resourcePrefix i ++ field) :=
    fun field => h _ (List.prefix_append _ _)
  unfold loadResource required patClient Env.getD
  dsimp only
  rw [Env.any_prefix_congr h]
  simp only [hget]

/-- Two environments that agree on the variables of an index load the same entry for it. -/
theorem loadResources_congr (hd : LawfulDigits) {env env' : Env} {rs rs' : List ResourceEntry}
    (h : loadResources env = .ok rs) (h' : loadResources env' = .ok rs') {i : ℕ}
    (hsame : ∀ name, resourcePrefix i <+: name → env.get? name = env'.get? name) : rs[i]? = rs'[i]? := by
  have hload : loadResource env i = loadResource env' i := loadResource_congr hsame
  have hlen : ∀ {env₁ env₂ : Env} {rs₁ rs₂ : List ResourceEntry}, loadResources env₁ = .ok rs₁ →
      loadResources env₂ = .ok rs₂ → loadResource env₁ i = loadResource env₂ i → i < rs₁.length →
      i < rs₂.length := by
    intro env₁ env₂ rs₁ rs₂ h₁ h₂ heq hi
    have he := loadResources_getElem h₁ (List.getElem?_eq_getElem hi)
    rw [heq] at he
    exact (loadResources_mentions_iff hd h₂ i).mp (mentions_of_loadResource he)
  by_cases hi : i < rs.length
  · have hi' := hlen h h' hload hi
    have he := loadResources_getElem h (List.getElem?_eq_getElem hi)
    have he' := loadResources_getElem h' (List.getElem?_eq_getElem hi')
    rw [hload, he'] at he
    rw [List.getElem?_eq_getElem hi, List.getElem?_eq_getElem hi', Except.ok.inj he]
  · have hi' : ¬ i < rs'.length := fun hi' => hi (hlen h' h hload.symm hi')
    rw [List.getElem?_eq_none (Nat.le_of_not_lt hi), List.getElem?_eq_none (Nat.le_of_not_lt hi')]

/-! ### The signing keys -/

theorem signingKeyIndex_of_mentions (hd : LawfulDigits) {key : Str} {i : ℕ} {found : Option ℤ}
    (hm : Mentions "PAT_SIGNING_KEY_" key i) (h : signingKeyIndex key = .ok found) :
    found = some (i : ℤ) := by
  obtain ⟨d, tail, rfl, hden⟩ := hm
  have hpre : ("PAT_SIGNING_KEY_" : Str).isPrefixOf ("PAT_SIGNING_KEY_" ++ (d ++ '_' :: tail)) = true :=
    List.isPrefixOf_iff_prefix.mpr (List.prefix_append _ _)
  have hdrop : (("PAT_SIGNING_KEY_" : Str) ++ (d ++ '_' :: tail)).drop 16 = d ++ '_' :: tail :=
    List.drop_left' rfl
  have hempty : d.isEmpty = false := by simpa using hden.1
  have hall : d.all (fun c => (digitVal c).isSome) = true :=
    List.all_eq_true.mpr (isSome_digitVal_of_decimalFrom hden.2)
  unfold signingKeyIndex at h
  rw [if_pos hpre, hdrop, partition_append hden.not_underscore] at h
  dsimp only at h
  rw [hempty, hall, if_pos (by decide), hd.intOf_eq hden] at h
  split_ifs at h
  exact (Except.ok.inj h).symm

/-- What it means that no name is left over. -/
theorem higherSigningKeys_eq_nil {env : Env} {n : ℕ} (h : higherSigningKeys env n = .ok []) :
    ∀ key ∈ env.keys, ∃ found, signingKeyIndex key = .ok found ∧ ∀ i, found = some i → i < (n : ℤ) := by
  unfold higherSigningKeys at h
  generalize env.keys = keys at h
  induction keys with
  | nil => exact fun key hkey => nomatch hkey
  | cons key keys ih =>
      rw [List.filterMapM_cons] at h
      obtain ⟨kept, hkept, h⟩ := bind_eq_ok.mp h
      obtain ⟨found, hfound, hkept⟩ := bind_eq_ok.mp hkept
      cases kept with
      | some k =>
          obtain ⟨rest, -, h⟩ := bind_eq_ok.mp h
          cases h
      | none =>
          intro k hk
          rcases List.mem_cons.mp hk with rfl | hk
          · refine ⟨found, hfound, ?_⟩
            rintro i rfl
            by_contra hi
            dsimp only at hkept
            rw [if_pos (Int.not_lt.mp hi)] at hkept
            cases hkept
          · exact ih h k hk

/-- What a loaded signer is. -/
structure SignerLoaded (env : Env) (files : Files) (signer : AssertionSigner) : Prop where
  keys : ∀ i k, signer.keys[i]? = some k → loadSigningKey env files i = .ok k
  left : higherSigningKeys env signer.keys.length = .ok []
  distinct : (signer.keys.map SigningKey.kid).Nodup
  active : signer.activeKid ∈ signer.keys.map SigningKey.kid

omit [Platform] in
theorem takeWhile_range (p : ℕ → Bool) (n : ℕ) :
    (List.range n).takeWhile p = List.range ((List.range n).takeWhile p).length := by
  have hpre : (List.range n).takeWhile p <+: List.range n := List.takeWhile_prefix p
  have hle := hpre.length_le
  rw [List.length_range] at hle
  have := List.prefix_iff_eq_take.mp hpre
  rw [this, List.take_range, List.length_range]

theorem loadSigner_eq_ok {env : Env} {files : Files} {publicUrl : Str} {signer : AssertionSigner}
    (h : loadSigner env files publicUrl = .ok signer) : SignerLoaded env files signer := by
  unfold loadSigner at h
  dsimp only at h
  obtain ⟨keys, hkeys, h⟩ := bind_eq_ok.mp h
  obtain ⟨higher, hhigher, h⟩ := bind_eq_ok.mp h
  rw [takeWhile_range] at hkeys
  have hf := mapM_eq_ok.mp hkeys
  have hlen := hf.length_eq
  rw [List.length_range] at hlen
  have hnil : higher = [] := by
    by_contra hne
    have hpos : (!higher.isEmpty) = true := by simpa using hne
    rw [if_pos hpos] at h
    cases h
  subst hnil
  rw [if_neg (by simp)] at h
  by_cases hempty : keys.isEmpty = true
  · rw [if_pos hempty] at h
    cases h
  by_cases hkids : (keys.map SigningKey.kid).Nodup
  · rw [if_neg hempty, if_neg (not_not.mpr hkids)] at h
    obtain ⟨activeKid, -, h⟩ := bind_eq_ok.mp h
    obtain ⟨rfl, hactive⟩ : signer.keys = keys ∧
        (keys.find? (fun k => k.kid == signer.activeKid)).isSome = true := by
      generalize (if (strip _).isEmpty = true then publicUrl else _) = issuer at h
      unfold AssertionSigner.make at h
      by_cases hfind : (keys.find? (fun k => k.kid == activeKid)).isSome = true
      · rw [dif_pos hfind] at h
        obtain rfl := Except.ok.inj h
        exact ⟨rfl, hfind⟩
      · rw [dif_neg hfind] at h
        cases h
    refine ⟨fun i k hk => ?_, by rw [← hlen]; exact hhigher, hkids, ?_⟩
    · obtain ⟨hlt, rfl⟩ := List.getElem?_eq_some_iff.mp hk
      have := (List.forall₂_iff_get.mp hf).2 i (by rw [List.length_range]; omega) hlt
      simpa using this
    · obtain ⟨k, hk⟩ := Option.isSome_iff_exists.mp hactive
      have hkid : k.kid = signer.activeKid := by simpa using List.find?_some hk
      exact List.mem_map.mpr ⟨k, List.mem_of_find?_eq_some hk, hkid⟩
  · rw [if_neg hempty, if_pos hkids] at h
    cases h

theorem mentions_of_loadSigningKey {env : Env} {files : Files} {i : ℕ} {k : SigningKey}
    (h : loadSigningKey env files i = .ok k) : env.Mentions "PAT_SIGNING_KEY_" i := by
  obtain ⟨kid, hkid, -⟩ := bind_eq_ok.mp h
  obtain ⟨raw, hraw, -, -⟩ := required_eq_ok.mp hkid
  have hname : signingKeyVar i "KID" = "PAT_SIGNING_KEY_" ++ (intText i ++ '_' :: "KID".toList) := by
    unfold signingKeyVar
    rw [List.append_assoc, List.append_assoc]
    rfl
  refine ⟨signingKeyVar i "KID", Env.mem_keys_iff.mpr (by rw [hraw]; rfl), ?_⟩
  rw [hname]
  exact mentions_intText _ _ _

/-- A loaded signer has a key for each index that any variable mentions, and no other. -/
theorem SignerLoaded.mentions_iff (hd : LawfulDigits) {env : Env} {files : Files}
    {signer : AssertionSigner} (h : SignerLoaded env files signer) (i : ℕ) :
    env.Mentions "PAT_SIGNING_KEY_" i ↔ i < signer.keys.length := by
  constructor
  · rintro ⟨key, hkey, hm⟩
    obtain ⟨found, hfound, hlt⟩ := higherSigningKeys_eq_nil h.left key hkey
    have := hlt _ (signingKeyIndex_of_mentions hd hm hfound)
    omega
  · intro hi
    exact mentions_of_loadSigningKey (h.keys i _ (List.getElem?_eq_getElem hi))

/-- **No table index is dropped.**  A loaded table has an entry for exactly the indices that some
variable mentions, each read from the variables of its index; a loaded signer has such a key table too,
with different names of which the active one is one.  When the indices that are mentioned are not the
numbers below some number, loading raises an error. -/
theorem tables_complete (hd : LawfulDigits) :
    (∀ env rs, loadResources env = .ok rs →
      (∀ i, env.Mentions "RESOURCE_" i ↔ i < rs.length) ∧
      ∀ env' rs' i, loadResources env' = .ok rs' →
        (∀ name, resourcePrefix i <+: name → env.get? name = env'.get? name) → rs[i]? = rs'[i]?) ∧
    (∀ env files publicUrl signer, loadSigner env files publicUrl = .ok signer →
      (∀ i, env.Mentions "PAT_SIGNING_KEY_" i ↔ i < signer.keys.length) ∧
      (∀ i k, signer.keys[i]? = some k → loadSigningKey env files i = .ok k) ∧
      (signer.keys.map SigningKey.kid).Nodup ∧
      signer.activeKid ∈ signer.keys.map SigningKey.kid) ∧
    (∀ env, (¬ ∃ n, ∀ i, env.Mentions "RESOURCE_" i ↔ i < n) → ∃ e, loadResources env = .error e) ∧
    (∀ env files publicUrl, (¬ ∃ n, ∀ i, env.Mentions "PAT_SIGNING_KEY_" i ↔ i < n) →
      ∃ e, loadSigner env files publicUrl = .error e) := by
  refine ⟨fun env rs h => ⟨loadResources_mentions_iff hd h, fun env' rs' i h' => ?_⟩,
    fun env files publicUrl signer h => ?_, fun env hgap => ?_, fun env files publicUrl hgap => ?_⟩
  · exact loadResources_congr hd h h'
  · have hs := loadSigner_eq_ok h
    exact ⟨hs.mentions_iff hd, hs.keys, hs.distinct, hs.active⟩
  · cases h : loadResources env with
    | error e => exact ⟨e, rfl⟩
    | ok rs => exact absurd ⟨_, loadResources_mentions_iff hd h⟩ hgap
  · cases h : loadSigner env files publicUrl with
    | error e => exact ⟨e, rfl⟩
    | ok signer => exact absurd ⟨_, (loadSigner_eq_ok h).mentions_iff hd⟩ hgap

end Tables

theorem lawfulDigits_plain :
    letI := Platform.plain
    LawfulDigits := by
  let := Platform.plain
  exact ⟨(fun c v h => nomatch h), (fun c v h => nomatch h)⟩

theorem tables_complete_patEnv :
    letI := Platform.plain
    (∀ i, patEnv.Mentions "RESOURCE_" i ↔ i < 2) ∧
      ∀ i, patEnv.Mentions "PAT_SIGNING_KEY_" i ↔ i < 1 := by
  let := Platform.plain
  obtain ⟨hresources, hsigner, -⟩ := tables_complete lawfulDigits_plain
  have hrs : (loadResources patEnv).toOption.map List.length = some 2 := by decide +kernel
  have hks : (loadSigner patEnv patFiles "https://proxy.example").toOption.map
      (fun s => s.keys.length) = some 1 := by
    decide +kernel
  constructor
  · cases h : loadResources patEnv with
    | error e => rw [h] at hrs; cases hrs
    | ok rs =>
        rw [h] at hrs
        rw [← Option.some.inj hrs]
        exact (hresources patEnv rs h).1
  · cases h : loadSigner patEnv patFiles "https://proxy.example" with
    | error e => rw [h] at hks; cases hks
    | ok signer =>
        rw [h] at hks
        rw [← Option.some.inj hks]
        exact (hsigner _ _ _ signer h).1

end CimdProxy
