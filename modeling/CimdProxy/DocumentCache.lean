import CimdProxy.CacheLifetime
import CimdProxy.ResourceLookup

/-! # The document cache over whole runs

Any number of `obtain` calls for any URLs, interleaved with each other and with `invalidate` and `clear`,
over one `TtlCache`.  What a call returns it has fetched itself, or another call for the same URL has
stored it and its time is not up; a call that fails stores nothing; the calls for one URL do not touch
what the calls for another see.  `cacheSound` states it for every run. -/

namespace CimdProxy

open Py Effects

variable [Platform]

/-! ### The system -/

/-- `invalidate` and `clear`. -/
inductive Upkeep where
  | invalidate (key : Str)
  | clear

abbrev cacheOps : Signature := proxyOps.sum ⟨Upkeep, fun _ => Unit⟩

abbrev didCache (o : Op) (r : Reply o) : Call cacheOps := Call.left (did o r)

/-- Who uses the cache. -/
inductive CacheUse where
  | obtain (url : Str)
  | upkeep (u : Upkeep)

/-- The cache answers reads and keeps what is written; everything else is as proposed. -/
def cachePerform (entries : List CacheEntry) : (o : cacheOps.Op) → cacheOps.Reply o →
    Option (cacheOps.Reply o × List CacheEntry)
  | .inl (.cacheGet key), (r : ℚ × Option CimdDocument) =>
      some ((r.1, (cacheRead entries key r.1).1), (cacheRead entries key r.1).2)
  | .inl (.cachePut key value ttl), (now : ℚ) => some (now, cacheWrite entries key value ttl now)
  | .inl _, r => some (r, entries)
  | .inr (.invalidate key), _ => some ((), entries.filter (fun e => e.key != key))
  | .inr .clear, _ => some ((), [])

def cacheSystem (cfg : ProxyConfig) :
    System cacheOps Exc (Option CimdDocument) CacheUse (List CacheEntry) where
  handler
    | .obtain url => (obtain cfg url).left.bind (fun doc => .ret (some doc))
    | .upkeep u => .call (.inr u) (fun _ => .ret none)
  init := []
  perform := cachePerform

abbrev CacheRun : Type := Config cacheOps Exc (Option CimdDocument) CacheUse (List CacheEntry)

abbrev CacheAction : Type := Action cacheOps CacheUse

/-- The process serves this call. -/
def CacheServes (c : CacheRun) (pid : ℕ) (req : CacheUse) : Prop :=
  (c.procs[pid]?).map Proc.req = some req

/-- The call has ended. -/
def CacheEnded (c : CacheRun) (pid : ℕ) (x : Except Exc (Option CimdDocument)) : Prop :=
  (c.procs[pid]?).map Proc.prog = some (Prog.lift x)

/-! ### One call -/

/-- What `obtain` asks for. -/
def Obtaining (cfg : ProxyConfig) (url : Str) (t : Trace proxyOps) : Op → Prop
  | .cacheGet key => key = url
  | .cachePut key value ttl =>
      key = url ∧ FetchedIn t url value ∧ cfg.cimdCacheTtlMin ≤ ttl ∧ ttl ≤ cfg.cimdCacheTtlMax
  | .getaddrinfo _ => True
  | .pinnedGet _ _ _ => True
  | _ => False

def NoPut (t : Trace proxyOps) : Prop :=
  ∀ key value ttl (r : ℚ), did (.cachePut key value ttl) r ∉ t

/-- How it ends: with a document that was fetched or remembered, or having stored nothing. -/
def Obtained (url : Str) (t : Trace proxyOps) : Except Exc CimdDocument → Prop
  | .ok doc => ObtainedIn t url doc
  | .error _ => NoPut t

theorem sat_fetch_network (cfg : ProxyConfig) (url : Str) {t : Trace proxyOps} (ht : NoPut t) :
    (fetch cfg.cimdMaxBytes url).Sat (Obtaining cfg url) (fun t' x => NoPut t' ∧
      ∀ res, x = .ok res → FetchedIn t' url res.document) t := by
  have hnoput : ∀ (t : Trace proxyOps) (o : Op) (r : Reply o), NoPut t → Fetching o → NoPut (did o r :: t) := by
    intro t o r ht ho key value ttl now hm
    rcases List.mem_cons.mp hm with he | hm
    · have hop : Op.cachePut key value ttl = o := congrArg Sigma.fst he
      rw [← hop] at ho
      exact ho
    · exact ht key value ttl now hm
  refine ((sat_fetch cfg.cimdMaxBytes url t).invariant ht hnoput).mono (fun t o h => ?_) (fun _ _ h => h)
  obtain ⟨-, ho⟩ := h
  cases o with
  | getaddrinfo host => trivial
  | pinnedGet url authority host => trivial
  | _ => exact absurd ho id

theorem chooseTtl_bounded {minTtl maxTtl : ℤ} (h : minTtl ≤ maxTtl) (cacheControl : Option Str)
    (defaultTtl : Option ℤ) : minTtl ≤ chooseTtl cacheControl minTtl maxTtl defaultTtl ∧
      chooseTtl cacheControl minTtl maxTtl defaultTtl ≤ maxTtl := clampTtl_bounded h _

theorem sat_obtain_keyed {cfg : ProxyConfig} (httl : cfg.cimdCacheTtlMin ≤ cfg.cimdCacheTtlMax)
    (url : Str) : (obtain cfg url).Sat (Obtaining cfg url) (Obtained url) [] := by
  refine sat_ask_bind rfl fun r => ?_
  obtain ⟨now, cached⟩ := r
  cases cached with
  | some doc => exact .inr ⟨now, List.mem_cons_self⟩
  | none =>
      have hnone : NoPut [did (.cacheGet url) (now, (none : Option CimdDocument))] := by
        intro key value ttl r hm
        cases congrArg Sigma.fst (List.mem_singleton.mp hm)
      refine Prog.Sat.bind (sat_fetch_network cfg url hnone) ?_ (fun t' e _ ht' => ht'.1)
      rintro t' res - ⟨-, hres⟩
      have hf := hres res rfl
      refine sat_ask_bind ⟨rfl, hf, chooseTtl_bounded httl _ _⟩ fun r => ?_
      exact .inl (hf.mono (List.suffix_cons _ _))

/-- What a call may ask for, by who makes it. -/
def Uses (cfg : ProxyConfig) : CacheUse → Trace cacheOps → cacheOps.Op → Prop
  | .obtain url, t, .inl o => ∃ t₀ : Trace proxyOps, t = t₀.map Call.left ∧ Obtaining cfg url t₀ o
  | .obtain _, _, .inr _ => False
  | .upkeep u, _, o => o = .inr u

/-- How a call ends. -/
def Results : CacheUse → Trace cacheOps → Except Exc (Option CimdDocument) → Prop
  | .obtain url, t, x => ∃ t₀ : Trace proxyOps, t = t₀.map Call.left ∧
      match x with
      | .ok (some doc) => ObtainedIn t₀ url doc
      | .ok none => False
      | .error _ => NoPut t₀
  | .upkeep _, _, x => x = .ok none

theorem sat_cacheHandler {cfg : ProxyConfig} (httl : cfg.cimdCacheTtlMin ≤ cfg.cimdCacheTtlMax)
    (req : CacheUse) : ((cacheSystem cfg).handler req).Sat (Uses cfg req) (Results req) [] := by
  cases req with
  | upkeep u => exact ⟨rfl, fun _ => rfl⟩
  | obtain url =>
      have hleft : (obtain cfg url).left.Sat (Uses cfg (.obtain url)) (fun t x =>
          ∃ t₀ : Trace proxyOps, t = t₀.map Call.left ∧ Obtained url t₀ x) ([].map Call.left) :=
        (sat_obtain_keyed httl url).left (fun t o h => ⟨t, rfl, h⟩) (fun t x h => ⟨t, rfl, h⟩)
      refine Prog.Sat.bind hleft ?_ ?_
      · rintro t doc - ⟨t₀, ht, h⟩
        exact ⟨t₀, ht, h⟩
      · rintro t e - ⟨t₀, ht, h⟩
        exact ⟨t₀, ht, h⟩

/-! ### The entries -/

section Entries

omit [Platform]

variable {entries entries' : List CacheEntry} {h : List (Event cacheOps)} {pid : ℕ} {o : cacheOps.Op}
  {prop r : cacheOps.Reply o}

/-- Everything an operation does to the entries. -/
theorem cachePerform_cases (hp : cachePerform entries o prop = some (r, entries')) :
    entries' ⊆ entries ∨
      ∃ key value ttl, ∃ now : ℚ, (⟨o, r⟩ : Call cacheOps) = didCache (.cachePut key value ttl) now ∧
        ∀ e ∈ entries', e = ⟨key, value, now + ttl⟩ ∨ e ∈ entries := by
  rcases o with o | (key | _)
  · cases o with
    | cacheGet key =>
        obtain ⟨-, rfl⟩ := Prod.mk.inj (Option.some.inj hp)
        refine .inl fun e he => ?_
        unfold cacheRead at he
        split at he
        · exact he
        · split_ifs at he
          · exact List.mem_of_mem_filter he
          · exact he
    | cachePut key value ttl =>
        obtain ⟨rfl, rfl⟩ := Prod.mk.inj (Option.some.inj hp)
        refine .inr ⟨key, value, ttl, prop, rfl, fun e he => ?_⟩
        unfold cacheWrite at he
        split_ifs at he
        · exact .inr he
        · exact (List.mem_cons.mp he).imp_right List.mem_of_mem_filter
    | _ =>
        obtain ⟨-, rfl⟩ := Prod.mk.inj (Option.some.inj hp)
        exact .inl fun e he => he
  · obtain ⟨-, rfl⟩ := Prod.mk.inj (Option.some.inj hp)
    exact .inl fun e he => List.mem_of_mem_filter he
  · obtain ⟨-, rfl⟩ := Prod.mk.inj (Option.some.inj hp)
    exact .inl fun e he => nomatch he

/-- Every entry was stored, and expires when its time is up. -/
def Stored (entries : List CacheEntry) (h : List (Event cacheOps)) : Prop :=
  ∀ e ∈ entries, ∃ pid ttl, ∃ s : ℚ, (pid, didCache (.cachePut e.key e.value ttl) s) ∈ h ∧
    e.expiresAt = s + ttl

theorem Stored.perform (hs : Stored entries h) (hp : cachePerform entries o prop = some (r, entries')) :
    Stored entries' ((pid, ⟨o, r⟩) :: h) := by
  have hold : ∀ e ∈ entries, ∃ pid' ttl, ∃ s : ℚ, (pid', didCache (.cachePut e.key e.value ttl) s) ∈
      (pid, (⟨o, r⟩ : Call cacheOps)) :: h ∧ e.expiresAt = s + ttl := by
    intro e he
    obtain ⟨pid', ttl, s, hm, hexp⟩ := hs e he
    exact ⟨pid', ttl, s, List.mem_cons_of_mem _ hm, hexp⟩
  intro e he
  rcases cachePerform_cases hp with hsub | ⟨key, value, ttl, now, hcall, hnew⟩
  · exact hold e (hsub he)
  · rcases hnew e he with rfl | he
    · exact ⟨pid, ttl, now, by rw [hcall]; exact List.mem_cons_self, rfl⟩
    · exact hold e he

/-- What a read finds is under the key and has not expired. -/
theorem cacheRead_eq_some {key : Str} {now : ℚ} {doc : CimdDocument}
    (hr : (cacheRead entries key now).1 = some doc) :
    ∃ e ∈ entries, e.key = key ∧ e.value = doc ∧ now < e.expiresAt := by
  unfold cacheRead at hr
  split at hr
  · cases hr
  · next e he =>
      split_ifs at hr with hexp
      exact ⟨e, List.mem_of_find?_eq_some he, by simpa using List.find?_some he, Option.some.inj hr,
        not_le.mp hexp⟩

/-! What concerns one URL leaves the entries of the others alone. -/

/-- The entries of the other URLs. -/
def entriesOff (u : Str) (entries : List CacheEntry) : List CacheEntry :=
  entries.filter (fun e => e.key != u)

/-- The operation reads or writes under this key. -/
def OnKey (u : Str) : cacheOps.Op → Prop
  | .inl (.cacheGet key) => key = u
  | .inl (.cachePut key _ _) => key = u
  | _ => False

theorem find?_entriesOff {u key : Str} (hne : key ≠ u) (entries : List CacheEntry) :
    (entriesOff u entries).find? (fun e => e.key == key) = entries.find? (fun e => e.key == key) := by
  unfold entriesOff
  rw [List.find?_filter]
  congr 1
  funext e
  by_cases he : e.key = key
  · simp [he, hne]
  · simp [he]

theorem entriesOff_filter (u key : Str) (entries : List CacheEntry) :
    entriesOff u (entries.filter (fun e => e.key != key)) =
      (entriesOff u entries).filter (fun e => e.key != key) := by
  unfold entriesOff
  rw [List.filter_filter, List.filter_filter]
  congr 1
  funext e
  exact Bool.and_comm _ _

/-- An operation on another key does the same to the other entries. -/
theorem cachePerform_off {u : Str} (ho : ¬ OnKey u o) (entries : List CacheEntry) (prop : cacheOps.Reply o) :
    cachePerform (entriesOff u entries) o prop =
      (cachePerform entries o prop).map (fun p => (p.1, entriesOff u p.2)) := by
  rcases o with o | (key | _)
  · cases o with
    | cacheGet key =>
        have hread : ∀ now, cacheRead (entriesOff u entries) key now =
            ((cacheRead entries key now).1, entriesOff u (cacheRead entries key now).2) := by
          intro now
          unfold cacheRead
          rw [find?_entriesOff ho]
          split
          · rfl
          · split_ifs
            · rw [entriesOff_filter]
            · rfl
        unfold cachePerform
        dsimp only
        rw [hread]
        rfl
    | cachePut key value ttl =>
        have hwrite : ∀ now, cacheWrite (entriesOff u entries) key value ttl now =
            entriesOff u (cacheWrite entries key value ttl now) := by
          intro now
          unfold cacheWrite
          split_ifs
          · rfl
          · rw [← entriesOff_filter]
            have hne : key ≠ u := ho
            have hkept : ((key != u) = true) := by simpa using hne
            unfold entriesOff
            rw [List.filter_cons_of_pos (by exact hkept)]
        exact congrArg (fun es => some (prop, es)) (hwrite prop)
    | _ => rfl
  · unfold cachePerform
    dsimp only
    rw [← entriesOff_filter]
    rfl
  · rfl

/-- An operation of an `obtain` for `u` leaves the other entries alone. -/
theorem entriesOff_perform {u : Str} {o : Op} {prop r : Reply o} (ho : ∀ key, o = .cacheGet key → key = u)
    (ho' : ∀ key value ttl, o = .cachePut key value ttl → key = u)
    (hp : cachePerform entries (.inl o) prop = some (r, entries')) :
    entriesOff u entries' = entriesOff u entries := by
  have hself : ∀ entries : List CacheEntry, entriesOff u (entries.filter (fun e => e.key != u)) =
      entriesOff u entries := by
    intro entries
    unfold entriesOff
    rw [List.filter_filter]
    congr 1
    funext e
    exact Bool.and_self _
  cases o with
  | cacheGet key =>
      obtain rfl := ho key rfl
      obtain ⟨-, rfl⟩ := Prod.mk.inj (Option.some.inj hp)
      unfold cacheRead
      split
      · rfl
      · split_ifs
        · exact hself entries
        · rfl
  | cachePut key value ttl =>
      obtain rfl := ho' key value ttl rfl
      obtain ⟨-, rfl⟩ := Prod.mk.inj (Option.some.inj hp)
      unfold cacheWrite
      split_ifs
      · rfl
      · have hdropped : ∀ (e : CacheEntry) (es : List CacheEntry), e.key = key →
            entriesOff key (e :: es) = entriesOff key es := by
          rintro e es rfl
          unfold entriesOff
          rw [List.filter_cons_of_neg (by simp)]
        rw [hdropped _ _ rfl, hself]
  | _ =>
      obtain ⟨-, rfl⟩ := Prod.mk.inj (Option.some.inj hp)
      rfl

theorem cachePerform_total (entries : List CacheEntry) (o : cacheOps.Op) (prop : cacheOps.Reply o) :
    ∃ r entries', cachePerform entries o prop = some (r, entries') := by
  rcases o with o | (key | _)
  · cases o <;> exact ⟨_, _, rfl⟩
  · exact ⟨_, _, rfl⟩
  · exact ⟨_, _, rfl⟩

end Entries

/-! ### Any number of calls -/

section Runs

variable {cfg : ProxyConfig} {acts : List CacheAction}

/-- Every entry of the cache was stored by an event of the run. -/
theorem stored_run (past : List (Event cacheOps)) (hpast : past <:+ ((cacheSystem cfg).run acts).hist)
    {pid : ℕ} {key : Str} {now : ℚ} {doc : CimdDocument}
    (hm : (pid, didCache (.cacheGet key) (now, some doc)) ∈ past) :
    ∃ before pid' ttl, ∃ s : ℚ, (pid, didCache (.cacheGet key) (now, some doc)) :: before <:+ past ∧
      (pid', didCache (.cachePut key doc ttl) s) ∈ before ∧ now < s + ttl := by
  obtain ⟨before, hbefore⟩ := System.exists_past hm
  obtain ⟨w, prop, w', hstored, hperform⟩ := (cacheSystem cfg).answered (I := Stored)
    (fun e he => nomatch he) (fun w h pid o p r w' hw hp => hw.perform hp) (hbefore.trans hpast)
  obtain ⟨hreply, -⟩ := Prod.mk.inj (Option.some.inj hperform)
  obtain ⟨hnow, hread⟩ := Prod.mk.inj hreply
  rw [hnow] at hread
  obtain ⟨e, he, rfl, rfl, hfresh⟩ := cacheRead_eq_some hread
  obtain ⟨pid', ttl, s, hput, hexp⟩ := hstored e he
  exact ⟨before, pid', ttl, s, hbefore, hput, hexp ▸ hfresh⟩

/-- Whoever writes an entry obtains the document of its URL. -/
theorem put_serves (httl : cfg.cimdCacheTtlMin ≤ cfg.cimdCacheTtlMax) {pid : ℕ} {key : Str}
    {value : CimdDocument} {ttl : ℤ} {s : ℚ} {h : List (Event cacheOps)}
    (hs : (pid, didCache (.cachePut key value ttl) s) :: h <:+ ((cacheSystem cfg).run acts).hist) :
    CacheServes ((cacheSystem cfg).run acts) pid (.obtain key) ∧ cfg.cimdCacheTtlMin ≤ ttl ∧
      ttl ≤ cfg.cimdCacheTtlMax ∧ ∃ t : Trace proxyOps, FetchedIn t key value := by
  obtain ⟨p, hp, -, t, huses, -⟩ := (cacheSystem cfg).issued (sat_cacheHandler httl) hs
  cases hreq : p.req with
  | upkeep u =>
      rw [hreq] at huses
      cases huses
  | obtain url =>
      rw [hreq] at huses
      obtain ⟨t₀, -, rfl, hfetched, hmin, hmax⟩ := huses
      refine ⟨?_, hmin, hmax, t₀, hfetched⟩
      unfold CacheServes
      rw [hp, Option.map_some, hreq]

/-- Two runs that are the same but for the calls for `u`. -/
structure AgreeOffUrl (u : Str) (c c' : CacheRun) : Prop where
  reqs : c.procs.map Proc.req = c'.procs.map Proc.req
  calls : ∀ (pid : ℕ) p, c.procs[pid]? = some p → p.req ≠ .obtain u → c'.procs[pid]? = some p
  entries : entriesOff u c.world = entriesOff u c'.world

omit [Platform] in
theorem AgreeOffUrl.symm {u : Str} {c c' : CacheRun} (h : AgreeOffUrl u c c') : AgreeOffUrl u c' c := by
  refine ⟨h.reqs.symm, fun pid p hp hne => ?_, h.entries.symm⟩
  have hlen : c.procs.length = c'.procs.length := by
    simpa using congrArg List.length h.reqs
  obtain ⟨hlt, -⟩ := List.getElem?_eq_some_iff.mp hp
  have hsome : c.procs[pid]? = some c.procs[pid] := List.getElem?_eq_getElem (by omega)
  have hreq : (c.procs[pid]?).map Proc.req = (c'.procs[pid]?).map Proc.req := by
    rw [← List.getElem?_map, ← List.getElem?_map, h.reqs]
  rw [hsome, hp] at hreq
  have hcall := h.calls pid _ hsome (by rw [Option.some.inj hreq]; exact hne)
  rw [hsome, ← hcall, hp]

omit [Platform] in
theorem req_of_set {c : CacheRun} {pid : ℕ} {p : Proc cacheOps Exc (Option CimdDocument) CacheUse}
    {t : Trace cacheOps} {q : Prog cacheOps Exc (Option CimdDocument)} (hp : c.procs[pid]? = some p) :
    (c.procs.set pid ⟨p.req, t, q⟩).map Proc.req = c.procs.map Proc.req := by
  rw [List.map_set]
  apply List.ext_getElem?
  intro i
  by_cases hi : pid = i
  · subst hi
    have hreq : (c.procs.map Proc.req)[pid]? = some p.req := by rw [List.getElem?_map, hp, Option.map_some]
    rw [System.getElem?_set_self' hreq, hreq]
  · rw [List.getElem?_set_ne hi]

/-- A step of a call for `u` is not seen by the others. -/
theorem AgreeOffUrl.step_left (httl : cfg.cimdCacheTtlMin ≤ cfg.cimdCacheTtlMax) {u : Str} {c' : CacheRun}
    (h : AgreeOffUrl u ((cacheSystem cfg).run acts) c') {pid : ℕ} {propose : (o : cacheOps.Op) → cacheOps.Reply o}
    (hu : ∀ req, CacheServes ((cacheSystem cfg).run acts) pid req → req = .obtain u) :
    AgreeOffUrl u ((cacheSystem cfg).step ((cacheSystem cfg).run acts) (.act pid propose)) c' := by
  rcases (cacheSystem cfg).step_cases ((cacheSystem cfg).run acts) (.act pid propose) with he |
    ⟨req, ha, -⟩ | ⟨pid', propose', req, t, o, k, r, w, ha, hp, hw, he⟩
  · rw [he]
    exact h
  · cases ha
  · cases ha
    rw [he]
    obtain rfl : req = .obtain u := hu req (by unfold CacheServes; rw [hp, Option.map_some])
    have huses := ((cacheSystem cfg).procs_sat (sat_cacheHandler httl) acts _ (List.mem_of_getElem? hp)).1
    refine ⟨(req_of_set hp).trans h.reqs, fun i p hi hne => ?_, ?_⟩
    · by_cases hpid : pid = i
      · subst hpid
        rw [System.getElem?_set_self' hp] at hi
        obtain rfl := Option.some.inj hi
        exact absurd rfl hne
      · rw [List.getElem?_set_ne hpid] at hi
        exact h.calls i p hi hne
    · rw [← h.entries]
      cases o with
      | inr u => exact huses.elim
      | inl o =>
          obtain ⟨t₀, -, hobtaining⟩ := huses
          refine entriesOff_perform ?_ ?_ hw
          · rintro key rfl
            exact hobtaining
          · rintro key value ttl rfl
            exact hobtaining.1

/-- What other calls ask for is not about `u`. -/
theorem Uses.not_onKey {u : Str} {req : CacheUse} {t : Trace cacheOps} {o : cacheOps.Op}
    (h : Uses cfg req t o) (hne : req ≠ .obtain u) : ¬ OnKey u o := by
  intro ho
  rcases o with o | u'
  · cases req with
    | upkeep u' => cases h
    | obtain v =>
        obtain ⟨t₀, -, hobtaining⟩ := h
        cases o with
        | cacheGet key => exact hne (congrArg _ (hobtaining.symm.trans ho))
        | cachePut key value ttl => exact hne (congrArg _ (hobtaining.1.symm.trans ho))
        | _ => exact ho.elim
  · exact ho.elim

/-- A step of any other call is the same in both runs. -/
theorem AgreeOffUrl.step_both (httl : cfg.cimdCacheTtlMin ≤ cfg.cimdCacheTtlMax) {u : Str} {c' : CacheRun}
    (h : AgreeOffUrl u ((cacheSystem cfg).run acts) c') {pid : ℕ} {propose : (o : cacheOps.Op) → cacheOps.Reply o}
    (hu : ∀ req, CacheServes ((cacheSystem cfg).run acts) pid req → req ≠ .obtain u) :
    AgreeOffUrl u ((cacheSystem cfg).step ((cacheSystem cfg).run acts) (.act pid propose))
      ((cacheSystem cfg).step c' (.act pid propose)) := by
  have hsat := (cacheSystem cfg).procs_sat (sat_cacheHandler httl) acts
  cases hp : ((cacheSystem cfg).run acts).procs[pid]? with
  | none =>
      have hp' : c'.procs[pid]? = none := by
        have hreq : (((cacheSystem cfg).run acts).procs[pid]?).map Proc.req = (c'.procs[pid]?).map Proc.req := by
          rw [← List.getElem?_map, ← List.getElem?_map, h.reqs]
        rw [hp] at hreq
        exact Option.map_eq_none_iff.mp hreq.symm
      simp only [System.step, hp, hp']
      exact h
  | some p =>
      obtain ⟨req, t, prog⟩ := p
      have hne : req ≠ .obtain u := hu req (by unfold CacheServes; rw [hp, Option.map_some])
      have hp' := h.calls pid _ hp hne
      cases prog with
      | ret a =>
          simp only [System.step, hp, hp']
          exact h
      | raise e =>
          simp only [System.step, hp, hp']
          exact h
      | call o k =>
          have huses : Uses cfg req t o := (hsat _ (List.mem_of_getElem? hp)).1
          have hoff := huses.not_onKey hne
          obtain ⟨r, w, hw⟩ := cachePerform_total ((cacheSystem cfg).run acts).world o (propose o)
          obtain ⟨r', w', hw'⟩ := cachePerform_total c'.world o (propose o)
          -- both runs answer from the entries off `u`
          have hsame : some (r, entriesOff u w) = some (r', entriesOff u w') := by
            have hleft := cachePerform_off hoff ((cacheSystem cfg).run acts).world (propose o)
            have hright := cachePerform_off hoff c'.world (propose o)
            rw [hw] at hleft
            rw [hw', ← h.entries] at hright
            exact hleft.symm.trans hright
          obtain ⟨rfl, hentries⟩ := Prod.mk.inj (Option.some.inj hsame)
          rw [(cacheSystem cfg).step_act hp hw, (cacheSystem cfg).step_act hp' hw']
          refine ⟨?_, fun i p hi hreq => ?_, hentries⟩
          · rw [req_of_set hp, req_of_set hp', h.reqs]
          · by_cases hpid : pid = i
            · subst hpid
              rw [System.getElem?_set_self' hp] at hi
              rw [System.getElem?_set_self' hp']
              exact hi
            · rw [List.getElem?_set_ne hpid] at hi ⊢
              exact h.calls i p hi hreq

omit [Platform] in
theorem AgreeOffUrl.serves_iff {u : Str} {c c' : CacheRun} (h : AgreeOffUrl u c c') (pid : ℕ) (req : CacheUse) :
    CacheServes c pid req ↔ CacheServes c' pid req := by
  unfold CacheServes
  rw [← List.getElem?_map, ← List.getElem?_map, h.reqs]

omit [Platform] in
/-- The same call is added to both runs. -/
theorem AgreeOffUrl.getElem?_concat {u : Str} {c c' : CacheRun} (h : AgreeOffUrl u c c')
    {new p : Proc cacheOps Exc (Option CimdDocument) CacheUse} {i : ℕ} (hi : (c.procs ++ [new])[i]? = some p)
    (hne : p.req ≠ .obtain u) : (c'.procs ++ [new])[i]? = some p := by
  have hlen : c.procs.length = c'.procs.length := by
    simpa using congrArg List.length h.reqs
  rcases Nat.lt_or_ge i c.procs.length with hlt | hge
  · rw [List.getElem?_append_left hlt] at hi
    rw [List.getElem?_append_left (hlen ▸ hlt)]
    exact h.calls i p hi hne
  · rw [List.getElem?_append_right hge] at hi
    rw [List.getElem?_append_right (hlen ▸ hge), ← hlen]
    exact hi

/-- The schedule without the steps of some processes. -/
def keepAction (keep : ℕ → Bool) : CacheAction → Bool
  | .start _ => true
  | .act pid _ => keep pid

/-- Dropping steps of calls for `u` is not seen by the others. -/
theorem agreeOffUrl_filter (httl : cfg.cimdCacheTtlMin ≤ cfg.cimdCacheTtlMax) {u : Str} {keep : ℕ → Bool}
    (hkeep : ∀ pid req, keep pid = false → CacheServes ((cacheSystem cfg).run acts) pid req →
      req = .obtain u) :
    AgreeOffUrl u ((cacheSystem cfg).run acts) ((cacheSystem cfg).run (acts.filter (keepAction keep))) := by
  induction acts using List.reverseRecOn with
  | nil => exact ⟨rfl, fun _ _ hp _ => hp, rfl⟩
  | append_singleton acts a ih =>
      have hserves : ∀ pid req, CacheServes ((cacheSystem cfg).run acts) pid req →
          CacheServes ((cacheSystem cfg).run (acts ++ [a])) pid req := by
        intro pid req hs
        obtain ⟨p, hp, rfl⟩ := Option.map_eq_some_iff.mp hs
        obtain ⟨p', hp', hreq, -⟩ := ((cacheSystem cfg).run_mono (List.prefix_append acts [a])).2 pid p hp
        unfold CacheServes
        rw [hp', Option.map_some, hreq]
      have ih := ih fun pid req hk hs => hkeep pid req hk (hserves pid req hs)
      rw [System.run_snoc, List.filter_append]
      cases a with
      | start req =>
          have hstart : [Action.start req].filter (keepAction keep) = [Action.start req] := rfl
          rw [hstart, System.run_snoc]
          refine ⟨?_, fun i p hi hne => ?_, ih.entries⟩
          · change (_ ++ [_]).map Proc.req = (_ ++ [_]).map Proc.req
            rw [List.map_append, List.map_append, ih.reqs]
          · exact ih.getElem?_concat hi hne
      | act pid propose =>
          cases hk : keep pid with
          | false =>
              have hdrop : [Action.act pid propose].filter (keepAction keep) = [] := by
                simp [keepAction, hk]
              rw [hdrop, List.append_nil]
              exact ih.step_left httl fun req hs => hkeep pid req hk (hserves pid req hs)
          | true =>
              have hdrop : [Action.act pid propose].filter (keepAction keep) = [.act pid propose] := by
                simp [keepAction, hk]
              rw [hdrop, System.run_snoc]
              by_cases hu : ∀ req, CacheServes ((cacheSystem cfg).run acts) pid req → req ≠ .obtain u
              · exact ih.step_both httl hu
              · -- the call is for `u`: its step is seen by nobody else, in either run
                have hserved : CacheServes ((cacheSystem cfg).run acts) pid (.obtain u) := by
                  by_contra hno
                  exact hu fun req hs he => hno (he ▸ hs)
                have honly : ∀ req, CacheServes ((cacheSystem cfg).run acts) pid req → req = .obtain u :=
                  fun req hs => Option.some.inj (hs.symm.trans hserved)
                refine ((ih.step_left httl honly).symm.step_left httl fun req hs => honly req ?_).symm
                exact (ih.serves_iff pid req).mpr hs

/-- What the cache promises of a run. -/
structure CacheSound (cfg : ProxyConfig) (acts : List CacheAction) : Prop where
  /-- A document that is returned was validated in the same call, or read before it expired from what a call
  for the same URL had stored. -/
  explained : ∀ pid url doc, CacheServes ((cacheSystem cfg).run acts) pid (.obtain url) →
    CacheEnded ((cacheSystem cfg).run acts) pid (.ok (some doc)) →
    (∃ t : Trace proxyOps, (∀ c ∈ t, (pid, Call.left c) ∈ ((cacheSystem cfg).run acts).hist) ∧
      FetchedIn t url doc) ∨
    ∃ now s : ℚ, ∃ before pid' ttl,
      (pid, didCache (.cacheGet url) (now, some doc)) :: before <:+ ((cacheSystem cfg).run acts).hist ∧
      (pid', didCache (.cachePut url doc ttl) s) ∈ before ∧
      CacheServes ((cacheSystem cfg).run acts) pid' (.obtain url) ∧
      cfg.cimdCacheTtlMin ≤ ttl ∧ ttl ≤ cfg.cimdCacheTtlMax ∧ now < s + ttl
  /-- It is the document of the URL, with redirect URIs that may be registered. -/
  vetted : ∀ pid url doc, CacheServes ((cacheSystem cfg).run acts) pid (.obtain url) →
    CacheEnded ((cacheSystem cfg).run acts) pid (.ok (some doc)) →
    doc.clientId = url ∧ ∀ u ∈ doc.redirectUris, acceptRegistered u = .ok ()
  /-- No step of a call that fails adds an entry or replaces one. -/
  failing : ∀ pid url e, CacheServes ((cacheSystem cfg).run acts) pid (.obtain url) →
    CacheEnded ((cacheSystem cfg).run acts) pid (.error e) →
    ∀ acts₀ propose, acts₀ ++ [.act pid propose] <+: acts →
      ((cacheSystem cfg).run (acts₀ ++ [.act pid propose])).world ⊆ ((cacheSystem cfg).run acts₀).world
  /-- What a call for another URL has done and returned is the same without any of the steps of calls for
  `u`. -/
  separate : ∀ u keep, (∀ pid req, keep pid = false →
      CacheServes ((cacheSystem cfg).run acts) pid req → req = .obtain u) →
    ∀ v, v ≠ u → ∀ pid, CacheServes ((cacheSystem cfg).run acts) pid (.obtain v) →
      ((cacheSystem cfg).run (acts.filter (keepAction keep))).procs[pid]? =
        ((cacheSystem cfg).run acts).procs[pid]?

/-- How a call that has ended did so. -/
theorem results_of_ended (httl : cfg.cimdCacheTtlMin ≤ cfg.cimdCacheTtlMax) {pid : ℕ} {req : CacheUse}
    {x : Except Exc (Option CimdDocument)} (hreq : CacheServes ((cacheSystem cfg).run acts) pid req)
    (hx : CacheEnded ((cacheSystem cfg).run acts) pid x) :
    ∃ p, ((cacheSystem cfg).run acts).procs[pid]? = some p ∧ Results req p.trace x := by
  obtain ⟨p, hp, rfl⟩ := Option.map_eq_some_iff.mp hreq
  obtain ⟨p', hp', hprog⟩ := Option.map_eq_some_iff.mp hx
  obtain rfl : p = p' := Option.some.inj (hp.symm.trans hp')
  have hsat := (cacheSystem cfg).procs_sat (sat_cacheHandler httl) acts p (List.mem_of_getElem? hp)
  rw [hprog] at hsat
  exact ⟨p, hp, (Prog.sat_lift _ _).mp hsat⟩

theorem clientId_of_validateDocument {url : Str} {payload : Json} {doc : CimdDocument}
    (h : validateDocument url payload = .ok doc) : doc.clientId = url := by
  unfold validateDocument at h
  split at h
  · split at h
    · split_ifs at h with hid
      split at h
      · cases h
      · split at h
        · split at h
          · obtain ⟨kept, -, hdoc⟩ := bind_eq_ok.mp h
            rw [← Except.ok.inj hdoc]
            exact not_ne_iff.mp hid
          · cases h
        · cases h
    · cases h
  · cases h

theorem clientId_of_fetchedIn {t : Trace proxyOps} {url : Str} {doc : CimdDocument} (h : FetchedIn t url doc) :
    doc.clientId = url ∧ ∀ u ∈ doc.redirectUris, acceptRegistered u = .ok () := by
  obtain ⟨parsed, ip, body, cc, -, -, hread⟩ := h
  obtain ⟨text, -, -, hvetted⟩ := vetted_of_readDocument hread
  refine ⟨?_, hvetted.accepted⟩
  unfold readDocument at hread
  split at hread
  · cases hread
  · split at hread
    · cases hread
    · cases hread
    · obtain ⟨d, hd, hdoc⟩ := bind_eq_ok.mp hread
      have hid := clientId_of_validateDocument hd
      rw [← Except.ok.inj hdoc]
      exact hid

theorem explained_run (httl : cfg.cimdCacheTtlMin ≤ cfg.cimdCacheTtlMax) {pid : ℕ} {url : Str}
    {doc : CimdDocument} (hreq : CacheServes ((cacheSystem cfg).run acts) pid (.obtain url))
    (hx : CacheEnded ((cacheSystem cfg).run acts) pid (.ok (some doc))) :
    (∃ t : Trace proxyOps, (∀ c ∈ t, (pid, Call.left c) ∈ ((cacheSystem cfg).run acts).hist) ∧
      FetchedIn t url doc) ∨
    ∃ now s : ℚ, ∃ before pid' ttl,
      (pid, didCache (.cacheGet url) (now, some doc)) :: before <:+ ((cacheSystem cfg).run acts).hist ∧
      (pid', didCache (.cachePut url doc ttl) s) ∈ before ∧
      CacheServes ((cacheSystem cfg).run acts) pid' (.obtain url) ∧
      cfg.cimdCacheTtlMin ≤ ttl ∧ ttl ≤ cfg.cimdCacheTtlMax ∧ now < s + ttl := by
  obtain ⟨p, hp, t, htrace, hobtained⟩ := results_of_ended httl hreq hx
  have hhist : ∀ c ∈ t, (pid, Call.left c) ∈ ((cacheSystem cfg).run acts).hist := by
    intro c hc
    refine ((cacheSystem cfg).trace_iff_hist acts pid _).mpr ⟨p, hp, ?_⟩
    rw [htrace]
    exact List.mem_map_of_mem hc
  rcases hobtained with hfetched | ⟨now, hm⟩
  · exact .inl ⟨t, hhist, hfetched⟩
  · obtain ⟨before, pid', ttl, s, hbefore, hput, hfresh⟩ := stored_run _ List.suffix_rfl (hhist _ hm)
    obtain ⟨earlier, hearlier⟩ := System.exists_past hput
    have hsuf := hearlier.trans ((List.suffix_cons _ _).trans hbefore)
    obtain ⟨hserves, hmin, hmax, -⟩ := put_serves httl hsuf
    exact .inr ⟨now, s, before, pid', ttl, hbefore, hput, hserves, hmin, hmax, hfresh⟩

/-- **The cache is sound.**  In every run of any number of `obtain` calls, with `invalidate` and `clear`,
whatever is fetched and whatever the clock shows. -/
theorem cacheSound {cfg : ProxyConfig} (httl : cfg.cimdCacheTtlMin ≤ cfg.cimdCacheTtlMax)
    (acts : List CacheAction) : CacheSound cfg acts where
  explained := fun pid url doc hreq hx => explained_run httl hreq hx
  vetted := by
    intro pid url doc hreq hx
    rcases explained_run httl hreq hx with ⟨t, -, hfetched⟩ | ⟨now, s, before, pid', ttl, hbefore, hput, -⟩
    · exact clientId_of_fetchedIn hfetched
    · obtain ⟨earlier, hearlier⟩ := System.exists_past hput
      obtain ⟨-, -, -, t, hfetched⟩ := put_serves httl
        (hearlier.trans ((List.suffix_cons _ _).trans hbefore))
      exact clientId_of_fetchedIn hfetched
  failing := by
    intro pid url e hreq hx acts₀ propose hpre
    obtain ⟨p, hp, t, htrace, hnoput⟩ := results_of_ended httl hreq hx
    rw [System.run_snoc]
    rcases (cacheSystem cfg).step_cases ((cacheSystem cfg).run acts₀) (.act pid propose) with he |
      ⟨req, ha, -⟩ | ⟨pid', propose', req, t', o, k, r, w, ha, hp', hw, he⟩
    · rw [he]
      exact List.Subset.refl _
    · cases ha
    · cases ha
      have hstep := he
      rw [← System.run_snoc] at hstep
      rw [he]
      rcases cachePerform_cases hw with hsub | ⟨key, value, ttl, now, hcall, -⟩
      · exact hsub
      · -- the call would have stored something
        obtain ⟨p₁, hp₁, -, hsuf, -⟩ := ((cacheSystem cfg).run_mono hpre).2 pid
          ⟨req, ⟨o, r⟩ :: t', k r⟩ (by rw [hstep]; exact System.getElem?_set_self' hp')
        obtain rfl : p = p₁ := Option.some.inj (hp.symm.trans hp₁)
        have hm := hsuf.subset (List.mem_cons_self)
        rw [hcall, htrace, List.mem_map] at hm
        obtain ⟨c, hc, hleft⟩ := hm
        rw [Call.left_injective hleft] at hc
        exact absurd hc (hnoput key value ttl now)
  separate := by
    intro u keep hkeep v hne pid hreq
    obtain ⟨p, hp, hpreq⟩ := Option.map_eq_some_iff.mp hreq
    rw [hp]
    refine (agreeOffUrl_filter httl hkeep).calls pid p hp ?_
    rw [hpreq]
    rintro he
    exact hne (CacheUse.obtain.inj he)

end Runs

/-- A host with one address, and one document on it. -/
def oneDocument : (o : cacheOps.Op) → cacheOps.Reply o
  | .inl (.getaddrinfo _) => AddrInfo.infos ["203.0.113.7"]
  | .inl (.pinnedGet _ _ _) =>
      GetOutcome.response 200
        (utf8 "\x7b\"client_id\":\"https://a.b/c\",\"redirect_uris\":[\"https://a.b/d\"]\x7d") none
  | .inl o => idleReply o
  | .inr _ => ()

/-- The first call fetches the document and stores it, the second finds it; the third, for another URL, gets
the same document and refuses it. -/
def threeObtains : List CacheAction :=
  ["https://a.b/c", "https://a.b/c", "https://a.b/e"].map (fun url => .start (.obtain url.toList)) ++
    [0, 0, 0, 0, 1, 2, 2, 2].map (fun pid => .act pid oneDocument)

/-- The redirect URIs of the document a call has returned. -/
def returnedUris (p : Proc cacheOps Exc (Option CimdDocument) CacheUse) : Option (List Str) :=
  match p.prog with
  | .ret (some doc) => some doc.redirectUris
  | _ => none

omit [Platform] in
theorem cacheSound_three :
    letI := Platform.plain
    ((cacheSystem logConfig).run threeObtains).procs.map returnedUris =
        [some ["https://a.b/d".toList], some ["https://a.b/d".toList], none] ∧
      CacheSound logConfig threeObtains :=
  letI := Platform.plain
  ⟨by decide +kernel, cacheSound (by decide) threeObtains⟩

end CimdProxy
