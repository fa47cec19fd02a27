import CimdProxy.RefreshChain
import CimdProxy.Provenance

/-! # What is routed once is routed again

An envelope and a token row store the url of a table entry, and the entry is looked up again when the
code is redeemed, the token refreshed or exchanged.  `lookup_stable` says that this leads back to the
entry: the fold of `resourceByUrl` is idempotent, the url of a found entry finds that entry, and every
url that a run of the proxy seals or stores is the url of a found entry. -/

namespace CimdProxy

open Py Effects

section Routing

variable [Platform]

/-- The url belongs to the entry, and a lookup of it finds the entry. -/
def RoutesTo (cfg : ProxyConfig) (url : Str) (e : ResourceEntry) : Prop :=
  e.url = url ∧ cfg.resourceByUrl url = .ok (some e)

/-- A found entry is the first with its url. -/
theorem find?_of_resourceByUrl {cfg : ProxyConfig} {url : Str} {e : ResourceEntry}
    (h : cfg.resourceByUrl url = .ok (some e)) : cfg.resources.find? (fun x => x.url == e.url) = some e := by
  obtain ⟨target, -, he⟩ := resourceByUrl_eq_ok.mp h
  have heq : e.url = target := by simpa using List.find?_some he.symm
  rw [heq]
  exact he.symm

/-- The resource an envelope is for. -/
def Envelope.resource? : Envelope → Option Str
  | .authorize e => some e.resource
  | .code e => some e.resource
  | .refresh e => some e.resource
  | .registration _ => none

/-- An `/authorize` request of the run picked the entry. -/
def Picked (app : App) (c : State) (e : ResourceEntry) : Prop :=
  ∃ pid params, Serves c pid (.authorize params) ∧ pickResource app.config params.resource = .ok e

theorem Picked.routesTo {app : App} {c : State} {e : ResourceEntry} (h : Picked app c e) :
    RoutesTo app.config e.url e := by
  obtain ⟨_, _, -, hp⟩ := h
  exact ⟨rfl, resourceByUrl_of_pickResource hp⟩

theorem Accepted.In.picked {app : App} {c : State} {h : History} {a : Accepted} (ha : a.In app c h) :
    Picked app c a.validated.resourceEntry :=
  ⟨a.pid, a.params, ha.serves, ha.entry⟩

omit [Platform] in
@[simp] theorem Envelope.resource?_reread (e : Envelope) : e.reread.resource? = e.resource? := by
  cases e <;> rfl

/-- The resource of a sealed envelope is the url of an entry that was picked for it. -/
theorem picked_of_seals {app : App} {acts : Schedule} {pid : ℕ} {e : Envelope} {tok : FernetToken}
    {past : History} {u : Str} (hs : Seals (app.run acts).hist pid e tok past)
    (hu : e.resource? = some u) : ∃ entry, Picked app (app.run acts) entry ∧ entry.url = u := by
  obtain ⟨hwf, blob, hb, hm⟩ := hs
  have hpast : past <:+ (app.run acts).hist := (List.suffix_cons _ _).trans hm
  obtain ⟨req, e', t, hreq, hwf', hb', hmint, ht⟩ := encrypted_minted hm
  -- the minted envelope has the same blob, so it reads the same
  have hu' : e'.resource? = some u := by
    rw [← hu, ← Envelope.resource?_reread, ← reread_eq_of_blob hwf hwf' hb hb',
      Envelope.resource?_reread]
  cases e' with
  | authorize e' =>
      obtain ⟨params, rfl, v, cid, verifier, now, he, hv⟩ := mints_authorize hmint
      obtain rfl := Envelope.authorize.inj he
      exact ⟨v.resourceEntry, ⟨pid, params, hreq, hv.entry⟩, Option.some.inj hu'⟩
  | code e' =>
      obtain ⟨params, rfl, state, code, env, now, -, -, he, hopened, -⟩ := mints_code hmint
      obtain rfl := Envelope.code.inj he
      obtain ⟨opening, hopens⟩ := hopened.opens ht
      obtain ⟨a, -, rfl, ha⟩ := accepted_of_opens hopens hpast
      exact ⟨a.validated.resourceEntry, ha.picked, Option.some.inj hu'⟩
  | refresh e' =>
      obtain ⟨form, rfl, entry, r, d, v, c, he, hask, -⟩ := mints_refresh hmint
      obtain rfl := Envelope.refresh.inj he
      obtain ⟨a, rfl, hstems⟩ := stems_of_asks _ le_rfl hpast ht hask
      obtain ⟨_, ha⟩ := hstems.accepted
      exact ⟨a.validated.resourceEntry, ha.picked, Option.some.inj hu'⟩
  | registration e' => cases hu'

/-- **The lookup is stable on its own result.**  Where `urlsplit` does not raise, the fold is idempotent
and the url of a found entry finds the same entry, which is the first with that url.  So every url a run
seals in an envelope or stores in a token row leads back to the entry it was taken from. -/
theorem lookup_stable (cfg : ProxyConfig) (app : App) (acts : Schedule) :
    (∀ u p, urlsplit u = .ok p →
      (∃ target, normaliseRequestedUrl u = .ok target ∧ normaliseRequestedUrl target = .ok target) ∧
      ∀ e, cfg.resourceByUrl u = .ok (some e) →
        RoutesTo cfg e.url e ∧ cfg.resources.find? (fun x => x.url == e.url) = some e) ∧
    (∀ pid env tok past u, Seals (app.run acts).hist pid env tok past → env.resource? = some u →
      ∃ e, Picked app (app.run acts) e ∧ RoutesTo app.config u e) ∧
    (∀ svc pid record hash, app.patService = some svc →
      (pid, did (.insert record hash) (.ok ())) ∈ (app.run acts).hist →
      ∃ d listed, stringList (Dict.get? d "resources") "resources" = .ok listed ∧
        (∃ authorization body, PatApi.bodyOrNone body = some (.obj d) ∧
          Serves (app.run acts) pid (.createToken authorization body)) ∧
        List.Forall₂ (fun l u => ∃ e, svc.config.resourceByUrl l = .ok (some e) ∧
          RoutesTo svc.config u e) listed record.resources) := by
  refine ⟨fun u p hp => ⟨?_, fun e he => ?_⟩, fun pid env tok past u hs hu => ?_,
    fun svc pid record hash hsvc hm => ?_⟩
  · have h := normaliseRequestedUrl_of_split hp
    exact ⟨_, h, normaliseRequestedUrl_idem h⟩
  · exact ⟨⟨rfl, resourceByUrl_stable he⟩, find?_of_resourceByUrl he⟩
  · obtain ⟨e, he, rfl⟩ := picked_of_seals hs hu
    exact ⟨e, he, he.routesTo⟩
  · obtain ⟨x, ⟨t, past, hserves, -, -, hins⟩, rfl, rfl, rfl⟩ :=
      creation_of_insert hsvc List.suffix_rfl hm
    obtain ⟨d, listed, hbody, hlisted, -, hurls⟩ := parseCreate_resources hins.parsed
    refine ⟨d, listed, hlisted, ⟨x.authorization, x.body, hbody, hserves⟩, ?_⟩
    rw [hins.resources]
    refine (checkResources_eq_ok hurls).imp fun l u h => ?_
    obtain ⟨e, he, -, rfl⟩ := h
    exact ⟨e, he, rfl, resourceByUrl_stable he⟩

end Routing

/-- Whether an `/authorize` process has sealed something. -/
def sealsState (c : State) (pid : ℕ) : Bool :=
  (match c.procs[pid]? with
    | some ⟨.authorize _, _, _⟩ => true
    | _ => false) &&
  c.hist.any (fun x => x.1 == pid && x.2.1.isSeal)

theorem exists_of_sealsState [Platform] {app : App} {acts : Schedule} {pid : ℕ}
    (h : sealsState (app.run acts) pid = true) :
    ∃ e tok past, Seals (app.run acts).hist pid (.authorize e) tok past := by
  unfold sealsState at h
  rw [Bool.and_eq_true] at h
  obtain ⟨hproc, hany⟩ := h
  split at hproc
  · next params t prog hp =>
      obtain ⟨⟨pid', op, reply⟩, hm, hx⟩ := List.any_eq_true.mp hany
      rw [Bool.and_eq_true] at hx
      obtain ⟨hpid, hseal⟩ := hx
      obtain rfl := eq_of_beq hpid
      cases op with
      | fernetEncrypt blob =>
          obtain ⟨past, hpast⟩ := System.exists_past hm
          obtain ⟨req, e, t', hreq, hwf, hb, hmint, -⟩ := encrypted_minted hpast
          obtain rfl := hreq.unique ⟨_, hp, rfl⟩
          obtain ⟨v, cid, verifier, now, rfl, -⟩ := hmint
          exact ⟨_, reply, past, hwf, blob, hb, hpast⟩
      | _ => cases hseal
  · cases hproc

theorem lookup_stable_log :
    letI := Platform.plain
    (∃ e, logConfig.resourceByUrl "https://log.example/".toList = .ok (some e) ∧
      RoutesTo logConfig e.url e) ∧
    ∃ pid env tok past u e, Seals (logApp.run sampleReturn).hist pid env tok past ∧
      env.resource? = some u ∧ RoutesTo logConfig u e := by
  let := Platform.plain
  have hsplit : (urlsplit "https://log.example/".toList).isOk = true := by decide +kernel
  have hfound : (logConfig.resourceByUrl "https://log.example/".toList).toOption.join.isSome = true := by
    decide +kernel
  have hseals : sealsState (logApp.run sampleReturn) 1 = true := by decide +kernel
  obtain ⟨hlookup, hroutes, -⟩ := lookup_stable logConfig logApp sampleReturn
  constructor
  · cases hp : urlsplit "https://log.example/".toList with
    | error e => rw [hp] at hsplit; cases hsplit
    | ok p =>
        match hf : logConfig.resourceByUrl "https://log.example/".toList, hfound with
        | .ok (some e), _ => exact ⟨e, rfl, ((hlookup _ p hp).2 e hf).1⟩
  · obtain ⟨env, tok, past, hs⟩ := exists_of_sealsState hseals
    obtain ⟨e, -, he⟩ := hroutes 1 _ tok past env.resource hs rfl
    exact ⟨1, _, tok, past, env.resource, e, hs, rfl, he⟩

end CimdProxy
