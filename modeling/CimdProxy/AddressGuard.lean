import CimdProxy.Faults
import CimdProxy.Fetcher

/-! # The guard on resolved addresses

`resolve_and_check_ips` walks over an answer of the resolver and keeps each address once; the first
address in a forbidden zone ends the fetch.  `checkIps_spec` is the loop invariant,
`ssrf_guard` the result for the fetch: it connects only to an address of one answer in which every
address is public. -/

namespace CimdProxy

open Py Effects

variable [Platform]

/-- An address without its scope suffix. -/
def rawIp (address : Str) : Str := (partition '%' address).1

/-- The text is an IP address in none of the six zones. -/
def IsPublic (ip : Str) : Prop :=
  ∃ addr, ipAddress ip = some addr ∧ ∀ attr ∈ forbiddenZones, Platform.ipAttr attr addr = false

/-- The addresses kept of an answer: each one once, in order. -/
def keptIps : List Str → List Str → List Str
  | ips, [] => ips
  | ips, address :: rest =>
      if rawIp address ∈ ips then keptIps ips rest else keptIps (ips ++ [rawIp address]) rest

omit [Platform] in
theorem mem_keptIps {ips addresses : List Str} {ip : Str} :
    ip ∈ keptIps ips addresses ↔ ip ∈ ips ∨ ip ∈ addresses.map rawIp := by
  induction addresses generalizing ips with
  | nil => simp [keptIps]
  | cons a rest ih =>
      rw [keptIps, List.map_cons, List.mem_cons]
      split_ifs with h
      · rw [ih]
        constructor
        · exact fun hm => hm.imp id .inr
        · rintro (hm | rfl | hm)
          · exact .inl hm
          · exact .inl h
          · exact .inr hm
      · rw [ih, List.mem_append, List.mem_singleton, or_assoc]

omit [Platform] in
theorem nodup_keptIps {ips addresses : List Str} (h : ips.Nodup) : (keptIps ips addresses).Nodup := by
  induction addresses generalizing ips with
  | nil => exact h
  | cons a rest ih =>
      rw [keptIps]
      split_ifs with hm
      · exact ih h
      · refine ih (List.nodup_append.mpr ⟨h, List.nodup_singleton _, ?_⟩)
        rintro x hx y hy rfl
        exact hm (List.mem_singleton.mp hy ▸ hx)

/-- The first address that is none, after public ones only. -/
def HasNoAddress (addresses : List Str) : Prop :=
  ∃ front a back, addresses = front ++ a :: back ∧ (∀ b ∈ front, IsPublic (rawIp b)) ∧
    ipAddress (rawIp a) = none

/-- Exceptions that none of the proxy's own handlers expects. -/
def Exc.IsForeign : Exc → Prop
  | .valueError _ => True
  | .typeError _ => True
  | .attributeError _ => True
  | .keyError _ => True
  | .overflowError _ => True
  | .database _ => True
  | .library _ => True
  | _ => False

theorem find?_forbidden {addr : IpAddress} :
    forbiddenZones.find? (fun attr => Platform.ipAttr attr addr) = none ↔
      ∀ attr ∈ forbiddenZones, Platform.ipAttr attr addr = false := by
  rw [List.find?_eq_none]
  refine forall₂_congr fun attr _ => ?_
  rw [Bool.not_eq_true]

/-- One round of the loop. -/
theorem checkIps_cons (hostname : Str) (ips : List Str) (a : Str) (rest : List Str) :
    checkIps hostname ips (a :: rest) =
      if rawIp a ∈ ips then checkIps hostname ips rest
      else
        match ipAddress (rawIp a) with
        | none => .error (.valueError
            (pyRepr (rawIp a) ++ " does not appear to be an IPv4 or IPv6 address"))
        | some addr =>
            match forbiddenZones.find? (fun attr => Platform.ipAttr attr addr) with
            | some attr => .error (ssrfRefused ("host " ++ pyRepr hostname ++ " resolves to " ++
                rawIp a ++ " (" ++ attr ++ "); refusing"))
            | none => checkIps hostname (ips ++ [rawIp a]) rest := by
  rw [checkIps]
  simp only [List.contains_eq_mem, decide_eq_true_eq]
  rfl

/-- **The loop of the guard.**  It keeps the addresses when all are public, and refuses otherwise. -/
theorem checkIps_spec (hostname : Str) {ips addresses : List Str} (hips : ∀ ip ∈ ips, IsPublic ip) :
    (∀ kept, checkIps hostname ips addresses = .ok kept ↔
      (∀ a ∈ addresses, IsPublic (rawIp a)) ∧ kept = keptIps ips addresses) ∧
    Fails (fun e => ∃ msg, e = ssrfRefused msg) Exc.IsForeign (HasNoAddress addresses)
      (checkIps hostname ips addresses) := by
  induction addresses generalizing ips with
  | nil =>
      refine ⟨fun kept => ?_, ?_⟩
      · simp only [checkIps, keptIps, Except.ok.injEq, List.not_mem_nil, false_implies,
          implies_true, true_and]
        exact eq_comm
      · rintro ⟨front, a, back, h, -⟩
        simp at h
  | cons a rest ih =>
      have hcons : HasNoAddress (a :: rest) ↔
          ipAddress (rawIp a) = none ∨ (IsPublic (rawIp a) ∧ HasNoAddress rest) := by
        constructor
        · rintro ⟨front, b, back, h, hfront, hb⟩
          cases front with
          | nil =>
              rw [List.nil_append] at h
              rw [(List.cons.inj h).1]
              exact .inl hb
          | cons c front =>
              obtain ⟨rfl, rfl⟩ := List.cons.inj h
              exact .inr ⟨hfront _ List.mem_cons_self, front, b, back, rfl,
                fun x hx => hfront x (List.mem_cons_of_mem _ hx), hb⟩
        · rintro (h | ⟨h, front, b, back, rfl, hfront, hb⟩)
          · exact ⟨[], a, rest, rfl, (fun x hx => nomatch hx), h⟩
          · refine ⟨a :: front, b, back, rfl, ?_, hb⟩
            intro x hx
            rcases List.mem_cons.mp hx with rfl | hx
            · exact h
            · exact hfront x hx
      rw [checkIps_cons, keptIps]
      by_cases hm : rawIp a ∈ ips
      · have hpub := hips _ hm
        obtain ⟨hok, hfail⟩ := ih hips
        rw [if_pos hm, if_pos hm]
        refine ⟨fun kept => ?_, hfail.congr ?_⟩
        · rw [hok, List.forall_mem_cons, and_iff_right hpub]
        · rw [hcons, and_iff_right hpub]
          obtain ⟨addr, haddr, -⟩ := hpub
          simp [haddr]
      · rw [if_neg hm, if_neg hm]
        cases haddr : ipAddress (rawIp a) with
        | none =>
            refine ⟨fun kept => ?_, .unexpected trivial (hcons.mpr (.inl haddr))⟩
            simp only [reduceCtorEq, List.forall_mem_cons, false_iff, not_and]
            rintro ⟨⟨addr, h, -⟩, -⟩
            rw [haddr] at h
            cases h
        | some addr =>
            have hpub : IsPublic (rawIp a) ↔
                forbiddenZones.find? (fun attr => Platform.ipAttr attr addr) = none := by
              rw [find?_forbidden]
              constructor
              · rintro ⟨addr', h, hall⟩
                rw [haddr] at h
                rwa [Option.some.inj h]
              · exact fun hall => ⟨addr, haddr, hall⟩
            dsimp only
            cases hzone : forbiddenZones.find? (fun attr => Platform.ipAttr attr addr) with
            | some attr =>
                rw [hzone] at hpub
                have hnot : ¬ IsPublic (rawIp a) := fun h => nomatch hpub.mp h
                refine ⟨fun kept => ?_, .expected ⟨_, rfl⟩ ?_⟩
                · simp [hnot]
                · rw [hcons]
                  simp [haddr, hnot]
            | none =>
                rw [hzone] at hpub
                have hpub' := hpub.mpr rfl
                obtain ⟨hok, hfail⟩ := @ih (ips ++ [rawIp a]) (by
                  intro ip hip
                  rcases List.mem_append.mp hip with hip | hip
                  · exact hips ip hip
                  · rwa [List.mem_singleton.mp hip])
                refine ⟨fun kept => ?_, hfail.congr ?_⟩
                · rw [hok, List.forall_mem_cons, and_iff_right hpub']
                · rw [hcons, and_iff_right hpub']
                  simp [haddr]

/-! ### The answer of the resolver -/

/-- What becomes of an answer. -/
def checkAnswer (hostname : Str) : AddrInfo → Except Exc (List Str)
  | .gaierror => .error (ssrfRefused ("cannot resolve host " ++ pyRepr hostname))
  | .unicodeError msg => .error (.valueError msg)
  | .infos [] => .error (ssrfRefused ("cannot resolve host " ++ pyRepr hostname))
  | .infos (a :: as) => checkIps hostname [] (a :: as)

theorem resolveAndCheckIps_eq (hostname : Str) :
    resolveAndCheckIps hostname =
      (ask (.getaddrinfo hostname)).bind (fun r => .lift (checkAnswer hostname r)) := by
  unfold resolveAndCheckIps
  rw [Prog.bind_eq, ask_bind, ask_bind]
  congr 1
  funext r
  rcases r with (_ | ⟨a, as⟩) | _ | msg <;> rfl

/-- A name was resolved, to public addresses only. -/
def IsSafe : AddrInfo → Prop
  | .infos addresses => addresses ≠ [] ∧ ∀ a ∈ addresses, IsPublic (rawIp a)
  | _ => False

/-- What `getaddrinfo` answers for a name it can look up: addresses, or a `gaierror`. -/
def IsAnswer : AddrInfo → Prop
  | .infos addresses => ∀ a ∈ addresses, ipAddress (rawIp a) ≠ none
  | .gaierror => True
  | .unicodeError _ => False

theorem checkAnswer_eq_ok {hostname : Str} {r : AddrInfo} {kept : List Str} :
    checkAnswer hostname r = .ok kept ↔
      ∃ addresses, r = .infos addresses ∧ IsSafe r ∧ kept = keptIps [] addresses := by
  rcases r with (_ | ⟨a, as⟩) | _ | msg
  · simp [checkAnswer, IsSafe]
  · rw [checkAnswer, (checkIps_spec hostname (List.forall_mem_nil _)).1]
    constructor
    · rintro ⟨hall, rfl⟩
      exact ⟨_, rfl, ⟨List.cons_ne_nil _ _, hall⟩, rfl⟩
    · rintro ⟨addresses, h, ⟨-, hall⟩, rfl⟩
      obtain rfl := AddrInfo.infos.inj h
      exact ⟨hall, rfl⟩
  · simp [checkAnswer]
  · simp [checkAnswer]

omit [Platform] in
/-- The kept list covers the answer, without duplicates. -/
theorem keptIps_spec {addresses : List Str} (h : addresses ≠ []) :
    keptIps [] addresses ≠ [] ∧ (keptIps [] addresses).Nodup ∧
      ∀ ip, ip ∈ keptIps [] addresses ↔ ip ∈ addresses.map rawIp := by
  have hmem : ∀ ip, ip ∈ keptIps [] addresses ↔ ip ∈ addresses.map rawIp := by
    intro ip
    rw [mem_keptIps]
    simp
  refine ⟨fun hnil => ?_, nodup_keptIps List.nodup_nil, hmem⟩
  obtain ⟨a, as, rfl⟩ := List.exists_cons_of_ne_nil h
  have := (hmem (rawIp a)).mpr (List.mem_cons_self)
  rw [hnil] at this
  cases this

/-- An answer that is not safe is refused. -/
theorem checkAnswer_refuses {hostname : Str} {r : AddrInfo} (hr : IsAnswer r) (hs : ¬ IsSafe r) :
    ∃ msg, checkAnswer hostname r = .error (ssrfRefused msg) := by
  rcases r with (_ | ⟨a, as⟩) | _ | msg
  · exact ⟨_, rfl⟩
  · have hnone : ¬ HasNoAddress (a :: as) := by
      rintro ⟨front, b, back, h, -, hb⟩
      exact hr b (by rw [h]; simp) hb
    have hspec := @checkIps_spec _ hostname [] (a :: as) (List.forall_mem_nil _)
    have hfail := hspec.2
    rw [checkAnswer]
    cases hc : checkIps hostname [] (a :: as) with
    | ok kept => exact absurd ⟨List.cons_ne_nil _ _, ((hspec.1 kept).mp hc).1⟩ hs
    | error e =>
        rw [hc] at hfail
        rcases hfail with ⟨⟨msg, rfl⟩, -⟩ | ⟨-, h⟩
        · exact ⟨msg, rfl⟩
        · exact absurd h hnone
  · exact ⟨_, rfl⟩
  · exact absurd hr id

/-! ### The fetch -/

/-- What a fetch may do: resolve once, and connect to an address of that answer when it is safe. -/
def ConnectsSafely (url : Str) (t : Trace proxyOps) : Op → Prop
  | .getaddrinfo host => t = [] ∧ ∃ parsed, parseClientIdUrl url = .ok parsed ∧ host = parsed.hostname
  | .pinnedGet target host sni =>
      ∃ parsed addresses ip, parseClientIdUrl url = .ok parsed ∧
        t = [did (.getaddrinfo parsed.hostname) (AddrInfo.infos addresses)] ∧
        IsSafe (.infos addresses) ∧ ip ∈ addresses.map rawIp ∧ target = pinnedUrl parsed ip ∧
        host = parsed.authority ∧ sni = parsed.hostname
  | _ => False

/-- An answer that is not safe ends the fetch without a connection. -/
def RefusesUnsafe {α : Type} (t : Trace proxyOps) (x : Except Exc α) : Prop :=
  ∀ host (r : AddrInfo), did (.getaddrinfo host) r ∈ t → IsAnswer r → ¬ IsSafe r →
    t = [did (.getaddrinfo host) r] ∧ ∃ msg, x = .error (ssrfRefused msg)

theorem sat_resolve (hostname : Str) {Q : Trace proxyOps → Op → Prop}
    (hq : Q [] (.getaddrinfo hostname)) :
    (resolveAndCheckIps hostname).Sat Q
      (fun t x => ∃ r, t = [did (.getaddrinfo hostname) r] ∧ x = checkAnswer hostname r) [] := by
  rw [resolveAndCheckIps_eq]
  exact sat_ask_bind hq (fun r => (Prog.sat_lift _ _).mpr ⟨r, rfl, rfl⟩)

/-- **The guard.**  What `resolve_and_check_ips` returns covers one safe answer, and a fetch connects
only to an address of such an answer. -/
theorem ssrf_guard (maxBytes : ℤ) (url : Str) :
    (∀ hostname, (resolveAndCheckIps hostname).Sat (fun t (o : Op) => t = [] ∧ o = .getaddrinfo hostname)
      (fun t x => ∃ r : AddrInfo, t = [did (.getaddrinfo hostname) r] ∧
        (∀ kept, x = .ok kept → ∃ addresses, r = .infos addresses ∧ IsSafe r ∧ kept ≠ [] ∧
          kept.Nodup ∧ ∀ ip, ip ∈ kept ↔ ip ∈ addresses.map rawIp) ∧
        (IsAnswer r → ¬ IsSafe r → ∃ msg, x = .error (ssrfRefused msg))) []) ∧
    (fetch maxBytes url).Sat (ConnectsSafely url) RefusesUnsafe [] := by
  constructor
  · intro hostname
    refine (sat_resolve hostname ⟨rfl, rfl⟩).mono (fun _ _ h => h) ?_
    rintro t x ⟨r, rfl, rfl⟩
    refine ⟨r, rfl, fun kept hk => ?_, checkAnswer_refuses⟩
    obtain ⟨addresses, rfl, hs, rfl⟩ := checkAnswer_eq_ok.mp hk
    exact ⟨addresses, rfl, hs, keptIps_spec hs.1⟩
  · refine Prog.Sat.lift_bind (fun parsed hp => ?_) (fun e _ host r h => nomatch h)
    refine Prog.Sat.bind (sat_resolve parsed.hostname ⟨rfl, parsed, hp, rfl⟩) ?_ ?_
    · rintro t ips - ⟨r, rfl, hr⟩
      obtain ⟨addresses, rfl, hs, rfl⟩ := checkAnswer_eq_ok.mp hr.symm
      obtain ⟨hne, -, hmem⟩ := keptIps_spec hs.1
      -- once the answer is safe nothing is left to show about the outcome
      have hsafe : ∀ (t : Trace proxyOps) (x : Except Exc FetchResult),
          (∀ host (r : AddrInfo), did (.getaddrinfo host) r ∈ t → r = .infos addresses) →
            RefusesUnsafe t x := by
        intro t x h host r hm _ hns
        rw [h host r hm] at hns
        exact absurd hs hns
      cases hips : keptIps [] addresses with
      | nil => exact absurd hips hne
      | cons ip rest =>
          have hip : ip ∈ addresses.map rawIp := (hmem ip).mp (by rw [hips]; exact List.mem_cons_self)
          refine sat_ask_bind ⟨parsed, addresses, ip, hp, rfl, hs, hip, rfl, rfl, rfl⟩ (fun g => ?_)
          have hafter : ∀ x : Except Exc FetchResult, RefusesUnsafe
              [did (.pinnedGet (pinnedUrl parsed ip) parsed.authority parsed.hostname) g,
                did (.getaddrinfo parsed.hostname) (AddrInfo.infos addresses)] x := by
            refine fun x => hsafe _ x (fun host r hm => ?_)
            rcases List.mem_cons.mp hm with h | h
            · cases h
            · cases List.mem_singleton.mp h
              rfl
          rcases g with ⟨status, body, cc⟩ | text | msg
          · dsimp only
            split_ifs with h1 h2
            · exact hafter _
            · exact hafter _
            · exact Prog.Sat.lift_bind (fun doc _ => hafter _) (fun e _ => hafter _)
          · exact hafter _
          · exact hafter _
    · rintro t e - ⟨r, rfl, hr⟩ host r' hm hanswer hns
      cases List.mem_singleton.mp hm
      obtain ⟨msg, hmsg⟩ := @checkAnswer_refuses _ parsed.hostname _ hanswer hns
      rw [← hr] at hmsg
      exact ⟨rfl, msg, by rw [Except.error.inj hmsg]⟩

end CimdProxy
