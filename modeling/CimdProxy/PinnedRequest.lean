import CimdProxy.AcceptedUris
import CimdProxy.AddressGuard
import CimdProxy.UrlAuthority

/-! # The request that fetches a client's document

`_fetch_pinned` puts a URL and a `Host` header together from the parts of the client-id URL and the
checked address.  `pinned_request_iff` reads both back: the URL always leads to the address, and the
header names the host unless the host is an IPv6 literal, whose brackets it lacks. -/

namespace CimdProxy

open Py

section Pinned

variable [Platform]

/-- What a client-id URL was parsed into. -/
theorem parsed_of_parseClientIdUrl {u : Str} {parsed : ParsedClientIdUrl}
    (h : parseClientIdUrl u = .ok parsed) :
    ∃ p port, urlsplit u = .ok p ∧ p.scheme = "https" ∧ '@' ∉ p.netloc ∧
      p.hostname = some parsed.hostname ∧ p.port = .ok port ∧ p.path ≠ [] ∧
      parsed = ⟨"https", parsed.hostname, port.getD 443, p.path, p.query⟩ := by
  obtain ⟨p, hp, hs, -, hat, hh, hpath, -⟩ := parseClientIdUrl_eq_ok h
  unfold parseClientIdUrl at h
  split_ifs at h with hu
  obtain ⟨p', hp', h⟩ := bind_eq_ok.mp h
  obtain rfl := Except.ok.inj (hp.symm.trans (splitUrl_eq_ok.mp hp'))
  split at h
  · cases h
  split at h
  · cases h
  split at h
  · cases h
  rw [hh] at h
  dsimp only at h
  split at h
  · cases h
  obtain ⟨port, hport, h⟩ := bind_eq_ok.mp h
  refine ⟨p, port, hp, hs, hat, hh, ?_, hpath, ?_⟩
  · cases hr : p.port with
    | error e => rw [hr] at hport; cases hport
    | ok o => rw [hr] at hport; exact congrArg _ (Except.ok.inj hport)
  · rw [← Except.ok.inj h, hs]

theorem port_le {r : SplitResult} {n : ℕ} (h : r.port = .ok (some n)) : n ≤ 65535 := by
  unfold SplitResult.port at h
  split at h
  · cases h
  · dsimp only at h
    split_ifs at h with h1 h2 h3
    rw [← Option.some.inj (Except.ok.inj h)]
    exact not_lt.mp h3

/-- The `Host` header, read as the authority of an https URL, names the host and the port. -/
def HeaderNames (parsed : ParsedClientIdUrl) : Prop :=
  ∃ p port, urlsplit ("https://" ++ parsed.authority) = .ok p ∧ p.hostname = some parsed.hostname ∧
    p.port = .ok port ∧ port.getD 443 = parsed.port

/-- The pinned URL, read back, leads to the address, with the port, the path and the query of the
client-id URL. -/
def UrlDials (parsed : ParsedClientIdUrl) (ip : Str) : Prop :=
  ∃ p, urlsplit (pinnedUrl parsed ip) = .ok p ∧ p.hostname = some (lower ip) ∧
    p.port = .ok (some parsed.port) ∧ p.path = parsed.path ∧ p.query = parsed.query

/-- An address that the check of an answer for the host returned. -/
def Validated (hostname ip : Str) : Prop := ∃ r kept, checkAnswer hostname r = .ok kept ∧ ip ∈ kept

theorem Validated.spec {hostname ip : Str} (h : Validated hostname ip) :
    (∃ addr, ipAddress ip = some addr) ∧ '%' ∉ ip := by
  obtain ⟨r, kept, hr, hip⟩ := h
  obtain ⟨addresses, rfl, ⟨-, hsafe⟩, rfl⟩ := checkAnswer_eq_ok.mp hr
  rcases mem_keptIps.mp hip with h | h
  · cases h
  · obtain ⟨a, ha, rfl⟩ := List.mem_map.mp h
    obtain ⟨addr, haddr, -⟩ := hsafe a ha
    refine ⟨⟨addr, haddr⟩, ?_⟩
    unfold rawIp
    rcases partition_cases '%' a with ⟨hn, he⟩ | ⟨front, back, hn, -, he⟩
    · rw [he]
      exact hn
    · rw [he]
      exact hn

/-- **The pinned URL always leads to the address.** -/
theorem urlDials {u ip : Str} {parsed : ParsedClientIdUrl} (hu : parseClientIdUrl u = .ok parsed)
    (hip : Validated parsed.hostname ip) : UrlDials parsed ip := by
  obtain ⟨⟨addr, haddr⟩, hscope⟩ := hip.spec
  have hchars := chars_of_ipAddress hscope haddr
  obtain ⟨p, port, hp, hs, hat, hh, hport, hpath, hparsed⟩ := parsed_of_parseClientIdUrl hu
  obtain ⟨hslash, hends, hquery, hsafe⟩ :=
    tail_of_urlsplit hp (by rw [hs]; exact List.cons_ne_nil _ _) (netloc_ne_nil hh)
  have hn : port.getD 443 ≤ 65535 := by
    cases port with
    | none => decide
    | some n => exact port_le hport
  set ds := Nat.toDigits 10 (port.getD 443) with hds
  have hdigits : ∀ c ∈ ds, c.isDigit = true :=
    fun c hc => Nat.isDigit_of_mem_toDigits (by norm_num) (by norm_num) hc
  have hnetloc : addressNetloc ip ds ≠ [] := by
    unfold addressNetloc
    simp
  have hurl : pinnedUrl parsed ip = "https://" ++ (addressNetloc ip ds ++
      (p.path ++ if p.query.isEmpty then [] else '?' :: p.query)) := by
    rw [hparsed]
    unfold pinnedUrl addressNetloc
    have hint : intText ((port.getD 443 : ℕ) : ℤ) = ds := rfl
    dsimp only
    rw [hint]
    split_ifs <;> simp
  have hsplit := urlsplit_https (isNetloc_address haddr hchars hdigits) hnetloc hslash hends hquery hsafe
  rw [← hurl] at hsplit
  have hinfo := hostinfo_address (r := ⟨"https", addressNetloc ip ds, p.path, p.query, []⟩) rfl hchars
    hdigits Nat.toDigits_ne_nil
  refine ⟨_, hsplit, ?_, ?_, ?_, ?_⟩
  · have hne : ip ≠ [] := by
      rintro rfl
      cases haddr
    rw [hostname_eq, hinfo, if_neg (by simpa using hne), hostText, partition_of_not_mem hscope]
    exact congrArg some (List.append_nil _)
  · rw [hparsed]
    exact port_of_hostinfo (congrArg Prod.snd hinfo) hn
  · rw [hparsed]
  · rw [hparsed]

/-- The port of an authority as `authority` writes it. -/
def portTail (n : ℕ) : Str := if n = 443 then [] else ':' :: Nat.toDigits 10 n

omit [Platform] in
theorem portTail_spec (n : ℕ) : ∀ c ∈ portTail n, isAddressChar c = true ∧ (c = ':' ∨ c.isDigit = true) := by
  intro c hc
  unfold portTail at hc
  split_ifs at hc
  · cases hc
  · rcases List.mem_cons.mp hc with rfl | hc
    · exact ⟨by decide, .inl rfl⟩
    · have hd := Nat.isDigit_of_mem_toDigits (by norm_num) (by norm_num) hc
      exact ⟨isAddressChar_of_isDigit hd, .inr hd⟩

omit [Platform] in
theorem authority_https {parsed : ParsedClientIdUrl} (h : parsed.scheme = "https") :
    parsed.authority = parsed.hostname ++ portTail parsed.port := by
  unfold ParsedClientIdUrl.authority portTail
  rw [if_pos h]
  dsimp only
  split_ifs
  · exact (List.append_nil _).symm
  · rfl

/-- **When the header names the host**: when the host holds no colon and no bracket. -/
theorem headerNames_iff (laws : HostLaws) {u : Str} {parsed : ParsedClientIdUrl}
    (hu : parseClientIdUrl u = .ok parsed) :
    HeaderNames parsed ↔ ':' ∉ parsed.hostname ∧ '[' ∉ parsed.hostname := by
  obtain ⟨p, port, hp, hs, hat, hh, hport, hpath, hparsed⟩ := parsed_of_parseClientIdUrl hu
  have hnetloc : IsNetloc p.netloc :=
    ((urlsplit_iff_written (by rw [hs]; exact List.cons_ne_nil _ _) (netloc_ne_nil hh)).mp hp).netloc
  obtain ⟨name, hname⟩ := names_of_brackets hnetloc.brackets hat
  have hhost : parsed.hostname = hostText name ∧ name ≠ [] := by
    rw [hostname_eq, hostinfo_of_names hat hname] at hh
    split_ifs at hh with hnil
    exact ⟨(Option.some.inj hh).symm, by simpa using hnil⟩
  obtain ⟨hhost, hne⟩ := hhost
  have hn : parsed.port ≤ 65535 := by
    rw [hparsed]
    cases port with
    | none => exact (by decide : 443 ≤ 65535)
    | some n => exact port_le hport
  have hauth : parsed.authority = hostText name ++ portTail parsed.port := by
    rw [authority_https (by rw [hparsed]), hhost]
  have hat' : '@' ∉ parsed.authority := by
    rw [hauth]
    intro hm
    rcases List.mem_append.mp hm with hm | hm
    · exact hat (mem_of_names hname ((laws.mem_hostText (by decide) (by decide)).mp hm))
    · exact absurd (portTail_spec _ _ hm).1 (by decide)
  constructor
  · rintro ⟨q, port', hq, hqh, -, -⟩
    have hchars := laws.chars_hostText hname hnetloc (fun c hc => (portTail_spec parsed.port c hc).1)
    rw [← hauth] at hchars
    obtain ⟨hqn, hb⟩ := netloc_of_https hchars hq
    have hclose : ']' ∉ parsed.authority := by
      rw [hauth]
      intro hm
      rcases List.mem_append.mp hm with hm | hm
      · exact close_not_mem hname hnetloc.brackets ((laws.mem_hostText (by decide) (by decide)).mp hm)
      · exact absurd (portTail_spec _ _ hm).1 (by decide)
    have hopen : '[' ∉ parsed.authority := by
      intro hm
      rw [checkBrackets, if_pos (by simp [hm, hclose])] at hb
      cases hb
    constructor
    · -- what is read back as the host ends at the first colon
      intro hcolon
      rw [hostname_eq, hostinfo_bare (by rwa [hqn]) (by rwa [hqn])] at hqh
      dsimp only at hqh
      split_ifs at hqh with hnil
      rw [← Option.some.inj hqh] at hcolon
      have hmem := (laws.mem_hostText (by decide) (by decide)).mp hcolon
      exact (@partition_spec ':' q.netloc).choose_spec.2.2 hmem
    · intro hm
      refine hopen ?_
      rw [hauth, ← hhost]
      exact List.mem_append_left _ hm
  · rintro ⟨hcolon, hopen⟩
    rw [hhost] at hcolon hopen
    have hnet := laws.isNetloc_hostText hname hat hnetloc hcolon hopen (portTail_spec parsed.port)
    have hnil : hostText name ≠ [] := laws.hostText_ne_nil hne
    rw [← hauth] at hnet
    have hsplit := @urlsplit_https _ _ [] [] hnet (by rw [hauth]; simp [hnil]) (.inl rfl)
      ⟨List.not_mem_nil, List.not_mem_nil⟩ List.not_mem_nil (fun c hc => absurd hc List.not_mem_nil)
    have hopen' : '[' ∉ parsed.authority := by
      rw [hauth]
      intro hm
      rcases List.mem_append.mp hm with hm | hm
      · exact hopen hm
      · exact absurd (portTail_spec _ _ hm).1 (by decide)
    rw [List.isEmpty_nil, if_pos rfl, List.append_nil, List.append_nil] at hsplit
    have hinfo : SplitResult.hostinfo ⟨"https", parsed.authority, [], [], []⟩ =
        (hostText name, if parsed.port = 443 then none else some (Nat.toDigits 10 parsed.port)) := by
      rw [hostinfo_bare hat' hopen', hauth]
      dsimp only
      by_cases h443 : parsed.port = 443
      · rw [portTail, if_pos h443, if_pos h443, List.append_nil, partition_of_not_mem hcolon]
        rfl
      · rw [portTail, if_neg h443, if_neg h443, partition_append hcolon]
        refine Prod.ext rfl (if_neg ?_)
        simp
    refine ⟨_, if parsed.port = 443 then none else some parsed.port, hsplit, ?_, ?_, ?_⟩
    · rw [hostname_eq, hinfo]
      dsimp only
      rw [if_neg (by simpa using hnil), laws.hostText_hostText, hhost]
    · split_ifs with h443
      · rw [SplitResult.port, hinfo]
        dsimp only
        rw [if_pos h443]
      · refine port_of_hostinfo ?_ hn
        rw [hinfo]
        exact if_neg h443
    · split_ifs with h443
      · exact h443.symm
      · rfl

/-- **The pinned request.**  For a client-id URL and a checked address, the `Host` header names the host
and port of the URL and the pinned URL leads to the address, with the URL's port, path and query,
exactly when the host holds no colon and no bracket. -/
theorem pinned_request_iff (laws : HostLaws) (u ip : Str) (parsed : ParsedClientIdUrl)
    (hu : parseClientIdUrl u = .ok parsed) (hip : Validated parsed.hostname ip) :
    (HeaderNames parsed ∧ UrlDials parsed ip) ↔ ':' ∉ parsed.hostname ∧ '[' ∉ parsed.hostname := by
  rw [← headerNames_iff laws hu]
  exact ⟨fun h => h.1, fun h => ⟨h, urlDials hu hip⟩⟩

end Pinned

/-! ### Two client-id URLs -/

/-- The metadata of a client on a port of its own, and of one that names an IPv6 address. -/
def namedClient : ParsedClientIdUrl := ⟨"https", "app.example", 8443, "/client", "v=1"⟩

def literalClient : ParsedClientIdUrl := ⟨"https", "2001:db8::1", 443, "/client", []⟩

theorem pinned_request_iff_named :
    letI := Platform.plain
    (HeaderNames namedClient ∧ UrlDials namedClient "93.184.216.34") ↔
      ':' ∉ namedClient.hostname ∧ '[' ∉ namedClient.hostname := by
  let := Platform.plain
  have hu : parseClientIdUrl "https://app.example:8443/client?v=1" = .ok namedClient := by rfl
  have hip : Validated namedClient.hostname "93.184.216.34" :=
    ⟨.infos ["93.184.216.34".toList], ["93.184.216.34".toList], by rfl, List.mem_singleton_self _⟩
  exact pinned_request_iff hostLaws_inert _ _ namedClient hu hip

/-- The header of a client at an IPv6 literal lacks its brackets. -/
theorem literal_header_misread :
    letI := Platform.plain
    parseClientIdUrl "https://[2001:db8::1]/client" = .ok literalClient ∧
      Validated literalClient.hostname "2001:db8::1" ∧
      ¬ (HeaderNames literalClient ∧ UrlDials literalClient "2001:db8::1") := by
  let := Platform.plain
  have hu : parseClientIdUrl "https://[2001:db8::1]/client" = .ok literalClient := by rfl
  refine ⟨hu, ⟨.infos ["2001:db8::1".toList], ["2001:db8::1".toList], by rfl, List.mem_singleton_self _⟩, ?_⟩
  rintro ⟨h, -⟩
  have := (headerNames_iff hostLaws_inert hu).mp h
  exact absurd this (by decide)

end CimdProxy
