import CimdProxy.PatCli
import CimdProxy.UrlSpelling

/-! # URLs a bearer token may travel to

`SecureUrl u` is what `_require_secure` asks of a URL.  It only depends on the scheme and the authority,
so it survives what the command does to a URL: trailing slashes are stripped
(`secureUrl_rstripSlash`), a path is appended (`secureUrl_append`). -/

namespace CimdProxy.PatCli

open Py

variable [Platform]

/-- An https URL with a host, or an http URL of a loopback host. -/
def SecureUrl (u : Str) : Prop := ∃ parts, urlsplit u = .ok parts ∧ isSecure parts = true

/-- `urlsplit` makes something of the URL. -/
def Splittable (u : Str) : Prop := ∃ parts, urlsplit u = .ok parts

theorem requireSecure_eq_ok {u what v : Str} :
    requireSecure u what = .ok v ↔ SecureUrl u ∧ v = rstripSlash u := by
  unfold requireSecure SecureUrl
  cases hu : urlsplit u with
  | error msg => simp
  | ok parts =>
      dsimp only
      by_cases hs : isSecure parts = true
      · rw [if_pos hs]
        constructor
        · intro h
          exact ⟨⟨parts, rfl, hs⟩, (Except.ok.inj h).symm⟩
        · rintro ⟨-, rfl⟩
          rfl
      · rw [if_neg hs]
        constructor
        · intro h
          cases h
        · rintro ⟨⟨parts', hp, hs'⟩, -⟩
          cases hp
          exact absurd hs' hs

/-! ### Scheme and authority decide -/

theorem isLoopback_isSome {host : Option Str} (h : isLoopback host = true) : host.isSome = true := by
  cases host with
  | some h => rfl
  | none => cases h

theorem isSecure_spec {p : SplitResult} (h : isSecure p = true) : p.scheme ≠ [] ∧ p.netloc ≠ [] := by
  have hhost : p.scheme ≠ [] ∧ p.hostname.isSome = true := by
    simp only [isSecure, Bool.or_eq_true, Bool.and_eq_true, decide_eq_true_eq] at h
    rcases h with ⟨hs, hh⟩ | ⟨hs, hl⟩
    · exact ⟨by rw [hs]; exact List.cons_ne_nil _ _, hh⟩
    · exact ⟨by rw [hs]; exact List.cons_ne_nil _ _, isLoopback_isSome hl⟩
  refine ⟨hhost.1, ?_⟩
  intro hn
  have hinfo : p.hostinfo.1 = [] := by
    unfold SplitResult.hostinfo
    rw [hn]
    rfl
  have hnone : p.hostname = none := by
    unfold SplitResult.hostname
    rw [hinfo]
    rfl
  rw [hnone] at hhost
  cases hhost.2

theorem isSecure_congr {p q : SplitResult} (hs : p.scheme = q.scheme) (hn : p.netloc = q.netloc) :
    isSecure p = isSecure q := by
  have hinfo : p.hostinfo = q.hostinfo := by
    unfold SplitResult.hostinfo
    rw [hn]
  have hhost : p.hostname = q.hostname := by
    unfold SplitResult.hostname
    rw [hinfo]
  unfold isSecure
  rw [hs, hhost]

/-- The split of a text with this scheme, this authority and any tail. -/
theorem urlsplit_of_clean {u a netloc t : Str} (hu : cleanUrl u = a ++ ':' :: '/' :: '/' :: (netloc ++ t))
    (ha : isScheme a = true) (hn : IsNetloc netloc) (ht : ∀ c r, t = c :: r → isNetlocEnd c = true) :
    urlsplit u = .ok ⟨a.map Char.toLower, netloc, (splitTail t).1, (splitTail t).2.1,
      (splitTail t).2.2⟩ := by
  unfold urlsplit
  rw [hu, splitClean_eq_ok, splitScheme_append_colon ha]
  dsimp only
  rw [splitNetloc_slashes hn.noEnd ht]
  exact ⟨rfl, rfl, rfl, hn.brackets, hn.nfkc⟩

theorem secureUrl_append {u : Str} (h : SecureUrl u) (s : Str) : SecureUrl (u ++ '/' :: s) := by
  obtain ⟨p, hp, hsec⟩ := h
  obtain ⟨hs, hn⟩ := isSecure_spec hsec
  obtain ⟨a, t, hu, ha, hscheme, hend, -, hnet⟩ := urlsplit_parts hp hs hn
  have hclean : cleanUrl (u ++ '/' :: s) = a ++ ':' :: '/' :: '/' ::
      (p.netloc ++ (t ++ '/' :: s.filter (fun x => !isUnsafeUrlByte x))) := by
    rw [cleanUrl_append_cons (by decide), hu]
    simp
  have hend' : ∀ c r, t ++ '/' :: s.filter (fun x => !isUnsafeUrlByte x) = c :: r →
      isNetlocEnd c = true := by
    intro c r h
    cases t with
    | nil =>
        rw [← (List.cons.inj h).1]
        decide
    | cons d t =>
        rw [← (List.cons.inj h).1]
        exact hend d t rfl
  refine ⟨_, urlsplit_of_clean hclean ha hnet hend', ?_⟩
  rw [← hsec]
  exact isSecure_congr hscheme.symm rfl

/-- A trailing slash belongs to the path. -/
theorem secureUrl_of_append_slash {u : Str} (h : SecureUrl (u ++ ['/'])) : SecureUrl u := by
  obtain ⟨p, hp, hsec⟩ := h
  obtain ⟨hs, hn⟩ := isSecure_spec hsec
  obtain ⟨a, t, hu, ha, hscheme, hend, -, hnet⟩ := urlsplit_parts hp hs hn
  rw [cleanUrl_append_cons (by decide), List.filter_nil] at hu
  rcases List.eq_nil_or_concat' t with rfl | ⟨t, c, rfl⟩
  · -- the authority would end in a slash
    obtain ⟨n, c, hnc⟩ := (List.eq_nil_or_concat' p.netloc).resolve_left hn
    rw [hnc, List.append_nil] at hu
    have hlast : cleanUrl u ++ ['/'] = (a ++ ':' :: '/' :: '/' :: n) ++ [c] := by
      rw [hu]
      simp
    obtain rfl : '/' = c := List.singleton_inj.mp (List.append_inj' hlast rfl).2
    have hc := hnet.noEnd '/' (by rw [hnc]; simp)
    cases hc
  · have hlast : cleanUrl u ++ ['/'] = (a ++ ':' :: '/' :: '/' :: (p.netloc ++ t)) ++ [c] := by
      rw [hu]
      simp
    obtain ⟨hclean, -⟩ := List.append_inj' hlast rfl
    refine ⟨_, urlsplit_of_clean hclean ha hnet (fun d r hd => ?_), ?_⟩
    · exact hend d (r ++ [c]) (by rw [hd]; rfl)
    · rw [← hsec]
      exact isSecure_congr hscheme.symm rfl

theorem secureUrl_rstripSlash {u : Str} (h : SecureUrl u) : SecureUrl (rstripSlash u) := by
  induction u using List.reverseRecOn with
  | nil => exact h
  | append_singleton u c ih =>
      by_cases hc : c = '/'
      · subst hc
        rw [rstripSlash_append_slash]
        exact ih (secureUrl_of_append_slash h)
      · have hself : rstripSlash (u ++ [c]) = u ++ [c] := by
          apply rstripSlash_eq_self
          intro t ht
          exact hc (List.singleton_inj.mp (List.append_inj' ht rfl).2)
        rw [hself]
        exact h

end CimdProxy.PatCli
