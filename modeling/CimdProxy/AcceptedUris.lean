import CimdProxy.Fetcher
import CimdProxy.UrlSpelling

/-! # What the URI policies let through

The policies test the parts of a split, not the text.  `acceptRegistered_iff_shape` says which texts
they accept: those of the intended shape, and the same with a `#` at the end that no split shows.
`acceptedShaped_iff` draws the line for both policies. -/

namespace CimdProxy

open Py

section Shapes

variable [Platform]

/-- What a registered redirect URI is meant to be. -/
def RedirectShape (u : Str) : Prop :=
  '#' ∉ u ∧ ∃ p, IsWritten u p ∧ '@' ∉ p.netloc ∧
    ((p.scheme = "https" ∧ p.hostinfo.1 ≠ []) ∨
      (p.scheme = "http" ∧ (p.hostname = some "127.0.0.1".toList ∨ p.hostname = some "::1".toList ∨
        p.hostname = some "localhost".toList)))

/-- What a client-id URL is meant to be. -/
def ClientIdShape (u : Str) : Prop :=
  '#' ∉ u ∧ ∃ p, IsWritten u p ∧ '@' ∉ p.netloc ∧ p.scheme = "https" ∧ p.hostinfo.1 ≠ [] ∧
    p.path ≠ [] ∧ p.path ≠ "/"

/-- Both policies accept the text only in its intended shape. -/
def AcceptedShaped (u : Str) : Prop :=
  (acceptRegistered u = .ok () → RedirectShape u) ∧
    ∀ parsed, parseClientIdUrl u = .ok parsed → ClientIdShape u

theorem hostname_isSome_iff {p : SplitResult} : p.hostname.isSome = true ↔ p.hostinfo.1 ≠ [] := by
  unfold SplitResult.hostname
  by_cases h : p.hostinfo.1 = []
  · simp [h]
  · simp [h]

omit [Platform] in
theorem isLoopbackHost_some (h : Str) : isLoopbackHost (some h) = true ↔
    h = "127.0.0.1" ∨ h = "::1" ∨ h = "localhost" := by
  change (loopbackLiterals.contains h || h == loopbackName) = true ↔ _
  rw [Bool.or_eq_true, List.contains_iff_mem, beq_iff_eq, loopbackLiterals, List.mem_cons,
    List.mem_singleton, or_assoc]
  exact Iff.rfl

omit [Platform] in
theorem isLoopbackHost_iff {h : Option Str} : isLoopbackHost h = true ↔
    h = some "127.0.0.1".toList ∨ h = some "::1".toList ∨ h = some "localhost".toList := by
  constructor
  · intro hl
    match h, hl with
    | some h, hl =>
        rcases (isLoopbackHost_some h).mp hl with rfl | rfl | rfl
        · exact .inl rfl
        · exact .inr (.inl rfl)
        · exact .inr (.inr rfl)
  · rintro (h | h | h) <;> rw [h] <;> rfl

/-- The policy looks at the parts of a split. -/
theorem redirectShape_iff {u : Str} : RedirectShape u ↔ '#' ∉ u ∧ acceptRegistered u = .ok () := by
  rw [acceptRegistered_eq_ok]
  constructor
  · rintro ⟨hash, p, hp, hat, hkind⟩
    have hkind' : p.scheme = "https" ∨ (p.scheme = "http" ∧ isLoopbackHost p.hostname = true) :=
      hkind.imp (fun h => h.1) (fun h => ⟨h.1, isLoopbackHost_iff.mpr h.2⟩)
    have hh : p.hostname.isSome = true := by
      rcases hkind with ⟨-, hh⟩ | ⟨-, hh⟩
      · exact hostname_isSome_iff.mpr hh
      · rcases hh with hh | hh | hh <;> rw [hh] <;> rfl
    obtain ⟨hs, hn⟩ := scheme_netloc_of_accepted hh hkind'
    have hsplit := (urlsplit_iff_written hs hn).mpr hp
    exact ⟨hash, p, hsplit, fragment_eq_nil hsplit hash, hat, hh, hkind'⟩
  · rintro ⟨hash, p, hp, -, hat, hh, hkind⟩
    obtain ⟨hs, hn⟩ := scheme_netloc_of_accepted hh hkind
    exact ⟨hash, p, (urlsplit_iff_written hs hn).mp hp, hat,
      hkind.imp (fun h => ⟨h, hostname_isSome_iff.mp hh⟩) (fun h => ⟨h.1, isLoopbackHost_iff.mp h.2⟩)⟩

theorem acceptRegistered_empty_fragment {v w : Str} (hv : '#' ∉ v) (hw : IsInvisible w) :
    acceptRegistered (v ++ '#' :: w) = .ok () ↔ acceptRegistered v = .ok () := by
  rw [acceptRegistered_eq_ok, acceptRegistered_eq_ok, urlsplit_empty_fragment hv hw]

/-- **The texts the policy accepts**: the intended shape, with an empty fragment or without. -/
theorem acceptRegistered_iff_shape {u : Str} : acceptRegistered u = .ok () ↔
    RedirectShape u ∨ ∃ v w, u = v ++ '#' :: w ∧ IsInvisible w ∧ RedirectShape v := by
  constructor
  · intro h
    by_cases hash : '#' ∈ u
    · obtain ⟨p, hp, hf, -⟩ := acceptRegistered_eq_ok.mp h
      obtain ⟨v, w, rfl, hv, hw⟩ := exists_empty_fragment hp hf hash
      have hacc := (acceptRegistered_empty_fragment hv hw).mp h
      exact .inr ⟨v, w, rfl, hw, redirectShape_iff.mpr ⟨hv, hacc⟩⟩
    · exact .inl (redirectShape_iff.mpr ⟨hash, h⟩)
  · rintro (h | ⟨v, w, rfl, hw, h⟩)
    · exact (redirectShape_iff.mp h).2
    · exact (acceptRegistered_empty_fragment h.1 hw).mpr (redirectShape_iff.mp h).2

/-- What the parser of client-id URLs accepts. -/
theorem parseClientIdUrl_eq_ok {u : Str} {parsed : ParsedClientIdUrl}
    (h : parseClientIdUrl u = .ok parsed) : ∃ p, urlsplit u = .ok p ∧ p.scheme = "https" ∧
      p.fragment = [] ∧ '@' ∉ p.netloc ∧ p.hostname = some parsed.hostname ∧ p.path ≠ [] ∧
      p.path ≠ "/" := by
  unfold parseClientIdUrl at h
  split_ifs at h with hu
  obtain ⟨p, hp, h⟩ := bind_eq_ok.mp h
  split at h
  · cases h
  · next hs =>
  split at h
  · cases h
  · next hf =>
  split at h
  · cases h
  · next ha =>
  split at h
  · cases h
  · next hostname hh =>
      split at h
      · cases h
      next hpath =>
      obtain ⟨port, -, h⟩ := bind_eq_ok.mp h
      simp only [Bool.or_eq_true, List.isEmpty_iff, decide_eq_true_eq, not_or] at hpath
      refine ⟨p, splitUrl_eq_ok.mp hp, not_ne_iff.mp hs, by simpa using hf, by simpa using ha, ?_,
        hpath⟩
      rw [hh, ← Except.ok.inj h]

/-- **Exactly an unseen `#` at the end of a well-shaped URI slips through.** -/
theorem acceptedShaped_iff (u : Str) :
    AcceptedShaped u ↔ ¬ ∃ v w, u = v ++ '#' :: w ∧ IsInvisible w ∧ RedirectShape v := by
  constructor
  · rintro ⟨hacc, -⟩ ⟨v, w, rfl, hw, hv⟩
    have h := acceptRegistered_iff_shape.mpr (.inr ⟨v, w, rfl, hw, hv⟩)
    exact (hacc h).1 (by simp)
  · intro hnot
    refine ⟨fun h => (acceptRegistered_iff_shape.mp h).resolve_right hnot, fun parsed h => ?_⟩
    obtain ⟨p, hp, hs, hf, hat, hh, hpath⟩ := parseClientIdUrl_eq_ok h
    have hsome : p.hostname.isSome = true := by rw [hh]; rfl
    -- a client-id URL passes the other policy too, so its shape is already known
    have hacc : acceptRegistered u = .ok () :=
      acceptRegistered_eq_ok.mpr ⟨p, hp, hf, hat, hsome, .inl hs⟩
    have hash := ((acceptRegistered_iff_shape.mp hacc).resolve_right hnot).1
    obtain ⟨hs', hn⟩ := scheme_netloc_of_accepted hsome (.inl hs)
    exact ⟨hash, p, (urlsplit_iff_written hs' hn).mp hp, hat, hs, hostname_isSome_iff.mp hsome, hpath⟩

end Shapes

/-- Both policies accept a URI that ends in `#`. -/
theorem empty_fragment_accepted :
    letI := Platform.plain
    acceptRegistered "https://app.example/cb#" = .ok () ∧
      (parseClientIdUrl "https://app.example/cb#").isOk = true ∧
      ¬ AcceptedShaped "https://app.example/cb#" := by
  let := Platform.plain
  have hacc : acceptRegistered "https://app.example/cb#" = .ok () := by decide +kernel
  refine ⟨hacc, by decide +kernel, fun h => ?_⟩
  exact (h.1 hacc).1 (by decide)

end CimdProxy
