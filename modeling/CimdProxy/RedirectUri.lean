import CimdProxy.Config

/-! # The redirect-URI policy

`redirect_uri.py`: `acceptRegistered` decides what may be registered, `uriMatchesRegistration` is the
comparison at `/authorize`.  `acceptRegistered_of_matches` says that the policy is closed under the
comparison, although it accepts URIs that were never registered. -/

namespace CimdProxy

open Py

variable [Platform]

def loopbackLiterals : List Str := ["127.0.0.1".toList, "::1".toList]

def loopbackName : Str := "localhost"

/-- `_is_loopback_host`. -/
def isLoopbackHost (hostname : Option Str) : Bool :=
  match hostname with
  | none => false
  | some h => loopbackLiterals.contains h || h == loopbackName

/-- `_is_loopback_http`. -/
def isLoopbackHttp (split : SplitResult) : Bool :=
  decide (split.scheme = "http") && isLoopbackHost split.hostname

/-- `accept_registered`. -/
def acceptRegistered (uri : Str) : Except Exc Unit := do
  let split ← splitUrl uri
  let named := "redirect_uri " ++ pyRepr uri
  if !split.fragment.isEmpty then
    .error (.redirectUriRefused (named ++ " must not carry a fragment"))
  else if split.netloc.contains '@' then
    .error (.redirectUriRefused (named ++ " must not carry a userinfo component"))
  else if split.hostname.isNone then .error (.redirectUriRefused (named ++ " has no host"))
  else if split.scheme = "https" then return ()
  else if split.scheme = "http" then
    if isLoopbackHost split.hostname then return ()
    else
      .error (.redirectUriRefused (named ++ " must use https " ++
        "(http is permitted only for the loopback hosts 127.0.0.1, [::1] and localhost)"))
  else .error (.redirectUriRefused (named ++ " must use https or a loopback http scheme"))

/-- `uri_matches_registration`. -/
def uriMatchesRegistration (requested registered : Str) : Except Exc Bool :=
  if requested = registered then .ok true
  else do
    let r ← splitUrl requested
    let s ← splitUrl registered
    if !isLoopbackHttp r || !isLoopbackHttp s then return false
    else if !r.fragment.isEmpty || !s.fragment.isEmpty then return false
    else if r.netloc.contains '@' || s.netloc.contains '@' then return false
    else return r.hostname == s.hostname && r.path == s.path && r.query == s.query

/-! ### The policy and the comparison -/

theorem splitUrl_eq_ok {uri : Str} {p : SplitResult} :
    splitUrl uri = .ok p ↔ urlsplit uri = .ok p := by
  unfold splitUrl
  cases urlsplit uri with
  | error e => simp [Except.mapError]
  | ok q => simp [Except.mapError]

/-- What the policy accepts. -/
theorem acceptRegistered_eq_ok {uri : Str} :
    acceptRegistered uri = .ok () ↔ ∃ p, urlsplit uri = .ok p ∧ p.fragment = [] ∧ '@' ∉ p.netloc ∧
      p.hostname.isSome = true ∧
      (p.scheme = "https" ∨ (p.scheme = "http" ∧ isLoopbackHost p.hostname = true)) := by
  unfold acceptRegistered
  rw [bind_eq_ok]
  refine exists_congr fun p => ?_
  rw [splitUrl_eq_ok]
  refine and_congr_right fun _ => ?_
  by_cases hf : p.fragment = []
  · by_cases ha : '@' ∈ p.netloc
    · simp only [hf, ha, List.isEmpty_nil, Bool.not_true, Bool.false_eq_true, if_false,
        List.contains_eq_mem, decide_true, if_true, reduceCtorEq, not_true_eq_false, false_and,
        and_false]
    · simp only [hf, ha, List.isEmpty_nil, Bool.not_true, Bool.false_eq_true, if_false,
        List.contains_eq_mem, decide_false, not_false_eq_true, true_and]
      cases hh : p.hostname with
      | none => simp only [Option.isNone_none, if_true, reduceCtorEq, Option.isSome_none,
          Bool.false_eq_true, false_and]
      | some h =>
          simp only [Option.isNone_some, Bool.false_eq_true, if_false, Option.isSome_some, true_and]
          by_cases hs : p.scheme = "https"
          · simp only [hs, if_true, pure_eq_ok, true_or]
          · by_cases hp : p.scheme = "http"
            · rw [if_neg hs, if_pos hp]
              by_cases hl : isLoopbackHost (some h) = true
              · simp only [hl, hp, if_true, pure_eq_ok, and_self, or_true]
              · simp only [hl, if_false, reduceCtorEq, hs, and_false, or_self, Bool.false_eq_true]
            · rw [if_neg hs, if_neg hp]
              simp only [hs, hp, reduceCtorEq, false_and, or_self]
  · have hf' : p.fragment.isEmpty = false := by simpa using hf
    simp only [hf', hf, Bool.not_false, if_true, reduceCtorEq, false_and]

/-- **The policy is closed under the comparison.** -/
theorem acceptRegistered_of_matches {requested registered : Str}
    (hreg : acceptRegistered registered = .ok ())
    (hm : uriMatchesRegistration requested registered = .ok true) :
    acceptRegistered requested = .ok () := by
  unfold uriMatchesRegistration at hm
  split_ifs at hm with heq
  · rw [heq]
    exact hreg
  · obtain ⟨r, hr, hm⟩ := bind_eq_ok.mp hm
    obtain ⟨s, hs, hm⟩ := bind_eq_ok.mp hm
    split_ifs at hm with h1 h2 h3
    · cases hm
    · cases hm
    · cases hm
    · simp only [Bool.or_eq_true, Bool.not_eq_true', not_or, Bool.not_eq_false] at h1 h2 h3
      simp only [isLoopbackHttp, Bool.and_eq_true, decide_eq_true_eq] at h1
      rw [acceptRegistered_eq_ok]
      refine ⟨r, splitUrl_eq_ok.mp hr, by simpa using h2.1, by simpa using h3.1, ?_,
        .inr ⟨h1.1.1, h1.1.2⟩⟩
      cases hh : r.hostname with
      | none => rw [hh] at h1; simp [isLoopbackHost] at h1
      | some h => rfl

/-- An accepted URI has a scheme and an authority. -/
theorem scheme_netloc_of_accepted {p : SplitResult} (hh : p.hostname.isSome = true)
    (hs : p.scheme = "https" ∨ (p.scheme = "http" ∧ isLoopbackHost p.hostname = true)) :
    p.scheme ≠ [] ∧ p.netloc ≠ [] := by
  constructor
  · rcases hs with hs | ⟨hs, -⟩ <;> rw [hs] <;> decide
  · intro hn
    have : p.hostinfo.1 = [] := by
      unfold SplitResult.hostinfo
      rw [hn]
      rfl
    simp [SplitResult.hostname, this] at hh

end CimdProxy
