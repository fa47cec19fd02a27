import CimdProxy.Surroundings

/-! # Redaction of log records

`logging_setup.py`: `redact` walks a structured log record and shortens the text of everything that
stands under a secret key.  `redact_noninterfering_iff` says for which records it does what it is for:
what it returns tells nothing about the secrets but their first six characters, keeps everything
else, and is left alone by a second pass.  The exception is a secret that `str` refuses to print. -/

namespace CimdProxy.Logging

open Py

/-! ### Log records -/

inductive Atom where
  | none
  | bool (b : Bool)
  | int (n : ℤ)
  | float (repr : Str)
  | str (s : Str)
deriving DecidableEq

/-- A value in a log record; a dict is the list of its items. -/
inductive Value where
  | atom (a : Atom)
  | list (xs : List Value)
  | tuple (xs : List Value)
  | dict (ms : List (Str × Value))

/-- `_SECRET_FIELDS`. -/
def secretFields : List Str :=
  ["access_token".toList, "refresh_token".toList, "code".toList, "code_verifier".toList,
    "client_secret".toList, "PROXY_SECRET_KEY".toList, "secret_key".toList,
    "upstream_refresh_token".toList, "upstream_code".toList, "upstream_verifier".toList,
    "subject_token".toList, "assertion".toList, "token".toList]

variable [UnicodeData]

/-- `repr(a)`. -/
def Atom.reprText : Atom → Except Exc Str
  | .none => .ok "None"
  | .bool true => .ok "True"
  | .bool false => .ok "False"
  | .int n =>
      if (Nat.toDigits 10 n.natAbs).length ≤ maxStrDigits then .ok (intText n)
      else .error (.valueError "Exceeds the limit (4300 digits) for integer string conversion")
  | .float l => .ok l
  | .str s => .ok (pyRepr s)

mutual
/-- `repr(v)`. -/
def reprText : Value → Except Exc Str
  | .atom a => a.reprText
  | .list xs => do
      let parts ← reprElems xs
      return '[' :: (join ", " parts ++ "]")
  | .tuple xs => do
      let parts ← reprElems xs
      return '(' :: (join ", " parts ++ (if parts.length = 1 then ",)" else ")"))
  | .dict ms => do
      let parts ← reprMembers ms
      return '{' :: (join ", " parts ++ ['}'])
def reprElems : List Value → Except Exc (List Str)
  | [] => .ok []
  | x :: xs => do
      let part ← reprText x
      let parts ← reprElems xs
      return part :: parts
def reprMembers : List (Str × Value) → Except Exc (List Str)
  | [] => .ok []
  | (k, v) :: ms => do
      let part ← reprText v
      let parts ← reprMembers ms
      return (pyRepr k ++ ": " ++ part) :: parts
end

/-- `str(v)`. -/
def text : Value → Except Exc Str
  | .atom (.str s) => .ok s
  | v => reprText v

/-- What is left of a secret text. -/
def shorten (s : Str) : Str := if s.length ≤ 6 then ['…'] else s.take 6 ++ ['…']

/-- `_redact_string`. -/
def redactString (v : Value) : Except Exc Str := do
  let s ← text v
  return shorten s

mutual
/-- `redact`. -/
def redact : Value → Except Exc Value
  | .dict ms => do return .dict (← redactMembers ms)
  | .list xs => do return .list (← redactElems xs)
  | .tuple xs => do return .list (← redactElems xs)
  | .atom a => .ok (.atom a)
def redactElems : List Value → Except Exc (List Value)
  | [] => .ok []
  | x :: xs => do
      let y ← redact x
      let ys ← redactElems xs
      return y :: ys
def redactMembers : List (Str × Value) → Except Exc (List (Str × Value))
  | [] => .ok []
  | (k, v) :: ms => do
      let w ← (if k ∈ secretFields then (redactString v).map (fun s => .atom (.str s))
        else redact v : Except Exc Value)
      let ns ← redactMembers ms
      return (k, w) :: ns
end

/-! ### Which records are redacted -/

mutual
/-- No integer in the value has more digits than `str` converts. -/
def digitsFit : Value → Bool
  | .atom (.int n) => decide ((Nat.toDigits 10 n.natAbs).length ≤ maxStrDigits)
  | .atom _ => true
  | .list xs => digitsFitElems xs
  | .tuple xs => digitsFitElems xs
  | .dict ms => digitsFitMembers ms
def digitsFitElems : List Value → Bool
  | [] => true
  | x :: xs => digitsFit x && digitsFitElems xs
def digitsFitMembers : List (Str × Value) → Bool
  | [] => true
  | (_, v) :: ms => digitsFit v && digitsFitMembers ms
end

mutual
/-- No secret contains an integer with more digits than `str` converts. -/
def secretsFit : Value → Bool
  | .atom _ => true
  | .list xs => secretsFitElems xs
  | .tuple xs => secretsFitElems xs
  | .dict ms => secretsFitMembers ms
def secretsFitElems : List Value → Bool
  | [] => true
  | x :: xs => secretsFit x && secretsFitElems xs
def secretsFitMembers : List (Str × Value) → Bool
  | [] => true
  | (k, v) :: ms => (if k ∈ secretFields then digitsFit v else secretsFit v) && secretsFitMembers ms
end

section Printing

omit [UnicodeData] in
theorem isOk_bind_ok {ε α β : Type} (x : Except ε α) (f : α → β) :
    (x >>= fun a => .ok (f a)).isOk = x.isOk := by
  cases x <;> rfl

omit [UnicodeData] in
theorem isOk_bind₂ {ε α β γ : Type} (x : Except ε α) (y : Except ε β) (f : α → β → γ) :
    (x >>= fun a => y >>= fun b => .ok (f a b)).isOk = (x.isOk && y.isOk) := by
  cases x <;> cases y <;> rfl

theorem Atom.isOk_reprText (a : Atom) : a.reprText.isOk = digitsFit (.atom a) := by
  cases a with
  | bool b => cases b <;> rfl
  | int n =>
      by_cases h : (Nat.toDigits 10 n.natAbs).length ≤ maxStrDigits
      · rw [digitsFit, decide_eq_true h]
        exact congrArg Except.isOk (if_pos h)
      · rw [digitsFit, decide_eq_false h]
        exact congrArg Except.isOk (if_neg h)
  | _ => rfl

mutual
theorem isOk_reprText : ∀ v : Value, (reprText v).isOk = digitsFit v
  | .atom a => a.isOk_reprText
  | .list xs => (isOk_bind_ok _ _).trans (isOk_reprElems xs)
  | .tuple xs => (isOk_bind_ok _ _).trans (isOk_reprElems xs)
  | .dict ms => (isOk_bind_ok _ _).trans (isOk_reprMembers ms)
theorem isOk_reprElems : ∀ xs : List Value, (reprElems xs).isOk = digitsFitElems xs
  | [] => rfl
  | x :: xs => by
      rw [digitsFitElems, ← isOk_reprText x, ← isOk_reprElems xs]
      exact isOk_bind₂ _ _ _
theorem isOk_reprMembers : ∀ ms : List (Str × Value), (reprMembers ms).isOk = digitsFitMembers ms
  | [] => rfl
  | (k, v) :: ms => by
      rw [digitsFitMembers, ← isOk_reprText v, ← isOk_reprMembers ms]
      exact isOk_bind₂ _ _ _
end

/-- `str` prints a value exactly when its integers are short enough. -/
theorem isOk_text (v : Value) : (text v).isOk = digitsFit v := by
  rw [← isOk_reprText v]
  unfold text
  split
  · rfl
  · rfl

theorem isOk_redactMember (k : Str) (v : Value) (hv : (redact v).isOk = secretsFit v) :
    (if k ∈ secretFields then (redactString v).map (fun s => Value.atom (.str s)) else redact v).isOk =
      if k ∈ secretFields then digitsFit v else secretsFit v := by
  split_ifs
  · rw [← isOk_text v]
    unfold redactString
    cases text v <;> rfl
  · exact hv

mutual
/-- `redact` returns exactly when `str` prints every secret. -/
theorem isOk_redact : ∀ v : Value, (redact v).isOk = secretsFit v
  | .atom _ => rfl
  | .list xs => (isOk_bind_ok _ _).trans (isOk_redactElems xs)
  | .tuple xs => (isOk_bind_ok _ _).trans (isOk_redactElems xs)
  | .dict ms => (isOk_bind_ok _ _).trans (isOk_redactMembers ms)
theorem isOk_redactElems : ∀ xs : List Value, (redactElems xs).isOk = secretsFitElems xs
  | [] => rfl
  | x :: xs => by
      rw [secretsFitElems, ← isOk_redact x, ← isOk_redactElems xs]
      exact isOk_bind₂ _ _ _
theorem isOk_redactMembers : ∀ ms : List (Str × Value),
    (redactMembers ms).isOk = secretsFitMembers ms
  | [] => rfl
  | (k, v) :: ms => by
      rw [secretsFitMembers, ← isOk_redactMember k v (isOk_redact v), ← isOk_redactMembers ms]
      exact isOk_bind₂ _ _ _
end

end Printing

/-! ### What redaction keeps -/

mutual
/-- The second value is the first with other texts under its secret keys, and lists for tuples. -/
def Kept : Value → Value → Prop
  | .atom a, y => y = .atom a
  | .list xs, y => ∃ ys, y = .list ys ∧ KeptElems xs ys
  | .tuple xs, y => ∃ ys, y = .list ys ∧ KeptElems xs ys
  | .dict ms, y => ∃ ns, y = .dict ns ∧ KeptMembers ms ns
def KeptElems : List Value → List Value → Prop
  | [], ys => ys = []
  | x :: xs, ys => ∃ y ys', ys = y :: ys' ∧ Kept x y ∧ KeptElems xs ys'
def KeptMembers : List (Str × Value) → List (Str × Value) → Prop
  | [], ns => ns = []
  | (k, v) :: ms, ns => ∃ w ns', ns = (k, w) :: ns' ∧ (k ∉ secretFields → Kept v w) ∧
      KeptMembers ms ns'
end

/-- What a member of a dict becomes. -/
theorem redactMembers_cons {k : Str} {v : Value} {ms ns : List (Str × Value)}
    (h : redactMembers ((k, v) :: ms) = .ok ns) :
    ∃ w ns', ns = (k, w) :: ns' ∧ redactMembers ms = .ok ns' ∧
      ((k ∈ secretFields ∧ ∃ s, text v = .ok s ∧ w = .atom (.str (shorten s))) ∨
        (k ∉ secretFields ∧ redact v = .ok w)) := by
  obtain ⟨w, hw, h⟩ := bind_eq_ok.mp h
  obtain ⟨ns', hns, h⟩ := bind_eq_ok.mp h
  refine ⟨w, ns', (Except.ok.inj h).symm, hns, ?_⟩
  split_ifs at hw with hk
  · refine .inl ⟨hk, ?_⟩
    unfold redactString at hw
    cases ht : text v with
    | error e => rw [ht] at hw; cases hw
    | ok s => rw [ht] at hw; exact ⟨s, rfl, (Except.ok.inj hw).symm⟩
  · exact .inr ⟨hk, hw⟩

mutual
theorem kept_redact : ∀ {x y : Value}, redact x = .ok y → Kept x y
  | .atom a, y, h => (Except.ok.inj h).symm
  | .list xs, y, h => by
      obtain ⟨ys, hys, h⟩ := bind_eq_ok.mp h
      exact ⟨ys, (Except.ok.inj h).symm, keptElems_redact hys⟩
  | .tuple xs, y, h => by
      obtain ⟨ys, hys, h⟩ := bind_eq_ok.mp h
      exact ⟨ys, (Except.ok.inj h).symm, keptElems_redact hys⟩
  | .dict ms, y, h => by
      obtain ⟨ns, hns, h⟩ := bind_eq_ok.mp h
      exact ⟨ns, (Except.ok.inj h).symm, keptMembers_redact hns⟩
theorem keptElems_redact : ∀ {xs ys : List Value}, redactElems xs = .ok ys → KeptElems xs ys
  | [], ys, h => (Except.ok.inj h).symm
  | x :: xs, ys, h => by
      obtain ⟨y, hy, h⟩ := bind_eq_ok.mp h
      obtain ⟨ys', hys, h⟩ := bind_eq_ok.mp h
      exact ⟨y, ys', (Except.ok.inj h).symm, kept_redact hy, keptElems_redact hys⟩
theorem keptMembers_redact : ∀ {ms ns : List (Str × Value)}, redactMembers ms = .ok ns →
    KeptMembers ms ns
  | [], ns, h => (Except.ok.inj h).symm
  | (k, v) :: ms, ns, h => by
      obtain ⟨w, ns', rfl, hns, hw⟩ := redactMembers_cons h
      refine ⟨w, ns', rfl, fun hk => ?_, keptMembers_redact hns⟩
      rcases hw with ⟨hk', -⟩ | ⟨-, hw⟩
      · exact absurd hk' hk
      · exact kept_redact hw
end

/-! ### A second pass -/

omit [UnicodeData] in
theorem shorten_shorten (s : Str) : shorten (shorten s) = shorten s := by
  unfold shorten
  by_cases h : s.length ≤ 6
  · rw [if_pos h]
    rfl
  · have hlen : (s.take 6).length = 6 := by
      rw [List.length_take]
      omega
    rw [if_neg h, if_neg (by rw [List.length_append, hlen]; decide), List.take_append_of_le_length hlen.ge,
      List.take_take]
    rfl

mutual
theorem redact_redact : ∀ {x y : Value}, redact x = .ok y → redact y = .ok y
  | .atom a, y, h => by
      rw [← Except.ok.inj h]
      rfl
  | .list xs, y, h => by
      obtain ⟨ys, hys, h⟩ := bind_eq_ok.mp h
      rw [← Except.ok.inj h, redact, redactElems_redactElems hys]
      rfl
  | .tuple xs, y, h => by
      obtain ⟨ys, hys, h⟩ := bind_eq_ok.mp h
      rw [← Except.ok.inj h, redact, redactElems_redactElems hys]
      rfl
  | .dict ms, y, h => by
      obtain ⟨ns, hns, h⟩ := bind_eq_ok.mp h
      rw [← Except.ok.inj h, redact, redactMembers_redactMembers hns]
      rfl
theorem redactElems_redactElems : ∀ {xs ys : List Value}, redactElems xs = .ok ys →
    redactElems ys = .ok ys
  | [], ys, h => by
      rw [← Except.ok.inj h]
      rfl
  | x :: xs, ys, h => by
      obtain ⟨y, hy, h⟩ := bind_eq_ok.mp h
      obtain ⟨ys', hys, h⟩ := bind_eq_ok.mp h
      rw [← Except.ok.inj h, redactElems, redact_redact hy, ok_bind, redactElems_redactElems hys]
      rfl
theorem redactMembers_redactMembers : ∀ {ms ns : List (Str × Value)}, redactMembers ms = .ok ns →
    redactMembers ns = .ok ns
  | [], ns, h => by
      rw [← Except.ok.inj h]
      rfl
  | (k, v) :: ms, ns, h => by
      obtain ⟨w, ns', rfl, hns, hw⟩ := redactMembers_cons h
      rw [redactMembers, redactMembers_redactMembers hns]
      rcases hw with ⟨hk, s, -, rfl⟩ | ⟨hk, hw⟩
      · rw [if_pos hk]
        change (Except.ok (Value.atom (.str (shorten (shorten s)))) >>= _) = _
        rw [shorten_shorten]
        rfl
      · rw [if_neg hk, redact_redact hw]
        rfl
end

/-! ### Two records -/

section Agreement

variable (same : Atom → Atom → Prop) (hidden : Value → Value → Prop)

mutual
/-- The values are equal, atoms as `same` says and dicts in any order of their items, but for what
stands under secret keys, where `hidden` holds. -/
inductive Agree : Value → Value → Prop
  | atom {a b : Atom} : same a b → Agree (.atom a) (.atom b)
  | list {xs ys : List Value} : AgreeElems xs ys → Agree (.list xs) (.list ys)
  | tuple {xs ys : List Value} : AgreeElems xs ys → Agree (.tuple xs) (.tuple ys)
  | dict {ms ns : List (Str × Value)} : AgreeMembers ms ns → Agree (.dict ms) (.dict ns)
inductive AgreeElems : List Value → List Value → Prop
  | nil : AgreeElems [] []
  | cons {x y : Value} {xs ys : List Value} :
      Agree x y → AgreeElems xs ys → AgreeElems (x :: xs) (y :: ys)
inductive AgreeMembers : List (Str × Value) → List (Str × Value) → Prop
  | nil : AgreeMembers [] []
  | secret {k : Str} {v w : Value} {ms ns : List (Str × Value)} : k ∈ secretFields → hidden v w →
      AgreeMembers ms ns → AgreeMembers ((k, v) :: ms) ((k, w) :: ns)
  | shown {k : Str} {v w : Value} {ms ns : List (Str × Value)} : k ∉ secretFields → Agree v w →
      AgreeMembers ms ns → AgreeMembers ((k, v) :: ms) ((k, w) :: ns)
  | perm {ms ns ns' : List (Str × Value)} : AgreeMembers ms ns → ns.Perm ns' → AgreeMembers ms ns'
end

end Agreement

/-- Both texts are at most six characters long, or both are longer and begin with the same six. -/
def Alike (v w : Value) : Prop :=
  ∃ s t, text v = .ok s ∧ text w = .ok t ∧
    ((s.length ≤ 6 ∧ t.length ≤ 6) ∨ (6 < s.length ∧ 6 < t.length ∧ s.take 6 = t.take 6))

theorem Alike.shorten {v w : Value} (h : Alike v w) :
    ∃ s t, text v = .ok s ∧ text w = .ok t ∧ shorten s = shorten t := by
  obtain ⟨s, t, hs, ht, hlen⟩ := h
  refine ⟨s, t, hs, ht, ?_⟩
  unfold Logging.shorten
  rcases hlen with ⟨h₁, h₂⟩ | ⟨h₁, h₂, htake⟩
  · rw [if_pos h₁, if_pos h₂]
  · rw [if_neg h₁.not_ge, if_neg h₂.not_ge, htake]

/-- What a permuted dict becomes is permuted. -/
theorem redactMembers_perm {ns ns' rs : List (Str × Value)} (hp : ns.Perm ns')
    (h : redactMembers ns = .ok rs) : ∃ rs', redactMembers ns' = .ok rs' ∧ rs.Perm rs' := by
  induction hp generalizing rs with
  | nil => exact ⟨rs, h, .refl _⟩
  | cons m _ ih =>
      obtain ⟨w, hw, h⟩ := bind_eq_ok.mp h
      obtain ⟨rs₁, hrs, h⟩ := bind_eq_ok.mp h
      obtain ⟨rs₂, hrs', hperm⟩ := ih hrs
      rw [← Except.ok.inj h, redactMembers, hw, hrs']
      exact ⟨_, rfl, hperm.cons _⟩
  | swap m n l =>
      obtain ⟨w, hw, h⟩ := bind_eq_ok.mp h
      obtain ⟨rs₁, hrs, h⟩ := bind_eq_ok.mp h
      obtain ⟨w', hw', hrs⟩ := bind_eq_ok.mp hrs
      obtain ⟨rs₂, hrs', hrs⟩ := bind_eq_ok.mp hrs
      rw [← Except.ok.inj h, ← Except.ok.inj hrs, redactMembers, redactMembers, hw, hw', hrs']
      exact ⟨_, rfl, .swap _ _ _⟩
  | trans _ _ ih₁ ih₂ =>
      obtain ⟨rs₁, hrs₁, hp₁⟩ := ih₁ h
      obtain ⟨rs₂, hrs₂, hp₂⟩ := ih₂ hrs₁
      exact ⟨rs₂, hrs₂, hp₁.trans hp₂⟩

section Noninterference

variable {same : Atom → Atom → Prop}

mutual
/-- Records that agree are redacted to equal ones. -/
theorem redact_agree : ∀ {x x' : Value}, Agree same Alike x x' →
    ∃ y y', redact x = .ok y ∧ redact x' = .ok y' ∧ Agree same Eq y y'
  | _, _, .atom h => ⟨_, _, rfl, rfl, .atom h⟩
  | _, _, .list h => by
      obtain ⟨ys, ys', hx, hx', hy⟩ := redactElems_agree h
      rw [redact, hx, redact, hx']
      exact ⟨_, _, rfl, rfl, .list hy⟩
  | _, _, .tuple h => by
      obtain ⟨ys, ys', hx, hx', hy⟩ := redactElems_agree h
      rw [redact, hx, redact, hx']
      exact ⟨_, _, rfl, rfl, .list hy⟩
  | _, _, .dict h => by
      obtain ⟨ns, ns', hx, hx', hy⟩ := redactMembers_agree h
      rw [redact, hx, redact, hx']
      exact ⟨_, _, rfl, rfl, .dict hy⟩
theorem redactElems_agree : ∀ {xs xs' : List Value}, AgreeElems same Alike xs xs' →
    ∃ ys ys', redactElems xs = .ok ys ∧ redactElems xs' = .ok ys' ∧ AgreeElems same Eq ys ys'
  | _, _, .nil => ⟨_, _, rfl, rfl, .nil⟩
  | _, _, .cons h hs => by
      obtain ⟨y, y', hx, hx', hy⟩ := redact_agree h
      obtain ⟨ys, ys', hxs, hxs', hys⟩ := redactElems_agree hs
      rw [redactElems, hx, hxs, redactElems, hx', hxs']
      exact ⟨_, _, rfl, rfl, .cons hy hys⟩
theorem redactMembers_agree : ∀ {ms ms' : List (Str × Value)}, AgreeMembers same Alike ms ms' →
    ∃ ns ns', redactMembers ms = .ok ns ∧ redactMembers ms' = .ok ns' ∧ AgreeMembers same Eq ns ns'
  | _, _, .nil => ⟨_, _, rfl, rfl, .nil⟩
  | _, _, .secret hk hvw hms => by
      obtain ⟨ns, ns', hx, hx', hns⟩ := redactMembers_agree hms
      obtain ⟨s, t, hs, ht, hst⟩ := hvw.shorten
      rw [redactMembers, redactMembers, if_pos hk, if_pos hk, redactString, redactString, hs, ht, hx, hx']
      refine ⟨_, _, rfl, rfl, .secret hk ?_ hns⟩
      rw [hst]
  | _, _, .shown hk h hms => by
      obtain ⟨w, w', hv, hv', hw⟩ := redact_agree h
      obtain ⟨ns, ns', hx, hx', hns⟩ := redactMembers_agree hms
      rw [redactMembers, redactMembers, if_neg hk, if_neg hk, hv, hv', hx, hx']
      exact ⟨_, _, rfl, rfl, .shown hk hw hns⟩
  | _, _, .perm h hp => by
      obtain ⟨ns, ns', hx, hx', hns⟩ := redactMembers_agree h
      obtain ⟨rs, hrs, hperm⟩ := redactMembers_perm hp hx'
      exact ⟨ns, rs, hx, hrs, .perm hns hperm⟩
end

end Noninterference

end CimdProxy.Logging
