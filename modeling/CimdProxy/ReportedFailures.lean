import CimdProxy.SecureUrls
import CimdProxy.TwinRuns

/-! # Which failures the command line reports

`_run` handles `CliError` and `httpx.HTTPError`; any other exception escapes.  `Readable` says, call by
call, which replies the code can read without raising one: a JSON object where it calls `.get`, strings
where it joins, an ASCII `state`, URLs that `urlsplit` splits.  `Script.Tidy C D p` is the exact
specification this leads to: `p` ends handled exactly when `C` holds and every reply was readable, and
`D` is what its value still owes.  It composes (`Tidy.bind`), and `reports_iff` is its reading for the
three commands. -/

namespace CimdProxy.PatCli

open Py Effects

/-- The exceptions `_run` turns into a message. -/
def CliExc.Handled : CliExc → Prop
  | .cliError _ => True
  | .httpError _ => True
  | _ => False

@[simp] theorem handled_httpError (name : Str) : (CliExc.httpError name).Handled ↔ True := Iff.rfl

@[simp] theorem handled_recursionError : CliExc.recursionError.Handled ↔ False := Iff.rfl

@[simp] theorem handled_raised (e : Exc) : (CliExc.raised e).Handled ↔ False := Iff.rfl

/-- What was written to stdout. -/
def stdoutText (t : Trace cliOps) : Str :=
  t.reverse.flatMap (fun c => match c with
    | ⟨.stdout text, _⟩ => text
    | _ => [])

/-- The command ended with exit code 0, or with exit code 1 after a message on stderr and nothing on
stdout. -/
def Reported (prog : Str) (t : Trace cliOps) (x : Except CliExc ℕ) : Prop :=
  x = .ok 0 ∨
  x = .ok 1 ∧ stdoutText t = [] ∧
    ∃ msg before, t = did (.stderr (prog ++ ": " ++ msg ++ ['\n'])) () :: before

variable [Platform]

/-! ### Replies the code can read -/

/-- The endpoints are read in turn, up to the first that is refused. -/
def EndpointsReadable (document : Dict) : List Str → Prop
  | [] => True
  | key :: keys =>
      match document.get? key with
      | none => True
      | some (.arr _) => True
      | some (.obj _) => True
      | some (.str u) => Splittable u ∧ (SecureUrl u → EndpointsReadable document keys)
      | some v => truthy v = false

/-- The metadata of the proxy with this issuer. -/
def MetadataReadable (issuer : Str) (document : Dict) : Prop :=
  rstripSlash (textOr (document.get? "issuer") []) = issuer →
    ∃ offered, offersS256 (document.get? "code_challenge_methods_supported") = .ok offered ∧
      (offered = true → EndpointsReadable document
        ["authorization_endpoint", "token_endpoint", "registration_endpoint"])

/-- What `str.join` takes. -/
def Joinable : Option Json → Prop
  | none => True
  | some (.arr xs) => ∀ x ∈ xs, ∃ s, x = .str s
  | some (.str _) => True
  | some (.obj _) => True
  | some _ => False

def CreatedReadable (created : Dict) : Prop :=
  (∃ token, created.get? "token" = some (.str token)) →
    Joinable (created.get? "scopes") ∧ Joinable (created.get? "resources")

def RowReadable (x : Json) : Prop := ∃ t : Dict, x = .obj t ∧ Joinable (t.get? "scopes")

/-- A listing: the elements of the list are objects; nothing is said of an empty list of any kind. -/
def ListingReadable (d : Dict) : Prop :=
  match d.get? "tokens" with
  | none => True
  | some (.arr xs) => ∀ x ∈ xs, RowReadable x
  | some (.str s) => s = []
  | some (.obj ms) => ms = []
  | some _ => False

/-- A metadata document: only an object is looked into. -/
def DocumentReadable (P : Dict → Prop) (status : ℕ) : Body → Prop
  | .tooDeep => status ≠ 200
  | .invalid _ => True
  | .value v => status = 200 → ∀ d, v.val = .obj d → P d

/-- The answer to a call: an object when the status is the expected one. -/
def AnswerReadable (expected : ℕ) (P : Dict → Prop) (status : ℕ) : Body → Prop
  | .tooDeep => False
  | .invalid _ => status ≠ expected
  | .value v => status = expected → ∃ d, v.val = .obj d ∧ P d

/-- The answer to one request, when the command is about the given resource. -/
def ResponseReadable (resource : Str) (req : Request) (status : ℕ) (body : Body) : Prop :=
  match req.step with
  | .discovery => DocumentReadable
      (fun d => ∀ server, authorizationServer resource [] d = .ok server → Splittable server) status body
  | .metadata => DocumentReadable
      (fun d => ∀ issuer, req.url = issuer ++ serverMetadata → MetadataReadable issuer d) status body
  | .registration => AnswerReadable 201 (fun _ => True) status body
  | .redemption => AnswerReadable 200 (fun _ => True) status body
  | .management =>
      match req.method with
      | .post => AnswerReadable 201 CreatedReadable status body
      | .get => AnswerReadable 200 ListingReadable status body
      | .delete => status = 204 ∨ body ≠ .tooDeep

/-- **The replies the code can read.** -/
def Readable (resource : Str) : Call cliOps → Prop
  | ⟨.wait timeout, received⟩ =>
      match (received : Option Params) with
      | none => timeout.tooLarge = false
      | some params => isAscii ((params.get? "state").getD []) = true
  | ⟨.http req, outcome⟩ =>
      match (outcome : Outcome) with
      | .response status body => ResponseReadable resource req status body
      | .httpError _ => True
      | .refused r => r.exc.Handled
  | _ => True

/-- How a program ended: handled, or with a value that owes `D`. -/
def Settled {α : Type} (D : α → Prop) : Except CliExc α → Prop
  | .ok a => D a
  | .error e => e.Handled

omit [Platform] in
@[simp] theorem settled_error {α : Type} {D : α → Prop} (e : CliExc) :
    Settled D (.error e) ↔ e.Handled := Iff.rfl

def Quiet (o : Op) : Prop := ∀ text, o ≠ .stdout text

/-- The program ends settled exactly when `C` holds and every reply was readable. -/
def Tidy {α : Type} (resource : Str) (C : Prop) (D : α → Prop) (p : Script α) : Prop :=
  ∀ t, p.Sat (fun _ o => Quiet o)
    (fun t' x => ∃ new, t' = new ++ t ∧ (Settled D x ↔ C ∧ ∀ c ∈ new, Readable resource c)) t

variable {α β : Type} {resource : Str} {C : Prop} {D : α → Prop}

theorem Tidy.congr {C' : Prop} {p : Script α} (h : Tidy resource C D p) (hc : C ↔ C') :
    Tidy resource C' D p := by
  intro t
  refine (h t).mono (fun _ _ h => h) ?_
  rintro t' x ⟨new, hnew, hx⟩
  exact ⟨new, hnew, by rw [hx, hc]⟩

/-- A sequence: what the first value owes is what the second part starts from. -/
theorem Tidy.bind {D' : β → Prop} {p : Script α} {f : α → Script β} (hp : Tidy resource C D p)
    (hf : ∀ a, Tidy resource (D a) D' (f a)) : Tidy resource C D' (p.bind f) := by
  intro t
  refine Prog.Sat.bind (hp t) ?_ ?_
  · rintro t' a - ⟨new, rfl, ha⟩
    refine (hf a _).mono (fun _ _ h => h) ?_
    rintro t'' x ⟨new', rfl, hx⟩
    refine ⟨new' ++ new, by simp, ?_⟩
    rw [hx, show D a ↔ _ from ha, List.forall_mem_append, and_assoc, and_comm (a := ∀ c ∈ new, _)]
  · rintro t' e - ⟨new, rfl, he⟩
    exact ⟨new, rfl, he⟩

section Pure

omit [Platform]

/-- The result is a value when `P` holds, and an exception that escapes when it does not. -/
def Succeeds (P : Prop) (x : Except CliExc β) : Prop :=
  (∃ b, x = .ok b ∧ P) ∨ ∃ e, x = .error e ∧ ¬ e.Handled ∧ ¬ P

theorem Succeeds.settled {P : Prop} {x : Except CliExc β} (h : Succeeds P x) {D : β → Prop} :
    Settled D x ↔ P ∧ ∀ b, x = .ok b → D b := by
  rcases h with ⟨b, rfl, hp⟩ | ⟨e, rfl, he, hp⟩
  · simp [Settled, hp]
  · simp [Settled, he, hp]

theorem Succeeds.bind {P Q : Prop} {x : Except CliExc β} {f : β → Except CliExc α} (hx : Succeeds P x)
    (hf : ∀ b, Succeeds Q (f b)) : Succeeds (P ∧ Q) (x >>= f) := by
  rcases hx with ⟨b, rfl, hp⟩ | ⟨e, rfl, he, hp⟩
  · rcases hf b with ⟨a, ha, hq⟩ | ⟨e, ha, he, hq⟩
    · exact .inl ⟨a, ha, hp, hq⟩
    · exact .inr ⟨e, ha, he, fun h => hq h.2⟩
  · exact .inr ⟨e, rfl, he, fun h => hp h.1⟩

theorem Succeeds.congr {P Q : Prop} {x : Except CliExc β} (h : Succeeds P x) (hpq : P ↔ Q) :
    Succeeds Q x := by
  rw [← hpq]
  exact h

end Pure

omit [Platform] in
theorem refusal_eq_ok (status : ℕ) {body : Body} (h : body ≠ .tooDeep) :
    ∃ why, refusal status body = .ok why := by
  cases body with
  | tooDeep => exact absurd rfl h
  | invalid msg => exact ⟨_, rfl⟩
  | value v =>
      obtain ⟨val, wf⟩ := v
      unfold refusal
      cases val with
      | obj d =>
          dsimp only
          split
          · exact ⟨_, rfl⟩
          · exact ⟨_, rfl⟩
      | _ => exact ⟨_, rfl⟩

def listing (ctx : Context) (args : CommonArgs) : Script Str := do
  let (signedIn, _) ← session ctx args
  let tokens ← listTokens signedIn
  Prog.lift (table tokens)

end CimdProxy.PatCli
