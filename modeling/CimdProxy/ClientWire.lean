import CimdProxy.AbortedSignIn
import CimdProxy.ClientResponse
import CimdProxy.Discovery
import CimdProxy.ResumedFlow

/-! # The command line and the proxy, together

`pat_cli.py` talks to the proxy of its own repository.  Here what one side sends is what the other side
gets: a request is routed by its path below the public URL, queries and forms are read field by field, an
answer arrives as a status and a body, and the browser goes from the sign-in page to `/authorize`, from
the upstream to `/callback`, and from there to the listener.

`Conversed` joins the calls of one command to a run of the proxy, in which any number of other requests
may be interleaved. -/

namespace CimdProxy

open Py Effects

/-! ### Queries and forms -/

/-- The last value of a parameter. -/
def lastValue (fields : List (Str × Str)) (name : Str) : Option Str :=
  (fields.reverse.find? (fun p => p.1 == name)).map Prod.snd

/-- A form field; an empty one counts as missing. -/
def formValue (fields : List (Str × Str)) (name : Str) : Option Str :=
  (lastValue fields name).filter (fun v => !v.isEmpty)

/-- The query parameters of `authorize`. -/
def Authorize.AuthorizeParams.ofQuery (fields : List (Str × Str)) : AuthorizeParams where
  responseType := lastValue fields "response_type"
  clientId := lastValue fields "client_id"
  redirectUri := lastValue fields "redirect_uri"
  codeChallenge := lastValue fields "code_challenge"
  codeChallengeMethod := lastValue fields "code_challenge_method"
  state := lastValue fields "state"
  resource := lastValue fields "resource"
  scope := lastValue fields "scope"

section Fields

variable [Platform]

/-- The form parameters of `token`. -/
def Token.TokenForm.ofFields (fields : List (Str × Str)) : TokenForm where
  grantType := formValue fields "grant_type"
  code := formValue fields "code"
  codeVerifier := formValue fields "code_verifier"
  redirectUri := formValue fields "redirect_uri"
  clientId := formValue fields "client_id"
  refreshToken := formValue fields "refresh_token"
  scope := formValue fields "scope"
  subjectToken := formValue fields "subject_token"
  subjectTokenType := formValue fields "subject_token_type"
  requestedTokenType := formValue fields "requested_token_type"
  resource := formValue fields "resource"

end Fields

end CimdProxy

namespace CimdProxy.PatCli

open Py Effects

theorem quotePlus_isEmpty (s : Str) : (quotePlus s).isEmpty = s.isEmpty := by
  cases s with
  | nil => rfl
  | cons c s =>
      have hne : quotePlus (c :: s) ≠ [] := by
        intro h
        have hs := unquotePlus_quotePlus (c :: s)
        rw [h] at hs
        cases hs
      simpa using hne

/-- Reading an encoded query drops the parameters without a value. -/
theorem parseQs_urlencode (ps : List (Str × Str)) :
    parseQs (urlencode ps) = ps.filter (fun p => !p.2.isEmpty) := by
  by_cases hps : ps = []
  · subst hps
    rfl
  · have hfield : ∀ p : Str × Str, (if (partition '=' (encodePair p)).2.2.isEmpty then none
        else parseField (encodePair p)) = Option.guard (fun p => !p.2.isEmpty) p := by
      intro p
      have hpart : partition '=' (encodePair p) = (quotePlus p.1, true, quotePlus p.2) :=
        partition_append (not_mem_quotePlus (by decide) _) _
      rw [hpart, parseField_encodePair]
      dsimp only
      rw [quotePlus_isEmpty]
      cases h : p.2.isEmpty
      · simp [Option.guard, h]
      · simp [Option.guard, h]
    rw [parseQs, splitOn_urlencode hps, List.filterMap_map, ← List.filterMap_eq_filter]
    exact congrArg (fun f => List.filterMap f ps) (funext hfield)

variable [Platform]

/-- The target the browser sends to the listener. -/
theorem urlsplit_target (ps : List (Str × Str)) :
    urlsplit (callbackPath ++ '?' :: urlencode ps) = .ok ⟨[], [], callbackPath, urlencode ps, []⟩ := by
  obtain ⟨hash, hsafe⟩ := @urlencode_clean ps
  have hcolon : ':' ∉ callbackPath ++ '?' :: urlencode ps := by
    intro h
    rcases List.mem_append.mp h with h | h
    · exact absurd h (by decide)
    · rcases List.mem_cons.mp h with h | h
      · exact absurd h (by decide)
      · rcases isQuoted_urlencode h with h | h | h <;> exact absurd h (by decide)
  have hclean : cleanUrl (callbackPath ++ '?' :: urlencode ps) = callbackPath ++ '?' :: urlencode ps := by
    refine cleanUrl_eq_self (fun c hc => ?_) (fun c t h => ?_)
    · rcases List.mem_append.mp hc with hc | hc
      · have hall : callbackPath.all (fun c => !isUnsafeUrlByte c) = true := by decide
        simpa using List.all_eq_true.mp hall c hc
      · rcases List.mem_cons.mp hc with rfl | hc
        · decide
        · exact hsafe c hc
    · rw [← (List.cons.inj h).1]
      decide
  have hscheme : splitScheme (callbackPath ++ '?' :: urlencode ps) =
      ([], callbackPath ++ '?' :: urlencode ps) := by
    unfold splitScheme
    rw [partition_of_not_mem hcolon]
    rfl
  unfold urlsplit
  rw [hclean, splitClean_eq_ok, hscheme]
  dsimp only
  have hnetloc : splitNetloc (callbackPath ++ '?' :: urlencode ps) =
      ([], callbackPath ++ '?' :: urlencode ps) := rfl
  rw [hnetloc]
  refine ⟨rfl, rfl, ?_, rfl, rfl⟩
  rw [splitTail_question (by decide) hash, if_neg (by decide)]
  rfl

/-- The listener takes the redirect whose query this is. -/
theorem doGet_target (ps : List (Str × Str)) :
    ∃ k, doGet (callbackPath ++ '?' :: urlencode ps) =
      .call (.accept (ps.filter fun p => !p.2.isEmpty)) k := by
  unfold doGet
  rw [urlsplit_target]
  dsimp only
  rw [if_neg (not_not_intro rfl), parseQs_urlencode]
  exact ⟨_, rfl⟩

end CimdProxy.PatCli

namespace CimdProxy

open Py Effects PatCli

variable [Platform]

/-! ### Requests and answers -/

/-- The endpoints of the application, as the command line knows them. -/
def App.endpoints (app : App) : Endpoints where
  issuer := app.config.publicUrl
  authorization := app.config.publicUrl ++ "/authorize"
  token := app.config.publicUrl ++ "/token"
  registration := app.config.publicUrl ++ "/register"

/-- The request that reaches the proxy when the command line sends its own. -/
inductive Delivers (app : App) (req : PatCli.Request) : Req → Prop
  | register (v : JsonValue) (hurl : req.url = app.config.publicUrl ++ "/register")
      (hmethod : req.method = .post) (hbody : req.payload = .json v.val) :
      Delivers app req (.register (.value v))
  | token (fields : List (Str × Str)) (hurl : req.url = app.config.publicUrl ++ "/token")
      (hmethod : req.method = .post) (hbody : req.payload = .form fields) :
      Delivers app req (.token (.ofFields fields))
  | createToken (v : JsonValue) (hurl : req.url = app.config.publicUrl ++ "/pat/tokens")
      (hmethod : req.method = .post) (hbody : req.payload = .json v.val) :
      Delivers app req (.createToken (lastValue req.headers "Authorization") (.value v))
  | listTokens (hurl : req.url = app.config.publicUrl ++ "/pat/tokens") (hmethod : req.method = .get) :
      Delivers app req (.listTokens (lastValue req.headers "Authorization"))
  | revokeToken (tokenId : Str) (hurl : req.url = app.config.publicUrl ++ "/pat/tokens/" ++ tokenId)
      (hsafe : ∀ c ∈ tokenId, isAlwaysSafe c = true) (hmethod : req.method = .delete) :
      Delivers app req (.revokeToken tokenId (lastValue req.headers "Authorization"))

/-- What arrives at the command line when a request has ended so: an answer with JSON content is read,
any other has no JSON in it, and an exception is a bare 500. -/
inductive Arrival (x : Except Exc Response) : Outcome → Prop
  | json {status : ℕ} {content : Json} {headers : List (Str × Str)} {v : JsonValue}
      (hx : x.bind Response.render = .ok (.json status content headers)) (hv : v.val = content) :
      Arrival x (.response status (.value v))
  | bare {r : Response} {msg : Str} (hx : x.bind Response.render = .ok r)
      (hr : ∀ status content headers, r ≠ .json status content headers) :
      Arrival x (.response r.status (.invalid msg))
  | failed {e : Exc} {msg : Str} (hx : x.bind Response.render = .error e) :
      Arrival x (.response 500 (.invalid msg))

/-! ### Points of a run -/

/-- The proxy was asked this after the first of the two points of its run, and had ended so by the
second. -/
def Handled (app : App) (before after : Schedule) (req : Req) (x : Except Exc Response) : Prop :=
  ∃ pid, (app.run before).procs.length ≤ pid ∧ Serves (app.run after) pid req ∧ Ended (app.run after) pid x

/-- The proxy has sealed the envelope as this string. -/
def SealedAs (app : App) (acts : Schedule) (e : Envelope) (tok : FernetToken) : Prop :=
  ∃ pid blob, e.blob = some blob ∧ (pid, did (.fernetEncrypt blob) tok) ∈ (app.run acts).hist

theorem SealedAs.mono {app : App} {before after : Schedule} {e : Envelope} {tok : FernetToken}
    (h : SealedAs app before e tok) (hp : before <+: after) : SealedAs app after e tok := by
  obtain ⟨pid, blob, hb, hm⟩ := h
  exact ⟨pid, blob, hb, ((proxy app).run_mono hp).1.subset hm⟩

/-- Fernet tokens begin with their version byte and the upper half of a time before 2106. -/
def FernetText (app : App) (acts : Schedule) : Prop :=
  ∀ (pid : ℕ) (blob : Bytes) (tok : FernetToken),
    (pid, did (.fernetEncrypt blob) tok) ∈ (app.run acts).hist → ("gAAAAA" : Str) <+: tok.text

theorem FernetText.mono {app : App} {before after : Schedule} (h : FernetText app after)
    (hp : before <+: after) : FernetText app before :=
  fun pid blob tok hm => h pid blob tok (((proxy app).run_mono hp).1.subset hm)

theorem SealedAs.text {app : App} {acts : Schedule} {e : Envelope} {tok : FernetToken}
    (h : SealedAs app acts e tok) (htext : FernetText app acts) :
    tok.text ≠ [] ∧ Authorize.isCimd tok.text = false := by
  obtain ⟨pid, blob, -, hm⟩ := h
  obtain ⟨rest, hrest⟩ := htext pid blob tok hm
  rw [← hrest]
  exact ⟨by simp, rfl⟩

/-! ### The conversation -/

/-- The outcome of a request of the command line: lost, refused before it was sent, the metadata
document, or what the proxy answered. -/
inductive HttpJoined (app : App) (before after : Schedule) (req : PatCli.Request) : Outcome → Prop
  | lost (name : Str) : HttpJoined app before after req (.httpError name)
  | refused (r : Refusal) : HttpJoined app before after req (.refused r)
  | metadata {v : JsonValue} (hurl : req.url = app.config.publicUrl ++ serverMetadata)
      (hmethod : req.method = .get) (hv : v.val = .obj app.metadata) :
      HttpJoined app before after req (.response 200 (.value v))
  | served {r : Req} {x : Except Exc Response} {outcome : Outcome} (hr : Delivers app req r)
      (hx : Handled app before after r x) (ho : Arrival x outcome) : HttpJoined app before after req outcome

/-- The upstream of `entry` was sent to `target`, and comes back with the state it found there. -/
def ReturnsState (entry : ResourceEntry) (target : Str) (back : Callback.CallbackParams) : Prop :=
  ∃ query, target = authorizeUrl entry.issuer ++ '?' :: query ∧ back.state = lastValue (parseQsl query) "state"

/-- The listener at `port` was sent to by this URL, and took these parameters from it. -/
def Heard (port : ℕ) (location : Str) (received : Params) : Prop :=
  ∃ target k, location = "http://127.0.0.1:" ++ Nat.toDigits 10 port ++ target ∧
    doGet target = .call (.accept received) k

/-- The browser opened the sign-in page, was sent on to the upstream, came back from it, and was sent to
the listener. -/
def BroughtBack (app : App) (entry : ResourceEntry) (before after : Schedule) (port : ℕ) (url : Str)
    (received : Params) : Prop :=
  ∃ (mid : Schedule) (query target location : Str) (back : Callback.CallbackParams),
    before <+: mid ∧ mid <+: after ∧
    url = app.config.publicUrl ++ "/authorize" ++ '?' :: query ∧
    Handled app before mid (.authorize (.ofQuery (parseQsl query))) (.ok (.redirect 302 target)) ∧
    ReturnsState entry target back ∧
    Handled app mid after (.callback back) (.ok (.redirect 302 location)) ∧ Heard port location received

/-- One call of the command line, made after the calls `t` when the proxy had run to `before`, and replied
to when it had run to `after`. -/
def Joined (app : App) (entry : ResourceEntry) (t : Trace cliOps) (before after : Schedule) :
    (o : PatCli.Op) → PatCli.Reply o → Prop
  | .http req, outcome => HttpJoined app before after req outcome
  | .wait _, received => ∀ params, received = some params → ∃ port url,
      PatCli.did .listen port ∈ t ∧ Shown t url ∧ BroughtBack app entry before after port url params
  | _, _ => True

/-- The calls of the command line so far, when the proxy has run to the given point. -/
def Conversed (app : App) (entry : ResourceEntry) : Trace cliOps → Schedule → Prop
  | [], _ => True
  | ⟨o, r⟩ :: t, after => ∃ before, before <+: after ∧ Conversed app entry t before ∧
      Joined app entry t before after o r

end CimdProxy
