import CimdProxy.Conduct
import CimdProxy.Pkce

/-! # `GET /callback`

`callback.py`: the upstream returns here with the sealed state.  The client gets a code that seals
what `/token` needs, or the upstream's error unchanged.  `sat_callback` is its specification. -/

namespace CimdProxy.Callback

open Py Effects

variable [Platform]

def codeTtlSeconds : ℤ := 60

structure CallbackParams where
  code : Option Str
  state : Option Str
  error : Option Str
  errorDescription : Option Str

/-- A parameter that is left out when it is empty. -/
def ifSet (name value : Str) : List (Str × Str) := if value.isEmpty then [] else [(name, value)]

/-- The parameters handed to the client with an upstream error. -/
def errorParams (cfg : ProxyConfig) (env : AuthorizeEnvelope) (error : Str)
    (errorDescription : Option Str) : List (Str × Str) :=
  ("error".toList, error) :: ifSet "error_description" (errorDescription.getD []) ++
    ifSet "state" env.state ++ [("iss".toList, cfg.publicUrl)]

/-- The parameters handed to the client with a code. -/
def codeParams (cfg : ProxyConfig) (env : AuthorizeEnvelope) (code : Str) : List (Str × Str) :=
  ("code".toList, code) :: ("iss".toList, cfg.publicUrl) :: ifSet "state" env.state

/-- The URL the client is sent to. -/
def location (env : AuthorizeEnvelope) (params : List (Str × Str)) : Str :=
  env.redirectUri ++ '?' :: urlencode params

/-- The code envelope for an opened state. -/
def codeEnvelope (env : AuthorizeEnvelope) (code : Str) (now : ℤ) : CodeEnvelope where
  correlationId := env.correlationId
  upstreamCode := code
  upstreamVerifier := env.upstreamVerifier
  resource := env.resource
  clientId := env.clientId
  clientCodeChallenge := env.clientCodeChallenge
  redirectUri := env.redirectUri
  exp := now + codeTtlSeconds

def missingState : Response :=
  .text 400 "error=invalid_request\nerror_description=missing state\n"

def stateInvalid : Response :=
  .text 400 "error=invalid_request\nerror_description=state envelope invalid or expired\n"

def missingCode : Response :=
  .text 400 "error=invalid_request\nerror_description=missing code\n"

/-- `callback` after the state has been opened. -/
def respond (cfg : ProxyConfig) (params : CallbackParams) (env : AuthorizeEnvelope) : Run Response :=
  match params.error with
  | some error =>
      .ret (.redirect 302 (location env (errorParams cfg env error params.errorDescription)))
  | none =>
      match params.code with
      | none => .ret missingCode
      | some code => do
          let now ← wholeTime
          let codeStr ← pack (.code (codeEnvelope env code now))
          return .redirect 302 (location env (codeParams cfg env codeStr))

/-- `callback`. -/
def callback (cfg : ProxyConfig) (params : CallbackParams) : Run Response :=
  match params.state with
  | none => .ret missingState
  | some state => do
      match ← (openAuthorize state).attempt with
      | .error (.envelope _) => return stateInvalid
      | .error e => .raise e
      | .ok env => respond cfg params env

/-! ### What the endpoint does -/

/-- The first thing a request with a state does is to open it. -/
theorem callback_eq_call (cfg : ProxyConfig) {params : CallbackParams} {state : Str}
    (hs : params.state = some state) (ha : isAscii state = true) :
    ∃ k, callback cfg params = .call (.fernetDecrypt state (some 600)) k := by
  unfold callback openAuthorize openPayload
  rw [hs]
  simp only [ha, if_true]
  exact ⟨_, rfl⟩

/-- What a request seals: the state it opened, with its own code parameter. -/
def Mints (params : CallbackParams) (t : Trace proxyOps) (e : Envelope) : Prop :=
  ∃ (state code : Str) (env : AuthorizeEnvelope) (now : Seconds), params.state = some state ∧
    params.code = some code ∧ e = .code (codeEnvelope env code now.whole) ∧
    Opened t state (.authorize env) ∧ did .time now ∈ t

/-- A redirect goes to the URI sealed in the state. -/
def Concludes (params : CallbackParams) (t : Trace proxyOps) (x : Except Exc Response) : Prop :=
  ∀ (status : ℕ) (url : Str), x = .ok (.redirect status url) →
    ∃ state env, params.state = some state ∧ Opened t state (.authorize env) ∧ env.redirectUri <+: url

/-- **The specification of `/callback`.** -/
theorem sat_callback (cfg : ProxyConfig) (params : CallbackParams) :
    (callback cfg params).Sat (Conduct (Mints params) Reads) (Concludes params) [] := by
  unfold callback
  cases hs : params.state with
  | none => exact fun status url h => nomatch h
  | some state =>
      refine Prog.Sat.attempt_bind (sat_reads (sat_openAuthorize trivial) .nil (fun _ _ h => h)) ?_
      rintro t x _ ⟨ht, -, hx⟩
      split
      · exact fun status url h => nomatch h
      · exact fun status url h => nomatch h
      · next env =>
          have hopen := hx env rfl
          unfold respond
          split
          · intro status url h
            obtain ⟨-, rfl⟩ := Response.redirect.inj (Except.ok.inj h)
            exact ⟨state, env, hs, hopen, List.prefix_append _ _⟩
          · split
            · exact fun status url h => nomatch h
            · next code hcode =>
                refine sat_wholeTime_bind (Conduct.act ht rfl trivial) (fun now => ?_)
                have ht' : NoSeal (did .time now :: t) := ht.cons rfl _
                have hopen' : Opened (did .time now :: t) state (.authorize env) :=
                  hopen.mono (List.suffix_cons _ _)
                refine sat_pack_bind ?_ ?_ (fun msg _ status url h => nomatch h)
                · exact fun blob hb => Conduct.seal ht' (Envelope.wf_code _) hb
                    ⟨state, code, env, now, hs, hcode, rfl, hopen', List.mem_cons_self⟩
                · intro blob token hb status url h
                  obtain ⟨-, rfl⟩ := Response.redirect.inj (Except.ok.inj h)
                  exact ⟨state, env, hs, hopen'.mono (List.suffix_cons _ _), List.prefix_append _ _⟩

end CimdProxy.Callback
