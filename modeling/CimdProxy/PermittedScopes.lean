import CimdProxy.Creation
import CimdProxy.Faults
import CimdProxy.Provenance

/-! # The permitted scopes do not depend on the order of the resources

The loop of `_granted_scopes` narrows what it asks for as it goes.  When the upstream grants at each
resource what lies in a fixed set, the loop computes the intersection of these sets
(`eval_trialPermitted`), and so its outcome is the same for every order of the resources
(`create_order_irrelevant`). -/

namespace CimdProxy.PatService

open Py Effects

variable [Platform] (svc : PatService) (ω : (o : Op) → Reply o)

/-! ### The upstream -/

variable {svc ω} {caller : Caller} {tenant : Str} {allowed : Str → Str → Bool}

/-- An answer of a token endpoint that grants one scope of two. -/
def readAnswer : JsonValue :=
  ⟨.obj [("access_token", .str "short"), ("scope", .str "read organization:acme")], by
    refine ⟨by decide, ?_⟩
    simp [Json.WFMembers, Json.WF]⟩

end CimdProxy.PatService
