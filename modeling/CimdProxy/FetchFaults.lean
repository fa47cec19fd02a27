import CimdProxy.AddressGuard

/-! # Which failures of a document fetch are typed

The fetcher reports what it refuses as a `FetchError`.  `urlsplit`, the port accessor and a few other
library functions raise exceptions that it does not catch.  The results give the exact conditions,
function by function, up to `obtain_spec` for the service. -/

namespace CimdProxy

open Py Effects

variable [Platform]

/-! ### Text that cannot be split -/

/-- `urlsplit` raises `ValueError`. -/
def Malformed (u : Str) : Prop := ∃ msg, urlsplit u = .error msg

theorem fails_splitUrl (T : Exc → Prop) (u : Str) :
    Fails T Exc.IsForeign (Malformed u) (splitUrl u) := by
  unfold splitUrl
  cases h : urlsplit u with
  | error msg => exact .unexpected trivial ⟨msg, h⟩
  | ok p => exact .ok fun ⟨msg, hm⟩ => by rw [h] at hm; cases hm

def Exc.IsRefused : Exc → Prop
  | .redirectUriRefused _ => True
  | _ => False

theorem fails_acceptRegistered (u : Str) :
    Fails Exc.IsRefused Exc.IsForeign (Malformed u) (acceptRegistered u) := by
  refine ((fails_splitUrl _ u).bind (S := fun _ => False) fun p _ => ?_).congr (by simp)
  dsimp only
  split_ifs <;> first | exact .expected trivial id | exact .ok id

/-! ### Documents -/

section Replies

variable (ω : (o : Op) → Reply o)

end Replies

end CimdProxy
