import CimdProxy.Envelope
import CimdProxy.Fetcher

/-! # How the endpoints behave

The shape of the local specification of an endpoint.  Until it seals an envelope it only does what
`acts` allows; it seals only what `mints` allows, and nothing follows a seal. -/

namespace CimdProxy

open Py Effects

variable [Platform]

/-- The local specification of an endpoint. -/
def Conduct (mints : Trace proxyOps → Envelope → Prop) (acts : Trace proxyOps → Op → Prop)
    (t : Trace proxyOps) (o : Op) : Prop :=
  NoSeal t ∧
    match o with
    | .fernetEncrypt blob => ∃ e, e.WF ∧ e.blob = some blob ∧ mints t e
    | o => acts t o

section Rules

variable {α : Type} {mints : Trace proxyOps → Envelope → Prop} {acts : Trace proxyOps → Op → Prop}
  {t : Trace proxyOps}

omit [Platform] in
theorem Conduct.seal {e : Envelope} {blob : Bytes} (ht : NoSeal t) (hwf : e.WF)
    (hb : e.blob = some blob) (hm : mints t e) : Conduct mints acts t (.fernetEncrypt blob) :=
  ⟨ht, e, hwf, hb, hm⟩

omit [Platform] in
theorem Conduct.act {o : Op} (ht : NoSeal t) (ho : o.isSeal = false) (h : acts t o) :
    Conduct mints acts t o := by
  refine ⟨ht, ?_⟩
  cases o with
  | fernetEncrypt blob => cases ho
  | _ => exact h

omit [Platform] in
theorem Conduct.allowed {o : Op} (h : Conduct mints acts t o) (ho : o.isSeal = false) : acts t o := by
  have := h.2
  cases o with
  | fernetEncrypt blob => cases ho
  | _ => exact this

omit [Platform] in
/-- A part that seals nothing is allowed where `acts` allows it, and keeps the trace free of seals. -/
theorem sat_acts {p : Run α} {S : Trace proxyOps → Op → Prop}
    {P : Trace proxyOps → Except Exc α → Prop} (hp : p.Sat S P t) (ht : NoSeal t)
    (hS : ∀ t o, S t o → o.isSeal = false) (hacts : ∀ t o, S t o → acts t o) :
    p.Sat (Conduct mints acts) (fun t' x => NoSeal t' ∧ P t' x) t := by
  refine (hp.invariant ht ?_).mono ?_ (fun t x h => h)
  · exact fun t o r h ho => h.cons (hS t o ho) r
  · exact fun t o h => Conduct.act h.1 (hS t o h.2) (hacts t o h.2)

theorem sat_reads {p : Run α} {P : Trace proxyOps → Except Exc α → Prop} (hp : p.Sat Reads P t)
    (ht : NoSeal t) (hacts : ∀ t o, Reads t o → acts t o) :
    p.Sat (Conduct mints acts) (fun t' x => NoSeal t' ∧ P t' x) t :=
  sat_acts hp ht (fun _ _ h => h.not_seal) hacts

end Rules

end CimdProxy
