import CimdProxy.Effects

/-! # Which exceptions a computation can end in

A computation may end in exceptions that its caller is prepared for, and in others.
`Fails T F bad x` says which: the exception of `x`, if any, is prepared for (`T`), and it is another
one (`F`) exactly under the condition `bad`.  The condition of a sequence is that of its first part, or
that of the second at the value of the first (`Fails.bind`), so the exact condition of a long
computation is put together from those of its parts. -/

namespace Effects

variable {ε ε' α β : Type} {T F : ε → Prop} {bad bad' : Prop}

/-- The outcome is an exception of `F` exactly when `bad` holds; every other exception is of `T`. -/
def Fails (T F : ε → Prop) (bad : Prop) : Except ε α → Prop
  | .ok _ => ¬ bad
  | .error e => (T e ∧ ¬ bad) ∨ (F e ∧ bad)

namespace Fails

theorem congr {x : Except ε α} (h : Fails T F bad x) (hb : bad ↔ bad') : Fails T F bad' x := by
  rwa [← propext hb]

theorem ok {a : α} (h : ¬ bad) : Fails T F bad (.ok a) := h

theorem expected {e : ε} (he : T e) (h : ¬ bad) : Fails T F bad (.error e : Except ε α) := .inl ⟨he, h⟩

theorem unexpected {e : ε} (he : F e) (h : bad) : Fails T F bad (.error e : Except ε α) := .inr ⟨he, h⟩

/-- A sequence. -/
theorem bind {x : Except ε α} {f : α → Except ε β} {S : α → Prop} (hx : Fails T F bad x)
    (hf : ∀ a, x = .ok a → Fails T F (S a) (f a)) :
    Fails T F (bad ∨ ∃ a, x = .ok a ∧ S a) (x >>= f) := by
  cases x with
  | error e =>
      refine hx.imp (fun h => ⟨h.1, ?_⟩) (fun h => ⟨h.1, .inl h.2⟩)
      rintro (hb | ⟨a, ha, -⟩)
      · exact h.2 hb
      · cases ha
  | ok a =>
      refine (hf a rfl).congr ⟨fun h => .inr ⟨a, rfl, h⟩, ?_⟩
      rintro (hb | ⟨a', ha, h⟩)
      · exact absurd hb hx
      · rwa [Except.ok.inj ha]

/-- A computation that cannot fail unexpectedly, followed by another. -/
theorem bind_safe {x : Except ε α} {f : α → Except ε β} {S : α → Prop} (hx : Fails T F False x)
    (hf : ∀ a, x = .ok a → Fails T F (S a) (f a)) :
    Fails T F (∃ a, x = .ok a ∧ S a) (x >>= f) :=
  (hx.bind hf).congr (or_iff_right id)

/-- The last step does not fail. -/
theorem map {x : Except ε α} (f : α → β) (hx : Fails T F bad x) :
    Fails T F bad (x >>= fun a => .ok (f a)) := by
  cases x with
  | error e => exact hx
  | ok a => exact hx

end Fails

/-! ### Programs against fixed replies -/

variable {S : Signature}

theorem Prog.ite_bind (c : Prop) [Decidable c] (p q : Prog S ε α) (f : α → Prog S ε β) :
    (if c then p else q).bind f = if c then p.bind f else q.bind f := by
  split <;> rfl

end Effects
