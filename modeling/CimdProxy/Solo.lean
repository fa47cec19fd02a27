import CimdProxy.Effects

/-! # One program alone in a world

`Prog.Ends perform p w t x w'` says that `p`, started in the world `w` with nobody else acting on it
and with any replies the world allows, makes the calls `t` and ends in `x`, which leaves the world
`w'`.  A local specification then says how it can end (`Prog.Sat.ends`), and what none of its calls
changes is unchanged (`Prog.Ends.unchanged`). -/

namespace Effects

variable {S : Signature} {ε α β W : Type}

/-- The program runs alone to its end. -/
inductive Prog.Ends (perform : W → (o : S.Op) → S.Reply o → Option (S.Reply o × W)) :
    Prog S ε α → W → Trace S → Except ε α → W → Prop
  | ret (a : α) (w : W) : Ends perform (.ret a) w [] (.ok a) w
  | raise (e : ε) (w : W) : Ends perform (.raise e) w [] (.error e) w
  | call {o : S.Op} {k : S.Reply o → Prog S ε α} {w w₁ w' : W} {p r : S.Reply o} {t : Trace S}
      {x : Except ε α} (hw : perform w o p = some (r, w₁)) (hk : Ends perform (k r) w₁ t x w') :
      Ends perform (.call o k) w (t ++ [⟨o, r⟩]) x w'

namespace Prog

variable {perform : W → (o : S.Op) → S.Reply o → Option (S.Reply o × W)} {p : Prog S ε α}
  {w w₁ w₂ w' : W} {t t₁ t₂ : Trace S} {x x₁ x₂ : Except ε α}

/-- What a local specification says about a whole run: every call obeys it, and so does the end. -/
theorem Sat.ends {Q : Trace S → S.Op → Prop} {R : Trace S → Except ε α → Prop} {t₀ : Trace S}
    (h : p.Sat Q R t₀) (he : p.Ends perform w t x w') :
    (∀ later c before, t = later ++ c :: before → Q (before ++ t₀) c.1) ∧ R (t ++ t₀) x := by
  induction he generalizing t₀ with
  | ret a w => exact ⟨fun later c before ht => by simp at ht, h⟩
  | raise e w => exact ⟨fun later c before ht => by simp at ht, h⟩
  | @call o k w w₁ w' p r t x hw hk ih =>
      obtain ⟨hcalls, hend⟩ := ih (h.2 r)
      constructor
      · intro later c before ht
        rcases List.eq_nil_or_concat' before with rfl | ⟨before, c', rfl⟩
        · obtain ⟨-, hc⟩ := List.append_inj' ht rfl
          obtain rfl := List.singleton_inj.mp hc
          exact h.1
        · have hlast : t ++ [⟨o, r⟩] = (later ++ c :: before) ++ [c'] := by rw [ht]; simp
          obtain ⟨rfl, hc⟩ := List.append_inj' hlast rfl
          obtain rfl := List.singleton_inj.mp hc
          rw [List.append_assoc]
          exact hcalls later c before rfl
      · rw [List.append_assoc]
        exact hend

/-- A sequence: the first part fails, or the second one runs after it. -/
theorem Ends.of_bind {f : α → Prog S ε β} {x : Except ε β} (h : (p.bind f).Ends perform w t x w') :
    (∃ e, p.Ends perform w t (.error e) w' ∧ x = .error e) ∨
    ∃ a t₁ t₂ w₁, p.Ends perform w t₁ (.ok a) w₁ ∧ (f a).Ends perform w₁ t₂ x w' ∧ t = t₂ ++ t₁ := by
  induction p generalizing w t with
  | ret a => exact .inr ⟨a, [], _, _, .ret a _, h, (List.append_nil _).symm⟩
  | raise e =>
      cases h with
      | raise => exact .inl ⟨e, .raise e _, rfl⟩
  | call o k ih =>
      cases h with
      | @call _ _ _ w₁ _ p r t _ hw hk =>
          rcases ih r hk with ⟨e, he, rfl⟩ | ⟨a, t₁, t₂, w₂, h₁, h₂, rfl⟩
          · exact .inl ⟨e, .call hw he, rfl⟩
          · exact .inr ⟨a, t₁ ++ [⟨o, r⟩], t₂, w₂, .call hw h₁, h₂, List.append_assoc _ _ _⟩

/-- The replies decide how a program ends. -/
theorem Ends.unique (h₁ : p.Ends perform w₁ t₁ x₁ w') (h₂ : p.Ends perform w₂ t₂ x₂ w)
    (ht₁ : t₁ <:+ t) (ht₂ : t₂ <:+ t) : t₁ = t₂ ∧ x₁ = x₂ := by
  induction h₁ generalizing t w₂ t₂ with
  | ret a w =>
      cases h₂ with
      | ret => exact ⟨rfl, rfl⟩
  | raise e w =>
      cases h₂ with
      | raise => exact ⟨rfl, rfl⟩
  | @call o k w w₁ w' p r t₁ x₁ hw hk ih =>
      cases h₂ with
      | @call _ _ _ _ _ p' r' t₂ _ hw' hk' =>
          obtain ⟨a, rfl⟩ := ht₁
          obtain ⟨b, hb⟩ := ht₂
          have hlast : (b ++ t₂) ++ [⟨o, r'⟩] = (a ++ t₁) ++ [(⟨o, r⟩ : Call S)] := by
            rw [List.append_assoc, hb, List.append_assoc]
          obtain ⟨hrest, hc⟩ := List.append_inj' hlast rfl
          obtain rfl : r' = r := by
            have := List.singleton_inj.mp hc
            exact eq_of_heq (Sigma.mk.inj this).2
          obtain ⟨rfl, rfl⟩ := ih hk' ⟨a, rfl⟩ ⟨b, hrest⟩
          exact ⟨rfl, rfl⟩

/-- What no call of the run changes is as it was. -/
theorem Ends.unchanged {γ : Type} {observe : W → γ} (h : p.Ends perform w t x w')
    (hstep : ∀ c ∈ t, ∀ w w' p, perform w c.1 p = some (c.2, w') → observe w' = observe w) :
    observe w' = observe w := by
  induction h with
  | ret a w => rfl
  | raise e w => rfl
  | @call o k w w₁ w' p r t x hw hk ih =>
      rw [ih (fun c hc => hstep c (List.mem_append_left _ hc))]
      exact hstep ⟨o, r⟩ (by simp) w w₁ p hw

/-- The run against fixed proposals: its calls, its end and the world it leaves. -/
def play (perform : W → (o : S.Op) → S.Reply o → Option (S.Reply o × W))
    (propose : (o : S.Op) → S.Reply o) : Prog S ε α → W → Option (Trace S × Except ε α × W)
  | ret a, w => some ([], .ok a, w)
  | raise e, w => some ([], .error e, w)
  | call o k, w =>
      match perform w o (propose o) with
      | some (r, w) =>
          match (k r).play perform propose w with
          | some (t, x, w') => some (t ++ [⟨o, r⟩], x, w')
          | none => none
      | none => none

theorem ends_of_play {propose : (o : S.Op) → S.Reply o}
    (h : p.play perform propose w = some (t, x, w')) : p.Ends perform w t x w' := by
  induction p generalizing w t with
  | ret a =>
      cases h
      exact .ret _ _
  | raise e =>
      cases h
      exact .raise _ _
  | call o k ih =>
      rw [play] at h
      split at h
      · next r w₁ hw =>
          split at h
          · next s y w₂ hk =>
              cases h
              exact .call hw (ih r hk)
          · cases h
      · cases h

/-- A run without calls leaves the world as it is. -/
theorem Ends.of_nil (h : p.Ends perform w [] x w') : w' = w := by
  generalize hs : ([] : Trace S) = s at h
  cases h with
  | ret a => rfl
  | raise e => rfl
  | call hw hk => simp at hs

/-- A run whose last call is known: the world before it. -/
theorem Ends.last {c : Call S} (h : p.Ends perform w (c :: t) x w') {γ : Type} {f : W → γ}
    (hstep : ∀ c ∈ t, ∀ w w' p, perform w c.1 p = some (c.2, w') → f w' = f w) :
    ∃ w₁ r, f w₁ = f w ∧ perform w₁ c.1 r = some (c.2, w') := by
  generalize hs : c :: t = s at h
  induction h generalizing t with
  | ret a w => cases hs
  | raise e w => cases hs
  | @call o k w w₁ w' p r s x hw hk ih =>
      cases s with
      | nil =>
          obtain ⟨rfl, rfl⟩ := List.cons.inj hs
          obtain rfl := hk.of_nil
          exact ⟨w, p, rfl, hw⟩
      | cons c' s =>
          obtain ⟨rfl, rfl⟩ := List.cons.inj hs
          obtain ⟨w₂, r', ho, hp⟩ := ih (fun c hc => hstep c (List.mem_append_left _ hc)) rfl
          refine ⟨w₂, r', ho.trans ?_, hp⟩
          exact hstep ⟨o, r⟩ (by simp) w w₁ p hw

end Prog

end Effects
