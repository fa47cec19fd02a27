import CimdProxy.Effects

/-! # How much a program asks for

`p.Within cost n` bounds what the calls of a program cost, on every branch, where costs are added up in
any ordered monoid: numbers count calls, multisets count them kind by kind.  The rules follow the
structure of programs, so a bound for a handler is put together from bounds for its parts.

`System.spent_le` carries the bounds over to runs: whatever the interleaving, the calls of a process in
the history cost no more than the budget of its request, and a process that has used up a budget of
calls has ended. -/

namespace Effects

variable {S : Signature} {ε ε' α β M : Type} [AddCommMonoid M]

/-- What the calls of a trace cost. -/
def spent (cost : S.Op → M) (t : Trace S) : M := (t.map (fun c => cost c.1)).sum

@[simp] theorem spent_nil (cost : S.Op → M) : spent cost ([] : Trace S) = 0 := rfl

@[simp] theorem spent_cons (cost : S.Op → M) (c : Call S) (t : Trace S) :
    spent cost (c :: t) = cost c.1 + spent cost t := rfl

variable [PartialOrder M]

namespace Prog

/-- On every branch the calls cost at most `n`. -/
def Within (cost : S.Op → M) : Prog S ε α → M → Prop
  | ret _, _ => True
  | raise _, _ => True
  | call o k, n => ∃ m, cost o + m ≤ n ∧ ∀ r, (k r).Within cost m

variable {cost : S.Op → M} {p : Prog S ε α} {n m : M}

theorem Within.mono (h : p.Within cost n) (hnm : n ≤ m) : p.Within cost m := by
  cases p with
  | ret a => trivial
  | raise e => trivial
  | call o k =>
      obtain ⟨l, hl, hk⟩ := h
      exact ⟨l, hl.trans hnm, hk⟩

theorem Within.lift (x : Except ε α) : (lift x : Prog S ε α).Within cost n := by
  cases x <;> trivial

theorem Within.attempt (h : p.Within cost n) : (p.attempt : Prog S ε' (Except ε α)).Within cost n := by
  induction p generalizing n with
  | ret a => trivial
  | raise e => trivial
  | call o k ih =>
      obtain ⟨l, hl, hk⟩ := h
      exact ⟨l, hl, fun r => ih r (hk r)⟩

/-- One call, and what comes after it. -/
theorem Within.perform_bind {o : S.Op} {f : S.Reply o → Prog S ε β} (hf : ∀ r, (f r).Within cost m) :
    ((perform o).bind f).Within cost (cost o + m) := ⟨m, le_rfl, hf⟩

/-- A computation without calls, and what comes after it. -/
theorem Within.lift_bind {x : Except ε α} {f : α → Prog S ε β}
    (hf : ∀ a, x = .ok a → (f a).Within cost n) : ((Prog.lift x).bind f).Within cost n := by
  cases x with
  | ok a => exact hf a rfl
  | error e => trivial

variable [IsOrderedAddMonoid M] [CanonicallyOrderedAdd M]

theorem Within.bind {f : α → Prog S ε β} (h : p.Within cost n) (hf : ∀ a, (f a).Within cost m) :
    (p.bind f).Within cost (n + m) := by
  induction p generalizing n with
  | ret a => exact (hf a).mono le_add_self
  | raise e => trivial
  | call o k ih =>
      obtain ⟨l, hl, hk⟩ := h
      refine ⟨l + m, ?_, fun r => ih r (hk r)⟩
      rw [← add_assoc]
      exact add_le_add_left hl m

/-- The bound as a local specification: what has been spent stays within the budget. -/
theorem Within.sat {t : Trace S} (h : p.Within cost n) (hn : spent cost t + n ≤ m) :
    p.Sat (fun t o => spent cost t + cost o ≤ m) (fun t _ => spent cost t ≤ m) t := by
  induction p generalizing t n with
  | ret a => exact le_self_add.trans hn
  | raise e => exact le_self_add.trans hn
  | call o k ih =>
      obtain ⟨l, hl, hk⟩ := h
      have hcall : spent cost t + (cost o + l) ≤ m := (add_le_add_right hl _).trans hn
      refine ⟨?_, fun r => ih r (hk r) ?_⟩
      · exact (add_le_add_right le_self_add _).trans hcall
      · rwa [spent_cons, add_comm (cost o), add_assoc]

end Prog

/-! ### Runs -/

/-- The calls of one process, newest first. -/
def callsOf (pid : ℕ) (h : List (Event S)) : Trace S :=
  h.filterMap fun e => if e.1 = pid then some e.2 else none

theorem callsOf_cons (pid pid' : ℕ) (c : Call S) (h : List (Event S)) :
    callsOf pid ((pid', c) :: h) = if pid' = pid then c :: callsOf pid h else callsOf pid h := by
  unfold callsOf
  rw [List.filterMap_cons]
  by_cases hp : pid' = pid
  · rw [if_pos hp, if_pos hp]
  · rw [if_neg hp, if_neg hp]

namespace System

variable {Req W : Type} (sys : System S ε α Req W)

/-- The calls a process has made are its events in the history, in that order. -/
theorem callsOf_hist (acts : List (Action S Req)) (pid : ℕ) :
    callsOf pid (sys.run acts).hist = ((sys.run acts).procs[pid]?.map Proc.trace).getD [] := by
  induction acts using List.reverseRecOn with
  | nil => rfl
  | append_singleton acts a ih =>
      rw [run_snoc]
      rcases sys.step_cases (sys.run acts) a with he | ⟨req, -, he⟩ |
        ⟨pid', propose, req, t, o, k, r, w, -, hp, -, he⟩
      · rw [he]
        exact ih
      · rw [he, ih]
        dsimp only
        by_cases hlt : pid < (sys.run acts).procs.length
        · rw [List.getElem?_append_left hlt]
        · rw [List.getElem?_append_right (by omega), List.getElem?_eq_none (by omega)]
          cases hi : ([⟨req, [], sys.handler req⟩] : List (Proc S ε α Req))[pid - (sys.run acts).procs.length]? with
          | none => rfl
          | some p =>
              obtain rfl := List.mem_singleton.mp (List.mem_of_getElem? hi)
              rfl
      · rw [he]
        dsimp only
        rw [callsOf_cons, ih]
        by_cases hpid : pid' = pid
        · subst hpid
          have hlt : pid' < (sys.run acts).procs.length := (List.getElem?_eq_some_iff.mp hp).1
          rw [if_pos rfl, hp, List.getElem?_set_self hlt]
          rfl
        · rw [if_neg hpid, List.getElem?_set_ne hpid]

variable [IsOrderedAddMonoid M] [CanonicallyOrderedAdd M]

/-- **No process asks for more than its budget**, and one that has used it up has ended. -/
theorem spent_le {cost : S.Op → M} {budget : Req → M}
    (hbudget : ∀ req, (sys.handler req).Within cost (budget req)) {acts : List (Action S Req)} {pid : ℕ}
    {p : Proc S ε α Req} (hp : (sys.run acts).procs[pid]? = some p) :
    spent cost (callsOf pid (sys.run acts).hist) ≤ budget p.req ∧
      ∀ o k, p.prog = .call o k →
        spent cost (callsOf pid (sys.run acts).hist) + cost o ≤ budget p.req := by
  have htrace : callsOf pid (sys.run acts).hist = p.trace := by
    rw [callsOf_hist, hp]
    rfl
  rw [htrace]
  have hsat : ∀ req, (sys.handler req).Sat (fun t o => spent cost t + cost o ≤ budget req)
      (fun t _ => spent cost t ≤ budget req) [] :=
    fun req => (hbudget req).sat (by simp)
  refine ⟨?_, ?_⟩
  · rcases sys.ended hsat hp with ⟨a, -, h⟩ | ⟨e, -, h⟩ | ⟨o, k, -, h⟩
    · exact h
    · exact h
    · exact le_self_add.trans h
  · intro o k hprog
    rcases sys.ended hsat hp with ⟨a, ha, -⟩ | ⟨e, he, -⟩ | ⟨o', k', hk, h⟩
    · rw [ha] at hprog
      cases hprog
    · rw [he] at hprog
      cases hprog
    · rw [hk] at hprog
      cases hprog
      exact h

end System

end Effects
