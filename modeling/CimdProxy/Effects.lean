import Mathlib

/-! # Programs with effects and their interleavings

A program is a tree of *calls*: it asks its surroundings to perform an operation, receives a
reply whose type depends on the operation, and goes on.  It ends by returning a value or by
raising an exception.  `Prog` is that tree, with the usual monad structure and a way to look at
exceptions.

`Prog.Sat Q R p t` is the local specification of a program: started after the calls `t`
(newest first), every operation it issues satisfies `Q` at the calls made so far, and it ends
only in results allowed by `R`.  It composes over `bind` and `attempt`.

A `System` runs any number of such programs, one for each request, over one shared world.  An
`Action` either starts a request or lets one program take its next call; a schedule is a list
of actions, so quantifying over schedules quantifies over every interleaving.  The replies an
operation may receive are proposed by the schedule and accepted, replaced or refused by the
world.  `System.issued`, `System.answered` and `System.ended` are the three rules by which the
properties of whole runs are proved: what a program issues obeys its local specification,
what it is told is explained by the world at that moment, and how it ends obeys its
specification too. -/

namespace Effects

/-- The operations a program may ask for, each with the type of its reply. -/
structure Signature where
  Op : Type
  Reply : Op → Type

/-- A program over a signature, raising exceptions of type `ε`. -/
inductive Prog (S : Signature) (ε α : Type) : Type where
  | ret (a : α)
  | raise (e : ε)
  | call (o : S.Op) (k : S.Reply o → Prog S ε α)

/-- One operation together with the reply it received. -/
abbrev Call (S : Signature) : Type := (o : S.Op) × S.Reply o

/-- The calls of one program, newest first. -/
abbrev Trace (S : Signature) : Type := List (Call S)

variable {S : Signature} {ε ε' α β : Type}

namespace Prog

def bind : Prog S ε α → (α → Prog S ε β) → Prog S ε β
  | ret a, f => f a
  | raise e, _ => raise e
  | call o k, f => call o (fun r => (k r).bind f)

/-- Run the program and return its outcome, so that the caller can look at an exception. -/
def attempt : Prog S ε α → Prog S ε' (Except ε α)
  | ret a => ret (.ok a)
  | raise e => ret (.error e)
  | call o k => call o (fun r => (k r).attempt)

/-- A computation without calls. -/
def lift : Except ε α → Prog S ε α
  | .ok a => ret a
  | .error e => raise e

/-- The program that performs one operation and returns the reply. -/
def perform (o : S.Op) : Prog S ε (S.Reply o) := call o ret

instance : Monad (Prog S ε) where
  pure := ret
  bind := bind

/-- The result of a program whose every call is answered by `ω`. -/
def eval (ω : (o : S.Op) → S.Reply o) : Prog S ε α → Except ε α
  | ret a => .ok a
  | raise e => .error e
  | call o k => (k (ω o)).eval ω

/-- The program run alone over a world, with the given proposals; `none` when the world refuses
one. -/
def exec {W : Type} (perform : W → (o : S.Op) → S.Reply o → Option (S.Reply o × W))
    (propose : (o : S.Op) → S.Reply o) : Prog S ε α → W → Option (Except ε α × W)
  | ret a, w => some (.ok a, w)
  | raise e, w => some (.error e, w)
  | call o k, w =>
      match perform w o (propose o) with
      | some (r, w) => (k r).exec perform propose w
      | none => none

/-- Local specification: after the calls `t`, every operation issued satisfies `Q` and every
result satisfies `R`, whatever the replies are. -/
def Sat (Q : Trace S → S.Op → Prop) (R : Trace S → Except ε α → Prop) :
    Prog S ε α → Trace S → Prop
  | ret a, t => R t (.ok a)
  | raise e, t => R t (.error e)
  | call o k, t => Q t o ∧ ∀ r, (k r).Sat Q R (⟨o, r⟩ :: t)

/-! ### Computing with programs -/

@[simp] theorem pure_eq (a : α) : (pure a : Prog S ε α) = ret a := rfl

@[simp] theorem bind_eq (p : Prog S ε α) (f : α → Prog S ε β) : p >>= f = p.bind f := rfl

@[simp] theorem ret_bind (a : α) (f : α → Prog S ε β) : (ret a).bind f = f a := rfl

@[simp] theorem raise_bind (e : ε) (f : α → Prog S ε β) : (raise e).bind f = raise e := rfl

@[simp] theorem call_bind (o : S.Op) (k : S.Reply o → Prog S ε α) (f : α → Prog S ε β) :
    (call o k).bind f = call o (fun r => (k r).bind f) := rfl

@[simp] theorem perform_bind (o : S.Op) (f : S.Reply o → Prog S ε β) :
    (perform o).bind f = call o f := rfl

@[simp] theorem lift_ok (a : α) : (lift (.ok a) : Prog S ε α) = ret a := rfl

@[simp] theorem lift_error (e : ε) : (lift (.error e) : Prog S ε α) = raise e := rfl

/-! ### Evaluation against fixed replies -/

variable (ω : (o : S.Op) → S.Reply o)

@[simp] theorem eval_raise (e : ε) : (raise e : Prog S ε α).eval ω = .error e := rfl

@[simp] theorem eval_perform (o : S.Op) : (perform o : Prog S ε _).eval ω = .ok (ω o) := rfl

@[simp] theorem eval_lift (x : Except ε α) : (lift x : Prog S ε α).eval ω = x := by
  cases x <;> rfl

section Exec

variable {W : Type} {perform : W → (o : S.Op) → S.Reply o → Option (S.Reply o × W)}
  {propose : (o : S.Op) → S.Reply o} {o : S.Op} {k : S.Reply o → Prog S ε α} {w : W}

theorem exec_call_some {r : S.Reply o} {w' : W} (h : perform w o (propose o) = some (r, w')) :
    (call o k).exec perform propose w = (k r).exec perform propose w' := by
  rw [exec, h]

theorem exec_call_eq_some {x : Except ε α × W}
    (h : (call o k).exec perform propose w = some x) :
    ∃ r w', perform w o (propose o) = some (r, w') ∧ (k r).exec perform propose w' = some x := by
  rw [exec] at h
  split at h
  · next r w' hp => exact ⟨r, w', hp, h⟩
  · cases h

end Exec

/-! ### The local specification -/

variable {Q Q' : Trace S → S.Op → Prop} {R R' : Trace S → Except ε α → Prop}

@[simp] theorem sat_ret (a : α) (t : Trace S) : (ret a).Sat Q R t ↔ R t (.ok a) := Iff.rfl

@[simp] theorem sat_raise (e : ε) (t : Trace S) : (raise e).Sat Q R t ↔ R t (.error e) := Iff.rfl

@[simp] theorem sat_call (o : S.Op) (k : S.Reply o → Prog S ε α) (t : Trace S) :
    (call o k).Sat Q R t ↔ Q t o ∧ ∀ r, (k r).Sat Q R (⟨o, r⟩ :: t) := Iff.rfl

@[simp] theorem sat_lift (x : Except ε α) (t : Trace S) : (lift x).Sat Q R t ↔ R t x := by
  cases x <;> rfl

theorem sat_bind {R : Trace S → Except ε β → Prop} (p : Prog S ε α) (f : α → Prog S ε β)
    (t : Trace S) :
    (p.bind f).Sat Q R t ↔ p.Sat Q (fun t' x => match x with
      | .ok a => (f a).Sat Q R t'
      | .error e => R t' (.error e)) t := by
  induction p generalizing t with
  | ret a => rfl
  | raise e => rfl
  | call o k ih => simp only [call_bind, sat_call, ih]

theorem sat_attempt {R : Trace S → Except ε' (Except ε α) → Prop} (p : Prog S ε α) (t : Trace S) :
    (p.attempt : Prog S ε' (Except ε α)).Sat Q R t ↔ p.Sat Q (fun t' x => R t' (.ok x)) t := by
  induction p generalizing t with
  | ret a => rfl
  | raise e => rfl
  | call o k ih => simp only [attempt, sat_call, ih]

theorem Sat.mono {p : Prog S ε α} {t : Trace S} (h : p.Sat Q R t)
    (hQ : ∀ t o, Q t o → Q' t o) (hR : ∀ t x, R t x → R' t x) : p.Sat Q' R' t := by
  induction p generalizing t with
  | ret a => exact hR _ _ h
  | raise e => exact hR _ _ h
  | call o k ih => exact ⟨hQ _ _ h.1, fun r => ih r (h.2 r)⟩

/-- Every program meets the empty specification. -/
theorem sat_true (p : Prog S ε α) (t : Trace S) : p.Sat (fun _ _ => True) (fun _ _ => True) t := by
  induction p generalizing t with
  | ret a => trivial
  | raise e => trivial
  | call o k ih => exact ⟨trivial, fun r => ih r _⟩

/-- A program only adds to its trace. -/
theorem Sat.suffix {p : Prog S ε α} {t : Trace S} (h : p.Sat Q R t) :
    p.Sat Q (fun t' x => t <:+ t' ∧ R t' x) t := by
  have key : ∀ (p : Prog S ε α) (t' : Trace S), t <:+ t' → p.Sat Q R t' →
      p.Sat Q (fun t' x => t <:+ t' ∧ R t' x) t' := by
    intro p
    induction p with
    | ret a => exact fun t' ht h => ⟨ht, h⟩
    | raise e => exact fun t' ht h => ⟨ht, h⟩
    | call o k ih =>
        exact fun t' ht h => ⟨h.1, fun r => ih r _ (ht.trans (List.suffix_cons _ _)) (h.2 r)⟩
  exact key p t List.suffix_rfl h

/-- What every call keeps true of the trace holds throughout. -/
theorem Sat.invariant {p : Prog S ε α} {t : Trace S} {I : Trace S → Prop} (h : p.Sat Q R t) (ht : I t)
    (hI : ∀ t o r, I t → Q t o → I (⟨o, r⟩ :: t)) :
    p.Sat (fun t o => I t ∧ Q t o) (fun t' x => I t' ∧ R t' x) t := by
  induction p generalizing t with
  | ret a => exact ⟨ht, h⟩
  | raise e => exact ⟨ht, h⟩
  | call o k ih => exact ⟨⟨ht, h.1⟩, fun r => ih r (h.2 r) (hI t o r ht h.1)⟩

/-! The rules for sequencing: what the first part ensures is what the second may use. -/

theorem Sat.bind {R : Trace S → Except ε β → Prop} {p : Prog S ε α} {f : α → Prog S ε β}
    {P : Trace S → Except ε α → Prop} {t : Trace S} (hp : p.Sat Q P t)
    (hok : ∀ t' a, t <:+ t' → P t' (.ok a) → (f a).Sat Q R t')
    (herr : ∀ t' e, t <:+ t' → P t' (.error e) → R t' (.error e)) : (p.bind f).Sat Q R t := by
  rw [sat_bind]
  refine hp.suffix.mono (fun _ _ h => h) ?_
  rintro t' (e | a) ⟨ht, h⟩
  · exact herr t' e ht h
  · exact hok t' a ht h

theorem Sat.attempt_bind {R : Trace S → Except ε' β → Prop} {p : Prog S ε α}
    {f : Except ε α → Prog S ε' β} {P : Trace S → Except ε α → Prop} {t : Trace S}
    (hp : p.Sat Q P t) (hf : ∀ t' x, t <:+ t' → P t' x → (f x).Sat Q R t') :
    (p.attempt.bind f).Sat Q R t := by
  rw [sat_bind, sat_attempt]
  exact hp.suffix.mono (fun _ _ h => h) (fun t' x h => hf t' x h.1 h.2)

theorem Sat.lift_bind {R : Trace S → Except ε β → Prop} {x : Except ε α} {f : α → Prog S ε β}
    {t : Trace S} (hok : ∀ a, x = .ok a → (f a).Sat Q R t)
    (herr : ∀ e, x = .error e → R t (.error e)) : ((lift x).bind f).Sat Q R t := by
  cases x with
  | error e => exact herr e rfl
  | ok a => exact hok a rfl

end Prog

/-! ### More operations -/

/-- The operations of two signatures. -/
def Signature.sum (S T : Signature) : Signature := ⟨S.Op ⊕ T.Op, Sum.elim S.Reply T.Reply⟩

section Sum

variable {T : Signature}

def Call.left (c : Call S) : Call (S.sum T) := ⟨.inl c.1, c.2⟩

theorem Call.left_injective : Function.Injective (Call.left : Call S → Call (S.sum T)) := by
  rintro ⟨o, r⟩ ⟨o', r'⟩ h
  obtain ⟨ho, hr⟩ := Sigma.mk.inj h
  have hop : o = o' := Sum.inl.inj ho
  subst hop
  exact congrArg (Sigma.mk o) (eq_of_heq hr)

namespace Prog

/-- The program, over more operations than it uses. -/
def left : Prog S ε α → Prog (S.sum T) ε α
  | ret a => ret a
  | raise e => raise e
  | call o k => call (.inl o) (fun r => (k r).left)

theorem Sat.left {Q : Trace S → S.Op → Prop} {R : Trace S → Except ε α → Prop}
    {Q' : Trace (S.sum T) → (S.sum T).Op → Prop} {R' : Trace (S.sum T) → Except ε α → Prop}
    {p : Prog S ε α} {t : Trace S} (h : p.Sat Q R t) (hQ : ∀ t o, Q t o → Q' (t.map Call.left) (.inl o))
    (hR : ∀ t x, R t x → R' (t.map Call.left) x) :
    (p.left : Prog (S.sum T) ε α).Sat Q' R' (t.map Call.left) := by
  induction p generalizing t with
  | ret a => exact hR _ _ h
  | raise e => exact hR _ _ h
  | call o k ih => exact ⟨hQ _ _ h.1, fun r => ih r (h.2 r)⟩

end Prog

end Sum

/-! ### Systems -/

/-- Any number of programs over one world.  `perform w o r` is what the world `w` makes of the
operation `o` when the reply `r` is proposed: the reply actually given and the next world, or
`none` when the proposal is not possible. -/
structure System (S : Signature) (ε α Req W : Type) where
  handler : Req → Prog S ε α
  init : W
  perform : W → (o : S.Op) → S.Reply o → Option (S.Reply o × W)

/-- One request being served: what was asked, the calls made so far, what is left to do. -/
structure Proc (S : Signature) (ε α Req : Type) where
  req : Req
  trace : Trace S
  prog : Prog S ε α

/-- A call made by the process with the given number. -/
abbrev Event (S : Signature) : Type := ℕ × Call S

/-- The world, the processes in the order they were started, the history newest first. -/
structure Config (S : Signature) (ε α Req W : Type) where
  world : W
  procs : List (Proc S ε α Req)
  hist : List (Event S)

/-- What a schedule can do next. -/
inductive Action (S : Signature) (Req : Type) where
  | start (req : Req)
  | act (pid : ℕ) (propose : (o : S.Op) → S.Reply o)

namespace System

variable {Req W : Type} (sys : System S ε α Req W)

/-- One action; an action that is not possible changes nothing. -/
def step (c : Config S ε α Req W) : Action S Req → Config S ε α Req W
  | .start req => { c with procs := c.procs ++ [⟨req, [], sys.handler req⟩] }
  | .act pid propose =>
      match c.procs[pid]? with
      | some ⟨req, t, .call o k⟩ =>
          match sys.perform c.world o (propose o) with
          | some (r, w) =>
              { world := w
                procs := c.procs.set pid ⟨req, ⟨o, r⟩ :: t, k r⟩
                hist := (pid, ⟨o, r⟩) :: c.hist }
          | none => c
      | _ => c

/-- A call that the world answers. -/
theorem step_act {c : Config S ε α Req W} {pid : ℕ} {req : Req} {t : Trace S} {o : S.Op}
    {k : S.Reply o → Prog S ε α} {propose : (o : S.Op) → S.Reply o} {r : S.Reply o} {w : W}
    (hp : c.procs[pid]? = some ⟨req, t, .call o k⟩) (hw : sys.perform c.world o (propose o) = some (r, w)) :
    sys.step c (.act pid propose) = ⟨w, c.procs.set pid ⟨req, ⟨o, r⟩ :: t, k r⟩, (pid, ⟨o, r⟩) :: c.hist⟩ := by
  simp only [step, hp, hw]

/-- The configuration a schedule leads to. -/
def run (acts : List (Action S Req)) : Config S ε α Req W :=
  acts.foldl sys.step ⟨sys.init, [], []⟩

@[simp] theorem run_nil : sys.run [] = ⟨sys.init, [], []⟩ := rfl

theorem run_snoc (acts : List (Action S Req)) (a : Action S Req) :
    sys.run (acts ++ [a]) = sys.step (sys.run acts) a := by
  simp [run, List.foldl_append]

/-- A new request that takes its first call. -/
theorem run_start_act (acts : List (Action S Req)) {req : Req} {o : S.Op}
    {k : S.Reply o → Prog S ε α} {propose : (o : S.Op) → S.Reply o} {r : S.Reply o} {w : W}
    (hreq : sys.handler req = .call o k)
    (hw : sys.perform (sys.run acts).world o (propose o) = some (r, w)) :
    sys.run (acts ++ [.start req, .act (sys.run acts).procs.length propose]) =
      { world := w
        procs := (sys.run acts).procs ++ [⟨req, [⟨o, r⟩], k r⟩]
        hist := ((sys.run acts).procs.length, ⟨o, r⟩) :: (sys.run acts).hist } := by
  have hsplit : acts ++ [.start req, .act (sys.run acts).procs.length propose] =
      (acts ++ [.start req]) ++ [.act (sys.run acts).procs.length propose] := by simp
  rw [hsplit, run_snoc, run_snoc]
  simp only [step, hreq, List.getElem?_concat_length, hw]
  simp

/-- Everything an action can do. -/
theorem step_cases (c : Config S ε α Req W) (a : Action S Req) :
    sys.step c a = c ∨
    (∃ req, a = .start req ∧
      sys.step c a = { c with procs := c.procs ++ [⟨req, [], sys.handler req⟩] }) ∨
    (∃ pid propose req t o k r w, a = .act pid propose ∧
      c.procs[pid]? = some ⟨req, t, .call o k⟩ ∧
      sys.perform c.world o (propose o) = some (r, w) ∧
      sys.step c a = { world := w
                       procs := c.procs.set pid ⟨req, ⟨o, r⟩ :: t, k r⟩
                       hist := (pid, ⟨o, r⟩) :: c.hist }) := by
  cases a with
  | start req => exact .inr (.inl ⟨req, rfl, rfl⟩)
  | act pid propose =>
      simp only [step]
      split
      · next req t o k hp =>
          split
          · next r w hw => exact .inr (.inr ⟨pid, propose, req, t, o, k, r, w, rfl, hp, hw, rfl⟩)
          · exact .inl rfl
      · exact .inl rfl

/-- Invariants of runs: true at the start, kept by starting a request and by every call. -/
theorem run_induction {I : Config S ε α Req W → Prop} (h0 : I ⟨sys.init, [], []⟩)
    (hstart : ∀ c req, I c → I { c with procs := c.procs ++ [⟨req, [], sys.handler req⟩] })
    (hcall : ∀ c pid req t o k prop r w, I c → c.procs[pid]? = some ⟨req, t, .call o k⟩ →
      sys.perform c.world o prop = some (r, w) →
      I { world := w
          procs := c.procs.set pid ⟨req, ⟨o, r⟩ :: t, k r⟩
          hist := (pid, ⟨o, r⟩) :: c.hist }) :
    ∀ acts, I (sys.run acts) := by
  intro acts
  induction acts using List.reverseRecOn with
  | nil => exact h0
  | append_singleton acts a ih =>
      rw [run_snoc]
      rcases sys.step_cases (sys.run acts) a with h | ⟨req, -, h⟩ |
        ⟨pid, propose, req, t, o, k, r, w, -, hp, hw, h⟩
      · rw [h]; exact ih
      · rw [h]; exact hstart _ _ ih
      · rw [h]; exact hcall _ _ _ _ _ _ _ _ _ ih hp hw

/-! ### Processes and the history -/

theorem getElem?_set_self' {γ : Type} {l : List γ} {i : ℕ} {x y : γ} (h : l[i]? = some x) :
    (l.set i y)[i]? = some y := by
  have hi : i < l.length := (List.getElem?_eq_some_iff.mp h).1
  simp [hi]

/-- What a process has called is in the history, and nothing else under its number. -/
theorem trace_iff_hist (acts : List (Action S Req)) (pid : ℕ) (c : Call S) :
    (pid, c) ∈ (sys.run acts).hist ↔
      ∃ p, (sys.run acts).procs[pid]? = some p ∧ c ∈ p.trace := by
  revert acts
  apply sys.run_induction
    (I := fun c' => (pid, c) ∈ c'.hist ↔ ∃ p, c'.procs[pid]? = some p ∧ c ∈ p.trace)
  · simp
  · intro c' req ih
    rw [ih]
    constructor
    · rintro ⟨p, hp, hc⟩
      exact ⟨p, by rw [List.getElem?_append_left (List.getElem?_eq_some_iff.mp hp).1]; exact hp, hc⟩
    · rintro ⟨p, hp, hc⟩
      rcases Nat.lt_or_ge pid c'.procs.length with hlt | hge
      · rw [List.getElem?_append_left hlt] at hp
        exact ⟨p, hp, hc⟩
      · rw [List.getElem?_append_right hge] at hp
        have : p = ⟨req, [], sys.handler req⟩ := by
          have := List.mem_of_getElem? hp
          simpa using this
        rw [this] at hc
        cases hc
  · intro c' pid' req t o k prop r w ih hp hw
    by_cases h : pid = pid'
    · subst h
      constructor
      · intro hm
        refine ⟨_, getElem?_set_self' hp, ?_⟩
        rcases List.mem_cons.mp hm with he | he
        · obtain ⟨-, rfl⟩ := Prod.mk.inj he
          exact List.mem_cons_self
        · obtain ⟨p, hp', hc⟩ := ih.mp he
          rw [hp] at hp'
          cases hp'
          exact List.mem_cons_of_mem _ hc
      · rintro ⟨p, hp', hc⟩
        rw [getElem?_set_self' hp] at hp'
        cases hp'
        rcases List.mem_cons.mp hc with rfl | hc
        · exact List.mem_cons_self
        · exact List.mem_cons_of_mem _ (ih.mpr ⟨_, hp, hc⟩)
    · rw [List.getElem?_set_ne (Ne.symm h)]
      rw [← ih]
      simp [h]

/-- Every process still obeys its local specification. -/
theorem procs_sat {Q : Req → Trace S → S.Op → Prop} {R : Req → Trace S → Except ε α → Prop}
    (hsat : ∀ req, (sys.handler req).Sat (Q req) (R req) []) (acts : List (Action S Req)) :
    ∀ p ∈ (sys.run acts).procs, p.prog.Sat (Q p.req) (R p.req) p.trace := by
  revert acts
  apply sys.run_induction
    (I := fun c => ∀ p ∈ c.procs, p.prog.Sat (Q p.req) (R p.req) p.trace)
  · simp
  · intro c req ih p hp
    rcases List.mem_append.mp hp with hp | hp
    · exact ih p hp
    · rw [List.mem_singleton.mp hp]
      exact hsat req
  · intro c pid req t o k prop r w ih hp hw p hmem
    rcases List.mem_or_eq_of_mem_set hmem with hmem | rfl
    · exact ih p hmem
    · exact (ih _ (List.mem_of_getElem? hp)).2 r

/-- Every call of a trace was allowed after the calls before it. -/
theorem trace_issued {Q : Req → Trace S → S.Op → Prop} {R : Req → Trace S → Except ε α → Prop}
    (hsat : ∀ req, (sys.handler req).Sat (Q req) (R req) []) (acts : List (Action S Req)) :
    ∀ p ∈ (sys.run acts).procs, ∀ o r t, ⟨o, r⟩ :: t <:+ p.trace → Q p.req t o := by
  have key := sys.run_induction
    (I := fun c => (∀ p ∈ c.procs, p.prog.Sat (Q p.req) (R p.req) p.trace) ∧
      ∀ p ∈ c.procs, ∀ o r t, ⟨o, r⟩ :: t <:+ p.trace → Q p.req t o) ?_ ?_ ?_ acts
  · exact key.2
  · exact ⟨(fun p hp => nomatch hp), fun p hp => nomatch hp⟩
  · rintro c req ⟨hs, ht⟩
    constructor
    · intro p hp
      rcases List.mem_append.mp hp with hp | hp
      · exact hs p hp
      · rw [List.mem_singleton.mp hp]
        exact hsat req
    · intro p hp o r t hsuf
      rcases List.mem_append.mp hp with hp | hp
      · exact ht p hp o r t hsuf
      · rw [List.mem_singleton.mp hp] at hsuf
        cases List.suffix_nil.mp hsuf
  · rintro c pid req t o k prop r w ⟨hs, ht⟩ hp -
    have hcall := hs _ (List.mem_of_getElem? hp)
    constructor
    · intro p hmem
      rcases List.mem_or_eq_of_mem_set hmem with hmem | rfl
      · exact hs p hmem
      · exact hcall.2 r
    · intro p hmem o' r' t' hsuf
      rcases List.mem_or_eq_of_mem_set hmem with hmem | rfl
      · exact ht p hmem o' r' t' hsuf
      · rcases List.suffix_cons_iff.mp hsuf with he | hsuf
        · obtain ⟨hc, rfl⟩ := List.cons.inj he
          cases hc
          exact hcall.1
        · exact ht _ (List.mem_of_getElem? hp) o' r' t' hsuf

/-- The history of a longer schedule extends the one of a shorter; a process keeps its
request, and its result once it has one. -/
theorem run_mono {acts₀ acts : List (Action S Req)} (h : acts₀ <+: acts) :
    (sys.run acts₀).hist <:+ (sys.run acts).hist ∧
    ∀ (pid : ℕ) (p : Proc S ε α Req), (sys.run acts₀).procs[pid]? = some p →
      ∃ p' : Proc S ε α Req, (sys.run acts).procs[pid]? = some p' ∧ p'.req = p.req ∧
        p.trace <:+ p'.trace ∧ ((∀ o k, p.prog ≠ .call o k) → p' = p) := by
  obtain ⟨more, rfl⟩ := h
  induction more using List.reverseRecOn with
  | nil =>
      rw [List.append_nil]
      exact ⟨List.suffix_rfl, fun pid p hp => ⟨p, hp, rfl, List.suffix_rfl, fun _ => rfl⟩⟩
  | append_singleton more a ih =>
      obtain ⟨ihh, ihp⟩ := ih
      rw [← List.append_assoc, run_snoc]
      rcases sys.step_cases (sys.run (acts₀ ++ more)) a with h | ⟨req, -, h⟩ |
        ⟨pid', propose, req, t, o, k, r, w, -, hp', hw, h⟩
      · rw [h]; exact ⟨ihh, ihp⟩
      · rw [h]
        refine ⟨ihh, fun pid p hp => ?_⟩
        obtain ⟨p', hp', rest⟩ := ihp pid p hp
        exact ⟨p', by rw [List.getElem?_append_left (List.getElem?_eq_some_iff.mp hp').1]; exact hp',
          rest⟩
      · rw [h]
        refine ⟨ihh.trans (List.suffix_cons _ _), fun pid p hp => ?_⟩
        obtain ⟨p₁, hp₁, hreq, htr, hend⟩ := ihp pid p hp
        by_cases hpid : pid = pid'
        · subst hpid
          rw [hp'] at hp₁
          cases hp₁
          refine ⟨_, getElem?_set_self' hp', hreq, htr.trans (List.suffix_cons _ _), ?_⟩
          intro hn
          have := hend hn
          rw [← this] at hn
          exact absurd rfl (hn o k)
        · refine ⟨p₁, ?_, hreq, htr, hend⟩
          rw [List.getElem?_set_ne (Ne.symm hpid)]
          exact hp₁

/-- Every event of a run was a call made at the end of a shorter schedule. -/
theorem fired {acts : List (Action S Req)} {pid : ℕ} {o : S.Op} {r : S.Reply o}
    {h : List (Event S)} (hs : (pid, ⟨o, r⟩) :: h <:+ (sys.run acts).hist) :
    ∃ acts₀ req t k prop w, acts₀ <+: acts ∧ (sys.run acts₀).hist = h ∧
      (sys.run acts₀).procs[pid]? = some ⟨req, t, .call o k⟩ ∧
      sys.perform (sys.run acts₀).world o prop = some (r, w) := by
  induction acts using List.reverseRecOn with
  | nil => simp at hs
  | append_singleton acts a ih =>
      have hpre : acts <+: acts ++ [a] := List.prefix_append _ _
      have lift : (pid, (⟨o, r⟩ : Call S)) :: h <:+ (sys.run acts).hist → ∃ acts₀ req t k prop w,
          acts₀ <+: acts ++ [a] ∧ (sys.run acts₀).hist = h ∧
          (sys.run acts₀).procs[pid]? = some ⟨req, t, .call o k⟩ ∧
          sys.perform (sys.run acts₀).world o prop = some (r, w) := by
        intro hs
        obtain ⟨acts₀, req, t, k, prop, w, hp, rest⟩ := ih hs
        exact ⟨acts₀, req, t, k, prop, w, hp.trans hpre, rest⟩
      rw [run_snoc] at hs
      rcases sys.step_cases (sys.run acts) a with he | ⟨req, -, he⟩ |
        ⟨pid', propose, req, t, o', k, r', w, -, hp', hw, he⟩
      · rw [he] at hs; exact lift hs
      · rw [he] at hs; exact lift hs
      · rw [he] at hs
        rcases List.suffix_cons_iff.mp hs with heq | hs
        · obtain ⟨hev, rfl⟩ := List.cons.inj heq
          obtain ⟨rfl, hcall⟩ := Prod.mk.inj hev
          cases hcall
          exact ⟨acts, req, t, k, propose o, w, hpre, rfl, hp', hw⟩
        · exact lift hs

/-- Every earlier history belongs to a shorter schedule. -/
theorem prefix_of_suffix {acts : List (Action S Req)} {h : List (Event S)}
    (hs : h <:+ (sys.run acts).hist) : ∃ acts₀, acts₀ <+: acts ∧ (sys.run acts₀).hist = h := by
  induction acts using List.reverseRecOn with
  | nil => exact ⟨[], List.nil_prefix, (List.suffix_nil.mp hs).symm⟩
  | append_singleton acts a ih =>
      have lift : h <:+ (sys.run acts).hist → ∃ acts₀, acts₀ <+: acts ++ [a] ∧
          (sys.run acts₀).hist = h := by
        intro hs
        obtain ⟨acts₀, hpre, he⟩ := ih hs
        exact ⟨acts₀, hpre.trans (List.prefix_append _ _), he⟩
      have hlast := sys.run_snoc acts a
      rcases sys.step_cases (sys.run acts) a with he | ⟨req, -, he⟩ |
        ⟨pid, propose, req, t, o, k, r, w, -, -, -, he⟩
      · rw [hlast, he] at hs
        exact lift hs
      · rw [hlast, he] at hs
        exact lift hs
      · rw [hlast, he] at hs
        rcases List.suffix_cons_iff.mp hs with hh | hs
        · exact ⟨acts ++ [a], List.prefix_rfl, by rw [hlast, he, hh]⟩
        · exact lift hs

/-- An event of the history has a past. -/
theorem exists_past {l : List (Event S)} {e : Event S} (h : e ∈ l) : ∃ past, e :: past <:+ l := by
  obtain ⟨before, past, rfl⟩ := List.append_of_mem h
  exact ⟨past, List.suffix_append _ _⟩

/-! ### The rules for runs -/

/-- **What a program issues obeys its specification.**  The calls it had made by then are its
earlier events in the run. -/
theorem issued {Q : Req → Trace S → S.Op → Prop} {R : Req → Trace S → Except ε α → Prop}
    (hsat : ∀ req, (sys.handler req).Sat (Q req) (R req) []) {acts : List (Action S Req)}
    {pid : ℕ} {o : S.Op} {r : S.Reply o} {h : List (Event S)}
    (hs : (pid, ⟨o, r⟩) :: h <:+ (sys.run acts).hist) :
    ∃ p, (sys.run acts).procs[pid]? = some p ∧ ⟨o, r⟩ ∈ p.trace ∧
      ∃ t, Q p.req t o ∧ ∀ c, c ∈ t ↔ (pid, c) ∈ h := by
  obtain ⟨acts₀, req, t, k, prop, w, hpre, rfl, hp, -⟩ := sys.fired hs
  obtain ⟨-, hkeep⟩ := sys.run_mono hpre
  obtain ⟨p', hp', hreq, -, -⟩ := hkeep pid _ hp
  obtain ⟨p'', hp'', hin⟩ := (sys.trace_iff_hist acts pid ⟨o, r⟩).mp (hs.subset List.mem_cons_self)
  rw [hp'] at hp''
  cases hp''
  refine ⟨p', hp', hin, t, ?_, ?_⟩
  · rw [hreq]
    exact (sys.procs_sat hsat acts₀ _ (List.mem_of_getElem? hp)).1
  · intro c
    rw [sys.trace_iff_hist acts₀ pid c, hp]
    simp

/-- What every call keeps true of the world and its history stays true as the schedule goes on. -/
theorem world_extends {I : W → List (Event S) → Prop} (acts : List (Action S Req))
    (h0 : I (sys.run acts).world (sys.run acts).hist)
    (hcall : ∀ w h pid o prop r w', I w h → sys.perform w o prop = some (r, w') →
      I w' ((pid, ⟨o, r⟩) :: h)) (more : List (Action S Req)) :
    I (sys.run (acts ++ more)).world (sys.run (acts ++ more)).hist := by
  induction more using List.reverseRecOn with
  | nil =>
      rw [List.append_nil]
      exact h0
  | append_singleton more a ih =>
      rw [← List.append_assoc, run_snoc]
      rcases sys.step_cases (sys.run (acts ++ more)) a with h | ⟨req, -, h⟩ |
        ⟨pid, propose, req, t, o, k, r, w, -, -, hw, h⟩
      · rw [h]; exact ih
      · rw [h]; exact ih
      · rw [h]; exact hcall _ _ _ _ _ _ _ ih hw

/-- Invariants of the world and its history. -/
theorem world_induction {I : W → List (Event S) → Prop} (h0 : I sys.init [])
    (hcall : ∀ w h pid o prop r w', I w h → sys.perform w o prop = some (r, w') →
      I w' ((pid, ⟨o, r⟩) :: h)) (acts : List (Action S Req)) :
    I (sys.run acts).world (sys.run acts).hist :=
  sys.world_extends [] h0 hcall acts

/-- **What a program is told is explained by the world.** -/
theorem answered {I : W → List (Event S) → Prop} (h0 : I sys.init [])
    (hcall : ∀ w h pid o prop r w', I w h → sys.perform w o prop = some (r, w') →
      I w' ((pid, ⟨o, r⟩) :: h)) {acts : List (Action S Req)}
    {pid : ℕ} {o : S.Op} {r : S.Reply o} {h : List (Event S)}
    (hs : (pid, ⟨o, r⟩) :: h <:+ (sys.run acts).hist) :
    ∃ w prop w', I w h ∧ sys.perform w o prop = some (r, w') := by
  obtain ⟨acts₀, req, t, k, prop, w, hpre, rfl, hp, hw⟩ := sys.fired hs
  exact ⟨_, prop, w, sys.world_induction h0 hcall acts₀, hw⟩

/-- **How a program ends obeys its specification.** -/
theorem ended {Q : Req → Trace S → S.Op → Prop} {R : Req → Trace S → Except ε α → Prop}
    (hsat : ∀ req, (sys.handler req).Sat (Q req) (R req) []) {acts : List (Action S Req)}
    {pid : ℕ} {p : Proc S ε α Req} (hp : (sys.run acts).procs[pid]? = some p) :
    (∃ a, p.prog = .ret a ∧ R p.req p.trace (.ok a)) ∨
    (∃ e, p.prog = .raise e ∧ R p.req p.trace (.error e)) ∨
    (∃ o k, p.prog = .call o k ∧ Q p.req p.trace o) := by
  have h := sys.procs_sat hsat acts p (List.mem_of_getElem? hp)
  cases hprog : p.prog with
  | ret a => rw [hprog] at h; exact .inl ⟨a, rfl, h⟩
  | raise e => rw [hprog] at h; exact .inr (.inl ⟨e, rfl, h⟩)
  | call o k => rw [hprog] at h; exact .inr (.inr ⟨o, k, rfl, h.1⟩)

end System

end Effects
