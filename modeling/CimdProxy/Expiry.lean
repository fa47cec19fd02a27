import CimdProxy.CodeFlow

/-! # When sealed expiries are honoured

A state and a code both carry an `exp`.  `/token` compares it with its clock; `/callback` never looks
at it and relies on the time-to-live of Fernet, which counts from the packing and lets the last
second pass.  `sealed_expiry_honoured_iff` says for which envelopes the two agree. -/

namespace CimdProxy

open Py Effects

/-- The expiry sealed in a state or a code. -/
def Envelope.exp? : Envelope → Option ℤ
  | .authorize e => some e.exp
  | .code e => some e.exp
  | _ => none

section Expiry

variable [Platform]

/-- The process accepted the sealed text at the second `t`: `/callback` opened it as a state, or
`/token` read `t` on its clock and sent the code in it upstream. -/
def Accepts (c : State) (pid : ℕ) (token : Str) (t : ℤ) : Prop :=
  (∃ params blob env, Serves c pid (.callback params) ∧ params.state = some token ∧
    (pid, did (.fernetDecrypt token (some 600)) (t, some blob)) ∈ c.hist ∧
    readAs blob .authorize = .ok env) ∨
  (∃ form now r reply past, Serves c pid (.token form) ∧ form.code = some token ∧
    Dict.get? r.form "grant_type" = some (.str "authorization_code") ∧
    (pid, did (.http r) reply) :: past <:+ c.hist ∧ (pid, did .time now) ∈ past ∧ now.whole = t)

variable {app : App} {acts : Schedule} {pid : ℕ} {e : Envelope} {tok : FernetToken} {exp : ℤ}

/-- A code is accepted before it expires, and a state at most 600 seconds after it was packed. -/
theorem accepts_bound {blob : Bytes} (hwf : e.WF) (hb : e.blob = some blob) {pid' : ℕ}
    (hseal : (pid', did (.fernetEncrypt blob) tok) ∈ (app.run acts).hist) {t : ℤ}
    (h : Accepts (app.run acts) pid tok.text t) :
    (e.kind = .authorize ∧ t ≤ tok.stamp + 600) ∨ ∃ env, e = .code env ∧ t < env.exp := by
  rcases h with ⟨params, blob', env, hserves, hstate, hopen, hread⟩ |
    ⟨form, now, r, reply, past, hserves, hcode, hgrant, hsent, hclock, rfl⟩
  · obtain ⟨past, hpast⟩ := System.exists_past hopen
    obtain ⟨pid'', tok', past', hs, htext, httl⟩ := decrypted_encrypted hpast
    have hmem := ((hs.trans (List.suffix_cons _ _)).trans hpast).subset List.mem_cons_self
    obtain ⟨rfl, hstamp⟩ := encrypted_unique hseal hmem htext.symm
    rw [readAs_blob hwf hb] at hread
    split_ifs at hread with hk
    refine .inl ⟨hk, ?_⟩
    simp only [withinTtl, Bool.not_eq_true', Bool.or_eq_false_iff, decide_eq_false_iff_not,
      not_lt] at httl
    rw [hstamp]
    exact httl.1
  · obtain ⟨t, env, entry, hr, hone, hexact, rfl⟩ := redeems_of_sent hserves hsent hgrant
    obtain ⟨⟨code, hcode', hopened⟩, ⟨verifier, now', -, hnow', hcheck⟩, -⟩ := hr
    obtain rfl := Option.some.inj (hcode.symm.trans hcode')
    obtain rfl := hone now' now hnow' ((hexact _).mpr hclock)
    have hpast : past <:+ (app.run acts).hist := (List.suffix_cons _ _).trans hsent
    obtain ⟨opening, f, blob', hopens, hread⟩ := hopened.opens hexact.within
    obtain ⟨pid'', tok', past', hs, htext, -⟩ := decrypted_encrypted (hopens.trans hpast)
    have hmem := (((hs.trans (List.suffix_cons _ _)).trans hopens).trans hpast).subset
      List.mem_cons_self
    obtain ⟨rfl, -⟩ := encrypted_unique hseal hmem htext.symm
    rw [readAs_blob hwf hb] at hread
    split_ifs at hread
    have he : e.reread = .code env := Except.ok.inj hread
    refine .inr ⟨env, ?_, (Token.checkCode_eq_ok hcheck).1⟩
    cases e with
    | code e' => exact he
    | authorize e' => cases he
    | refresh e' => cases he
    | registration e' => cases he

/-- A state is still accepted 600 seconds after it was packed. -/
theorem accepts_last_second {env : AuthorizeEnvelope} {past : History}
    (hseal : Seals (app.run acts).hist pid (.authorize env) tok past) :
    ∃ more pid', Accepts (app.run (acts ++ more)) pid' tok.text (tok.stamp + 600) := by
  obtain ⟨hwf, blob, hb, hm⟩ := hseal
  obtain ⟨s, hfind, hsb, hst⟩ := run_logKeeps acts pid blob tok (hm.subset List.mem_cons_self)
  let params : Callback.CallbackParams := ⟨none, some tok.text, none, none⟩
  let propose : (o : Op) → Reply o := fun o => match o with
    | .fernetDecrypt _ _ => (tok.stamp + 600, none)
    | o => idleReply o
  have hstate : params.state = some tok.text := rfl
  obtain ⟨k, hcall⟩ := Callback.callback_eq_call app.config hstate tok.ascii
  have hk : (proxy app).handler (.callback params) = .call (.fernetDecrypt tok.text (some 600)) k :=
    hcall
  have hopen : fernetOpen (app.run acts).world.fernet tok.text (some 600) (tok.stamp + 600) =
      some blob := by
    unfold fernetOpen
    rw [hfind]
    dsimp only
    rw [if_pos, hsb]
    rw [hst]
    simp only [withinTtl, Bool.not_eq_true', Bool.or_eq_false_iff, decide_eq_false_iff_not]
    unfold maxClockSkew
    constructor
    · exact lt_irrefl _
    · omega
  have hperform : World.perform (app.run acts).world (.fernetDecrypt tok.text (some 600))
      (propose (.fernetDecrypt tok.text (some 600))) =
        some ((tok.stamp + 600, some blob), (app.run acts).world) := by
    rw [World.perform_fernetDecrypt]
    change some ((tok.stamp + 600, fernetOpen _ _ _ (tok.stamp + 600)), _) = _
    rw [hopen]
  have hrun := (proxy app).run_start_act acts hk hperform
  refine ⟨[.start (.callback params), .act (app.run acts).procs.length propose],
    (app.run acts).procs.length, ?_⟩
  unfold App.run at hrun ⊢
  rw [hrun]
  refine .inl ⟨params, blob, .authorize env, ⟨_, List.getElem?_concat_length, rfl⟩, rfl,
    List.mem_cons_self, ?_⟩
  rw [readAs_blob hwf hb]
  exact if_pos rfl

/-- **When a sealed expiry is honoured to the second**: always for a code; for a state only when Fernet
stamped it in a second before the one `/authorize` counted the expiry from. -/
theorem sealed_expiry_honoured_iff (app : App) (acts : Schedule) (pid : ℕ) (e : Envelope)
    (tok : FernetToken) (past : History) (exp : ℤ) (hseal : Seals (app.run acts).hist pid e tok past)
    (hexp : e.exp? = some exp) :
    (∀ (more : Schedule) (pid' : ℕ) (t : ℤ), Accepts (app.run (acts ++ more)) pid' tok.text t →
      t < exp) ↔ e.kind = .code ∨ tok.stamp + 600 < exp := by
  obtain ⟨hwf, blob, hb, hm⟩ := hseal
  constructor
  · intro h
    cases e with
    | authorize env =>
        have hseal : Seals (app.run acts).hist pid (.authorize env) tok past := ⟨hwf, blob, hb, hm⟩
        obtain ⟨more, pid', ha⟩ := accepts_last_second hseal
        exact .inr (h more pid' _ ha)
    | code env => exact .inl rfl
    | refresh env => cases hexp
    | registration env => cases hexp
  · intro hcond more pid' t ha
    have hmem : (pid, did (.fernetEncrypt blob) tok) ∈ (app.run (acts ++ more)).hist :=
      (hm.trans ((proxy app).run_mono (List.prefix_append acts more)).1).subset List.mem_cons_self
    rcases accepts_bound hwf hb hmem ha with ⟨hk, ht⟩ | ⟨env, rfl, ht⟩
    · rcases hcond with hc | hc
      · cases hk.symm.trans hc
      · omega
    · rw [← Option.some.inj hexp]
      exact ht

end Expiry

/-! ### A state opened in its last second -/

/-- Replies with the clock of Fernet at `t`. -/
def openingAt (t : ℤ) : (o : Op) → Reply o
  | .fernetDecrypt _ _ => (t, none)
  | o => idleReply o

/-- The flow up to `/callback`, which opens the state 600 seconds after everything else. -/
def lateFlow : Schedule :=
  .start (.register sampleBody) ::
    List.replicate 3 (.act 0 (sealingAs "registration" isAscii_registration)) ++
  .start (.authorize sampleParams) ::
    List.replicate 5 (.act 1 (sealingAs "state" isAscii_state)) ++
  .start (.callback ⟨some "upstream".toList, some "state".toList, none, none⟩) ::
    [.act 2 (openingAt 600)]

/-- Whether the last event opens, in the second it expires, the state of a `/callback` request. -/
def opensExpired [Platform] (c : State) : Bool :=
  match c.hist with
  | (pid, ⟨.fernetDecrypt token (some 600), (t, some blob)⟩) :: _ =>
      (match readAs blob .authorize with
        | .ok (.authorize env) => t == 600 && env.exp == 600
        | _ => false) &&
      match c.procs[pid]? with
      | some ⟨.callback params, _, _⟩ => params.state == some token
      | _ => false
  | _ => false

theorem lateFlow_opensExpired :
    letI := Platform.plain
    opensExpired (logApp.run lateFlow) = true := by
  decide +kernel

/-- What `opensExpired` found. -/
theorem exists_of_opensExpired [Platform] {c : State} (h : opensExpired c = true) :
    ∃ pid params token env past, env.exp = 600 ∧ Serves c pid (.callback params) ∧
      params.state = some token ∧ Opens c.hist pid token (.authorize env) past ∧
      Accepts c pid token 600 := by
  unfold opensExpired at h
  split at h
  · next pid token t blob past hh =>
      rw [Bool.and_eq_true] at h
      obtain ⟨hread, hp⟩ := h
      split at hread
      · next env henv =>
          rw [Bool.and_eq_true, beq_iff_eq, beq_iff_eq] at hread
          obtain ⟨rfl, hexp⟩ := hread
          split at hp
          · next params tr prog hproc =>
              have hserves : Serves c pid (.callback params) := ⟨_, hproc, rfl⟩
              have hstate : params.state = some token := by simpa using hp
              refine ⟨pid, params, token, env, past, hexp, hserves, hstate,
                ⟨600, blob, by rw [hh]; exact List.suffix_rfl, henv⟩, .inl ?_⟩
              exact ⟨params, blob, _, hserves, hstate, by rw [hh]; exact List.mem_cons_self, henv⟩
          · cases hp
      · cases hread
  · cases h

theorem lateFlow_state :
    letI := Platform.plain
    ∃ pid env tok past pid', Seals (logApp.run lateFlow).hist pid (.authorize env) tok past ∧
      env.exp = 600 ∧ Accepts (logApp.run lateFlow) pid' tok.text 600 := by
  let := Platform.plain
  obtain ⟨pid', params, token, env, past, hexp, hserves, hstate, hopens, hacc⟩ :=
    exists_of_opensExpired lateFlow_opensExpired
  obtain ⟨a, rfl, rfl, ha⟩ := accepted_of_opens hopens (List.suffix_refl (logApp.run lateFlow).hist)
  obtain ⟨past', hs⟩ := ha.sealed
  obtain ⟨now, blob, hm, -⟩ := hopens
  exact ⟨a.pid, _, a.tok, past', pid', hs.mono ((List.suffix_cons _ _).trans hm), hexp, hacc⟩

/-- `/callback` accepts a state in the second its `exp` says it has expired. -/
theorem state_accepted_at_exp :
    letI := Platform.plain
    ¬ ∀ (acts more : Schedule) (pid pid' : ℕ) (e : Envelope) (tok : FernetToken) (past : History)
      (exp t : ℤ), Seals (logApp.run acts).hist pid e tok past → e.exp? = some exp →
        Accepts (logApp.run (acts ++ more)) pid' tok.text t → t < exp := by
  let := Platform.plain
  intro h
  obtain ⟨pid, env, tok, past, pid', hs, hexp, hacc⟩ := lateFlow_state
  rw [← List.append_nil lateFlow] at hacc
  have hlt := h lateFlow [] pid pid' _ tok past env.exp 600 hs rfl hacc
  omega

theorem sealed_expiry_honoured_iff_lateFlow :
    letI := Platform.plain
    ∃ pid env tok past, Seals (logApp.run lateFlow).hist pid (.authorize env) tok past ∧
      ((∀ (more : Schedule) (pid' : ℕ) (t : ℤ),
          Accepts (logApp.run (lateFlow ++ more)) pid' tok.text t → t < env.exp) ↔
        (Envelope.authorize env).kind = .code ∨ tok.stamp + 600 < env.exp) := by
  let := Platform.plain
  obtain ⟨pid, env, tok, past, pid', hs, -, -⟩ := lateFlow_state
  exact ⟨pid, env, tok, past, hs, sealed_expiry_honoured_iff logApp lateFlow pid _ tok past _ hs rfl⟩

end CimdProxy
