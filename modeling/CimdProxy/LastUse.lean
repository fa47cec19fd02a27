import CimdProxy.TokenTable

/-! # The last use of a token

An exchange reads the clock before it asks the upstream and writes that reading after the answer, with
an unconditional `UPDATE`.  `last_use_kept_iff` says in which interleavings the column still tells the
last use: exactly those in which no exchange of the token is overtaken by one that read a later time. -/

namespace CimdProxy

open Py Effects

/-! ### The newest touch -/

/-- The reading a successful touch of the row wrote. -/
def touchOf (id : Uuid) : Event proxyOps → Option Datetime
  | (_, ⟨.touch id' usedAt, .ok _⟩) => if id' = id then some usedAt else none
  | _ => none

/-- The reading of the newest touch of the row. -/
def lastTouch (h : History) (id : Uuid) : Option Datetime := h.findSome? (touchOf id)

/-- The process touched the row with this reading. -/
def Touched (h : History) (pid : ℕ) (id : Uuid) (usedAt : Datetime) : Prop :=
  (pid, did (.touch id usedAt) (.ok ())) ∈ h

theorem touchOf_eq_some {id : Uuid} {e : Event proxyOps} {usedAt : Datetime} :
    touchOf id e = some usedAt ↔ ∃ pid, e = (pid, did (.touch id usedAt) (.ok ())) := by
  constructor
  · intro h
    unfold touchOf at h
    split at h
    · next pid id' usedAt' _ =>
        split_ifs at h with hid
        obtain rfl := Option.some.inj h
        exact ⟨pid, by rw [hid]⟩
    · cases h
  · rintro ⟨pid, rfl⟩
    exact if_pos rfl

theorem lastTouch_eq_none {h : History} {id : Uuid} :
    lastTouch h id = none ↔ ∀ pid usedAt, ¬ Touched h pid id usedAt := by
  unfold lastTouch
  rw [List.findSome?_eq_none_iff]
  constructor
  · intro hn pid usedAt hm
    have := hn _ hm
    rw [touchOf_eq_some.mpr ⟨pid, rfl⟩] at this
    cases this
  · intro hn e he
    cases htouch : touchOf id e with
    | none => rfl
    | some usedAt =>
        obtain ⟨pid, rfl⟩ := touchOf_eq_some.mp htouch
        exact absurd he (hn pid usedAt)

/-- The newest touch, with what came before it. -/
theorem lastTouch_eq_some {h : History} {id : Uuid} {usedAt : Datetime}
    (hl : lastTouch h id = some usedAt) :
    ∃ pid past, (pid, did (.touch id usedAt) (.ok ())) :: past <:+ h ∧
      ∀ pid' usedAt', Touched h pid' id usedAt' →
        (pid', did (.touch id usedAt') (.ok ())) = (pid, did (.touch id usedAt) (.ok ())) ∨
        Touched past pid' id usedAt' := by
  induction h with
  | nil => cases hl
  | cons e h ih =>
      unfold lastTouch at hl
      rw [List.findSome?_cons] at hl
      cases htouch : touchOf id e with
      | some usedAt' =>
          rw [htouch] at hl
          obtain rfl := Option.some.inj hl
          obtain ⟨pid, rfl⟩ := touchOf_eq_some.mp htouch
          exact ⟨pid, h, List.suffix_rfl, fun pid' usedAt'' hm => List.mem_cons.mp hm⟩
      | none =>
          rw [htouch] at hl
          obtain ⟨pid, past, hs, hall⟩ := ih hl
          refine ⟨pid, past, hs.trans (List.suffix_cons _ _), fun pid' usedAt' hm => ?_⟩
          rcases List.mem_cons.mp hm with rfl | hm
          · rw [touchOf_eq_some.mpr ⟨pid', rfl⟩] at htouch
            cases htouch
          · exact hall pid' usedAt' hm

/-! ### The column and the newest touch -/

/-- What one operation does to the column. -/
theorem lastUsed_perform {w w' : World} {o : Op} {p r : Reply o} {id : Uuid} {row : Row}
    (hok : TableOk w.table) (hp : w.perform o p = some (r, w')) (hr : rowOf w.table id = some row)
    (pid : ℕ) : ∃ row', rowOf w'.table id = some row' ∧
      row'.record.lastUsedAt = (touchOf id (pid, did o r)).or row.record.lastUsedAt := by
  obtain ⟨row', hr', -, -, hused⟩ := rowOf_perform hok hp hr
  refine ⟨row', hr', ?_⟩
  cases htouch : touchOf id (pid, did o r) with
  | none =>
      rcases hused with hsame | ⟨usedAt, -, hcall⟩
      · exact hsame
      · rw [touchOf_eq_some.mpr ⟨pid, by rw [hcall]⟩] at htouch
        cases htouch
  | some usedAt =>
      obtain ⟨pid', he⟩ := touchOf_eq_some.mp htouch
      obtain ⟨-, hcall⟩ := Prod.mk.inj he
      cases hcall
      cases p with
      | error e => cases hp
      | ok u =>
          obtain ⟨-, rfl⟩ := Prod.mk.inj (Option.some.inj hp)
          rw [rowOf_updateLastUsed, hr, Option.map_some, (mem_of_rowOf hr).2,
            if_pos (beq_self_eq_true id)] at hr'
          rw [← Option.some.inj hr']
          rfl

theorem lastTouch_cons (e : Event proxyOps) (h : History) (id : Uuid) :
    lastTouch (e :: h) id = (touchOf id e).or (lastTouch h id) := by
  unfold lastTouch
  rw [List.findSome?_cons]
  cases touchOf id e <;> rfl

section Runs

variable [Platform] {app : App} {acts : Schedule}

/-- A touch follows the lookup and the clock reading of its exchange. -/
theorem touched_acts {pid : ℕ} {id : Uuid} {usedAt : Datetime} {r : Reply (.touch id usedAt)}
    {past : History} (h : (pid, did (.touch id usedAt) r) :: past <:+ (app.run acts).hist) :
    ∃ svc form hash record at_ jti req body, Exchanges app (app.run acts) pid svc form ∧
      id = record.id ∧
      Exactly pid (PatService.grantTrace hash record usedAt at_ jti req (.response 200 body)) past := by
  obtain ⟨svc, form, t, hx, ⟨hash, record, at_, jti, req, body, hid, rfl⟩, ht⟩ :=
    issues_exchange h (.inr rfl)
  exact ⟨svc, form, hash, record, at_, jti, req, body, hx, hid, ht⟩

/-- A row that is touched had been inserted. -/
theorem touched_inserted {pid : ℕ} {id : Uuid} {usedAt : Datetime} {past : History}
    (h : (pid, did (.touch id usedAt) (.ok ())) :: past <:+ (app.run acts).hist) :
    ∃ pid' record hash, (pid', did (.insert record hash) (.ok ())) ∈ past ∧ record.id = id := by
  obtain ⟨svc, form, hash, record, at_, jti, req, body, -, rfl, ht⟩ := touched_acts h
  have hfound : (pid, did (.findByHash hash) (.ok (some record))) ∈ past :=
    (ht _).mp (by simp [PatService.grantTrace])
  obtain ⟨past', hpast⟩ := System.exists_past hfound
  have hsuf : past <:+ (app.run acts).hist := (List.suffix_cons _ _).trans h
  obtain ⟨pid', inserted, hm, hfixed⟩ := lookup_inserted (hpast.trans hsuf)
  have hrecord := congrArg (fun r => r.record.id) hfixed
  exact ⟨pid', inserted, hash, ((List.suffix_cons _ _).trans hpast).subset hm, hrecord.symm⟩

/-- **The column holds the reading of the newest touch.** -/
theorem lastUsed_eq_lastTouch {id : Uuid} {row : Row}
    (hr : rowOf (app.run acts).world.table id = some row) :
    row.record.lastUsedAt = lastTouch (app.run acts).hist id := by
  have key := (proxy app).world_induction
    (I := fun w h => TableExplained w h ∧ (h <:+ (app.run acts).hist → ∀ row,
      rowOf w.table id = some row → row.record.lastUsedAt = lastTouch h id))
    ⟨.init, fun _ row h => nomatch h⟩ ?_ acts
  · exact key.2 List.suffix_rfl row hr
  rintro w h pid o p r w' ⟨hw, ih⟩ hp
  refine ⟨hw.perform hp, fun hs row' hr' => ?_⟩
  have hsuf := (List.suffix_cons _ _).trans hs
  rw [lastTouch_cons]
  cases hold : rowOf w.table id with
  | some row =>
      obtain ⟨row'', hr'', hused⟩ := lastUsed_perform hw.ok hp hold pid
      obtain rfl := Option.some.inj (hr'.symm.trans hr'')
      rw [hused, ih hsuf row hold]
  | none =>
      -- a row that is new has not been touched, because only inserted rows are
      obtain ⟨record, hash, hcall, rfl⟩ := rowOf_new hp hold hr'
      have hnone : lastTouch h id = none := by
        rw [lastTouch_eq_none]
        intro pid' usedAt hm
        obtain ⟨past, hpast⟩ := System.exists_past hm
        obtain ⟨pid'', record', hash', hins, rfl⟩ := touched_inserted (hpast.trans hsuf)
        obtain ⟨row, hrow, -⟩ := hw.inserted pid'' record' hash'
          (((List.suffix_cons _ _).trans hpast).subset hins)
        rw [hold] at hrow
        cases hrow
      have hcall' : touchOf id (pid, did o r) = none := by
        rw [hcall]
        rfl
      exact (congrArg₂ Option.or hcall' hnone).symm

/-- Touches are made by exchanges and are their last call; a recorded one makes a success. -/
theorem handler_touch (app : App) (req : Req) :
    (app.handler req).Sat (fun t _ => Free Op.isTouch t) (fun t x => ∀ id usedAt,
      did (.touch id usedAt) (.ok ()) ∈ t → ∃ d, x = .ok (Token.exchangeAnswer d)) [] := by
  by_cases hx : ∃ svc form, app.patService = some svc ∧ req = .token form ∧
      form.grantType = some tokenExchange
  · obtain ⟨svc, form, hsvc, rfl, hgrant⟩ := hx
    change (Token.token app.config app.patService form).Sat _ _ []
    rw [hsvc]
    unfold Token.token
    rw [Token.dispatch_exchange _ _ hgrant]
    refine Prog.Sat.attempt_bind (P := fun t x => ∀ id usedAt,
      did (.touch id usedAt) (.ok ()) ∈ t → ∃ d, x = .ok (Token.exchangeAnswer d)) ?_ ?_
    · refine Prog.Sat.bind (svc.sat_exchange_touch _) ?_ ?_
      · exact fun t d _ _ _ _ _ => ⟨d, rfl⟩
      · intro t e _ h id usedAt hm
        obtain ⟨d, hd⟩ := h id usedAt hm
        cases hd
    · intro t x _ hx
      split
      · exact hx
      · intro id usedAt hm
        obtain ⟨d, hd⟩ := hx id usedAt hm
        cases hd
      · intro id usedAt hm
        obtain ⟨d, hd⟩ := hx id usedAt hm
        cases hd
  · -- a request that issues no touch has none in its trace
    refine ((handler_sat app req).invariant (I := Free Op.isTouch) .nil ?_).mono
      (fun _ _ h => h.1) (fun t x h id usedAt hm => absurd hm (h.1.not_mem _ rfl))
    refine fun t o r h ho => h.cons ?_ r
    cases o with
    | touch id usedAt =>
        obtain ⟨svc, form, hsvc, rfl, hgrant, -⟩ := ho.tables
        exact absurd ⟨svc, form, hsvc, rfl, hgrant⟩ hx
    | _ => rfl

/-! ### Exchanges that succeeded -/

/-- The exchange of the token `id` succeeded, and read the clock at `usedAt`. -/
def Succeeded (app : App) (c : State) (pid : ℕ) (id : Uuid) (usedAt : Datetime) : Prop :=
  ∃ svc form payload hash record, Exchanges app c pid svc form ∧
    Answered c pid (Token.exchangeAnswer payload) ∧
    (pid, did (.findByHash hash) (.ok (some record))) ∈ c.hist ∧ record.id = id ∧
    (pid, did .utcnow usedAt) ∈ c.hist

/-- An exchange succeeds by touching its row with its clock reading. -/
theorem succeeded_iff_touched {pid : ℕ} {id : Uuid} {usedAt : Datetime} :
    Succeeded app (app.run acts) pid id usedAt ↔ Touched (app.run acts).hist pid id usedAt := by
  constructor
  · rintro ⟨svc, form, payload, hash, record, hx, ha, hfound, rfl, hclock⟩
    obtain ⟨t, ht, hc⟩ := ended_concludes hx.1 ha
    obtain ⟨hash', record', now, at_, jti, r, pl, v, -, -, -, rfl⟩ :=
      (hc.succeeds hx.2.1 payload rfl).succeeds payload rfl
    have hrecord : record = record' := by
      have := (ht _).mpr hfound
      simp only [PatService.grantTrace, List.mem_cons, List.not_mem_nil, or_false] at this
      rcases this with h | h | h | h | h | h <;> cases h
      rfl
    have hnow : usedAt = now := by
      have := (ht _).mpr hclock
      simp only [PatService.grantTrace, List.mem_cons, List.not_mem_nil, or_false] at this
      rcases this with h | h | h | h | h | h <;> cases h
      rfl
    rw [hrecord, hnow]
    exact (ht _).mp List.mem_cons_self
  · intro hm
    obtain ⟨past, hpast⟩ := System.exists_past hm
    obtain ⟨svc, form, hash, record, at_, jti, req, body, hx, rfl, ht⟩ := touched_acts hpast
    have hin : ∀ c, c ∈ PatService.grantTrace hash record usedAt at_ jti req (.response 200 body) →
        (pid, c) ∈ (app.run acts).hist := by
      intro c hc
      exact ((List.suffix_cons _ _).trans hpast).subset ((ht c).mp hc)
    obtain ⟨p, hp, htrace⟩ := ((proxy app).trace_iff_hist acts pid _).mp hm
    obtain ⟨d, hd⟩ : ∃ d, p.prog = .ret (Token.exchangeAnswer d) := by
      rcases (proxy app).ended (handler_touch app) hp with ⟨a, ha, h⟩ | ⟨e, -, h⟩ | ⟨o, k, -, h⟩
      · obtain ⟨d, hd⟩ := h _ _ htrace
        exact ⟨d, by rw [ha, Except.ok.inj hd]⟩
      · obtain ⟨d, hd⟩ := h _ _ htrace
        cases hd
      · exact absurd htrace (h.not_mem _ rfl)
    exact ⟨svc, form, d, hash, record, hx, ⟨p, hp, hd⟩, hin _ (by simp [PatService.grantTrace]), rfl,
      hin _ (by simp [PatService.grantTrace])⟩

/-- The latest clock reading among the exchanges of the token that succeeded. -/
def LatestUse (app : App) (c : State) (id : Uuid) (usedAt : Datetime) : Prop :=
  (∃ pid, Succeeded app c pid id usedAt) ∧
  ∀ pid' usedAt', Succeeded app c pid' id usedAt' → usedAt' ≤ usedAt

/-! ### When the column tells the last use -/

/-- The clock never goes back. -/
def ClockRuns (h : History) : Prop :=
  ∀ (pid : ℕ) (now : Datetime) (past : History), (pid, did .utcnow now) :: past <:+ h →
    ∀ (pid' : ℕ) (now' : Datetime), (pid', did .utcnow now') ∈ past → now' ≤ now

/-- An exchange of the token read the clock before another, at an earlier time, and touched the row
after it. -/
def Overtaken (h : History) (id : Uuid) : Prop :=
  ∃ pid usedAt past pid' usedAt' past', (pid, did (.touch id usedAt) (.ok ())) :: past <:+ h ∧
    Touched past pid' id usedAt' ∧ (pid', did .utcnow usedAt') :: past' <:+ past ∧
    (pid, did .utcnow usedAt) ∈ past' ∧ usedAt < usedAt'

/-- In every state of the run the column has not gone back and is the latest use. -/
structure LastUseKept (app : App) (acts : Schedule) (id : Uuid) : Prop where
  grows : ∀ acts₁ acts₂, acts₁ <+: acts₂ → acts₂ <+: acts → ∀ row₁ usedAt₁,
    rowOf (app.run acts₁).world.table id = some row₁ → row₁.record.lastUsedAt = some usedAt₁ →
    ∃ row₂ usedAt₂, rowOf (app.run acts₂).world.table id = some row₂ ∧
      row₂.record.lastUsedAt = some usedAt₂ ∧ usedAt₁ ≤ usedAt₂
  latest : ∀ acts₁, acts₁ <+: acts → ∀ row, rowOf (app.run acts₁).world.table id = some row →
    ∀ usedAt, row.record.lastUsedAt = some usedAt ↔ LatestUse app (app.run acts₁) id usedAt

/-- Touches in a run without overtaking write later and later readings. -/
theorem touches_sorted {id : Uuid} (hclock : ClockRuns (app.run acts).hist)
    (hno : ¬ Overtaken (app.run acts).hist id) {pid : ℕ} {usedAt : Datetime} {past : History}
    (h : (pid, did (.touch id usedAt) (.ok ())) :: past <:+ (app.run acts).hist) {pid' : ℕ}
    {usedAt' : Datetime} (h' : Touched past pid' id usedAt') : usedAt' ≤ usedAt := by
  by_contra hlt
  rw [not_le] at hlt
  have hsuf : past <:+ (app.run acts).hist := (List.suffix_cons _ _).trans h
  obtain ⟨_, _, _, _, _, _, _, _, -, -, ht⟩ := touched_acts h
  have hread : (pid, did .utcnow usedAt) ∈ past := (ht _).mp (by simp [PatService.grantTrace])
  obtain ⟨touched, htouched⟩ := System.exists_past h'
  obtain ⟨_, _, _, _, _, _, _, _, -, -, ht'⟩ := touched_acts (htouched.trans hsuf)
  have hread' : (pid', did .utcnow usedAt') ∈ past :=
    ((List.suffix_cons _ _).trans htouched).subset ((ht' _).mp (by simp [PatService.grantTrace]))
  obtain ⟨past₁, hpast₁⟩ := System.exists_past hread
  obtain ⟨past₂, hpast₂⟩ := System.exists_past hread'
  -- the later reading was made later, because the clock never goes back
  have horder : (pid, did .utcnow usedAt) ∈ past₂ := by
    rcases List.suffix_or_suffix_of_suffix hpast₁ hpast₂ with hs | hs
    · rcases List.suffix_cons_iff.mp hs with he | hs
      · cases (Prod.mk.inj (List.cons.inj he).1).2
        exact absurd hlt (lt_irrefl _)
      · exact hs.subset List.mem_cons_self
    · rcases List.suffix_cons_iff.mp hs with he | hs
      · cases (Prod.mk.inj (List.cons.inj he).1).2
        exact absurd hlt (lt_irrefl _)
      · have := hclock pid usedAt past₁ (hpast₁.trans hsuf) pid' usedAt' (hs.subset List.mem_cons_self)
        exact absurd hlt (not_lt.mpr this)
  exact hno ⟨pid, usedAt, past, pid', usedAt', past₂, h, h', hpast₂, horder, hlt⟩

/-- Without overtaking, the newest touch is the latest use. -/
theorem lastTouch_iff_latestUse {id : Uuid} (hclock : ClockRuns (app.run acts).hist)
    (hno : ¬ Overtaken (app.run acts).hist id) {acts₁ : Schedule} (hpre : acts₁ <+: acts)
    {usedAt : Datetime} :
    lastTouch (app.run acts₁).hist id = some usedAt ↔ LatestUse app (app.run acts₁) id usedAt := by
  have hsuf : (app.run acts₁).hist <:+ (app.run acts).hist := ((proxy app).run_mono hpre).1
  have hlatest : ∀ usedAt, lastTouch (app.run acts₁).hist id = some usedAt →
      LatestUse app (app.run acts₁) id usedAt := by
    intro usedAt hl
    obtain ⟨pid, past, hs, hall⟩ := lastTouch_eq_some hl
    refine ⟨⟨pid, succeeded_iff_touched.mpr (hs.subset List.mem_cons_self)⟩, ?_⟩
    intro pid' usedAt' hsucc
    rcases hall pid' usedAt' (succeeded_iff_touched.mp hsucc) with he | hm
    · cases (Prod.mk.inj he).2
      exact le_refl _
    · exact touches_sorted hclock hno (hs.trans hsuf) hm
  refine ⟨hlatest usedAt, ?_⟩
  rintro ⟨⟨pid, hsucc⟩, hmax⟩
  cases hl : lastTouch (app.run acts₁).hist id with
  | none => exact absurd (succeeded_iff_touched.mp hsucc) (lastTouch_eq_none.mp hl pid usedAt)
  | some usedAt' =>
      obtain ⟨⟨pid', hsucc'⟩, hmax'⟩ := hlatest usedAt' hl
      rw [le_antisymm (hmax pid' usedAt' hsucc') (hmax' pid usedAt hsucc)]

/-- **When the column tells the last use.** -/
theorem last_use_kept_iff (app : App) (acts : Schedule) (id : Uuid)
    (hclock : ClockRuns (app.run acts).hist) :
    LastUseKept app acts id ↔ ¬ Overtaken (app.run acts).hist id := by
  constructor
  · rintro ⟨hgrows, -⟩ ⟨pid, usedAt, past, pid', usedAt', past', hs, hm, -, -, hlt⟩
    -- the state after the touch of the exchange that was overtaken, and the one before it
    obtain ⟨acts₂, hpre₂, hhist₂⟩ := (proxy app).prefix_of_suffix hs
    obtain ⟨before, hbefore⟩ := System.exists_past hm
    have hbefore₂ : (pid', did (.touch id usedAt') (.ok ())) :: before <:+ ((proxy app).run acts₂).hist :=
      hhist₂ ▸ hbefore.trans (List.suffix_cons _ _)
    obtain ⟨acts₁, hpre₁, hhist₁⟩ := (proxy app).prefix_of_suffix hbefore₂
    have hrow : ∀ acts₀, ∀ pid usedAt h, (app.run acts₀).hist = (pid, did (.touch id usedAt) (.ok ())) :: h →
        ∃ row, rowOf (app.run acts₀).world.table id = some row ∧ row.record.lastUsedAt = some usedAt := by
      intro acts₀ pid usedAt h he
      have hs : (pid, did (.touch id usedAt) (.ok ())) :: h <:+ (app.run acts₀).hist := by rw [he]
      obtain ⟨pid'', record, hash, hins, rfl⟩ := touched_inserted hs
      obtain ⟨row, hr, -⟩ := (run_tableExplained acts₀).inserted pid'' record hash
        (by rw [he]; exact List.mem_cons_of_mem _ hins)
      refine ⟨row, hr, ?_⟩
      rw [lastUsed_eq_lastTouch hr, he, lastTouch_cons, touchOf_eq_some.mpr ⟨pid, rfl⟩]
      rfl
    obtain ⟨row₁, hr₁, hu₁⟩ := hrow acts₁ pid' usedAt' before hhist₁
    obtain ⟨row₂, hr₂, hu₂⟩ := hrow acts₂ pid usedAt past hhist₂
    obtain ⟨row, u, hr, hu, hle⟩ := hgrows acts₁ acts₂ hpre₁ hpre₂ row₁ usedAt' hr₁ hu₁
    obtain rfl := Option.some.inj (hr.symm.trans hr₂)
    obtain rfl := Option.some.inj (hu.symm.trans hu₂)
    exact absurd hlt (not_lt.mpr hle)
  · intro hno
    refine ⟨fun acts₁ acts₂ h₁₂ h₂ row₁ usedAt₁ hr₁ hu₁ => ?_, fun acts₁ h₁ row hr usedAt => ?_⟩
    · obtain ⟨more, rfl⟩ := h₁₂
      obtain ⟨row₂, hr₂, -⟩ := row_becomes hr₁ more
      have hs : (app.run acts₁).hist <:+ (app.run (acts₁ ++ more)).hist :=
        ((proxy app).run_mono (List.prefix_append _ _)).1
      rw [lastUsed_eq_lastTouch hr₁] at hu₁
      obtain ⟨pid, past, htouch, -⟩ := lastTouch_eq_some hu₁
      have hm : Touched (app.run (acts₁ ++ more)).hist pid id usedAt₁ :=
        hs.subset (htouch.subset List.mem_cons_self)
      cases hl : lastTouch (app.run (acts₁ ++ more)).hist id with
      | none => exact absurd hm (lastTouch_eq_none.mp hl pid usedAt₁)
      | some usedAt₂ =>
          refine ⟨row₂, usedAt₂, hr₂, by rw [lastUsed_eq_lastTouch hr₂, hl], ?_⟩
          exact ((lastTouch_iff_latestUse hclock hno h₂).mp hl).2 pid usedAt₁
            (succeeded_iff_touched.mpr hm)
    · rw [lastUsed_eq_lastTouch hr]
      exact lastTouch_iff_latestUse hclock hno h₁

end Runs

/-! ### Two exchanges at once -/

def clockReading : Event proxyOps → Option Datetime
  | (_, ⟨.utcnow, now⟩) => some now
  | _ => none

/-- Readings, newest first, that never go back. -/
def Falls (l : List Datetime) : Prop := l.Pairwise (fun newer older => older ≤ newer)

instance (l : List Datetime) : Decidable (Falls l) := inferInstanceAs (Decidable (List.Pairwise _ l))

theorem Falls.suffix {l l' : List Datetime} (h : Falls l) (hs : l' <:+ l) : Falls l' :=
  List.Pairwise.sublist hs.sublist h

/-- In a falling list of what the events carry, an event carries no less than those before it. -/
theorem le_of_falls {f : Event proxyOps → Option Datetime} {h past : History} {e e' : Event proxyOps}
    {a a' : Datetime} (hf : Falls (h.filterMap f)) (hs : e :: past <:+ h) (he : f e = some a)
    (hm : e' ∈ past) (he' : f e' = some a') : a' ≤ a := by
  have hf' : Falls ((e :: past).filterMap f) := hf.suffix (hs.filterMap f)
  rw [List.filterMap_cons_some he] at hf'
  exact List.rel_of_pairwise_cons hf' (List.mem_filterMap.mpr ⟨e', hm, he'⟩)

theorem clockRuns_of_falls {h : History} (hf : Falls (h.filterMap clockReading)) : ClockRuns h :=
  fun _ _ _ hs _ _ hm => le_of_falls hf hs rfl hm rfl

theorem not_overtaken_of_falls {h : History} {id : Uuid} (hf : Falls (h.filterMap (touchOf id))) :
    ¬ Overtaken h id := by
  rintro ⟨pid, usedAt, past, pid', usedAt', past', hs, hm, -, -, hlt⟩
  have hle := le_of_falls hf hs (touchOf_eq_some.mpr ⟨pid, rfl⟩) hm (touchOf_eq_some.mpr ⟨pid', rfl⟩)
  exact absurd hlt (not_lt.mpr hle)

/-- Two exchanges of one token: the first reads the clock at 10 and waits for the upstream, the second
reads it at 20 and is done. -/
def overlapRun : Schedule :=
  createRun ++
  [.start (.token (exchangeForm zeroToken)), .start (.token (exchangeForm zeroToken))] ++
  List.replicate 2 (.act 1 (realmReplies 10)) ++ List.replicate 6 (.act 2 (realmReplies 20))

/-- Then the first is answered, and touches the row. -/
def overtakenRun : Schedule := overlapRun ++ List.replicate 4 (.act 1 (realmReplies 20))

/-- What a state says about the token made of zeros: its last use, the clock readings, the touches. -/
def useReport (c : State) : Option Datetime × Bool × Bool :=
  ((rowOf c.world.table 0).bind (fun r => r.record.lastUsedAt),
    decide (Falls (c.hist.filterMap clockReading)), decide (Falls (c.hist.filterMap (touchOf 0))))

theorem useReport_overlapRun :
    letI := Platform.plain
    useReport (patApp.run overlapRun) = (some 20, true, true) := by
  decide +kernel

theorem useReport_overtakenRun :
    letI := Platform.plain
    useReport (patApp.run overtakenRun) = (some 10, true, false) := by
  decide +kernel

theorem row_of_useReport {c : State} {usedAt : Datetime} {b : Bool × Bool}
    (h : useReport c = (some usedAt, b)) :
    ∃ row, rowOf c.world.table 0 = some row ∧ row.record.lastUsedAt = some usedAt :=
  Option.bind_eq_some_iff.mp (Prod.mk.inj h).1

theorem clockRuns_of_useReport {c : State} {u : Option Datetime} {b : Bool}
    (h : useReport c = (u, true, b)) : ClockRuns c.hist :=
  clockRuns_of_falls (of_decide_eq_true (Prod.mk.inj (Prod.mk.inj h).2).1)

theorem last_use_kept_iff_overlapRun :
    letI := Platform.plain
    ClockRuns (patApp.run overlapRun).hist ∧ LastUseKept patApp overlapRun 0 := by
  let := Platform.plain
  have hclock := clockRuns_of_useReport useReport_overlapRun
  have htouches := of_decide_eq_true (Prod.mk.inj (Prod.mk.inj useReport_overlapRun).2).2
  exact ⟨hclock, (last_use_kept_iff patApp overlapRun 0 hclock).mpr (not_overtaken_of_falls htouches)⟩

/-- The exchange that was overtaken takes the last use back from 20 to 10. -/
theorem last_use_goes_back :
    letI := Platform.plain
    ClockRuns (patApp.run overtakenRun).hist ∧ ¬ LastUseKept patApp overtakenRun 0 := by
  let := Platform.plain
  refine ⟨clockRuns_of_useReport useReport_overtakenRun, fun hkept => ?_⟩
  obtain ⟨row₁, hr₁, hu₁⟩ := row_of_useReport useReport_overlapRun
  obtain ⟨row₂, hr₂, hu₂⟩ := row_of_useReport useReport_overtakenRun
  obtain ⟨row, u, hr, hu, hle⟩ := hkept.grows overlapRun overtakenRun (List.prefix_append _ _)
    List.prefix_rfl row₁ 20 hr₁ hu₁
  obtain rfl := Option.some.inj (hr.symm.trans hr₂)
  obtain rfl := Option.some.inj (hu.symm.trans hu₂)
  exact absurd hle (by decide)

end CimdProxy
