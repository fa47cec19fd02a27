import CimdProxy.Runs

/-! # The history of the token table

What any interleaving of statements can do to the rows.  `rowOf_perform` says everything one statement
can do to a row, `TableExplained` is the invariant of the table against the history, and
`token_table_history` is the main result: rows stay, all but two of their columns are fixed, a
revocation is final and belongs to the owner, a listing is exact, and an exchange that looks its
token up after the revocation is refused before it reaches the upstream. -/

namespace CimdProxy

open Py Effects

/-- The row with the given id. -/
def rowOf (table : List Row) (id : Uuid) : Option Row := table.find? (fun r => r.record.id == id)

/-- A row without the two columns that statements write later. -/
def Row.fixed (r : Row) : Row :=
  { r with record := { r.record with lastUsedAt := none, revokedAt := none } }

/-- The keys of the table. -/
structure TableOk (table : List Row) : Prop where
  ids : (table.map (fun r => r.record.id)).Nodup
  hashes : (table.map Row.tokenHash).Nodup

/-! ### Rows by id -/

section Rows

variable {table : List Row} {id : Uuid} {row : Row}

theorem mem_of_rowOf (h : rowOf table id = some row) : row ∈ table ∧ row.record.id = id :=
  ⟨List.mem_of_find?_eq_some h, by simpa using List.find?_some h⟩

/-- An update that keeps the ids acts on the row itself. -/
theorem rowOf_map {f : Row → Row} (hf : ∀ r, (f r).record.id = r.record.id) :
    rowOf (table.map f) id = (rowOf table id).map f := by
  unfold rowOf
  rw [List.find?_map]
  congr 2
  funext r
  simp [hf]

theorem rowOf_eq_some_of_mem (hok : TableOk table) (h : row ∈ table) :
    rowOf table row.record.id = some row := by
  unfold rowOf
  have hids := hok.ids
  clear hok
  induction table with
  | nil => cases h
  | cons x xs ih =>
      rw [List.map_cons, List.nodup_cons] at hids
      rcases List.mem_cons.mp h with rfl | h
      · simp
      · have hne : (x.record.id == row.record.id) = false := by
          simp only [beq_eq_false_iff_ne]
          intro he
          exact hids.1 (he ▸ List.mem_map_of_mem h)
        rw [List.find?_cons_of_neg (by simp [hne])]
        exact ih h hids.2

theorem selectByHash_of_mem (hok : TableOk table) (h : row ∈ table) :
    selectByHash table row.tokenHash = some row.record := by
  unfold selectByHash
  have hhashes := hok.hashes
  clear hok
  induction table with
  | nil => cases h
  | cons x xs ih =>
      rw [List.map_cons, List.nodup_cons] at hhashes
      rcases List.mem_cons.mp h with rfl | h
      · simp
      · have hne : (x.tokenHash == row.tokenHash) = false := by
          simp only [beq_eq_false_iff_ne]
          intro he
          exact hhashes.1 (he ▸ List.mem_map_of_mem h)
        rw [List.find?_cons_of_neg (by simp [hne])]
        exact ih h hhashes.2

/-- The rows with one id. -/
theorem filter_id (hok : TableOk table) (id : Uuid) :
    table.filter (fun r => r.record.id == id) = (rowOf table id).toList := by
  unfold rowOf
  have hids := hok.ids
  clear hok
  induction table with
  | nil => rfl
  | cons x xs ih =>
      rw [List.map_cons, List.nodup_cons] at hids
      by_cases hx : x.record.id = id
      · have hnone : xs.filter (fun r => r.record.id == id) = [] := by
          rw [List.filter_eq_nil_iff]
          intro r hr he
          exact hids.1 (by rw [hx, ← eq_of_beq he]; exact List.mem_map_of_mem hr)
        simp [hx, hnone]
      · have hb : (x.record.id == id) = false := by simpa using hx
        rw [List.filter_cons_of_neg (by simp [hb]), List.find?_cons_of_neg (by simp [hb])]
        exact ih hids.2

/-- How many rows a revocation meets. -/
theorem countP_revocable (hok : TableOk table) (realm owner : Str) (id : Uuid) :
    table.countP (revocable realm owner id) =
      (rowOf table id).toList.countP (revocable realm owner id) := by
  rw [← filter_id hok id, List.countP_filter]
  congr 1
  funext r
  by_cases h : r.record.id = id
  · simp [h]
  · have hb : (r.record.id == id) = false := by simpa using h
    simp [revocable, hb]

theorem rowOf_updateRevoked (realm owner : Str) (id' : Uuid) (now : Datetime) :
    rowOf (updateRevoked table realm owner id' now) id = (rowOf table id).map (fun r =>
      if revocable realm owner id' r then { r with record := { r.record with revokedAt := some now } }
      else r) := by
  refine rowOf_map (fun r => ?_)
  split_ifs <;> rfl

theorem rowOf_updateLastUsed (id' : Uuid) (usedAt : Datetime) :
    rowOf (updateLastUsed table id' usedAt) id = (rowOf table id).map (fun r =>
      if r.record.id == id' then { r with record := { r.record with lastUsedAt := some usedAt } }
      else r) := by
  refine rowOf_map (fun r => ?_)
  split_ifs <;> rfl

theorem TableOk.map (hok : TableOk table) {f : Row → Row}
    (hf : ∀ r, (f r).record.id = r.record.id ∧ (f r).tokenHash = r.tokenHash) :
    TableOk (table.map f) := by
  have hids : (table.map f).map (fun r => r.record.id) = table.map (fun r => r.record.id) := by
    rw [List.map_map]
    exact List.map_congr_left (fun r _ => (hf r).1)
  have hhashes : (table.map f).map Row.tokenHash = table.map Row.tokenHash := by
    rw [List.map_map]
    exact List.map_congr_left (fun r _ => (hf r).2)
  exact ⟨hids ▸ hok.ids, hhashes ▸ hok.hashes⟩

/-- A new row is the only one with its id and its hash. -/
theorem admits_fresh {r : Row} (h : admits table r = true) :
    (∀ x ∈ table, x.record.id ≠ r.record.id) ∧ ∀ x ∈ table, x.tokenHash ≠ r.tokenHash := by
  unfold admits at h
  rw [Bool.and_eq_true, List.all_eq_true] at h
  constructor
  · intro x hx
    have := h.2 x hx
    rw [Bool.and_eq_true] at this
    simpa using this.1
  · intro x hx
    have := h.2 x hx
    rw [Bool.and_eq_true] at this
    simpa using this.2

theorem rowOf_cons (r : Row) :
    rowOf (r :: table) id = if r.record.id = id then some r else rowOf table id := by
  unfold rowOf
  by_cases h : r.record.id = id
  · simp [h]
  · rw [List.find?_cons_of_neg (by simpa using h), if_neg h]

end Rows

/-! ### What a statement does -/

section Steps

variable {w w' : World} {o : Op} {p r : Reply o}

theorem TableOk.perform (hok : TableOk w.table) (h : w.perform o p = some (r, w')) :
    TableOk w'.table := by
  rcases World.perform_table h with ht | ⟨record, hash, -, ha, ht⟩ | ⟨realm, owner, id, at_, -, ht⟩ |
    ⟨id, at_, -, ht⟩
  · rw [ht]
    exact hok
  · obtain ⟨hid, hhash⟩ := admits_fresh ha
    rw [ht]
    refine ⟨List.nodup_cons.mpr ⟨?_, hok.ids⟩, List.nodup_cons.mpr ⟨?_, hok.hashes⟩⟩
    · intro hm
      obtain ⟨x, hx, he⟩ := List.mem_map.mp hm
      exact hid x hx he
    · intro hm
      obtain ⟨x, hx, he⟩ := List.mem_map.mp hm
      exact hhash x hx he
  · rw [ht]
    apply hok.map
    intro x
    split_ifs <;> exact ⟨rfl, rfl⟩
  · rw [ht]
    apply hok.map
    intro x
    split_ifs <;> exact ⟨rfl, rfl⟩

/-- Everything one operation can do to a row. -/
theorem rowOf_perform (hok : TableOk w.table) (h : w.perform o p = some (r, w')) {id : Uuid} {row : Row}
    (hr : rowOf w.table id = some row) :
    ∃ row', rowOf w'.table id = some row' ∧ row'.fixed = row.fixed ∧
      (row'.record.revokedAt = row.record.revokedAt ∨
        row.record.revokedAt = none ∧ ∃ at_, row'.record.revokedAt = some at_ ∧
          did o r = did (.revoke row.record.realmIssuer row.record.ownerSub id) (.ok (true, at_))) ∧
      (row'.record.lastUsedAt = row.record.lastUsedAt ∨
        ∃ at_, row'.record.lastUsedAt = some at_ ∧ did o r = did (.touch id at_) (.ok ())) := by
  obtain ⟨hmem, hid⟩ := mem_of_rowOf hr
  rcases World.perform_table h with ht | ⟨record, hash, -, ha, ht⟩ | ⟨realm, owner, id', at_, hc, ht⟩ |
    ⟨id', at_, hc, ht⟩
  · exact ⟨row, by rw [ht]; exact hr, rfl, .inl rfl, .inl rfl⟩
  · refine ⟨row, ?_, rfl, .inl rfl, .inl rfl⟩
    rw [ht, rowOf_cons, if_neg, hr]
    exact fun he => (admits_fresh ha).1 row hmem (hid.trans he.symm)
  · rw [ht, rowOf_updateRevoked, hr, Option.map_some]
    by_cases hrev : revocable realm owner id' row = true
    · rw [if_pos hrev]
      refine ⟨_, rfl, rfl, .inr ?_, .inl rfl⟩
      have hcount : w.table.countP (revocable realm owner id') = 1 := by
        have hid' : id' = id := by
          simp only [revocable, Bool.and_eq_true, beq_iff_eq] at hrev
          rw [← hid, hrev.1.1.1]
        rw [countP_revocable hok, hid', hr]
        rw [hid'] at hrev
        simp [hrev]
      rw [hcount] at hc
      simp only [revocable, Bool.and_eq_true, beq_iff_eq, Option.isNone_iff_eq_none] at hrev
      obtain ⟨⟨⟨h1, h2⟩, h3⟩, h4⟩ := hrev
      refine ⟨h4, at_, rfl, ?_⟩
      rw [h2, h3, ← hid, h1]
      exact hc
    · rw [if_neg hrev]
      exact ⟨row, rfl, rfl, .inl rfl, .inl rfl⟩
  · rw [ht, rowOf_updateLastUsed, hr, Option.map_some]
    by_cases hu : (row.record.id == id') = true
    · rw [if_pos hu]
      refine ⟨_, rfl, rfl, .inl rfl, .inr ⟨at_, rfl, ?_⟩⟩
      rw [← hid, eq_of_beq hu]
      exact hc
    · rw [if_neg hu]
      exact ⟨row, rfl, rfl, .inl rfl, .inl rfl⟩

/-- A row appears by an insert only. -/
theorem rowOf_new (h : w.perform o p = some (r, w')) {id : Uuid} {row : Row}
    (hnone : rowOf w.table id = none) (hr : rowOf w'.table id = some row) :
    ∃ record hash, did o r = did (.insert record hash) (.ok ()) ∧ row = newRow record hash := by
  rcases World.perform_table h with ht | ⟨record, hash, hc, -, ht⟩ | ⟨realm, owner, id', at_, -, ht⟩ |
    ⟨id', at_, -, ht⟩
  · rw [ht, hnone] at hr
    cases hr
  · rw [ht, rowOf_cons] at hr
    split_ifs at hr
    · exact ⟨record, hash, hc, (Option.some.inj hr).symm⟩
    · rw [hnone] at hr
      cases hr
  · rw [ht, rowOf_updateRevoked, hnone] at hr
    cases hr
  · rw [ht, rowOf_updateLastUsed, hnone] at hr
    cases hr

/-- A revocation that returned `True` met the one row it names, which was not revoked. -/
theorem revoke_true (hok : TableOk w.table) {realm owner : Str} {id : Uuid} {at_ : Datetime}
    {p : Reply (.revoke realm owner id)}
    (h : w.perform (.revoke realm owner id) p = some (.ok (true, at_), w')) :
    ∃ row row', rowOf w.table id = some row ∧ row.record.revokedAt = none ∧
      rowOf w'.table id = some row' ∧ row'.record.revokedAt = some at_ := by
  cases p with
  | error e => cases h
  | ok q =>
      obtain ⟨hr, rfl⟩ := Prod.mk.inj (Option.some.inj h)
      obtain ⟨hcount, rfl⟩ := Prod.mk.inj (Except.ok.inj hr)
      rw [countP_revocable hok, beq_iff_eq] at hcount
      cases hrow : rowOf w.table id with
      | none =>
          rw [hrow] at hcount
          cases hcount
      | some row =>
          have hrev : revocable realm owner id row = true := by
            rw [hrow] at hcount
            by_contra hc
            simp [hc] at hcount
          refine ⟨row, { row with record := { row.record with revokedAt := some q.2 } }, rfl, ?_, ?_, rfl⟩
          · simp only [revocable, Bool.and_eq_true, Option.isNone_iff_eq_none] at hrev
            exact hrev.2
          · rw [rowOf_updateRevoked, hrow, Option.map_some, if_pos hrev]

end Steps

/-! ### The table and the history -/

/-- Whether an event is a revocation of the token that returned `True`. -/
def revokes (id : Uuid) : Event proxyOps → Bool
  | (_, ⟨.revoke _ _ id', .ok (true, _)⟩) => id' == id
  | _ => false

theorem revoke_true_of_revokes {w w' : World} {o : Op} {p r : Reply o} {pid : ℕ} {id : Uuid}
    (hok : TableOk w.table) (hp : w.perform o p = some (r, w'))
    (h : revokes id (pid, did o r) = true) :
    ∃ row row', rowOf w.table id = some row ∧ row.record.revokedAt = none ∧
      rowOf w'.table id = some row' ∧ row'.record.revokedAt.isSome = true := by
  unfold revokes at h
  split at h
  · next pid' realm owner id' at_ he =>
      obtain ⟨-, hc⟩ := Prod.mk.inj he
      cases hc
      obtain rfl := eq_of_beq h
      obtain ⟨row, row', hr, hnone, hr', hat⟩ := revoke_true hok hp
      exact ⟨row, row', hr, hnone, hr', by rw [hat]; rfl⟩
  · cases h

/-- What the history says about the rows, and the rows about the history. -/
structure TableExplained (w : World) (h : History) : Prop where
  ok : TableOk w.table
  origin : ∀ id row, rowOf w.table id = some row → ∃ pid record hash,
    (pid, did (.insert record hash) (.ok ())) ∈ h ∧ row.fixed = newRow record hash
  inserted : ∀ pid record hash, (pid, did (.insert record hash) (.ok ())) ∈ h →
    ∃ row, rowOf w.table record.id = some row ∧ row.fixed = newRow record hash
  revokedOnce : ∀ id, h.countP (revokes id) ≤ 1
  revoked : ∀ id, 0 < h.countP (revokes id) →
    ∃ row, rowOf w.table id = some row ∧ row.record.revokedAt.isSome = true

theorem TableExplained.init : TableExplained World.init [] where
  ok := ⟨List.nodup_nil, List.nodup_nil⟩
  origin := fun _ _ h => nomatch h
  inserted := fun _ _ _ h => nomatch h
  revokedOnce := fun _ => Nat.zero_le _
  revoked := fun _ h => nomatch h

theorem newRow_fixed (record : PatRecord) (hash : Bytes) :
    (newRow record hash).fixed = newRow record hash := rfl

/-- A revoked row stays revoked. -/
theorem revoked_perform {w w' : World} {o : Op} {p r : Reply o} (hok : TableOk w.table)
    (hp : w.perform o p = some (r, w')) {id : Uuid}
    (h : ∃ row, rowOf w.table id = some row ∧ row.record.revokedAt.isSome = true) :
    ∃ row, rowOf w'.table id = some row ∧ row.record.revokedAt.isSome = true := by
  obtain ⟨row, hr, hrev⟩ := h
  obtain ⟨row', hr', -, hrev' | ⟨hnone, -⟩, -⟩ := rowOf_perform hok hp hr
  · exact ⟨row', hr', by rw [hrev']; exact hrev⟩
  · rw [hnone] at hrev
    cases hrev

theorem TableExplained.perform {w w' : World} {h : History} {pid : ℕ} {o : Op} {p r : Reply o}
    (hw : TableExplained w h) (hp : w.perform o p = some (r, w')) :
    TableExplained w' ((pid, did o r) :: h) where
  ok := hw.ok.perform hp
  origin := by
    intro id row hr
    cases hold : rowOf w.table id with
    | none =>
        obtain ⟨record, hash, hc, rfl⟩ := rowOf_new hp hold hr
        exact ⟨pid, record, hash, by rw [hc]; exact List.mem_cons_self, newRow_fixed _ _⟩
    | some old =>
        obtain ⟨row', hr', hfixed, -⟩ := rowOf_perform hw.ok hp hold
        obtain rfl := Option.some.inj (hr.symm.trans hr')
        obtain ⟨pid', record, hash, hm, he⟩ := hw.origin id old hold
        exact ⟨pid', record, hash, List.mem_cons_of_mem _ hm, hfixed.trans he⟩
  inserted := by
    intro pid' record hash hm
    rcases List.mem_cons.mp hm with he | hm
    · obtain ⟨-, hc⟩ := Prod.mk.inj he
      cases hc
      cases p with
      | error e => cases hp
      | ok u =>
          simp only [World.perform] at hp
          split_ifs at hp
          obtain ⟨-, rfl⟩ := Prod.mk.inj (Option.some.inj hp)
          exact ⟨newRow record hash, by rw [rowOf_cons]; exact if_pos rfl, newRow_fixed _ _⟩
    · obtain ⟨row, hr, he⟩ := hw.inserted pid' record hash hm
      obtain ⟨row', hr', hfixed, -⟩ := rowOf_perform hw.ok hp hr
      exact ⟨row', hr', hfixed.trans he⟩
  revokedOnce := by
    intro id
    rw [List.countP_cons]
    split_ifs with hrev
    · have hnone : h.countP (revokes id) = 0 := by
        by_contra hne
        obtain ⟨row, hr, hsome⟩ := hw.revoked id (Nat.pos_of_ne_zero hne)
        obtain ⟨row', -, hr', hnone, -⟩ := revoke_true_of_revokes hw.ok hp hrev
        obtain rfl := Option.some.inj (hr.symm.trans hr')
        rw [hnone] at hsome
        cases hsome
      omega
    · exact hw.revokedOnce id
  revoked := by
    intro id hpos
    rw [List.countP_cons] at hpos
    split_ifs at hpos with hrev
    · obtain ⟨-, row, -, -, hr, hat⟩ := revoke_true_of_revokes hw.ok hp hrev
      exact ⟨row, hr, hat⟩
    · exact revoked_perform hw.ok hp (hw.revoked id hpos)

/-! ### Runs -/

section Runs

variable [Platform] {app : App} {acts : Schedule}

theorem run_tableExplained (acts : Schedule) :
    TableExplained (app.run acts).world (app.run acts).hist :=
  (proxy app).world_induction (I := TableExplained) .init
    (fun _ _ _ _ _ _ _ hw hp => hw.perform hp) acts

/-- What a later state makes of a row. -/
def Becomes (h : History) (id : Uuid) (row row' : Row) : Prop :=
  row'.fixed = row.fixed ∧
  (row'.record.revokedAt = row.record.revokedAt ∨
    row.record.revokedAt = none ∧ ∃ pid at_, row'.record.revokedAt = some at_ ∧
      (pid, did (.revoke row.record.realmIssuer row.record.ownerSub id) (.ok (true, at_))) ∈ h)

omit [Platform] in
theorem fixed_realm {row row' : Row} (h : row'.fixed = row.fixed) :
    row'.record.realmIssuer = row.record.realmIssuer ∧ row'.record.ownerSub = row.record.ownerSub := by
  have hr : row'.fixed.record = row.fixed.record := by rw [h]
  exact ⟨congrArg (fun x => x.realmIssuer) hr, congrArg (fun x => x.ownerSub) hr⟩

omit [Platform] in
theorem Becomes.perform {w w' : World} {h : History} {pid : ℕ} {o : Op} {p r : Reply o} {id : Uuid}
    {row row₁ : Row} (hok : TableOk w.table) (hp : w.perform o p = some (r, w'))
    (hr : rowOf w.table id = some row₁) (hb : Becomes h id row row₁) :
    ∃ row', rowOf w'.table id = some row' ∧ Becomes ((pid, did o r) :: h) id row row' := by
  obtain ⟨hfixed, hrev⟩ := hb
  obtain ⟨row', hr', hfixed', hrev', -⟩ := rowOf_perform hok hp hr
  refine ⟨row', hr', hfixed'.trans hfixed, ?_⟩
  rcases hrev' with hsame | ⟨hnone, at_, hat, hcall⟩
  · rw [hsame]
    rcases hrev with hrev | ⟨hnone, pid', at_, hat, hm⟩
    · exact .inl hrev
    · exact .inr ⟨hnone, pid', at_, hat, List.mem_cons_of_mem _ hm⟩
  · -- the row was not revoked so far, so this call revokes it
    rcases hrev with hrev | ⟨-, pid', at', hat', -⟩
    · refine .inr ⟨hrev ▸ hnone, pid, at_, hat, ?_⟩
      obtain ⟨hrealm, howner⟩ := fixed_realm hfixed
      rw [← hrealm, ← howner, ← hcall]
      exact List.mem_cons_self
    · rw [hat'] at hnone
      cases hnone

/-- **Rows stay.** -/
theorem row_becomes {id : Uuid} {row : Row} (hr : rowOf (app.run acts).world.table id = some row)
    (more : Schedule) : ∃ row', rowOf (app.run (acts ++ more)).world.table id = some row' ∧
      Becomes (app.run (acts ++ more)).hist id row row' := by
  have h := (proxy app).world_extends acts
    (I := fun w h => TableOk w.table ∧ ∃ row', rowOf w.table id = some row' ∧ Becomes h id row row')
    ⟨(run_tableExplained acts).ok, row, hr, rfl, .inl rfl⟩ ?_ more
  · exact h.2
  · rintro w h pid o p r w' ⟨hok, row', hr', hb⟩ hp
    exact ⟨hok.perform hp, hb.perform hok hp hr'⟩

/-- The strict order of the listing. -/
def listedBefore (a b : PatRecord) : Prop :=
  a.createdAt < b.createdAt ∨ (a.createdAt = b.createdAt ∧ a.id < b.id)

omit [Platform] in
theorem mem_selectForOwner {table : List Row} {realm owner : Str} {record : PatRecord} :
    record ∈ selectForOwner table realm owner ↔
      ∃ row ∈ table, row.record = record ∧ record.realmIssuer = realm ∧ record.ownerSub = owner := by
  unfold selectForOwner
  rw [List.mem_insertionSort, List.mem_map]
  constructor
  · rintro ⟨row, hm, rfl⟩
    obtain ⟨hrow, hcond⟩ := List.mem_filter.mp hm
    rw [Bool.and_eq_true, beq_iff_eq, beq_iff_eq] at hcond
    exact ⟨row, hrow, rfl, hcond.1, hcond.2⟩
  · rintro ⟨row, hrow, rfl, h1, h2⟩
    exact ⟨row, List.mem_filter.mpr ⟨hrow, by simp [h1, h2]⟩, rfl⟩

/-- What the listing is sorted by. -/
def listKey (r : PatRecord) : Datetime ×ₗ Uuid := toLex (r.createdAt, r.id)

omit [Platform] in
theorem listOrder_iff {a b : PatRecord} : listOrder a b ↔ listKey a ≤ listKey b := by
  unfold listKey
  rw [Prod.Lex.toLex_le_toLex]
  rfl

omit [Platform] in
theorem listedBefore_iff {a b : PatRecord} : listedBefore a b ↔ listKey a < listKey b := by
  unfold listKey
  rw [Prod.Lex.toLex_lt_toLex]
  rfl

instance : Std.Total listOrder :=
  ⟨fun a b => by rw [listOrder_iff, listOrder_iff]; exact le_total _ _⟩

instance : IsTrans PatRecord listOrder :=
  ⟨fun a b c h h' => by rw [listOrder_iff] at *; exact h.trans h'⟩

omit [Platform] in
theorem selectForOwner_sorted {table : List Row} (hok : TableOk table) (realm owner : Str) :
    (selectForOwner table realm owner).Pairwise listedBefore := by
  have hsorted : (selectForOwner table realm owner).Pairwise listOrder :=
    List.pairwise_insertionSort listOrder _
  have hids : ((selectForOwner table realm owner).map PatRecord.id).Nodup := by
    unfold selectForOwner
    refine (((List.perm_insertionSort listOrder _).map PatRecord.id).nodup_iff).mpr ?_
    rw [List.map_map]
    exact hok.ids.sublist (List.filter_sublist.map _)
  have hdistinct : (selectForOwner table realm owner).Pairwise (fun a b => a.id ≠ b.id) :=
    List.pairwise_map.mp hids
  refine (hsorted.and hdistinct).imp ?_
  rintro a b ⟨hle, hne⟩
  rw [listedBefore_iff]
  refine lt_of_le_of_ne (listOrder_iff.mp hle) (fun he => hne ?_)
  exact congrArg (fun k => (ofLex k).2) he

/-! ### Exchanges -/

/-- The request is the exchange of a personal access token, at this service. -/
def Exchanges (app : App) (c : State) (pid : ℕ) (svc : PatService) (form : Token.TokenForm) : Prop :=
  Serves c pid (.token form) ∧ form.grantType = some tokenExchange ∧ app.patService = some svc

/-- What an exchange does, apart from reading the clock, its specification allows. -/
theorem Exchanges.exchangeActs {svc : PatService} {form : Token.TokenForm} {pid : ℕ} {o : Op} {r : Reply o}
    {past : History} (hx : Exchanges app (app.run acts) pid svc form)
    (h : (pid, did o r) :: past <:+ (app.run acts).hist) (hno : ∀ t, ¬ Reads t o)
    (hseal : o.isSeal = false) :
    ∃ t, svc.ExchangeActs form.exchangeParams t o ∧ Exactly pid t past := by
  obtain ⟨hserves, hgrant, hsvc⟩ := hx
  obtain ⟨req, t, hreq, hq, ht⟩ := issues h
  obtain rfl := hserves.unique hreq
  have hacts : Token.Acts app.config app.patService form t o := Conduct.allowed hq hseal
  rcases hacts with hread | ⟨hne, -⟩ | ⟨s, hs, -, he⟩
  · exact absurd hread (hno t)
  · exact absurd hgrant hne
  · obtain rfl := Option.some.inj (hsvc.symm.trans hs)
    exact ⟨t, he, ht⟩

/-- Lookups and touches are made by exchanges. -/
theorem issues_exchange {pid : ℕ} {o : Op} {r : Reply o} {past : History}
    (h : (pid, did o r) :: past <:+ (app.run acts).hist)
    (ho : o.isLookup = true ∨ o.isTouch = true) :
    ∃ svc form t, Exchanges app (app.run acts) pid svc form ∧
      svc.ExchangeActs form.exchangeParams t o ∧ Exactly pid t past := by
  obtain ⟨req, t, hreq, hq, ht⟩ := issues h
  have htables := hq.tables
  cases o with
  | findByHash hash =>
      obtain ⟨svc, form, hsvc, rfl, hgrant, he⟩ := htables
      exact ⟨svc, form, t, ⟨hreq, hgrant, hsvc⟩, he, ht⟩
  | touch id usedAt =>
      obtain ⟨svc, form, hsvc, rfl, hgrant, he⟩ := htables
      exact ⟨svc, form, t, ⟨hreq, hgrant, hsvc⟩, he, ht⟩
  | _ => rcases ho with ho | ho <;> cases ho

/-- A lookup is the first thing its exchange does. -/
theorem lookup_first {pid : ℕ} {hash : Bytes} {r : Reply (.findByHash hash)} {past : History}
    (h : (pid, did (.findByHash hash) r) :: past <:+ (app.run acts).hist) :
    ∃ svc form token, Exchanges app (app.run acts) pid svc form ∧
      PatService.checkExchange form.exchangeParams = .ok token ∧ tokenHash token = .ok hash ∧
      ∀ c, (pid, c) ∉ past := by
  obtain ⟨svc, form, t, hx, ⟨rfl, token, htoken, hhash⟩, ht⟩ := issues_exchange h (.inl rfl)
  exact ⟨svc, form, token, hx, htoken, hhash, fun c hc => nomatch (ht c).mpr hc⟩

/-- A call of the process of a lookup comes after it, unless it is the lookup itself. -/
theorem lookup_before {pid : ℕ} {hash : Bytes} {r : Reply (.findByHash hash)} {past : History}
    (h : (pid, did (.findByHash hash) r) :: past <:+ (app.run acts).hist) {c : Call proxyOps}
    {past' : History} (hc : (pid, c) :: past' <:+ (app.run acts).hist) :
    (pid, c) :: past' = (pid, did (.findByHash hash) r) :: past ∨
      (pid, did (.findByHash hash) r) :: past <:+ past' := by
  obtain ⟨-, -, -, -, -, -, hfirst⟩ := lookup_first h
  rcases List.suffix_or_suffix_of_suffix h hc with hs | hs
  · rcases List.suffix_cons_iff.mp hs with he | hs
    · exact .inl he.symm
    · exact .inr hs
  · rcases List.suffix_cons_iff.mp hs with he | hs
    · exact .inl he
    · exact absurd (hs.subset List.mem_cons_self) (hfirst c)

/-- An exchange looks its token up once. -/
theorem lookup_unique {pid : ℕ} {hash hash' : Bytes} {r : Reply (.findByHash hash)}
    {r' : Reply (.findByHash hash')} {past : History}
    (h : (pid, did (.findByHash hash) r) :: past <:+ (app.run acts).hist)
    (h' : (pid, did (.findByHash hash') r') ∈ (app.run acts).hist) :
    did (.findByHash hash') r' = did (.findByHash hash) r := by
  obtain ⟨past', hpast⟩ := System.exists_past h'
  obtain ⟨-, -, -, -, -, -, hfirst⟩ := lookup_first hpast
  rcases lookup_before h hpast with he | hs
  · exact (Prod.mk.inj (List.cons.inj he).1).2
  · exact absurd (hs.subset List.mem_cons_self) (hfirst _)

/-- What a lookup finds is the row the table has under the hash. -/
theorem lookup_answer {pid : ℕ} {hash : Bytes} {found : Option PatRecord} {past : History}
    (h : (pid, did (.findByHash hash) (.ok found)) :: past <:+ (app.run acts).hist) :
    ∃ w, TableExplained w past ∧ found = selectByHash w.table hash := by
  obtain ⟨w, prop, w', hw, hp⟩ := (proxy app).answered (I := TableExplained) .init
    (fun w h pid o p r w' hw hp => hw.perform hp) h
  refine ⟨w, hw, ?_⟩
  cases prop with
  | error e => cases hp
  | ok x => exact (Except.ok.inj (Prod.mk.inj (Option.some.inj hp)).1).symm

omit [Platform] in
/-- The row of an insert, as a lookup of its hash finds it. -/
theorem TableExplained.select {w : World} {h : History} (hw : TableExplained w h) {pid : ℕ}
    {record : PatRecord} {hash : Bytes} (hm : (pid, did (.insert record hash) (.ok ())) ∈ h) :
    ∃ row, rowOf w.table record.id = some row ∧ row.fixed = newRow record hash ∧
      selectByHash w.table hash = some row.record := by
  obtain ⟨row, hr, hfixed⟩ := hw.inserted pid record hash hm
  refine ⟨row, hr, hfixed, ?_⟩
  have hhash : row.tokenHash = hash := congrArg (fun r => r.tokenHash) hfixed
  rw [← hhash]
  exact selectByHash_of_mem hw.ok (mem_of_rowOf hr).1

/-- What a lookup finds was inserted under its hash. -/
theorem lookup_inserted {pid : ℕ} {hash : Bytes} {record : PatRecord} {past : History}
    (h : (pid, did (.findByHash hash) (.ok (some record))) :: past <:+ (app.run acts).hist) :
    ∃ pid' inserted, (pid', did (.insert inserted hash) (.ok ())) ∈ past ∧
      (Row.mk record hash).fixed = newRow inserted hash := by
  obtain ⟨w, hw, hsel⟩ := lookup_answer h
  obtain ⟨row, hfind, rfl⟩ := Option.map_eq_some_iff.mp hsel.symm
  have hhash : row.tokenHash = hash := by simpa using List.find?_some hfind
  have hrow := rowOf_eq_some_of_mem hw.ok (List.mem_of_find?_eq_some hfind)
  obtain ⟨pid', inserted, hash', hm, hfixed⟩ := hw.origin _ row hrow
  obtain rfl : hash' = hash := by
    rw [← hhash]
    exact (congrArg (fun r => r.tokenHash) hfixed).symm
  refine ⟨pid', inserted, hm, ?_⟩
  rw [← hfixed, ← hhash]

/-- A revoked row is found revoked. -/
theorem lookup_revoked {pid : ℕ} {hash : Bytes} {found : Option PatRecord} {past : History}
    (h : (pid, did (.findByHash hash) (.ok found)) :: past <:+ (app.run acts).hist) {pid₁ pid₂ : ℕ}
    {record : PatRecord} {realm owner : Str} {at_ : Datetime}
    (hins : (pid₁, did (.insert record hash) (.ok ())) ∈ past)
    (hrev : (pid₂, did (.revoke realm owner record.id) (.ok (true, at_))) ∈ past) :
    ∃ r, found = some r ∧ r.revokedAt.isSome = true := by
  obtain ⟨w, hw, rfl⟩ := lookup_answer h
  obtain ⟨row, hr, -, hsel⟩ := hw.select hins
  have hcount : 0 < past.countP (revokes record.id) :=
    List.countP_pos_iff.mpr ⟨_, hrev, beq_self_eq_true _⟩
  obtain ⟨row', hr', hsome⟩ := hw.revoked record.id hcount
  obtain rfl := Option.some.inj (hr.symm.trans hr')
  exact ⟨row.record, hsel, hsome⟩

/-- An exchange that found a revoked row asks the upstream for nothing. -/
theorem revoked_no_request {pid : ℕ} {hash : Bytes} {reply : Reply (.findByHash hash)} {past : History}
    (h : (pid, did (.findByHash hash) reply) :: past <:+ (app.run acts).hist)
    (hrev : ∀ r, reply = .ok (some r) → r.revokedAt.isSome = true) (req : HttpRequest)
    (outcome : Reply (.http req)) : (pid, did (.http req) outcome) ∉ (app.run acts).hist := by
  intro hm
  obtain ⟨svc, form, -, hx, -⟩ := lookup_first h
  obtain ⟨past', hpast⟩ := System.exists_past hm
  obtain ⟨t, ⟨token, hash', record, now, e, at_, jti, -, -, hcheck, -, rfl, -⟩, ht⟩ :=
    hx.exchangeActs hpast (fun _ h => h) rfl
  have hfound : (pid, did (.findByHash hash') (.ok (some record))) ∈ past' :=
    (ht _).mp (by simp)
  have hsame := lookup_unique h (((List.suffix_cons _ _).trans hpast).subset hfound)
  cases hsame
  have hlive := (svc.checkRecord_eq_ok hcheck).1
  rw [hrev record rfl] at hlive
  cases hlive

/-! ### The main result -/

/-- The answer to an exchange of a revoked token. -/
def revokedAnswer : Response :=
  .json 400 (errorBody "invalid_grant" "the personal access token is revoked") []

/-- What the history of the token table is like. -/
structure TableHistory (app : App) (acts : Schedule) : Prop where
  /-- An inserted row is there, with the columns of its insert. -/
  inserted : ∀ pid record hash, (pid, did (.insert record hash) (.ok ())) ∈ (app.run acts).hist →
    ∃ row, rowOf (app.run acts).world.table record.id = some row ∧ row.fixed = newRow record hash
  /-- Whatever the schedule does next, a row stays, and changes only as `Becomes` says. -/
  stays : ∀ id row, rowOf (app.run acts).world.table id = some row → ∀ more,
    ∃ row', rowOf (app.run (acts ++ more)).world.table id = some row' ∧
      Becomes (app.run (acts ++ more)).hist id row row'
  /-- Ids are keys. -/
  ids : ((app.run acts).world.table.map (fun r => r.record.id)).Nodup
  /-- At most one revocation of a token returns `True`. -/
  revokedOnce : ∀ id, (app.run acts).hist.countP (revokes id) ≤ 1
  /-- A listing has the rows of the owner at that moment, each once and in order. -/
  listed : ∀ pid realm owner records past,
    (pid, did (.listForOwner realm owner) (.ok records)) :: past <:+ (app.run acts).hist →
    ∃ acts₀, acts₀ <+: acts ∧ (app.run acts₀).hist = past ∧
      (∀ record, record ∈ records ↔ ∃ row ∈ (app.run acts₀).world.table,
        row.record = record ∧ record.realmIssuer = realm ∧ record.ownerSub = owner) ∧
      records.Pairwise listedBefore
  /-- An exchange that looks its token up after a revocation is refused, without a request. -/
  refused : ∀ pid hash reply past pid₁ record pid₂ realm owner at_,
    (pid, did (.findByHash hash) reply) :: past <:+ (app.run acts).hist →
    (pid₁, did (.insert record hash) (.ok ())) ∈ past →
    (pid₂, did (.revoke realm owner record.id) (.ok (true, at_))) ∈ past →
    (∀ req outcome, (pid, did (.http req) outcome) ∉ (app.run acts).hist) ∧
    (∀ payload, ¬ Answered (app.run acts) pid (Token.exchangeAnswer payload)) ∧
    ∀ found x, reply = .ok found → Ended (app.run acts) pid x → x = .ok revokedAnswer

theorem listing_exact {pid : ℕ} {realm owner : Str} {records : List PatRecord} {past : History}
    (h : (pid, did (.listForOwner realm owner) (.ok records)) :: past <:+ (app.run acts).hist) :
    ∃ acts₀, acts₀ <+: acts ∧ (app.run acts₀).hist = past ∧
      records = selectForOwner (app.run acts₀).world.table realm owner := by
  obtain ⟨acts₀, req, t, k, prop, w, hpre, hhist, -, hp⟩ := (proxy app).fired h
  refine ⟨acts₀, hpre, hhist, ?_⟩
  cases prop with
  | error e => cases hp
  | ok x => exact (Except.ok.inj (Prod.mk.inj (Option.some.inj hp)).1).symm

/-- A success comes after a grant. -/
theorem exchanged_requested {pid : ℕ} {svc : PatService} {form : Token.TokenForm} {payload : Dict}
    (hx : Exchanges app (app.run acts) pid svc form)
    (ha : Answered (app.run acts) pid (Token.exchangeAnswer payload)) :
    ∃ req outcome, (pid, did (.http req) outcome) ∈ (app.run acts).hist := by
  obtain ⟨t, ht, hc⟩ := ended_concludes hx.1 ha
  obtain ⟨hash, record, now, at_, jti, r, pl, v, -, -, -, rfl⟩ :=
    (hc.succeeds hx.2.1 payload rfl).succeeds payload rfl
  exact ⟨r, .response 200 (.value v), (ht _).mp (by simp [PatService.grantTrace])⟩

/-- **The history of the token table.** -/
theorem token_table_history (app : App) (acts : Schedule) : TableHistory app acts where
  inserted := (run_tableExplained acts).inserted
  stays := fun id row hr more => row_becomes hr more
  ids := (run_tableExplained acts).ok.ids
  revokedOnce := (run_tableExplained acts).revokedOnce
  listed := by
    intro pid realm owner records past h
    obtain ⟨acts₀, hpre, hhist, rfl⟩ := listing_exact h
    exact ⟨acts₀, hpre, hhist, fun record => mem_selectForOwner,
      selectForOwner_sorted (run_tableExplained acts₀).ok realm owner⟩
  refused := by
    intro pid hash reply past pid₁ record pid₂ realm owner at_ h hins hrev
    have hfound : ∀ found, reply = .ok found → ∃ r, found = some r ∧ r.revokedAt.isSome = true := by
      rintro found rfl
      exact lookup_revoked h hins hrev
    have hno : ∀ req outcome, (pid, did (.http req) outcome) ∉ (app.run acts).hist := by
      refine revoked_no_request h (fun r hr => ?_)
      obtain ⟨r', he, hsome⟩ := hfound (some r) hr
      rw [Option.some.inj he]
      exact hsome
    obtain ⟨svc, form, -, hx, -⟩ := lookup_first h
    refine ⟨hno, fun payload ha => ?_, fun found x hreply hend => ?_⟩
    · obtain ⟨req, outcome, hm⟩ := exchanged_requested hx ha
      exact hno req outcome hm
    · obtain ⟨r, rfl, hsome⟩ := hfound found hreply
      obtain ⟨t, ht, hc⟩ := ended_concludes hx.1 hend
      have hm : did (.findByHash hash) (.ok (some r)) ∈ t :=
        (ht _).mpr (hreply ▸ h.subset List.mem_cons_self)
      exact hc.refuses hx.2.1 hash r hm hsome

end Runs

/-! ### A run in which a token is revoked -/

/-- The value of a computation that succeeds. -/
def Except.value {ε α : Type} (x : Except ε α) (h : x.toOption.isSome = true) : α := x.toOption.get h

theorem Except.eq_value {ε α : Type} (x : Except ε α) (h : x.toOption.isSome = true) :
    x = .ok (Except.value x h) := by
  cases x with
  | error e => cases h
  | ok a => rfl

/-- An environment with two resources that accept personal access tokens. -/
def patEnv : Env where
  vars := [("PROXY_PUBLIC_URL", "https://proxy.example"), ("PROXY_SECRET_KEY", "key"),
    ("RESOURCE_0_URL", "https://log.example"), ("RESOURCE_0_ISSUER", "https://id.example/realms/r"),
    ("RESOURCE_0_CLIENT_ID", "log"), ("RESOURCE_0_PAT_CLIENT_ID", "log-pat"),
    ("RESOURCE_0_PAT_CLIENT_SECRET", "s0"),
    ("RESOURCE_1_URL", "https://mem.example/mcp"), ("RESOURCE_1_ISSUER", "https://id.example/realms/r"),
    ("RESOURCE_1_CLIENT_ID", "mem"), ("RESOURCE_1_PAT_CLIENT_ID", "mem-pat"),
    ("RESOURCE_1_PAT_CLIENT_SECRET", "s1"),
    ("PAT_DATABASE_URL", "postgresql://db"), ("PAT_REALM_ISSUER", "https://id.example/realms/r"),
    ("PAT_SCOPES", "read write"), ("PAT_IDP_ALIAS", "proxy"), ("PAT_ADMIN_CLIENT_ID", "admin"),
    ("PAT_ADMIN_CLIENT_SECRET", "secret"), ("PAT_SIGNING_KEY_0_KID", "k"),
    ("PAT_SIGNING_KEY_0_FILE", "/key.pem"), ("PAT_SIGNING_KID", "k")]
  nodup := by
    simp only [List.map_cons, List.map_nil]
    decide

def patFiles : Files := fun _ => .ok [0]

def patConfig : @ProxyConfig Platform.plain :=
  letI := Platform.plain
  Except.value (loadConfig patEnv patFiles) (by decide +kernel)

/-- A proxy with personal access tokens. -/
def patApp : @App Platform.plain :=
  letI := Platform.plain
  Except.value (createApp patConfig) (by decide +kernel)

/-- The claims of an interactive session of the user `alice`. -/
def aliceClaims : JsonValue :=
  ⟨.obj [("active", .bool true), ("iss", .str "https://id.example/realms/r"), ("typ", .str "Bearer"),
    ("sub", .str "alice"), ("sid", .str "s"), ("organization", .arr [.str "acme"])], by
    refine ⟨by decide, ?_⟩
    simp [Json.WFMembers, Json.WF, Json.WFElems]⟩

/-- An answer of a token endpoint. -/
def grantAnswer : JsonValue :=
  ⟨.obj [("access_token", .str "short"), ("scope", .str "read write")], by
    refine ⟨by decide, ?_⟩
    simp [Json.WFMembers, Json.WF]⟩

def noLinks : JsonValue := ⟨.arr [], trivial⟩

/-- How the realm answers: to an introspection, to a request for the links, to one that creates a
link, and to a token request. -/
def realmAnswer (req : HttpRequest) : HttpOutcome :=
  if (Dict.get? req.form "token").isSome then .response 200 (.value aliceClaims)
  else if req.method = .get then .response 200 (.value noLinks)
  else if req.json.isSome then .response 201 (.value noLinks)
  else .response 200 (.value grantAnswer)

/-- The replies of a realm that answers, with every clock at the given reading. -/
def realmReplies (now : Datetime) : (o : Op) → Reply o
  | .http req => realmAnswer req
  | .utcnow => now
  | o => idleReply o

/-- A body that names the resource `https://log.example`. -/
def patBody : BodyJson :=
  .value ⟨.obj [("name", .str "laptop"), ("resources", .arr [.str "https://log.example/"]),
    ("scopes", .arr [.str "read"])], by
    refine ⟨by decide, ?_⟩
    simp [Json.WFMembers, Json.WF, Json.WFElems]⟩

def bearer : Option Str := some "Bearer session".toList

/-- The token made of zeros. -/
def zeroToken : Str :=
  letI := Platform.plain
  Except.value (tokenFrom (List.replicate randomBytes 0)) (by decide +kernel)

/-- The form that exchanges a token. -/
def exchangeForm (token : Str) : Token.TokenForm where
  grantType := some tokenExchange
  code := none
  codeVerifier := none
  redirectUri := none
  clientId := none
  refreshToken := none
  scope := none
  subjectToken := some token
  subjectTokenType := some accessTokenType
  requestedTokenType := none
  resource := none

/-- A token is created. -/
def createRun : Schedule :=
  .start (.createToken bearer patBody) :: List.replicate 11 (.act 0 (realmReplies 0))

/-- The token is revoked and then presented for exchange. -/
def revokedRun : Schedule :=
  createRun ++
  .start (.revokeToken (uuidText 0) bearer) :: List.replicate 2 (.act 1 (realmReplies 0)) ++
  .start (.token (exchangeForm zeroToken)) :: List.replicate 2 (.act 2 (realmReplies 0))

/-- Whether the last but one event is the lookup of a token that had been revoked. -/
def looksUpRevoked (h : History) : Bool :=
  match h with
  | _ :: (_, ⟨.findByHash hash, _⟩) :: past =>
      past.any (fun e => match e with
        | (_, ⟨.insert record hash', .ok _⟩) => hash' == hash && past.any (revokes record.id)
        | _ => false)
  | _ => false

theorem exists_of_looksUpRevoked {h : History} (hl : looksUpRevoked h = true) :
    ∃ pid hash reply past pid₁ record pid₂ realm owner at_,
      (pid, did (.findByHash hash) reply) :: past <:+ h ∧
      (pid₁, did (.insert record hash) (.ok ())) ∈ past ∧
      (pid₂, did (.revoke realm owner record.id) (.ok (true, at_))) ∈ past := by
  unfold looksUpRevoked at hl
  split at hl
  · next e pid hash reply past =>
      obtain ⟨ev, hev, hc⟩ := List.any_eq_true.mp hl
      split at hc
      · next pid₁ record hash' _ =>
          rw [Bool.and_eq_true, beq_iff_eq] at hc
          obtain ⟨rfl, hrev⟩ := hc
          obtain ⟨ev₂, hev₂, hr⟩ := List.any_eq_true.mp hrev
          unfold revokes at hr
          split at hr
          · next pid₂ realm owner id at_ =>
              obtain rfl := eq_of_beq hr
              exact ⟨pid, hash', reply, past, pid₁, record, pid₂, realm, owner, at_,
                List.suffix_cons _ _, hev, hev₂⟩
          · cases hr
      · cases hc
  · cases hl

theorem revokedRun_looksUp :
    letI := Platform.plain
    looksUpRevoked (patApp.run revokedRun).hist = true := by
  decide +kernel

theorem token_table_history_revokedRun :
    letI := Platform.plain
    TableHistory patApp revokedRun ∧
    ∃ pid hash reply past, (pid, did (.findByHash hash) reply) :: past <:+ (patApp.run revokedRun).hist ∧
      ∀ req outcome, (pid, did (.http req) outcome) ∉ (patApp.run revokedRun).hist := by
  let := Platform.plain
  obtain ⟨pid, hash, reply, past, pid₁, record, pid₂, realm, owner, at_, hl, hins, hrev⟩ :=
    exists_of_looksUpRevoked revokedRun_looksUp
  have h := token_table_history patApp revokedRun
  exact ⟨h, pid, hash, reply, past, hl,
    (h.refused pid hash reply past pid₁ record pid₂ realm owner at_ hl hins hrev).1⟩

end CimdProxy
