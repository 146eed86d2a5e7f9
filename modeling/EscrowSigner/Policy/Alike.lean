import EscrowSigner.Ledger.Reserve
import EscrowSigner.Process.Lockstep

/-! Two runs whose worlds differ in nothing but the stored hint of the row of one key: no statement of
the ledger that they share reads the hint. -/

namespace EscrowSigner.Policy

open Ledger Process

/-! ### Worlds that differ in hints -/

/-- A row without the hint, where it is the row of `k`. -/
def unhinted (k : Key) (r : SpendRow) : SpendRow :=
  if r.key = k then { r with hubGasHint := 0 } else r

/-- An event without the hint of the row that a signature is for. -/
def unhintedEvent (k : Key) : Event → Event
  | .sign row instant tx result => .sign (unhinted k row) instant tx result
  | e => e

/-- Two rows that differ at most in the hint of the row of `k`. -/
def RowAlike (k : Key) (r r' : SpendRow) : Prop := unhinted k r = unhinted k r'

/-- Two databases that differ at most in the hint of the row of `k`. -/
def TablesAlike (k : Key) (t t' : Tables) : Prop :=
  ∃ spend : SpendTable, t' = { t with spend := spend } ∧
    t.spend.rows.map (unhinted k) = spend.rows.map (unhinted k)

/-- Two worlds that differ at most in the hint of the row of `k`. -/
structure WorldAlike (k : Key) (w w' : World) : Prop where
  committed : TablesAlike k w.db.committed w'.db.committed
  working : Option.Rel (TablesAlike k) w.db.working w'.db.working
  mem : w'.mem = w.mem
  clock : w'.clock = w.clock
  chain : w'.chain = w.chain
  log : w.log.map (unhintedEvent k) = w'.log.map (unhintedEvent k)

variable {k : Key} {t t' : Tables} {w w' : World} {r r' : SpendRow} {rows rows' : List SpendRow}

theorem TablesAlike.refl (k : Key) (t : Tables) : TablesAlike k t t := ⟨t.spend, rfl, rfl⟩

theorem WorldAlike.refl (k : Key) (w : World) : WorldAlike k w w where
  committed := .refl k _
  working := by
    cases w.db.working with
    | none => exact .none
    | some t => exact .some (.refl k t)
  mem := rfl
  clock := rfl
  chain := rfl
  log := rfl

/-- A transaction is open in both worlds or in none. -/
theorem WorldAlike.cases_working (h : WorldAlike k w w') :
    (w.db.working = none ∧ w'.db.working = none) ∨
      ∃ t t', w.db.working = some t ∧ w'.db.working = some t' ∧ TablesAlike k t t' := by
  have hrel := h.working
  cases hw : w.db.working with
  | none =>
    rw [hw] at hrel
    cases hw' : w'.db.working with
    | none => exact .inl ⟨rfl, rfl⟩
    | some t' =>
      rw [hw'] at hrel
      cases hrel
  | some t =>
    rw [hw] at hrel
    cases hw' : w'.db.working with
    | none =>
      rw [hw'] at hrel
      cases hrel
    | some t' =>
      rw [hw'] at hrel
      cases hrel with
      | some ht => exact .inr ⟨t, t', rfl, rfl, ht⟩

theorem WorldAlike.view (h : WorldAlike k w w') : TablesAlike k w.view w'.view := by
  unfold World.view Db.view
  rcases h.cases_working with ⟨hw, hw'⟩ | ⟨t, t', hw, hw', ht⟩
  · rw [hw, hw']
    exact h.committed
  · rw [hw, hw']
    exact ht

theorem WorldAlike.advance (h : WorldAlike k w w') (c : Choice) :
    WorldAlike k (w.advance c) (w'.advance c) :=
  ⟨h.committed, h.working, h.mem, rfl, rfl, h.log⟩

theorem WorldAlike.record (h : WorldAlike k w w') {e e' : Event}
    (he : unhintedEvent k e = unhintedEvent k e') : WorldAlike k (w.record e) (w'.record e') :=
  ⟨h.committed, h.working, h.mem, h.clock, h.chain, congrArg₂ List.cons he h.log⟩

theorem WorldAlike.write (h : WorldAlike k w w') (ht : TablesAlike k t t') :
    WorldAlike k (w.write t) (w'.write t') := by
  unfold World.write Db.write
  rcases h.cases_working with ⟨hw, hw'⟩ | ⟨u, u', hw, hw', -⟩
  · rw [hw, hw']
    exact ⟨ht, .none, h.mem, h.clock, h.chain, h.log⟩
  · rw [hw, hw']
    exact ⟨h.committed, .some ht, h.mem, h.clock, h.chain, h.log⟩

theorem WorldAlike.fail (h : WorldAlike k w w') (f : Fault) :
    WorldAlike k (w.fail f) (w'.fail f) := by
  unfold World.fail
  split
  · exact ⟨h.committed, .none, h.mem, h.clock, h.chain, h.log⟩
  · exact h

/-! ### Statements -/

section Steps

variable {α α' : Type} {V : α → α' → Prop}

/-- Both processes return related values in worlds that differ in hints. -/
abbrev Alike (k : Key) (V : α → α' → Prop) (p : Code α) (p' : Code α') (w w' : World) : Prop :=
  Lockstep (WorldAlike k) (fun a a' w w' => V a a' ∧ WorldAlike k w w') p p' w w'

theorem alike_action {f : Choice → World → World × Except Exn α}
    {f' : Choice → World → World × Except Exn α'} (hw : WorldAlike k w w')
    (h : ∀ c, Both (WorldAlike k) (fun a a' w w' => V a a' ∧ WorldAlike k w w')
      (f c (w.advance c)).2 (f' c (w'.advance c)).2 (f c (w.advance c)).1
      (f' c (w'.advance c)).1) : Alike k V (action f) (action f') w w' :=
  Lockstep.atomic hw h

/-- Two results of statements, with the tables that they leave. -/
def StatementsAlike (k : Key) (V : α → α' → Prop) :
    Except Exn (Tables × α) → Except Exn (Tables × α') → Prop
  | .ok r, .ok r' => TablesAlike k r.1 r'.1 ∧ V r.2 r'.2
  | .error e, .error e' => e = e'
  | _, _ => False

/-- Two statements whose results are alike on what the two worlds show. -/
theorem alike_sql_view {f : Tables → Except Exn (Tables × α)}
    {f' : Tables → Except Exn (Tables × α')} (hw : WorldAlike k w w')
    (h : StatementsAlike k V (f w.view) (f' w'.view)) : Alike k V (sql f) (sql f') w w' := by
  refine alike_action hw fun c => ?_
  have hw := hw.advance c
  have hview : StatementsAlike k V (f (w.advance c).view) (f' (w'.advance c).view) := h
  unfold statement
  cases c.fault with
  | some fault => exact ⟨rfl, hw.fail fault⟩
  | none =>
    dsimp only
    cases hf : f (w.advance c).view with
    | error e =>
      rw [hf] at hview
      cases hf' : f' (w'.advance c).view with
      | error e' =>
        rw [hf'] at hview
        exact ⟨hview, hw⟩
      | ok r' =>
        rw [hf'] at hview
        exact hview.elim
    | ok r =>
      rw [hf] at hview
      cases hf' : f' (w'.advance c).view with
      | error e' =>
        rw [hf'] at hview
        exact hview.elim
      | ok r' =>
        rw [hf'] at hview
        exact ⟨hview.2, hw.write hview.1⟩

theorem alike_sql {f : Tables → Except Exn (Tables × α)} {f' : Tables → Except Exn (Tables × α')}
    (hw : WorldAlike k w w')
    (h : ∀ t t', TablesAlike k t t' → StatementsAlike k V (f t) (f' t')) :
    Alike k V (sql f) (sql f') w w' := alike_sql_view hw (h _ _ hw.view)

/-- A `SELECT` that reads no hint. -/
theorem alike_select {f : Tables → Except Exn α} (hw : WorldAlike k w w')
    (h : ∀ t t', TablesAlike k t t' → f t' = f t) :
    Alike k (fun a a' => a' = a) (select f) (select f) w w' := by
  refine alike_sql hw fun t t' ht => ?_
  rw [h t t' ht]
  cases f t with
  | error e => exact rfl
  | ok a => exact ⟨ht, rfl⟩

/-- Two results of an `UPDATE`. -/
def UpdatesAlike (k : Key) : Except Exn Tables → Except Exn Tables → Prop
  | .ok t, .ok t' => TablesAlike k t t'
  | .error e, .error e' => e = e'
  | _, _ => False

theorem UpdatesAlike.statement {r r' : Except Exn Tables} (h : UpdatesAlike k r r') (a : α) :
    StatementsAlike k Eq (r >>= fun t => Except.ok (t, a)) (r' >>= fun t => Except.ok (t, a)) := by
  cases r with
  | error e =>
    cases r' with
    | error e' => exact h
    | ok t' => exact h.elim
  | ok t =>
    cases r' with
    | error e' => exact h.elim
    | ok t' => exact ⟨h, rfl⟩

theorem alike_update {f f' : Tables → Except Exn Tables} (hw : WorldAlike k w w')
    (h : ∀ t t', TablesAlike k t t' → UpdatesAlike k (f t) (f' t')) :
    Alike k Eq (update f) (update f') w w' :=
  alike_sql hw fun t t' ht => (h t t' ht).statement ()

theorem alike_readClock (hw : WorldAlike k w w') : Alike k Eq readClock readClock w w' :=
  alike_action hw fun c => ⟨rfl, (hw.advance c).record rfl⟩

theorem alike_now (hw : WorldAlike k w w') : Alike k Eq now now w w' := by
  refine (alike_readClock hw).bind fun instant instant' w w' h => ?_
  obtain ⟨rfl, hw⟩ := h
  exact ⟨rfl, hw⟩

theorem alike_rpc (q : Query) (hw : WorldAlike k w w') : Alike k Eq (rpc q) (rpc q) w w' := by
  refine alike_action hw fun c => ?_
  have hrecord : ∀ answer, WorldAlike k ((w.advance c).record (.rpc q answer))
      ((w'.advance c).record (.rpc q answer)) := fun answer => (hw.advance c).record rfl
  cases c.answer q with
  | ok a => exact ⟨rfl, hrecord _⟩
  | error e => exact ⟨rfl, hrecord _⟩

theorem alike_commit (hw : WorldAlike k w w') : Alike k Eq commit commit w w' := by
  refine alike_action hw fun c => ?_
  have hw := hw.advance c
  cases c.fault with
  | some fault => exact ⟨rfl, hw.fail fault⟩
  | none =>
    rcases hw.cases_working with ⟨hnone, hnone'⟩ | ⟨t, t', hsome, hsome', ht⟩
    · rw [hnone, hnone']
      exact ⟨rfl, hw⟩
    · rw [hsome, hsome']
      exact ⟨rfl, ht, .none, hw.mem, hw.clock, hw.chain, hw.log⟩

theorem alike_rollback (hw : WorldAlike k w w') : Alike k Eq rollback rollback w w' := by
  refine alike_action hw fun c => ?_
  have hw := hw.advance c
  rcases hw.cases_working with ⟨hnone, hnone'⟩ | ⟨t, t', hsome, hsome', ht⟩
  · rw [hnone, hnone']
    exact ⟨rfl, hw⟩
  · rw [hsome, hsome']
    exact ⟨rfl, hw.committed, .none, hw.mem, hw.clock, hw.chain, hw.log⟩

theorem alike_inTransaction (hw : WorldAlike k w w') :
    Alike k Eq inTransaction inTransaction w w' := by
  refine alike_action hw fun c => ⟨?_, hw.advance c⟩
  rcases (hw.advance c).cases_working with ⟨hnone, hnone'⟩ | ⟨t, t', hsome, hsome', -⟩
  · rw [hnone, hnone']
  · rw [hsome, hsome']
    rfl

theorem alike_signTransaction {x : Externals} {tx : Tx} (hw : WorldAlike k w w')
    (hr : RowAlike k r r') : Alike k Eq (signTransaction x r tx) (signTransaction x r' tx) w w' := by
  refine alike_action hw fun c => ?_
  have hevent : ∀ result, unhintedEvent k (.sign r c.now tx result) =
      unhintedEvent k (.sign r' c.now tx result) := fun result =>
    congrArg (fun row => Event.sign row c.now tx result) hr
  cases c.signFault with
  | some name => exact ⟨rfl, (hw.advance c).record (hevent _)⟩
  | none => exact ⟨rfl, (hw.advance c).record (hevent _)⟩

end Steps

/-! ### Rows -/

theorem RowAlike.exists_hint (h : RowAlike k r r') : ∃ n, r' = { r with hubGasHint := n } := by
  have hback : ∀ r : SpendRow, { unhinted k r with hubGasHint := r.hubGasHint } = r := by
    intro r
    unfold unhinted
    split <;> rfl
  refine ⟨r'.hubGasHint, ?_⟩
  rw [← hback r', ← h]
  unfold unhinted
  split <;> rfl

theorem RowAlike.of_hint (hk : r.key = k) (n : Int) : RowAlike k r { r with hubGasHint := n } := by
  unfold RowAlike unhinted
  rw [if_pos hk, if_pos (show SpendRow.key { r with hubGasHint := n } = k from hk)]

/-- A change that keeps the hint. -/
theorem RowAlike.map {f : SpendRow → SpendRow} (h : RowAlike k r r')
    (hf : ∀ r, unhinted k (f r) = f (unhinted k r)) : RowAlike k (f r) (f r') := by
  unfold RowAlike
  rw [hf, hf, h]

theorem unhinted_apply (u : RowUpdates) (state : RowState) (r : SpendRow) :
    unhinted k (u.apply state r) = u.apply state (unhinted k r) := by
  unfold unhinted
  rw [show (u.apply state r).key = r.key from rfl]
  split <;> rfl

theorem map_of_unhinted {β : Type} (g : SpendRow → β) (hg : ∀ r, g (unhinted k r) = g r)
    (h : rows.map (unhinted k) = rows'.map (unhinted k)) : rows'.map g = rows.map g := by
  have hmap : ∀ rows : List SpendRow, rows.map g = (rows.map (unhinted k)).map g := fun rows => by
    rw [List.map_map]
    exact List.map_congr_left fun r _ => (hg r).symm
  rw [hmap rows', ← h, ← hmap rows]

@[simp] theorem unhinted_key (r : SpendRow) : (unhinted k r).key = r.key := by
  unfold unhinted
  split <;> rfl

@[simp] theorem unhinted_state (r : SpendRow) : (unhinted k r).state = r.state := by
  unfold unhinted
  split <;> rfl

/-- The constraints look at no hint. -/
theorem constraints_alike (h : rows.map (unhinted k) = rows'.map (unhinted k)) :
    SpendConstraints rows ↔ SpendConstraints rows' := by
  have hseq : ∀ r, (unhinted k r).seq = r.seq := fun r => by
    unfold unhinted
    split <;> rfl
  have hnonce : ∀ r, (unhinted k r).nonceKey = r.nonceKey := fun r => by
    unfold unhinted
    split <;> rfl
  have hlive : ∀ rows : List SpendRow,
      (rows.filter fun r => r.state ≠ .dead).map SpendRow.nonceKey =
        ((rows.map (unhinted k)).filter fun r => r.state ≠ .dead).map SpendRow.nonceKey := by
    intro rows
    rw [List.filter_map, List.map_map]
    simp only [Function.comp_def, unhinted_state, hnonce]
  unfold SpendConstraints
  rw [hlive rows', ← h, ← hlive rows, map_of_unhinted SpendRow.key (fun r => unhinted_key r) h,
    map_of_unhinted SpendRow.seq hseq h]

theorem alike_setSpend (ht : TablesAlike k t t')
    (h : rows.map (unhinted k) = rows'.map (unhinted k)) :
    UpdatesAlike k (t.setSpend rows) (t'.setSpend rows') := by
  obtain ⟨spend, rfl, -⟩ := ht
  unfold Tables.setSpend
  by_cases hc : SpendConstraints rows
  · rw [dif_pos hc, dif_pos ((constraints_alike h).mp hc)]
    exact ⟨_, rfl, h⟩
  · rw [dif_neg hc, dif_neg fun hc' => hc ((constraints_alike h).mpr hc')]
    exact rfl

theorem map_mapRow_alike {key : Key} {f f' : SpendRow → SpendRow}
    (h : rows.map (unhinted k) = rows'.map (unhinted k))
    (hf : ∀ r r', r.key = key → RowAlike k r r' → RowAlike k (f r) (f' r')) :
    (mapRow key f rows).map (unhinted k) = (mapRow key f' rows').map (unhinted k) := by
  induction rows generalizing rows' with
  | nil =>
    cases rows' with
    | nil => rfl
    | cons r' rows' => cases h
  | cons r rows ih =>
    cases rows' with
    | nil => cases h
    | cons r' rows' =>
      obtain ⟨hr, hrows⟩ := List.cons.inj h
      have hkey : r'.key = r.key := by rw [← unhinted_key (k := k) r', ← hr, unhinted_key]
      refine congrArg₂ List.cons ?_ (ih hrows)
      show RowAlike k (if r.key = key then f r else r) (if r'.key = key then f' r' else r')
      rw [hkey]
      split
      · rename_i hr'
        exact hf r r' hr' hr
      · exact hr

theorem alike_updateRow {key : Key} {f f' : SpendRow → SpendRow} (ht : TablesAlike k t t')
    (hf : ∀ r r', r.key = key → RowAlike k r r' → RowAlike k (f r) (f' r')) :
    UpdatesAlike k (t.updateRow key f) (t'.updateRow key f') := by
  refine alike_setSpend ht ?_
  obtain ⟨spend, rfl, hrows⟩ := ht
  exact map_mapRow_alike hrows hf

theorem alike_find {key : Key} (h : rows.map (unhinted k) = rows'.map (unhinted k)) :
    Option.Rel (RowAlike k) (rows.find? fun r => r.key == key)
      (rows'.find? fun r => r.key == key) := by
  induction rows generalizing rows' with
  | nil =>
    cases rows' with
    | nil => exact .none
    | cons r' rows' => cases h
  | cons r rows ih =>
    cases rows' with
    | nil => cases h
    | cons r' rows' =>
      obtain ⟨hr, hrows⟩ := List.cons.inj h
      have hkey : r'.key = r.key := by rw [← unhinted_key (k := k) r', ← hr, unhinted_key]
      rw [List.find?_cons, List.find?_cons, hkey]
      split
      · exact .some hr
      · exact ih hrows

theorem alike_get (key : Key) (hw : WorldAlike k w w') :
    Alike k (Option.Rel (RowAlike k)) (Ledger.get key) (Ledger.get key) w w' := by
  refine alike_sql hw fun t t' ht => ⟨ht, ?_⟩
  obtain ⟨spend, rfl, hrows⟩ := ht
  exact alike_find hrows

/-! ### Operations of the ledger -/

section Operations

variable {x : Externals} {caps : Caps} {a : Request} {n : Int}

theorem alike_guardRow (hw : WorldAlike k w w') : Alike k Eq guardRow guardRow w w' :=
  alike_sql hw fun t t' ht => by
    obtain ⟨spend, rfl, hrows⟩ := ht
    exact ⟨⟨spend, rfl, hrows⟩, rfl⟩

/-- An `UPDATE` of another table. -/
theorem alike_elsewhere {F : Tables → Tables} (hw : WorldAlike k w w')
    (hF : ∀ t t', TablesAlike k t t' → TablesAlike k (F t) (F t')) :
    Alike k Eq (update fun t => .ok (F t)) (update fun t => .ok (F t)) w w' :=
  alike_update hw hF

theorem alike_refuseRegression (row : ClockGuard) (wall : Int) (hw : WorldAlike k w w') :
    Alike k Eq (refuseRegression row wall) (refuseRegression row wall) w w' := by
  unfold refuseRegression
  split
  · refine (alike_elsewhere hw ?_).bind fun _ _ w w' h => .raise h.2
    rintro t _ ⟨spend, rfl, hrows⟩
    exact ⟨spend, rfl, hrows⟩
  · exact ⟨rfl, hw⟩

theorem alike_tick (hw : WorldAlike k w w') : Alike k Eq tick tick w w' := by
  refine (alike_guardRow hw).bind fun row row' w w' h => ?_
  obtain ⟨rfl, hw⟩ := h
  refine (alike_now hw).bind fun wall wall' w w' h => ?_
  obtain ⟨rfl, hw⟩ := h
  refine (alike_refuseRegression row wall hw).bind fun _ _ w w' h => ?_
  refine (alike_elsewhere h.2 ?_).bind fun _ _ w w' h => ⟨rfl, h.2⟩
  rintro t _ ⟨spend, rfl, hrows⟩
  exact ⟨spend, rfl, hrows⟩

theorem alike_audit (f : AuditFields) (hw : WorldAlike k w w') :
    Alike k Eq (audit x f) (audit x f) w w' := by
  refine (alike_tick hw).bind fun stamp stamp' w w' h => ?_
  obtain ⟨rfl, hw⟩ := h
  refine (alike_select hw ?_).bind fun head head' w w' h => ?_
  · rintro t _ ⟨spend, rfl, -⟩
    rfl
  obtain ⟨rfl, hw⟩ := h
  refine Lockstep.bind (P := fun a a' w w' => a = a' ∧ WorldAlike k w w') (alike_sql hw ?_) ?_
  · rintro t _ ⟨spend, rfl, hrows⟩
    dsimp only [Bind.bind, Except.bind]
    cases bindInts f.ints with
    | error e => exact rfl
    | ok u => exact ⟨⟨spend, rfl, hrows⟩, rfl⟩
  · rintro rowHash _ w w' ⟨rfl, hw⟩
    refine alike_elsewhere hw ?_
    rintro t _ ⟨spend, rfl, hrows⟩
    exact ⟨spend, rfl, hrows⟩

theorem alike_setState (state : RowState) (u : RowUpdates) (hw : WorldAlike k w w')
    (hr : RowAlike k r r') : Alike k Eq (setState x r state u) (setState x r' state u) w w' := by
  obtain ⟨n, rfl⟩ := hr.exists_hint
  refine (alike_update hw fun t t' ht => ?_).bind fun _ _ w w' h => alike_audit _ h.2
  dsimp only [Bind.bind, Except.bind]
  cases bindInts (r.chainId :: u.feeWeiSpent.toList) with
  | error e => exact rfl
  | ok v =>
    exact alike_updateRow ht fun r r' _ hr => hr.map fun r => unhinted_apply u state r

theorem alike_markSigned (txHash rawKeccak : String) (hw : WorldAlike k w w')
    (hr : RowAlike k r r') :
    Alike k Eq (markSigned x r txHash rawKeccak) (markSigned x r' txHash rawKeccak) w w' := by
  refine (alike_setState .signed ⟨some txHash, none, none⟩ hw hr).bind fun _ _ w w' h => ?_
  obtain ⟨n, rfl⟩ := hr.exists_hint
  refine (alike_tick h.2).bind fun stamp stamp' w w' h => ?_
  obtain ⟨rfl, hw⟩ := h
  refine alike_update hw fun t t' ht => ?_
  obtain ⟨spend, rfl, hrows⟩ := ht
  dsimp only [Bind.bind, Except.bind]
  cases bindInts [r.chainId, r.accountNonce, r.maxFeeWei] with
  | error e => exact rfl
  | ok v => exact ⟨spend, rfl, hrows⟩

theorem alike_markBroadcast (txHash : String) (hw : WorldAlike k w w') (hr : RowAlike k r r') :
    Alike k Eq (markBroadcast x r txHash) (markBroadcast x r' txHash) w w' :=
  alike_setState .broadcast ⟨some txHash, none, none⟩ hw hr

theorem alike_readUnsigned (hw : WorldAlike k w w') (hr : RowAlike k r r') :
    Alike k (Option.Rel (RowAlike k)) (readUnsigned r) (readUnsigned r') w w' := by
  obtain ⟨n, rfl⟩ := hr.exists_hint
  refine (alike_get r.key hw).bind fun held held' w w' h => ?_
  obtain ⟨hheld, hw⟩ := h
  cases hheld with
  | none => exact ⟨.none, hw⟩
  | @some held held' hheld =>
    obtain ⟨m, rfl⟩ := hheld.exists_hint
    dsimp only
    split
    · refine (alike_select hw ?_).bind fun attempt attempt' w w' h => ?_
      · rintro t _ ⟨spend, rfl, -⟩
        rfl
      · obtain ⟨rfl, hw⟩ := h
        split
        · exact ⟨.some hheld, hw⟩
        · exact ⟨.none, hw⟩
    · exact ⟨.none, hw⟩

theorem alike_markDead (reason : String) (hw : WorldAlike k w w') (hr : RowAlike k r r') :
    Alike k Eq (markDead x r reason) (markDead x r' reason) w w' := by
  refine (alike_readUnsigned hw hr).bind fun unsigned unsigned' w w' h => ?_
  obtain ⟨hunsigned, hw⟩ := h
  refine (alike_setState .dead ⟨none, none, some reason⟩ hw hr).bind fun _ _ w w' h => ?_
  obtain ⟨n, rfl⟩ := hr.exists_hint
  cases hunsigned with
  | none => exact ⟨rfl, h.2⟩
  | @some held held' hheld =>
    obtain ⟨m, rfl⟩ := hheld.exists_hint
    refine (alike_guardRow h.2).bind fun guard guard' w w' h => ?_
    obtain ⟨rfl, hw⟩ := h
    refine alike_elsewhere hw ?_
    rintro t _ ⟨spend, rfl, hrows⟩
    exact ⟨spend, rfl, hrows⟩

/-! ### The reservation of a debit -/

/-- Requests that differ in the hint bind alike. -/
theorem bindInts_hint (before after : List Int) {hint hint' : Int} (hfit : inInt64 hint = true)
    (hfit' : inInt64 hint' = true) :
    bindInts (before ++ hint' :: after) = bindInts (before ++ hint :: after) := by
  unfold bindInts
  rw [List.all_append, List.all_append, List.all_cons, List.all_cons, hfit, hfit']

theorem alike_reviveRow (hk : a.key = k) (hfit : inInt64 a.hubGasHint = true)
    (hfit' : inInt64 n = true) (al : Allocation) (w : World) :
    Alike k Eq
      (reviveRow [al.accountNonce, a.gasLimit, a.hubGasHint, a.maxFeeWei, a.chainId, a.amountUnits]
        a.key a.amountUnits (a.revived al.seq al.ts al.accountNonce))
      (reviveRow [al.accountNonce, a.gasLimit, n, a.maxFeeWei, a.chainId, a.amountUnits]
        a.key a.amountUnits
        (Request.revived { a with hubGasHint := n } al.seq al.ts al.accountNonce)) w w := by
  have hints : bindInts [al.accountNonce, a.gasLimit, n, a.maxFeeWei, a.chainId, a.amountUnits] =
      bindInts [al.accountNonce, a.gasLimit, a.hubGasHint, a.maxFeeWei, a.chainId, a.amountUnits] :=
    bindInts_hint [al.accountNonce, a.gasLimit] [a.maxFeeWei, a.chainId, a.amountUnits] hfit hfit'
  refine alike_sql_view (.refl k w) ?_
  rw [hints]
  dsimp only [Bind.bind, Except.bind]
  cases bindInts [al.accountNonce, a.gasLimit, a.hubGasHint, a.maxFeeWei, a.chainId, a.amountUnits]
    with
  | error e => exact rfl
  | ok u =>
    dsimp only
    split
    · have hupdate : UpdatesAlike k (w.view.updateRow a.key (a.revived al.seq al.ts al.accountNonce))
          (w.view.updateRow a.key
            (Request.revived { a with hubGasHint := n } al.seq al.ts al.accountNonce)) := by
        refine alike_updateRow (.refl k _) fun r r' hkey hr => ?_
        obtain ⟨m, rfl⟩ := hr.exists_hint
        exact RowAlike.of_hint (r := a.revived al.seq al.ts al.accountNonce r) (hkey.trans hk) n
      exact hupdate.statement true
    · exact ⟨.refl k _, rfl⟩

theorem alike_takeNonce (chainId : Int) (fromAddr : String) (seq : Int) (hw : WorldAlike k w w') :
    Alike k Eq (takeNonce chainId fromAddr seq) (takeNonce chainId fromAddr seq) w w' := by
  refine alike_elsewhere hw ?_
  rintro t _ ⟨spend, rfl, hrows⟩
  exact ⟨spend, rfl, hrows⟩

theorem alike_giveUp {α α' : Type} {V : α → α' → Prop} (e : Exn) (hw : WorldAlike k w w') :
    Alike k V (giveUp e) (giveUp e) w w' :=
  (alike_rollback hw).bind fun _ _ _ _ h => .raise h.2

theorem alike_reviveDebit (hk : a.key = k) (hfit : inInt64 a.hubGasHint = true)
    (hfit' : inInt64 n = true) (al : Allocation) (w : World) :
    Alike k (RowAlike k) (reviveDebit x a al) (reviveDebit x { a with hubGasHint := n } al) w w := by
  refine (alike_reviveRow hk hfit hfit' al w).bind fun changed changed' w w' h => ?_
  obtain ⟨rfl, hw⟩ := h
  split
  · refine (alike_takeNonce a.chainId a.fromAddr al.seq hw).bind fun _ _ w w' h => ?_
    refine (alike_commit h.2).bind fun _ _ w w' h => ?_
    refine (alike_get a.key h.2).bind fun row row' w w' h => ?_
    obtain ⟨hrow, hw⟩ := h
    cases hrow with
    | none => exact .raise hw
    | some hrow => exact (alike_audit _ hw).bind fun _ _ w w' h => ⟨hrow, h.2⟩
  · exact alike_giveUp _ hw

theorem alike_insertRow (caps : Caps) (cuts : Cuts) (hk : a.key = k)
    (hfit : inInt64 a.hubGasHint = true) (hfit' : inInt64 n = true) (al : Allocation) (w : World) :
    Alike k Eq
      (insertRow (a.ints al.accountNonce ++ [caps.units24h, caps.units1h, caps.units10m,
        caps.unitsChannel24h, caps.tx1h, caps.tx24h]) (debitGuard caps a cuts)
        (a.row x al.seq al.ts al.accountNonce al.head))
      (insertRow (Request.ints { a with hubGasHint := n } al.accountNonce ++ [caps.units24h,
        caps.units1h, caps.units10m, caps.unitsChannel24h, caps.tx1h, caps.tx24h])
        (debitGuard caps { a with hubGasHint := n } cuts)
        (Request.row x { a with hubGasHint := n } al.seq al.ts al.accountNonce al.head)) w w := by
  have hints : bindInts (Request.ints { a with hubGasHint := n } al.accountNonce ++
        [caps.units24h, caps.units1h, caps.units10m, caps.unitsChannel24h, caps.tx1h, caps.tx24h]) =
      bindInts (a.ints al.accountNonce ++
        [caps.units24h, caps.units1h, caps.units10m, caps.unitsChannel24h, caps.tx1h, caps.tx24h]) :=
    bindInts_hint [a.chainId, a.amountUnits, a.deadline, a.channelNonce, a.gasLimit]
      [a.maxFeeWei, al.accountNonce, caps.units24h, caps.units1h, caps.units10m,
        caps.unitsChannel24h, caps.tx1h, caps.tx24h] hfit hfit'
  refine alike_sql_view (.refl k w) ?_
  rw [hints]
  dsimp only [Bind.bind, Except.bind]
  cases bindInts (a.ints al.accountNonce ++ [caps.units24h, caps.units1h, caps.units10m,
    caps.unitsChannel24h, caps.tx1h, caps.tx24h]) with
  | error e => exact rfl
  | ok u =>
    rw [show debitGuard caps { a with hubGasHint := n } cuts = debitGuard caps a cuts from rfl]
    cases debitGuard caps a cuts w.view with
    | error e => exact rfl
    | ok admitted =>
      cases admitted with
      | false => exact ⟨.refl k _, rfl⟩
      | true =>
        have hrow : RowAlike k (a.row x al.seq al.ts al.accountNonce al.head)
            (Request.row x { a with hubGasHint := n } al.seq al.ts al.accountNonce al.head) :=
          RowAlike.of_hint (r := a.row x al.seq al.ts al.accountNonce al.head) hk n
        refine UpdatesAlike.statement (alike_setSpend (.refl k w.view) ?_) true
        rw [List.map_append, List.map_append]
        exact congrArg (w.view.spend.rows.map (unhinted k) ++ [·]) hrow

theorem alike_insertDebit (cuts : Cuts) (hk : a.key = k) (hfit : inInt64 a.hubGasHint = true)
    (hfit' : inInt64 n = true) (al : Allocation) (w : World) :
    Alike k Eq (insertDebit x caps a cuts al)
      (insertDebit x caps { a with hubGasHint := n } cuts al) w w := by
  refine (alike_insertRow caps cuts hk hfit hfit' al w).bind fun inserted inserted' w w' h => ?_
  obtain ⟨rfl, hw⟩ := h
  split
  · refine (alike_takeNonce a.chainId a.fromAddr al.seq hw).bind fun _ _ w w' h => ?_
    refine (alike_elsewhere h.2 ?_).bind fun _ _ w w' h => alike_commit h.2
    rintro t _ ⟨spend, rfl, hrows⟩
    exact ⟨spend, rfl, hrows⟩
  · exact alike_giveUp _ hw

theorem alike_reserveTransaction (cuts : Cuts) (revive : Bool) (hk : a.key = k)
    (hfit : inInt64 a.hubGasHint = true) (hfit' : inInt64 n = true) (w : World) :
    Alike k (Option.Rel (RowAlike k)) (reserveTransaction x caps a cuts revive)
      (reserveTransaction x caps { a with hubGasHint := n } cuts revive) w w := by
  refine Lockstep.behind (WorldAlike.refl k) fun al w => ?_
  split
  · exact (alike_reviveDebit hk hfit hfit' al w).bind fun _ _ w w' h => ⟨.some h.1, h.2⟩
  · exact (alike_insertDebit cuts hk hfit hfit' al w).bind fun _ _ w w' h => ⟨.none, h.2⟩

section Handlers

variable {α α' : Type} {V : α → α' → Prop} {body : Code α} {body' : Code α'}

theorem alike_rollbackAttempt (hw : WorldAlike k w w') :
    Alike k (fun _ _ => True) rollback.attempt rollback.attempt w w' := by
  refine (alike_rollback hw).attempt.mono fun r r' w w' h => ?_
  cases r with
  | ok u =>
    cases r' with
    | ok u' => exact ⟨trivial, h.2⟩
    | error e' => exact h.elim
  | error e =>
    cases r' with
    | ok u' => exact h.elim
    | error e' => exact ⟨trivial, h.2⟩

theorem alike_guardTransaction (h : Alike k V body body' w w') :
    Alike k V (guardTransaction body) (guardTransaction body') w w' := by
  refine h.attempt.bind fun r r' w w' h => ?_
  cases r with
  | ok a =>
    cases r' with
    | ok a' => exact h
    | error e' => exact h.elim
  | error e =>
    cases r' with
    | ok a' => exact h.elim
    | error e' =>
      obtain ⟨rfl, hw⟩ := h
      cases e with
      | sqlite name => exact (alike_rollbackAttempt hw).bind fun _ _ w w' h => .raise h.2
      | clockRegression message =>
        exact (alike_rollbackAttempt hw).bind fun _ _ w w' h => .raise h.2
      | _ => exact .raise hw

theorem alike_rollbackOnError (h : Alike k V body body' w w') :
    Alike k V (rollbackOnError body) (rollbackOnError body') w w' := by
  refine h.attempt.bind fun r r' w w' h => ?_
  cases r with
  | ok a =>
    cases r' with
    | ok a' => exact h
    | error e' => exact h.elim
  | error e =>
    cases r' with
    | ok a' => exact h.elim
    | error e' =>
      obtain ⟨rfl, hw⟩ := h
      refine (alike_inTransaction hw).bind fun inside inside' w w' h => ?_
      obtain ⟨rfl, hw⟩ := h
      split
      · exact (alike_rollbackAttempt hw).bind fun _ _ w w' h => .raise h.2
      · exact .raise hw

end Handlers

/-- Two reservations of one debit with different hints, from one world. -/
theorem alike_reserve (hk : a.key = k) (hfit : inInt64 a.hubGasHint = true)
    (hfit' : inInt64 n = true) (w : World) :
    Alike k (RowAlike k) (reserve x caps a) (reserve x caps { a with hubGasHint := n }) w w := by
  refine alike_rollbackOnError ?_
  unfold reserveUnlocked
  split
  · exact .raise (.refl k w)
  · refine Lockstep.behind (WorldAlike.refl k) fun _ w => ?_
    refine Lockstep.behind (WorldAlike.refl k) fun instant w => ?_
    refine Lockstep.behind (WorldAlike.refl k) fun checks w => ?_
    refine Lockstep.behind (WorldAlike.refl k) fun _ w => ?_
    refine Lockstep.behind (WorldAlike.refl k) fun _ w => ?_
    refine Lockstep.behind (WorldAlike.refl k) fun existing w => ?_
    refine Lockstep.behind (WorldAlike.refl k) fun revive w => ?_
    refine (alike_guardTransaction (alike_reserveTransaction _ revive hk hfit hfit' w)).bind
      fun row row' w w' h => ?_
    obtain ⟨hrow, hw⟩ := h
    cases hrow with
    | some hrow => exact ⟨hrow, hw⟩
    | none =>
      refine (alike_get a.key hw).bind fun row row' w w' h => ?_
      obtain ⟨hrow, hw⟩ := h
      cases hrow with
      | none => exact .raise hw
      | some hrow => exact ⟨hrow, hw⟩

end Operations

end EscrowSigner.Policy
