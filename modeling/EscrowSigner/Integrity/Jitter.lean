import EscrowSigner.Integrity.Interference
import EscrowSigner.Integrity.Race

/-! A clock that jumps forward, freezes or steps back a little widens no window.  The cut times of a
debit come from one reading of the clock and the time of its row from a later one and the guard. -/

namespace EscrowSigner.Integrity

open Ledger Process
open Machine (Quiet KeepsSpend sumInts_eq)

variable {x : Externals} {caps : Caps} {a : Request} {w w' : World} {t t' : Tables} {es : List Event}
  {script rest : List Choice} {row : SpendRow} {status : Status} {α : Type}

/-! ### Amounts -/

/-- No row has a negative amount. -/
def AmountsNonneg (t : Tables) : Prop := ∀ r ∈ t.spend.rows, 0 ≤ r.amountUnits

/-- A statement that keeps the amounts from being negative. -/
def KeepsAmounts (t t' : Tables) : Prop := AmountsNonneg t → AmountsNonneg t'

theorem keepsAmounts_of_keeps {p : Code α} (h : p.Steps (Quiet KeepsSpend)) :
    p.Steps (Quiet KeepsAmounts) := by
  refine h.mono fun _ _ _ hq => ⟨hq.db.mono fun t t' hk => ?_, hq.log⟩
  unfold KeepsAmounts AmountsNonneg
  rw [hk.spend]
  exact id

theorem updateRow_amounts {k : Key} {f : SpendRow → SpendRow}
    (hf : ∀ r, (f r).amountUnits = r.amountUnits) (h : t.updateRow k f = .ok t') :
    KeepsAmounts t t' := by
  obtain ⟨hrows, rfl⟩ := setSpend_eq h
  intro hnonneg r' hr'
  obtain ⟨r, hr, ⟨-, rfl⟩ | ⟨-, rfl⟩⟩ := mem_mapRow.mp hr'
  · rw [hf]
    exact hnonneg r hr
  · exact hnonneg _ hr

theorem amounts_reviveRow (ints : List Int) (k : Key) (amountUnits : Int) {f : SpendRow → SpendRow}
    (hf : ∀ r, (f r).amountUnits = r.amountUnits) :
    (reviveRow ints k amountUnits f).Steps (Quiet KeepsAmounts) := by
  refine Machine.steps_sql fun t t' changed ht => ?_
  obtain ⟨_, -, ht⟩ := bind_ok_iff.mp ht
  split at ht
  · obtain ⟨t'', ht'', heq⟩ := bind_ok_iff.mp ht
    cases heq
    exact updateRow_amounts hf ht''
  · cases ht
    exact id

theorem amounts_insertRow (ints : List Int) (guard : Tables → Except Exn Bool) {row : SpendRow}
    (h : 0 ≤ row.amountUnits) : (insertRow ints guard row).Steps (Quiet KeepsAmounts) := by
  refine Machine.steps_sql fun t t' inserted ht => ?_
  obtain ⟨_, -, ht⟩ := bind_ok_iff.mp ht
  obtain ⟨passes, -, ht⟩ := bind_ok_iff.mp ht
  split at ht
  · obtain ⟨t'', ht'', heq⟩ := bind_ok_iff.mp ht
    cases heq
    obtain ⟨hrows, rfl⟩ := setSpend_eq ht''
    intro hnonneg r hr
    rcases List.mem_append.mp hr with hr | hr
    · exact hnonneg r hr
    · rw [List.mem_singleton.mp hr]
      exact h
  · cases ht
    exact id

theorem amounts_setState (row : SpendRow) (state : RowState) (u : RowUpdates) :
    (setState x row state u).Steps (Quiet KeepsAmounts) := by
  refine Steps.bind (Machine.steps_update fun t t' ht => ?_) fun _ =>
    keepsAmounts_of_keeps (Machine.steps_audit _ _)
  obtain ⟨_, -, ht⟩ := bind_ok_iff.mp ht
  exact updateRow_amounts (f := u.apply state) (fun _ => rfl) ht

theorem amounts_markSigned (row : SpendRow) (txHash rawKeccak : String) :
    (markSigned x row txHash rawKeccak).Steps (Quiet KeepsAmounts) := by
  refine (amounts_setState row _ _).bind fun _ =>
    (keepsAmounts_of_keeps Machine.steps_tick).bind fun _ => Machine.steps_update fun t t' ht => ?_
  obtain ⟨_, -, ht⟩ := bind_ok_iff.mp ht
  cases ht
  exact id

theorem amounts_markDead (row : SpendRow) (reason : String) :
    (markDead x row reason).Steps (Quiet KeepsAmounts) := by
  refine (keepsAmounts_of_keeps (Machine.steps_readUnsigned row)).bind fun unsigned =>
    (amounts_setState row _ _).bind fun _ => ?_
  split
  · refine (keepsAmounts_of_keeps Machine.steps_guardRow).bind fun _ =>
      Machine.steps_update fun t t' ht => ?_
    cases ht
    exact id
  · exact Steps.pure _

theorem amounts_reserve : (reserve x caps a).Steps (Quiet KeepsAmounts) := by
  refine Machine.steps_rollbackOnError ?_
  unfold reserveUnlocked
  split
  · exact Steps.raise _
  rename_i hpos
  refine (keepsAmounts_of_keeps Machine.steps_assertClockSane).bind fun _ =>
    Machine.steps_now.bind fun _ =>
    (keepsAmounts_of_keeps (Machine.steps_windowChecks _ _ _ _)).bind fun _ =>
    (keepsAmounts_of_keeps (Machine.steps_runChecks _)).bind fun _ =>
    (keepsAmounts_of_keeps (Machine.steps_checkDistinctChannels _ _ _)).bind fun _ =>
    (keepsAmounts_of_keeps (Machine.steps_get _)).bind fun _ =>
    (Machine.steps_reviveOf _ _).bind fun revive =>
    (Machine.steps_guardTransaction ?_).bind fun row => ?_
  · refine (keepsAmounts_of_keeps (Machine.steps_allocate _ _)).bind fun al => ?_
    split
    · refine Steps.bind ?_ fun _ => Steps.pure _
      refine (amounts_reviveRow (f := a.revived al.seq al.ts al.accountNonce) _ _ _
        fun _ => rfl).bind fun changed => ?_
      split
      · refine (keepsAmounts_of_keeps (Machine.steps_takeNonce _ _ _)).bind fun _ =>
          Machine.steps_commit.bind fun _ => (keepsAmounts_of_keeps (Machine.steps_get _)).bind
          fun row => ?_
        split
        · exact Steps.raise _
        · exact (keepsAmounts_of_keeps (Machine.steps_audit _ _)).bind fun _ => Steps.pure _
      · exact Machine.steps_giveUp _
    · refine Steps.bind ?_ fun _ => Steps.pure _
      refine (amounts_insertRow _ _ (not_le.mp hpos).le).bind fun inserted => ?_
      split
      · exact (keepsAmounts_of_keeps (Machine.steps_takeNonce _ _ _)).bind fun _ =>
          (keepsAmounts_of_keeps (Machine.steps_setHead _)).bind fun _ => Machine.steps_commit
      · exact Machine.steps_giveUp _
  · split
    · exact Steps.pure _
    · exact keepsAmounts_of_keeps (Machine.steps_committedRow _)

theorem amounts_reserveGasOnly (b : GasOnlyRequest) :
    (reserveGasOnly x caps b).Steps (Quiet KeepsAmounts) := by
  refine (steps_reserveGasOnly x caps b).mono fun _ _ _ hq =>
    ⟨hq.db.mono fun t t' hsame hnonneg r hr => ?_, hq.log⟩
  by_cases hzero : r.amountUnits = 0
  · exact hzero.ge
  · have hdebit : r ∈ debits t'.spend.rows := List.mem_filter.mpr ⟨hr, by simpa using hzero⟩
    rw [hsame] at hdebit
    exact hnonneg r (List.mem_of_mem_filter hdebit)

/-- Every operation keeps the amounts from being negative. -/
theorem Operation.amounts (op : Operation) : (op.code x).Steps (Quiet KeepsAmounts) := by
  cases op with
  | reserve caps a => exact amounts_reserve.bind fun _ => Steps.pure _
  | reserveGasOnly caps b => exact (amounts_reserveGasOnly b).bind fun _ => Steps.pure _
  | markSigned row txHash rawKeccak => exact amounts_markSigned row txHash rawKeccak
  | markBroadcast row txHash => exact amounts_setState row _ _
  | markMined row txHash feeWei => exact amounts_setState row _ _
  | markDead row reason => exact amounts_markDead row reason
  | recordAttemptStatus txHash status =>
    exact keepsAmounts_of_keeps (Machine.steps_recordAttemptStatus _ _)
  | audit f => exact keepsAmounts_of_keeps (Machine.steps_audit _ _)
  | setNextNonce chainId fromAddr nonce => exact keepsAmounts_of_keeps (Machine.steps_setNextNonce _ _ _)
  | recordBoot address chainId escrow capsJson reconciled =>
    exact keepsAmounts_of_keeps (Machine.steps_recordBoot _ _ _ _ _)
  | assertClockSane => exact keepsAmounts_of_keeps Machine.steps_assertClockSane
  | tick => exact (keepsAmounts_of_keeps Machine.steps_tick).bind fun _ => Steps.pure _
  | halt | clearHalt =>
    refine Machine.steps_update fun t t' ht => ?_
    cases ht
    exact id

theorem Ran.amounts {ok : World → Operation → List Choice → Prop} (h : Books x ok status w) :
    AmountsNonneg w.tables := by
  induction h with
  | start => exact fun r hr => absurd hr List.not_mem_nil
  | @operation w op script h hok ih =>
    have hholds : Machine.Holds AmountsNonneg w.db := by
      refine ⟨ih, fun t ht => ?_⟩
      rw [h.sound.2 rfl] at ht
      cases ht
    exact (op.amounts.run (I := fun w => Machine.Holds AmountsNonneg w.db)
      (fun _ _ _ hI hq => hq.db.holds hI fun t t' ht hk => hk ht) script hholds).committed
  | reopen h ih => exact ih

/-! ### The readings of one call -/

/-- The database is that of the world `w`, and the readings since then are `es`. -/
structure Still (w : World) (es : List Event) (w' : World) : Prop where
  db : w'.db = w.db
  log : w'.log = es ++ w.log

theorem Still.refl (w : World) : Still w [] w := ⟨rfl, rfl⟩

theorem Still.select {f : Tables → Except Exn α} (h : Still w es w') :
    (EscrowSigner.select f).Ends (fun _ _ => True)
      (fun r w'' => f w.view = .ok r ∧ Still w es w'') w' := by
  refine .atomic fun c _ => ?_
  have hview : (w'.advance c).view = w.view := congrArg Db.view h.db
  unfold statement
  cases c.fault with
  | some fault => trivial
  | none =>
    dsimp only
    rw [hview]
    cases hf : f w.view with
    | error e => trivial
    | ok r =>
      refine ⟨rfl, ?_, h.log⟩
      show w'.db.write w.db.view = w.db
      rw [h.db]
      exact w.db.write_view

theorem Still.now (h : Still w es w') :
    EscrowSigner.now.Ends (fun _ _ => True)
      (fun r w'' => ∃ n, r = seconds n ∧ Still w (.clock n :: es) w'') w' :=
  Under.bind (P := fun n w'' => Still w (.clock n :: es) w'')
    (.atomic fun c _ => ⟨h.db, congrArg (Event.clock c.now :: ·) h.log⟩) fun n _ h' => .pure ⟨n, rfl, h'⟩

theorem Still.refuseRegression (h : Still w es w') (row : ClockGuard) (wall : Int) :
    (Ledger.refuseRegression row wall).Ends (fun _ _ => True) (fun _ w'' => Still w es w'') w' := by
  unfold Ledger.refuseRegression
  split
  · exact Under.bind (.trivial _ _) fun _ _ _ => .raise trivial
  · exact .pure h

theorem Still.assertClockSane (h : Still w es w') :
    Ledger.assertClockSane.Ends (fun _ _ => True)
      (fun _ w'' => ∃ n, Still w (.clock n :: es) w'') w' :=
  h.select.bind fun _ _ h₁ => h₁.2.now.bind fun _ _ h₂ => by
    obtain ⟨n, -, h₂⟩ := h₂
    exact (h₂.refuseRegression _ _).mono (fun _ _ h => h) fun _ _ h => ⟨n, h⟩

theorem Still.windowChecks (h : Still w es w') (cuts : Cuts) :
    (Ledger.windowChecks x caps a cuts).Ends (fun _ _ => True)
      (fun checks w'' => Still w es w'' ∧ ∃ units fees, unitChecks caps a cuts w.view = .ok units ∧
        w.view.feeWeiWindow x a.chainId a.escrow cuts.day = .ok fees ∧
        checks = units ++ countChecks caps a cuts w.view ++ [feeCheck caps a fees]) w' := by
  refine h.select.bind fun units10m _ h₁ => h₁.2.select.bind fun units1h _ h₂ =>
    h₂.2.select.bind fun units24h _ h₃ => h₃.2.select.bind fun unitsChannel _ h₄ =>
    h₄.2.select.bind fun tx1h _ h₅ => h₅.2.select.bind fun tx24h _ h₆ =>
    h₆.2.select.bind fun txChannel _ h₇ => h₇.2.select.bind fun fees _ h₈ => ?_
  have hunits : unitChecks caps a cuts w.view =
      .ok [⟨"cap_units_per_tx", caps.unitsPerTx, a.amountUnits, 0⟩,
        ⟨"cap_units_10m", caps.units10m, a.amountUnits, units10m⟩,
        ⟨"cap_units_1h", caps.units1h, a.amountUnits, units1h⟩,
        ⟨"cap_units_24h", caps.units24h, a.amountUnits, units24h⟩,
        ⟨"cap_units_channel_24h", caps.unitsChannel24h, a.amountUnits, unitsChannel⟩] := by
    unfold unitChecks
    rw [h₁.1, h₂.1, h₃.1, h₄.1]
    rfl
  obtain rfl := Except.ok.inj h₅.1
  obtain rfl := Except.ok.inj h₆.1
  obtain rfl := Except.ok.inj h₇.1
  exact .pure ⟨h₈.2, _, fees, hunits, h₈.1, rfl⟩

theorem Still.runChecks (h : Still w es w') (checks : List Check) :
    (Ledger.runChecks checks).Ends (fun _ _ => True)
      (fun _ w'' => Still w es w'' ∧ lacking checks = none) w' := by
  induction checks with
  | nil => exact .pure ⟨h, rfl⟩
  | cons c checks ih =>
    unfold Ledger.runChecks
    split
    · rename_i hc
      refine ih.mono (fun _ _ h => h) fun _ _ h' => ⟨h'.1, ?_⟩
      rw [lacking_eq_none] at h' ⊢
      exact List.forall_mem_cons.mpr ⟨hc, h'.2⟩
    · exact .raise trivial

theorem Still.checkDistinctChannels (h : Still w es w') (cuts : Cuts) :
    (Ledger.checkDistinctChannels caps a cuts).Ends (fun _ _ => True) (fun _ w'' => Still w es w'')
      w' := by
  unfold Ledger.checkDistinctChannels
  split
  · exact .pure h
  · refine h.select.bind fun _ _ h₁ => h₁.2.select.bind fun _ _ h₂ => ?_
    split
    · exact .raise trivial
    · exact .pure h₂.2

/-- The checks of a debit read the clock twice.  The cuts are those of the second reading, and every cap
has room at them. -/
theorem Still.debitChecks (h : Still w es w') :
    (debitChecks x caps a).Ends (fun _ _ => True)
      (fun plan w'' => (w.view.get a.key = none → plan.2 = false) ∧ 0 ≤ a.amountUnits ∧ ∃ n m,
        Still w (.clock m :: .clock n :: es) w'' ∧ plan.1 = Cuts.at (seconds m) ∧
        ∃ units fees, unitChecks caps a plan.1 w.view = .ok units ∧
          w.view.feeWeiWindow x a.chainId a.escrow plan.1.day = .ok fees ∧
          lacking (units ++ countChecks caps a plan.1 w.view ++ [feeCheck caps a fees]) = none)
      w' := by
  unfold Integrity.debitChecks
  split
  · exact .raise trivial
  rename_i hpos
  refine h.assertClockSane.bind fun _ _ h₁ => ?_
  obtain ⟨n, h₁⟩ := h₁
  refine h₁.now.bind fun instant _ h₂ => ?_
  obtain ⟨m, rfl, h₂⟩ := h₂
  refine (h₂.windowChecks _).bind fun checks _ h₃ => ?_
  obtain ⟨h₃, units, fees, hunits, hfees, rfl⟩ := h₃
  refine (h₃.runChecks _).bind fun _ _ h₄ => (h₄.1.checkDistinctChannels _).bind fun _ _ h₅ =>
    h₅.select.bind fun existing w₆ h₆ => ?_
  obtain ⟨hget, h₆⟩ := h₆
  refine Under.bind (P := fun revive w'' => (existing = none → revive = false) ∧ w'' = w₆) ?_
    fun revive _ h₇ => .pure ⟨fun hnone => h₇.1 ((Except.ok.inj hget).symm.trans hnone),
      (not_le.mp hpos).le, n, m, h₇.2 ▸ h₆, rfl, units, fees, hunits, hfees, h₄.2⟩
  unfold reviveOf
  split
  · exact .pure ⟨fun _ => rfl, rfl⟩
  · split
    · exact .pure ⟨fun h => (by cases h), rfl⟩
    · exact .raise trivial

/-- A transaction that has just begun, with the readings `es` since the world `w`. -/
structure Begun (w : World) (es : List Event) (w' : World) : Prop where
  db : w'.db = ⟨w.tables, some w.tables⟩
  log : w'.log = es ++ w.log

theorem Begun.select {f : Tables → Except Exn α} (h : Begun w es w') :
    (EscrowSigner.select f).Ends (fun _ _ => True)
      (fun r w'' => f w.tables = .ok r ∧ Begun w es w'') w' := by
  refine .atomic fun c _ => ?_
  have hview : (w'.advance c).view = w.tables := by
    show w'.db.view = w.tables
    rw [h.db]
    rfl
  unfold statement
  cases c.fault with
  | some fault => trivial
  | none =>
    dsimp only
    rw [hview]
    cases hf : f w.tables with
    | error e => trivial
    | ok r =>
      refine ⟨rfl, ?_, h.log⟩
      show w'.db.write w.tables = ⟨w.tables, some w.tables⟩
      rw [h.db]
      rfl

/-- The transaction of a debit reads the clock once more, and takes the later of that reading and the
guard. -/
theorem Still.opening (h : Still w es w') (hclosed : w.db.working = none) :
    opening.Ends (fun _ _ => True)
      (fun stamp w'' => ∃ k, stamp.2 = max (seconds k) w.tables.clockGuard.maxTs ∧
        w''.log = .clock k :: es ++ w.log) w' := by
  refine Under.bind (P := fun _ w'' => Begun w es w'') (.atomic fun c _ => ?_) fun _ w₁ h₁ => ?_
  · have hclosed' : (w'.advance c).db.working = none := (congrArg Db.working h.db).trans hclosed
    dsimp only
    rw [hclosed']
    cases c.fault with
    | some fault => trivial
    | none =>
      refine ⟨?_, h.log⟩
      show (⟨w'.db.committed, some w'.db.committed⟩ : Db) = _
      rw [h.db]
      rfl
  refine h₁.select.bind fun guard w₂ h₂ => ?_
  refine Under.bind (P := fun wall w'' => ∃ k, wall = seconds k ∧ w''.log = .clock k :: es ++ w.log)
    ?_ fun wall w₃ h₃ => ?_
  · exact Under.bind (P := fun k w'' => w''.log = .clock k :: es ++ w.log)
      (.atomic fun c _ => congrArg (Event.clock c.now :: ·) h₂.2.log) fun k _ h' => .pure ⟨k, rfl, h'⟩
  obtain ⟨k, rfl, hlog⟩ := h₃
  refine Under.bind (P := fun _ w'' => w'' = w₃) ?_ fun _ w₄ h₄ => ?_
  · unfold Ledger.refuseRegression
    split
    · exact Under.bind (.trivial _ _) fun _ _ _ => .raise trivial
    · exact .pure rfl
  refine Under.bind (P := fun _ w'' => w''.log = .clock k :: es ++ w.log) (.atomic fun c _ => ?_)
    fun _ w₅ h₅ => .pure ⟨k, ?_, h₅⟩
  · have hsilent : (statement (fun t => (do
        let t' ← (Except.ok { t with clockGuard := { t.clockGuard with
          maxTs := max (seconds k) guard.maxTs, maxSeq := guard.maxSeq + 1 } } : Except Exn Tables)
        return (t', ()))) c (w₄.advance c)).1.log = .clock k :: es ++ w.log := by
      rw [statement_log, h₄]
      exact hlog
    split
    · exact hsilent
    · trivial
  · rw [Except.ok.inj h₂.1]

/-! ### What passes no reading -/

/-- No step reads the clock or is logged otherwise. -/
def Silent (p : Code α) : Prop := p.Steps fun _ w w' => w'.log = w.log

theorem silent_sql (f : Tables → Except Exn (Tables × α)) : Silent (sql f) :=
  Steps.atomic fun _ _ => statement_log _ _ _

theorem silent_select (f : Tables → Except Exn α) : Silent (select f) := silent_sql _

theorem silent_update (f : Tables → Except Exn Tables) : Silent (update f) := silent_sql _

theorem silent_commit : Silent commit := by
  refine Steps.atomic fun c w => ?_
  dsimp only
  split
  · exact World.fail_log _ _
  · rfl
  · rfl

theorem silent_giveUp (e : Exn) : Silent (giveUp e : Code α) := by
  refine Steps.bind (Steps.atomic fun c w => ?_) fun _ => Steps.raise _
  dsimp only
  split <;> rfl

theorem silent_body (cuts : Cuts) (stamp : Int × Int) :
    Silent ((debitParts x caps a).body (cuts, false) stamp) := by
  refine Steps.bind ?_ fun al => ?_
  · exact (silent_update _).bind fun _ => (silent_select _).bind fun _ => (silent_select _).bind
      fun _ => Steps.pure _
  · rw [if_neg Bool.false_ne_true]
    refine Steps.bind (silent_sql _) fun inserted => ?_
    split
    · exact (silent_update _).bind fun _ => (silent_update _).bind fun _ => silent_commit
    · exact silent_giveUp _

theorem Silent.ends {p : Code α} (h : Silent p) (w : World) :
    p.Ends (fun _ _ => True) (fun _ w' => w'.log = w.log) w := by
  refine Wp.mono (Steps.wp h (I := fun w' => w'.log = w.log) (fun _ _ _ hI hR => hR.trans hI)
    (fun _ _ _ _ => trivial) rfl) fun r _ hI => ?_
  cases r with
  | ok a => exact hI
  | error e => trivial

/-! ### Behind the commit -/

/-- No step leaves a trace outside a transaction. -/
structure Traceless (w w' : World) : Prop where
  log : w'.log = w.log
  db : w.db.working = none → w'.db = w.db

theorem traceless_select (f : Tables → Except Exn α) :
    (select f).Steps fun _ => Traceless := by
  refine Steps.atomic fun c w => ⟨statement_log _ _ _, fun hclosed => ?_⟩
  rw [statement_eq hclosed]
  cases c.fault with
  | some fault => rfl
  | none =>
    dsimp only
    cases f w.tables with
    | error e => rfl
    | ok a =>
      show (⟨w.db.committed, none⟩ : Db) = w.db
      rw [← hclosed]

theorem traceless_rollback : rollback.Steps fun _ => Traceless := by
  refine Steps.atomic fun c w => ?_
  dsimp only
  split
  · rename_i t hopen
    refine ⟨rfl, fun hclosed => ?_⟩
    cases hclosed.symm.trans hopen
  · exact ⟨rfl, fun _ => rfl⟩

theorem traceless_rollbackHandlers (r : Except Exn α) :
    (rollbackHandlers r).Steps fun _ => Traceless := by
  cases r with
  | ok a => exact Steps.pure _
  | error e =>
    refine Steps.bind (Steps.atomic fun _ _ => ⟨rfl, fun _ => rfl⟩) fun opened => ?_
    split
    · exact traceless_rollback.attempt.bind fun _ => Steps.raise _
    · exact Steps.raise _

theorem traceless_guardHandlers (r : Except Exn α) :
    (guardHandlers r).Steps fun _ => Traceless := by
  cases r with
  | ok a => exact Steps.pure _
  | error e =>
    cases e with
    | sqlite | clockRegression => exact traceless_rollback.attempt.bind fun _ => Steps.raise _
    | capBreach | ledgerUnavailable | chainUnverified | reverted | rpcUnavailable | calldata | other =>
      exact Steps.raise _

/-- A debit that put a fresh row in only reads it back. -/
theorem traceless_after (cuts : Cuts) :
    ((debitParts x caps a).after (cuts, false)).Steps fun _ => Traceless := by
  refine Steps.bind (Steps.attempt (Steps.pure _)) fun r =>
    (traceless_guardHandlers r).bind fun inserted => ?_
  cases inserted with
  | some row => exact Steps.pure _
  | none =>
    refine (traceless_select _).bind fun row => ?_
    split
    · exact Steps.pure _
    · exact Steps.raise _

/-- A reservation whose transaction was committed goes on behind it. -/
theorem Parts.exec_committed {π γ : Type} {p : Parts π γ α} {plan : π} {w₁ w₂ : World}
    {r₁ r₂ : List Choice} (hchecks : p.checks.exec script w = (.returned plan, w₁, r₁))
    (hbody : (opening >>= p.body plan).exec r₁ w₁ = (.returned (), w₂, r₂)) :
    p.whole.exec script w = ((p.after plan).attempt >>= rollbackHandlers).exec r₂ w₂ := by
  rw [exec_whole, hchecks]
  dsimp only
  rw [hbody, ← rollbackOnError_eq]

/-! ### A fresh debit -/

/-- The readings of the clock since a world, in their order. -/
def readingsSince (w w' : World) : List Nat :=
  ((w'.log.take (w'.log.length - w.log.length)).filterMap fun e =>
    match e with
    | .clock instant => some instant
    | _ => none).reverse

/-- What a debit that puts a fresh row in has found and done, with the readings of the clock that it
made. -/
structure Inserts (x : Externals) (caps : Caps) (a : Request) (w w' : World) (n m k : Nat) : Prop where
  readings : readingsSince w w' = [n, m, k]
  placed : ∃ seq nonce head, w'.tables.spend.rows =
    w.tables.spend.rows ++ [a.row x seq (max (seconds k) w.tables.clockGuard.maxTs) nonce head]
  positive : 0 ≤ a.amountUnits
  room : ∃ units fees, unitChecks caps a (Cuts.at (seconds m)) w.tables = .ok units ∧
    w.tables.feeWeiWindow x a.chainId a.escrow (Cuts.at (seconds m)).day = .ok fees ∧
    lacking (units ++ countChecks caps a (Cuts.at (seconds m)) w.tables ++ [feeCheck caps a fees]) = none

theorem inserts_of_commit (hclosed : w.db.working = none) (hfresh : w.tables.get a.key = none)
    (hcommit : ((debitToCommit x caps a).run script w).1 = .returned ()) :
    ∃ n m k, Inserts x caps a w ((reserve x caps a).run script w).2 n m k := by
  rw [run_eq_exec] at hcommit
  obtain ⟨w₂, r₂, hexec⟩ : ∃ w₂ r₂, (debitToCommit x caps a).exec script w = (.returned (), w₂, r₂) :=
    ⟨_, _, Prod.ext hcommit rfl⟩
  obtain ⟨plan, w₁, r₁, hchecks, hbody⟩ := exec_bind_returned.mp hexec
  have hview : w.view = w.tables := by
    rw [World.view, Db.view, hclosed]
    rfl
  obtain ⟨hrevive, hpos, n, m, hstill₁, hcuts, hroom⟩ :=
    (Still.refl w).debitChecks.returned hchecks
  rw [hview] at hroom
  obtain ⟨cuts, revive⟩ := plan
  obtain rfl : revive = false := hrevive (hview ▸ hfresh)
  obtain rfl : cuts = Cuts.at (seconds m) := hcuts
  obtain ⟨stamp, w₃, r₃, hopening, hbody'⟩ := exec_bind_returned.mp hbody
  obtain ⟨k, hts, hlog⟩ := (hstill₁.opening hclosed).returned hopening
  have hidle₁ : Idle (fun _ => True) w₁ := ⟨(congrArg Db.working hstill₁.db).trans hclosed, trivial⟩
  have hdraft := hidle₁.opening.returned hopening
  have hplaced := (debitBody_placed stamp hdraft).returned hbody'
  have hlog₂ := ((silent_body _ _).ends w₃).returned hbody'
  have hwhole := Parts.exec_committed hchecks hbody
  rw [← reserve_eq] at hwhole
  have hclosed₂ := (((lawful_debit x caps a).transaction hidle₁ _).returned hbody).1
  -- what follows the commit changes neither the tables nor the readings
  have hafter : (((debitParts x caps a).after (Cuts.at (seconds m), false)).attempt >>=
      rollbackHandlers).Steps fun _ => Traceless :=
    (traceless_after _).attempt.bind fun r => traceless_rollbackHandlers r
  obtain ⟨hdb, hlog₃⟩ : ((reserve x caps a).run script w).2.db = w₂.db ∧
      ((reserve x caps a).run script w).2.log = w₂.log := by
    rw [run_eq_exec, hwhole, ← run_eq_exec]
    exact hafter.run (I := fun w' => w'.db = w₂.db ∧ w'.log = w₂.log)
      (fun _ w' _ hI hR => ⟨(hR.db (hI.1 ▸ hclosed₂)).trans hI.1, hR.log.trans hI.2⟩) r₂ ⟨rfl, rfl⟩
  have hlogs : ((reserve x caps a).run script w).2.log =
      [.clock k, .clock m, .clock n] ++ w.log := hlog₃.trans (hlog₂.trans hlog)
  refine ⟨n, m, k, ?_, ?_, hpos, hroom⟩
  · unfold readingsSince
    rw [hlogs, List.length_append, Nat.add_sub_cancel, List.take_left]
    rfl
  · rw [show w₁.tables = w.tables from congrArg Db.committed hstill₁.db] at hplaced
    have htables : ((reserve x caps a).run script w).2.tables = w₂.tables := congrArg Db.committed hdb
    rw [htables]
    generalize w₂.tables.spend.rows = rows' at hplaced
    cases hplaced with
    | insert nonce head hguard =>
      rw [hts]
      exact ⟨stamp.1, nonce, head, rfl⟩

/-! ### Windows -/

/-- The day's fees are summed exactly: no row that counts has a negative one or one beyond the integers
of SQLite. -/
def FeesExact (a : Request) (since : Int) (t : Tables) : Prop :=
  ∀ r ∈ t.countedRows a.chainId a.escrow since, 0 ≤ Tables.feeOf r ∧ Tables.feeOf r < 2 ^ 63

/-- A window that begins later, over no negative weights, weighs no more. -/
theorem total_mono {cap since since' : Int} {q : SpendRow → Bool} {weight : SpendRow → Int}
    {rows : List SpendRow} (hle : since ≤ since')
    (hw : ∀ r ∈ rows, inWindow a since r = true → 0 ≤ weight r) :
    (Limit.mk cap (fun r => q r && inWindow a since' r) weight).total rows ≤
      (Limit.mk cap (fun r => q r && inWindow a since r) weight).total rows := by
  have hin : ∀ r, inWindow a since' r = true → inWindow a since r = true := by
    intro r hr
    simp only [inWindow, Bool.and_eq_true, decide_eq_true_eq] at hr ⊢
    exact ⟨⟨hr.1.1, by omega⟩, hr.2⟩
  have hfilter : Window.load (fun r => q r && inWindow a since' r) weight rows =
      Window.load (fun r => q r && inWindow a since' r) weight (rows.filter (inWindow a since)) := by
    rw [Window.load_filter]
    refine congrArg (fun p => Window.load p weight rows) (funext fun r => ?_)
    cases h : inWindow a since' r with
    | true => rw [hin r h, Bool.and_true (q r && true)]
    | false => rw [Bool.and_false, Bool.false_and]
  have hfilter' : Window.load (fun r => q r && inWindow a since r) weight rows =
      Window.load q weight (rows.filter (inWindow a since)) := (Window.load_filter _).symm
  unfold Limit.total
  rw [hfilter, hfilter']
  refine Window.load_mono (fun r hr => ?_) fun r _ hr => .inl (Bool.and_eq_true_iff.mp hr).1
  obtain ⟨hmem, hwindow⟩ := List.mem_filter.mp hr
  exact hw r hmem hwindow

/-- A check that had room at a cut leaves the window that ends at a later row within its limit. -/
theorem holds_of_check {c : Check} {since since' : Int} {q : SpendRow → Bool} {weight : SpendRow → Int}
    {rows : List SpendRow} (hpasses : c.passes = true)
    (hexisting : c.existing =
      (Limit.mk c.limit (fun r => q r && inWindow a since r) weight).total rows)
    (hle : since ≤ since') (hw : c.limit = -1 ∨ ∀ r ∈ rows, inWindow a since r = true → 0 ≤ weight r)
    (hcounts : (q row && inWindow a since' row) = true) (hadding : weight row = c.adding) :
    (Limit.mk c.limit (fun r => q r && inWindow a since' r) weight).Holds (rows ++ [row]) := by
  rcases hw with hoff | hw
  · exact .inl hoff
  have hcounted : ∀ r, (q r && inWindow a since' r) = true → r.state.counted = true := fun r hr =>
    (Bool.and_eq_true_iff.mp (Bool.and_eq_true_iff.mp hr).2).2
  have hplaced : Counts row rows (rows ++ [row]) := counts_append
  have htotal := hplaced.total
    (l := Limit.mk c.limit (fun r => q r && inWindow a since' r) weight) hcounted
  have hadds : (Limit.mk c.limit (fun r => q r && inWindow a since' r) weight).adds row = c.adding := by
    unfold Limit.adds
    rw [if_pos hcounts]
    exact hadding
  have hmono : (Limit.mk c.limit (fun r => q r && inWindow a since' r) weight).total rows ≤
      (Limit.mk c.limit (fun r => q r && inWindow a since r) weight).total rows := total_mono hle hw
  simp only [Check.passes, Bool.or_eq_true, beq_iff_eq, decide_eq_true_eq] at hpasses
  rcases hpasses with hoff | hroom
  · exact .inl hoff
  · refine .inr ?_
    rw [htotal, hadds]
    show _ ≤ c.limit
    omega

theorem total_channelCount {cap since : Int} :
    t.channelCount a.chainId a.escrow a.channelId since =
      (Limit.mk cap (fun r => r.channelId == a.channelId && inWindow a since r)
        fun _ => 1).total t.spend.rows := by
  unfold Tables.channelCount Tables.countedRows countedSince Limit.total Window.load
  rw [List.filter_filter, List.map_const', List.sum_replicate, nsmul_one]
  rfl

/-- Fees that SQLite can add are added exactly. -/
theorem total_fees {cap since fees : Int} (hexact : FeesExact a since t)
    (h : t.feeWeiWindow x a.chainId a.escrow since = .ok fees) :
    fees = (Limit.mk cap (inWindow a since) Tables.feeOf).total t.spend.rows := by
  have hall : ((t.countedRows a.chainId a.escrow since).map Tables.feeOf).all inInt64 = true := by
    refine List.all_eq_true.mpr fun n hn => ?_
    obtain ⟨r, hr, rfl⟩ := List.mem_map.mp hn
    obtain ⟨hnonneg, hlt⟩ := hexact r hr
    simp only [inInt64, Bool.and_eq_true, decide_eq_true_eq]
    exact ⟨by omega, hlt⟩
  unfold Tables.feeWeiWindow at h
  dsimp only at h
  rw [if_pos hall] at h
  rw [sumInts_eq h]
  rfl

/-- A fresh row is in every window that ends at its time. -/
theorem inWindow_row {seq ts nonce width : Int} {head : String} (hwidth : 0 < width) :
    inWindow a (ts - width) (a.row x seq ts nonce head) = true := by
  show (a.chainId == a.chainId && a.escrow == a.escrow && decide (ts - width < ts) && true) = true
  rw [beq_self_eq_true, beq_self_eq_true, decide_eq_true (by omega)]
  rfl

/-- Every check that had room at the cuts of the second reading leaves its limit kept at the row's own
time. -/
theorem Inserts.holds {n m k : Nat} {seq nonce : Int} {head : String} (h : Inserts x caps a w w' n m k)
    (hle : m ≤ k) (hamounts : AmountsNonneg w.tables)
    (hrow : row = a.row x seq (max (seconds k) w.tables.clockGuard.maxTs) nonce head) :
    (∀ l ∈ rechecked caps a (Cuts.at row.ts), l.Holds (w.tables.spend.rows ++ [row])) ∧
      (channelCountLimit a caps.txPerChannel24h (Cuts.at row.ts).day).Holds
        (w.tables.spend.rows ++ [row]) ∧
      (caps.feeWei24h = -1 ∨ FeesExact a (seconds m - 86400) w.tables →
        (feeLimit a caps.feeWei24h (Cuts.at row.ts).day).Holds (w.tables.spend.rows ++ [row])) := by
  obtain ⟨units, fees, hunits, hfee, hroom⟩ := h.room
  obtain ⟨u10m, u1h, u24h, uchannel, h10m, h1h, h24h, hchannel, rfl⟩ := unitChecks_ok hunits
  rw [lacking_eq_none] at hroom
  simp only [countChecks, List.cons_append, List.nil_append, List.forall_mem_cons] at hroom
  obtain ⟨-, hp10m, hp1h, hp24h, hpchannel, hptx1h, hptx24h, hptxChannel, hpfee, -⟩ := hroom
  have hts : ∀ {width}, seconds m - width ≤ row.ts - width := fun {width} => by
    refine sub_le_sub_right ?_ width
    rw [hrow]
    exact (seconds_mono hle).trans (le_max_left _ _)
  have hin : ∀ {width}, 0 < width → inWindow a (row.ts - width) row = true := fun hwidth =>
    hrow ▸ inWindow_row hwidth
  have htoken : (row.token == a.token) = true := by
    rw [hrow]
    exact beq_self_eq_true a.token
  have hsame : (row.channelId == a.channelId) = true := by
    rw [hrow]
    exact beq_self_eq_true a.channelId
  have hamount : row.amountUnits = a.amountUnits := by
    rw [hrow]
    rfl
  have hunitsNonneg : ∀ {since}, ∀ r ∈ w.tables.spend.rows, inWindow a since r = true →
      0 ≤ r.amountUnits := fun r hr _ => hamounts r hr
  have hand : ∀ {p q : Bool}, p = true → q = true → (p && q) = true := fun hp hq =>
    Bool.and_eq_true_iff.mpr ⟨hp, hq⟩
  simp only [rechecked, List.forall_mem_cons]
  refine ⟨⟨?_, ?_, ?_, ?_, ?_, ?_, fun l hl => absurd hl List.not_mem_nil⟩, ?_, fun hfees => ?_⟩
  · exact holds_of_check hp24h (total_units h24h) hts (.inr hunitsNonneg)
      (hand htoken (hin (by decide))) hamount
  · exact holds_of_check hp1h (total_units h1h) hts (.inr hunitsNonneg)
      (hand htoken (hin (by decide))) hamount
  · exact holds_of_check hp10m (total_units h10m) hts (.inr hunitsNonneg)
      (hand htoken (hin (by decide))) hamount
  · exact holds_of_check hpchannel (total_units hchannel) hts (.inr hunitsNonneg)
      (hand hsame (hin (by decide))) hamount
  · exact holds_of_check (q := fun _ => true) hptx1h total_count hts (.inr fun _ _ _ => zero_le_one)
      (hin (by decide)) rfl
  · exact holds_of_check (q := fun _ => true) hptx24h total_count hts (.inr fun _ _ _ => zero_le_one)
      (hin (by decide)) rfl
  · exact holds_of_check hptxChannel total_channelCount hts (.inr fun _ _ _ => zero_le_one)
      (hand hsame (hin (by decide))) rfl
  · rcases hfees with hoff | hexact
    · exact .inl hoff
    · refine holds_of_check (q := fun _ => true) hpfee (total_fees hexact hfee) hts
        (.inr fun r hr hwindow => ?_) (hin (by decide)) ?_
      · exact (hexact r (List.mem_filter.mpr ⟨hr, hwindow⟩)).1
      · rw [hrow]
        rfl

/-- Clock jitter widens no window.  Whatever the clock has read before, a call that puts a fresh row in
and reads the clock in order places it at or behind every other, and every limit but the one on the number
of channels holds in the window that ends there: those on units and on counts always, the one on fees as
long as SQLite adds up the day's fees exactly. -/
theorem jitter_kept (h : Books x (fun _ _ _ => True) .running w)
    (hfresh : w.tables.get a.key = none)
    (hcommit : ((debitToCommit x caps a).run script w).1 = .returned ())
    (horder : (readingsSince w ((reserve x caps a).run script w).2).Pairwise (· ≤ ·)) :
    ∃ row, ((reserve x caps a).run script w).2.tables.spend.rows = w.tables.spend.rows ++ [row] ∧
      row.key = a.key ∧
      (∀ r ∈ ((reserve x caps a).run script w).2.tables.spend.rows, r.ts ≤ row.ts) ∧
      (∀ l ∈ rechecked caps a (Cuts.at row.ts),
        l.Holds ((reserve x caps a).run script w).2.tables.spend.rows) ∧
      (channelCountLimit a caps.txPerChannel24h (Cuts.at row.ts).day).Holds
        ((reserve x caps a).run script w).2.tables.spend.rows ∧
      ((caps.feeWei24h = -1 ∨
        ∀ m, (readingsSince w ((reserve x caps a).run script w).2)[1]? = some m →
          FeesExact a (seconds m - 86400) w.tables) →
        (feeLimit a caps.feeWei24h (Cuts.at row.ts).day).Holds
          ((reserve x caps a).run script w).2.tables.spend.rows) := by
  obtain ⟨n, m, k, hinserts⟩ := inserts_of_commit (h.sound.2 rfl) hfresh hcommit
  obtain ⟨seq, nonce, head, hrows⟩ := hinserts.placed
  rw [hinserts.readings] at horder ⊢
  have hle : m ≤ k := (List.pairwise_cons.mp (List.pairwise_cons.mp horder).2).1 k List.mem_cons_self
  obtain ⟨hrechecked, hcount, hfee⟩ := hinserts.holds hle h.amounts rfl
  refine ⟨_, hrows, rfl, fun r hr => ?_, ?_⟩
  · rw [hrows] at hr
    rcases List.mem_append.mp hr with hr | hr
    · exact (h.sound.1.spend.below r hr).2.trans (le_max_right _ _)
    · exact (congrArg SpendRow.ts (List.mem_singleton.mp hr)).le
  · rw [hrows]
    exact ⟨hrechecked, hcount, fun hfees => hfee (hfees.imp_right fun hfees => hfees m rfl)⟩

/-- The execution of a debit when the clock reads three instants, each later than the one before. -/
def jittering : List Choice :=
  (List.replicate 2 (quietAt 1)).append ((List.replicate 20 (quietAt 5)).append
    (List.replicate 40 (quietAt 9)))

/-- A debit of one cent that may spend one wei on gas. -/
def thriftyCent : Request := { cent with maxFeeWei := 1, gasLimit := 1 }

def otherThrifty : Request := { thriftyCent with receiptId := "0x07" }

/-- Two cents, two debits and two wei of fees a day. -/
def twoThrifty : Caps :=
  { Sample.unlimited with units24h := 20000, tx24h := 2, txPerChannel24h := 2, feeWei24h := 2 }

/-- The ledger after a debit, when the clock stood at six seconds. -/
def thriftyBooks : World :=
  (Operation.run Sample.plain (.reserve twoThrifty thriftyCent) (List.replicate 60 (quietAt 6))
    .initial).2

/-- The second debit of the day, while the clock has stepped back, takes the last of every limit. -/
theorem jitter_kept_thrifty :
    ∃ row, ((reserve Sample.plain twoThrifty otherThrifty).run jittering
        thriftyBooks).2.tables.spend.rows = thriftyBooks.tables.spend.rows ++ [row] ∧
      thriftyBooks.tables.spend.rows.length = 1 ∧
      (∀ l ∈ rechecked twoThrifty thriftyCent (Cuts.at row.ts), l.Holds
        ((reserve Sample.plain twoThrifty otherThrifty).run jittering
          thriftyBooks).2.tables.spend.rows) ∧
      (feeLimit thriftyCent 2 (Cuts.at row.ts).day).Holds
        ((reserve Sample.plain twoThrifty otherThrifty).run jittering
          thriftyBooks).2.tables.spend.rows := by
  have hstatus : Status.running = .after (Operation.run Sample.plain (.reserve twoThrifty thriftyCent)
      (List.replicate 60 (quietAt 6)) .initial).1 := by decide +kernel
  have hbooks : Books Sample.plain (fun _ _ _ => True) .running thriftyBooks :=
    hstatus ▸ .operation _ _ .start trivial
  have hcommit : ((debitToCommit Sample.plain twoThrifty otherThrifty).run jittering thriftyBooks).1 =
      .returned () := by decide +kernel
  obtain ⟨row, hrows, -, -, hrechecked, -, hfee⟩ :=
    jitter_kept hbooks (by decide +kernel) hcommit (by decide +kernel)
  have hexact : ∀ r ∈ thriftyBooks.tables.spend.rows, 0 ≤ Tables.feeOf r ∧ Tables.feeOf r < 2 ^ 63 := by
    decide +kernel
  exact ⟨row, hrows, by decide +kernel, hrechecked,
    hfee (.inr fun _ _ r hr => hexact r (List.mem_filter.mp hr).1)⟩

/-- One debit that may spend just over the integers of SQLite. -/
def dearCent : Request := { cent with maxFeeWei := 2 ^ 62 + 1, gasLimit := 2 }

/-- Where a sum of fees does not fit an integer, SQLite adds floating-point numbers. -/
def rounding : Externals := { Sample.plain with floatTotal := fun _ => 2 ^ 63 }

def dearFees : Caps := { Sample.unlimited with feeWei24h := 2 ^ 63 + 2 }

/-- What is left when the first debit spends the whole cap on fees. -/
def dearBooks : World :=
  (Operation.run rounding (.reserve dearFees dearCent) (List.replicate 60 quiet) .initial).2

/-- A further debit is admitted when the day's fees are rounded to less than they are. -/
theorem jitter_not_kept :
    Books rounding (fun _ _ _ => True) .running dearBooks ∧
      dearBooks.tables.get otherThrifty.key = none ∧
      ((debitToCommit rounding dearFees otherThrifty).run
        (List.replicate 60 quiet) dearBooks).1 = .returned () ∧
      ∃ l ∈ unchecked dearFees thriftyCent (Cuts.at 0),
        ¬ l.Holds ((reserve rounding dearFees otherThrifty).run
          (List.replicate 60 quiet) dearBooks).2.tables.spend.rows := by
  refine ⟨?_, by decide +kernel, by decide +kernel, by decide +kernel⟩
  have hstatus : Status.running = .after (Operation.run rounding (.reserve dearFees dearCent)
      (List.replicate 60 quiet) .initial).1 := by decide +kernel
  rw [hstatus]
  exact .operation _ _ .start trivial

end EscrowSigner.Integrity
