import EscrowSigner.Machine.Frames

/-! The footprint of the ledger: what a step of one of its operations can do, whatever the operation.
It runs a statement, opens or ends a transaction, or reads the clock; it appends to the audit log no
row of a request, and touches neither the memory of the signer nor the chain. -/

namespace EscrowSigner.Machine

open Ledger Process

/-- Rows were added at the end of the audit log, none of them of a request. -/
def Logs (t t' : Tables) : Prop :=
  ∃ added, t'.audit = t.audit ++ added ∧ ∀ r ∈ added, r.kind ≠ "request"

theorem Logs.same {t t' : Tables} (h : t'.audit = t.audit) : Logs t t' :=
  ⟨[], by rw [h, List.append_nil], fun _ hr => absurd hr List.not_mem_nil⟩

theorem Logs.trans {t t' t'' : Tables} (h : Logs t t') (h' : Logs t' t'') : Logs t t'' := by
  obtain ⟨added, heq, hadded⟩ := h
  obtain ⟨more, heq', hmore⟩ := h'
  refine ⟨added ++ more, by rw [heq', heq, List.append_assoc], fun r hr => ?_⟩
  exact (List.mem_append.mp hr).elim (hadded r) (hmore r)

theorem logs_updateRow {t t' : Tables} {k : Key} {f : SpendRow → SpendRow}
    (h : t.updateRow k f = .ok t') : Logs t t' := by
  unfold Tables.updateRow Tables.setSpend at h
  split at h
  · cases h
    exact .same rfl
  · cases h

theorem logs_insertAlloc (a : NonceAlloc) (t : Tables) : Logs t (t.insertAlloc a) := by
  unfold Tables.insertAlloc
  split <;> exact .same rfl

/-- A step of an operation of the ledger. -/
structure LedgerStep (c : Choice) (w w' : World) : Prop where
  db : Writes Logs w.db w'.db
  mem : w'.mem = w.mem
  clock : w'.clock = c.now
  log : w'.log = w.log ∨ w'.log = .clock c.now :: w.log

variable {α : Type} {x : Externals}

/-! ### Statements and transactions -/

theorem ledgerStep_fail (c : Choice) (w : World) (f : Fault) :
    LedgerStep c w ((w.advance c).fail f) where
  db := writes_fail (w.advance c) f
  mem := by
    unfold World.fail
    split <;> rfl
  clock := by
    unfold World.fail
    split <;> rfl
  log := .inl (World.fail_log _ _)

theorem footprint_now : now.Steps LedgerStep :=
  Steps.bind (Steps.atomic fun _ _ => ⟨.keep, rfl, rfl, .inr rfl⟩) fun _ => Steps.pure _

theorem footprint_sql {f : Tables → Except Exn (Tables × α)}
    (h : ∀ t t' a, f t = .ok (t', a) → Logs t t') : (sql f).Steps LedgerStep := by
  refine Steps.atomic fun c w => ?_
  unfold statement
  split
  · exact ledgerStep_fail c w _
  · split
    · rename_i t a hf
      exact ⟨.write t (h _ _ _ hf), rfl, rfl, .inl rfl⟩
    · exact ⟨.keep, rfl, rfl, .inl rfl⟩

theorem footprint_update {f : Tables → Except Exn Tables} (h : ∀ t t', f t = .ok t' → Logs t t') :
    (update f).Steps LedgerStep := by
  refine footprint_sql fun t t' a hf => ?_
  obtain ⟨t'', ht, hf⟩ := bind_ok_iff.mp hf
  cases hf
  exact h t _ ht

theorem footprint_select (f : Tables → Except Exn α) : (select f).Steps LedgerStep := by
  refine footprint_sql fun t t' a ht => ?_
  obtain ⟨_, -, ht⟩ := bind_ok_iff.mp ht
  cases ht
  exact .same rfl

theorem footprint_beginImmediate : beginImmediate.Steps LedgerStep := by
  refine Steps.atomic fun c w => ?_
  dsimp only
  split
  · exact ledgerStep_fail c w _
  · exact ⟨.keep, rfl, rfl, .inl rfl⟩
  · exact ⟨.open, rfl, rfl, .inl rfl⟩

theorem footprint_commit : commit.Steps LedgerStep := by
  refine Steps.atomic fun c w => ?_
  dsimp only
  split
  · exact ledgerStep_fail c w _
  · rename_i t _ ht
    exact ⟨.commit t ht, rfl, rfl, .inl rfl⟩
  · exact ⟨.keep, rfl, rfl, .inl rfl⟩

theorem footprint_rollback : rollback.Steps LedgerStep := by
  refine Steps.atomic fun c w => ?_
  dsimp only
  split
  · exact ⟨.drop, rfl, rfl, .inl rfl⟩
  · exact ⟨.keep, rfl, rfl, .inl rfl⟩

theorem footprint_inTransaction : inTransaction.Steps LedgerStep :=
  Steps.atomic fun _ _ => ⟨.keep, rfl, rfl, .inl rfl⟩

theorem footprint_giveUp (e : Exn) : (giveUp e : Code α).Steps LedgerStep :=
  footprint_rollback.bind fun _ => Steps.raise _

theorem footprint_guardTransaction {body : Code α} (h : body.Steps LedgerStep) :
    (guardTransaction body).Steps LedgerStep := by
  refine h.attempt.bind fun r => ?_
  split
  · exact Steps.pure _
  · exact footprint_rollback.attempt.bind fun _ => Steps.raise _
  · exact footprint_rollback.attempt.bind fun _ => Steps.raise _
  · exact Steps.raise _

theorem footprint_rollbackOnError {body : Code α} (h : body.Steps LedgerStep) :
    (rollbackOnError body).Steps LedgerStep := by
  refine h.attempt.bind fun r => ?_
  split
  · exact Steps.pure _
  · refine footprint_inTransaction.bind fun _ => ?_
    split
    · exact footprint_rollback.attempt.bind fun _ => Steps.raise _
    · exact Steps.raise _

/-! ### Clock and audit -/

theorem footprint_refuseRegression (row : ClockGuard) (wall : Int) :
    (refuseRegression row wall).Steps LedgerStep := by
  unfold Ledger.refuseRegression
  split
  · refine Steps.bind (footprint_update fun _ _ ht => ?_) fun _ => Steps.raise _
    cases ht
    exact .same rfl
  · exact Steps.pure _

theorem footprint_assertClockSane : assertClockSane.Steps LedgerStep :=
  (footprint_select _).bind fun _ => footprint_now.bind fun _ => footprint_refuseRegression _ _

theorem footprint_tick : tick.Steps LedgerStep := by
  refine (footprint_select _).bind fun _ => footprint_now.bind fun _ =>
    (footprint_refuseRegression _ _).bind fun _ => Steps.bind (footprint_update fun _ _ ht => ?_) fun _ =>
      Steps.pure _
  cases ht
  exact .same rfl

/-- The kinds of the audit rows that the signer writes by itself. -/
def ownKinds : List String := ["transition", "sweep", "boot"]

theorem footprint_audit {f : AuditFields} (hkind : f.kind ∈ ownKinds) :
    (audit x f).Steps LedgerStep := by
  have hown : ∀ kind ∈ ownKinds, (if kind = "" then "request" else kind) ≠ "request" := by decide
  refine footprint_tick.bind fun _ => (footprint_select _).bind fun head => Steps.bind ?_ fun _ =>
    footprint_update fun _ _ ht => ?_
  · refine footprint_sql fun t t' a ht => ?_
    obtain ⟨_, -, ht⟩ := bind_ok_iff.mp ht
    cases ht
    refine ⟨_, rfl, fun r hr => ?_⟩
    rw [List.mem_singleton.mp hr]
    exact hown _ hkind
  · cases ht
    exact .same rfl

/-! ### Transitions -/

theorem footprint_setState (row : SpendRow) (state : RowState) (u : RowUpdates) :
    (setState x row state u).Steps LedgerStep := by
  refine Steps.bind (footprint_update fun t t' ht => ?_) fun _ =>
    footprint_audit (.head _)
  obtain ⟨_, -, ht⟩ := bind_ok_iff.mp ht
  exact logs_updateRow ht

theorem footprint_markSigned (row : SpendRow) (txHash rawKeccak : String) :
    (markSigned x row txHash rawKeccak).Steps LedgerStep := by
  refine (footprint_setState _ _ _).bind fun _ => footprint_tick.bind fun _ =>
    footprint_update fun _ _ ht => ?_
  obtain ⟨_, -, ht⟩ := bind_ok_iff.mp ht
  cases ht
  exact .same rfl

theorem footprint_readUnsigned (row : SpendRow) : (readUnsigned row).Steps LedgerStep := by
  refine (footprint_select _).bind fun held => ?_
  cases held with
  | none => exact Steps.pure _
  | some r =>
    dsimp only
    split
    · exact (footprint_select _).bind fun _ => Steps.pure _
    · exact Steps.pure _

theorem footprint_markDead (row : SpendRow) (reason : String) :
    (markDead x row reason).Steps LedgerStep := by
  refine (footprint_readUnsigned row).bind fun unsigned => (footprint_setState _ _ _).bind fun _ => ?_
  cases unsigned with
  | none => exact Steps.pure _
  | some held =>
    refine (footprint_select _).bind fun _ => footprint_update fun _ _ ht => ?_
    cases ht
    exact .same rfl

theorem footprint_recordAttemptStatus (txHash status : String) :
    (recordAttemptStatus txHash status).Steps LedgerStep := by
  refine footprint_update fun _ _ ht => ?_
  cases ht
  exact .same rfl

/-! ### Boot -/

theorem footprint_setNextNonce (chainId : Int) (fromAddr : String) (nonce : Int) :
    (setNextNonce chainId fromAddr nonce).Steps LedgerStep := by
  refine footprint_tick.bind fun _ => footprint_update fun t _ ht => ?_
  obtain ⟨_, -, ht⟩ := bind_ok_iff.mp ht
  cases ht
  unfold putAlloc
  split
  · exact .same rfl
  · exact logs_insertAlloc _ t

theorem footprint_recordBoot (address : String) (chainId : Int) (escrow capsJson : String)
    (reconciled : Bool) :
    (recordBoot address chainId escrow capsJson reconciled).Steps LedgerStep := by
  refine footprint_tick.bind fun _ => (footprint_select _).bind fun _ => footprint_update fun t _ ht => ?_
  obtain ⟨_, -, ht⟩ := bind_ok_iff.mp ht
  cases ht
  exact .same rfl

/-! ### Reservations -/

theorem footprint_windowChecks (caps : Caps) (a : Request) (cuts : Cuts) :
    (windowChecks x caps a cuts).Steps LedgerStep := by
  unfold Ledger.windowChecks
  repeat refine (footprint_select _).bind fun _ => ?_
  exact Steps.pure _

theorem footprint_runChecks (checks : List Check) : (runChecks checks).Steps LedgerStep := by
  induction checks with
  | nil => exact Steps.pure _
  | cons c rest ih =>
    unfold Ledger.runChecks
    split
    · exact ih
    · exact Steps.raise _

theorem footprint_checkDistinctChannels (caps : Caps) (a : Request) (cuts : Cuts) :
    (checkDistinctChannels caps a cuts).Steps LedgerStep := by
  unfold Ledger.checkDistinctChannels
  split
  · exact Steps.pure _
  · refine (footprint_select _).bind fun _ => (footprint_select _).bind fun _ => ?_
    split
    · exact Steps.raise _
    · exact Steps.pure _

theorem footprint_allocate (chainId : Int) (fromAddr : String) :
    (allocate chainId fromAddr).Steps LedgerStep := by
  refine footprint_beginImmediate.bind fun _ => footprint_tick.bind fun _ => Steps.bind ?_ fun _ =>
    (footprint_select _).bind fun _ => (footprint_select _).bind fun _ => Steps.pure _
  refine footprint_update fun t _ ht => ?_
  cases ht
  exact logs_insertAlloc _ t

theorem footprint_takeNonce (chainId : Int) (fromAddr : String) (seq : Int) :
    (takeNonce chainId fromAddr seq).Steps LedgerStep := by
  refine footprint_update fun _ _ ht => ?_
  cases ht
  exact .same rfl

theorem footprint_reviveOf (existing : Option SpendRow) (what : String) :
    (reviveOf existing what).Steps LedgerStep := by
  unfold Ledger.reviveOf
  split
  · exact Steps.pure _
  · split
    · exact Steps.pure _
    · exact Steps.raise _

theorem footprint_committedRow (k : Key) : (committedRow k).Steps LedgerStep := by
  refine (footprint_select _).bind fun row => ?_
  split
  · exact Steps.pure _
  · exact Steps.raise _

theorem footprint_reviveRow (ints : List Int) (k : Key) (amountUnits : Int) (f : SpendRow → SpendRow) :
    (reviveRow ints k amountUnits f).Steps LedgerStep := by
  refine footprint_sql fun t t' a ht => ?_
  obtain ⟨_, -, ht⟩ := bind_ok_iff.mp ht
  split at ht
  · obtain ⟨t'', hrow, ht⟩ := bind_ok_iff.mp ht
    cases ht
    exact logs_updateRow hrow
  · cases ht
    exact .same rfl

theorem footprint_insertRow (ints : List Int) (guard : Tables → Except Exn Bool) (row : SpendRow) :
    (insertRow ints guard row).Steps LedgerStep := by
  refine footprint_sql fun t t' a ht => ?_
  obtain ⟨_, -, ht⟩ := bind_ok_iff.mp ht
  obtain ⟨b, -, ht⟩ := bind_ok_iff.mp ht
  split at ht
  · obtain ⟨t'', hrow, ht⟩ := bind_ok_iff.mp ht
    cases ht
    unfold Tables.setSpend at hrow
    split at hrow
    · cases hrow
      exact .same rfl
    · cases hrow
  · cases ht
    exact .same rfl

theorem footprint_setHead (head : String) :
    (update fun t => .ok { t with spendHead := head }).Steps LedgerStep := by
  refine footprint_update fun _ _ ht => ?_
  cases ht
  exact .same rfl

theorem footprint_reviveDebit (a : Request) (al : Allocation) :
    (reviveDebit x a al).Steps LedgerStep := by
  refine (footprint_reviveRow _ _ _ _).bind fun changed => ?_
  split
  · refine (footprint_takeNonce _ _ _).bind fun _ => footprint_commit.bind fun _ =>
      (footprint_select _).bind fun row => ?_
    split
    · exact Steps.raise _
    · exact (footprint_audit (.head _)).bind fun _ => Steps.pure _
  · exact footprint_giveUp _

theorem footprint_insertDebit (caps : Caps) (a : Request) (cuts : Cuts) (al : Allocation) :
    (insertDebit x caps a cuts al).Steps LedgerStep := by
  refine (footprint_insertRow _ _ _).bind fun inserted => ?_
  split
  · exact (footprint_takeNonce _ _ _).bind fun _ => (footprint_setHead _).bind fun _ => footprint_commit
  · exact footprint_giveUp _

theorem footprint_reserve (caps : Caps) (a : Request) : (reserve x caps a).Steps LedgerStep := by
  refine footprint_rollbackOnError ?_
  unfold Ledger.reserveUnlocked
  split
  · exact Steps.raise _
  refine footprint_assertClockSane.bind fun _ => footprint_now.bind fun _ =>
    (footprint_windowChecks _ _ _).bind fun _ => (footprint_runChecks _).bind fun _ =>
      (footprint_checkDistinctChannels _ _ _).bind fun _ => (footprint_select _).bind fun _ =>
        (footprint_reviveOf _ _).bind fun revive => (footprint_guardTransaction ?_).bind fun row => ?_
  · refine (footprint_allocate _ _).bind fun al => ?_
    split
    · exact (footprint_reviveDebit _ _).bind fun _ => Steps.pure _
    · exact (footprint_insertDebit _ _ _ _).bind fun _ => Steps.pure _
  · split
    · exact Steps.pure _
    · exact footprint_committedRow _

theorem footprint_checkGasOnlyCount (a : GasOnlyRequest) (cut : Int) :
    (checkGasOnlyCount a cut).Steps LedgerStep := by
  unfold Ledger.checkGasOnlyCount
  split
  · exact Steps.pure _
  · refine (footprint_select _).bind fun _ => ?_
    split
    · exact Steps.raise _
    · exact Steps.pure _

theorem footprint_checkGasOnlyFee (caps : Caps) (a : GasOnlyRequest) (cut : Int) :
    (checkGasOnlyFee x caps a cut).Steps LedgerStep := by
  unfold Ledger.checkGasOnlyFee
  split
  · exact Steps.pure _
  · refine (footprint_select _).bind fun _ => ?_
    split
    · exact Steps.raise _
    · exact Steps.pure _

theorem footprint_placeGasOnly (a : GasOnlyRequest) (cut : Int) (revive : Bool) (al : Allocation) :
    (placeGasOnly x a cut revive al).Steps LedgerStep := by
  unfold Ledger.placeGasOnly
  split
  · refine (footprint_reviveRow _ _ _ _).bind fun changed => ?_
    split
    · exact Steps.pure _
    · exact footprint_giveUp _
  · refine (footprint_insertRow _ _ _).bind fun inserted => ?_
    split
    · exact footprint_setHead _
    · exact footprint_giveUp _

theorem footprint_reserveGasOnly (caps : Caps) (a : GasOnlyRequest) :
    (reserveGasOnly x caps a).Steps LedgerStep := by
  refine footprint_rollbackOnError (footprint_assertClockSane.bind fun _ => footprint_now.bind fun _ =>
    (footprint_checkGasOnlyCount _ _).bind fun _ => (footprint_checkGasOnlyFee _ _ _).bind fun _ =>
      (footprint_select _).bind fun _ => (footprint_reviveOf _ _).bind fun revive =>
        (footprint_guardTransaction ?_).bind fun _ => (footprint_committedRow _).bind fun _ =>
          (footprint_audit (.head _)).bind fun _ => Steps.pure _)
  exact (footprint_allocate _ _).bind fun _ => (footprint_placeGasOnly _ _ _ _).bind fun _ =>
    (footprint_takeNonce _ _ _).bind fun _ => footprint_commit

end EscrowSigner.Machine
