import EscrowSigner.Process.Frame
import EscrowSigner.Machine.State

/-! Frames of the code, function by function: which statements write which tables, and which functions
neither sign nor send.  They hold from every world, whatever its ledger. -/

namespace EscrowSigner.Machine

/-! ### What a step does -/

variable {K : Tables → Tables → Prop}

/-- What a step does to the database: nothing, a statement whose effect `K` allows, or the start or
the end of a transaction. -/
inductive Writes (K : Tables → Tables → Prop) (db : Db) : Db → Prop
  | keep : Writes K db db
  | write (t : Tables) (h : K db.view t) : Writes K db (db.write t)
  | open : Writes K db { db with working := some db.committed }
  | commit (t : Tables) (h : db.working = some t) : Writes K db ⟨t, none⟩
  | drop : Writes K db ⟨db.committed, none⟩

/-- A step that writes what `K` allows. -/
def Firm (K : Tables → Tables → Prop) (_ : Choice) (w w' : World) : Prop := Writes K w.db w'.db

/-- A step that writes what `K` allows, and neither signs nor sends. -/
structure Quiet (K : Tables → Tables → Prop) (c : Choice) (w w' : World) : Prop where
  db : Writes K w.db w'.db
  log : w'.log = w.log ∨ ∃ e, Passive c e ∧ w'.log = e :: w.log

/-- The ledger is halted, for a reason that the property `halted` shows. -/
def Tables.IsHalted (t : Tables) : Prop :=
  t.clockGuard.halted = true ∧ t.clockGuard.haltReason ≠ ""

/-- A halted ledger stays halted. -/
def StaysHalted (t t' : Tables) : Prop := Tables.IsHalted t → Tables.IsHalted t'

/-- The rows of `spend` stay, and a halted ledger stays halted. -/
structure KeepsSpend (t t' : Tables) : Prop where
  spend : t'.spend = t.spend
  halted : StaysHalted t t'

theorem KeepsSpend.refl (t : Tables) : KeepsSpend t t := ⟨rfl, id⟩

theorem Writes.mono {K' : Tables → Tables → Prop} {db db' : Db} (h : Writes K db db')
    (hK : ∀ t t', K t t' → K' t t') : Writes K' db db' := by
  cases h with
  | keep => exact .keep
  | write t h => exact .write t (hK _ _ h)
  | «open» => exact .open
  | commit t h => exact .commit t h
  | drop => exact .drop

/-- A property of the committed tables and of those of an open transaction. -/
structure Holds (P : Tables → Prop) (db : Db) : Prop where
  committed : P db.committed
  working : ∀ t, db.working = some t → P t

theorem Holds.view {P : Tables → Prop} {db : Db} (h : Holds P db) : P db.view := by
  unfold Db.view
  cases hw : db.working with
  | none => exact h.committed
  | some t => exact h.working t hw

/-- What every allowed statement keeps, a step keeps. -/
theorem Writes.holds {P : Tables → Prop} {db db' : Db} (hw : Writes K db db') (h : Holds P db)
    (hK : ∀ t t', P t → K t t' → P t') : Holds P db' := by
  have hnone : ∀ {t : Tables}, none = some t → P t := fun ht => by cases ht
  have hsome : ∀ {t t' : Tables}, P t → some t = some t' → P t' := fun hp ht => by
    cases ht
    exact hp
  cases hw with
  | keep => exact h
  | write t ht =>
    have ht := hK _ _ h.view ht
    unfold Db.write
    split
    · exact ⟨h.committed, fun _ => hsome ht⟩
    · rename_i hw
      exact ⟨ht, fun _ ht' => hnone (hw ▸ ht')⟩
  | «open» => exact ⟨h.committed, fun _ => hsome h.committed⟩
  | commit t ht => exact ⟨h.working t ht, fun _ => hnone⟩
  | drop => exact ⟨h.committed, fun _ => hnone⟩

end EscrowSigner.Machine

namespace Process.Steps

open EscrowSigner EscrowSigner.Machine

variable {α : Type} {K : Tables → Tables → Prop} {p : Code α}

/-- A function that keeps the rows keeps a halt. -/
theorem staysHalted (h : p.Steps (Quiet KeepsSpend)) : p.Steps (Quiet StaysHalted) :=
  h.mono fun _ _ _ hq => ⟨hq.db.mono fun _ _ => KeepsSpend.halted, hq.log⟩

/-- A function that neither signs nor sends, among those that may. -/
theorem firm (h : p.Steps (Quiet K)) : p.Steps (Firm K) := h.mono fun _ _ _ hq => hq.db

end Process.Steps

namespace EscrowSigner.Machine

open Policy Process
open Calldata (DebitCall ExpireCall)

variable {α β : Type} {K : Tables → Tables → Prop}

/-! ### Primitive steps -/

theorem writes_fail (w : World) (f : Fault) : Writes K w.db (w.fail f).db := by
  unfold World.fail
  split
  · exact .drop
  · exact .keep

theorem quiet_fail (c : Choice) (w : World) (f : Fault) : Quiet K c w ((w.advance c).fail f) :=
  ⟨writes_fail (w.advance c) f, .inl (World.fail_log _ _)⟩

theorem steps_readClock : readClock.Steps (Quiet K) :=
  Steps.atomic fun _ _ => ⟨.keep, .inr ⟨_, .clock, rfl⟩⟩

theorem steps_now : now.Steps (Quiet K) := steps_readClock.bind fun _ => Steps.pure _

theorem steps_readMemory : readMemory.Steps (Quiet K) :=
  Steps.atomic fun _ _ => ⟨.keep, .inl rfl⟩

theorem steps_writeMemory (f : Memory → Memory) : (writeMemory f).Steps (Quiet K) :=
  Steps.atomic fun _ _ => ⟨.keep, .inl rfl⟩

theorem steps_rpc {q : Query} (hq : sends q = false) : (rpc q).Steps (Quiet K) :=
  Steps.atomic fun _ _ => ⟨.keep, .inr ⟨_, .rpc q hq, rfl⟩⟩

theorem steps_sql {f : Tables → Except Exn (Tables × α)}
    (h : ∀ t t' a, f t = .ok (t', a) → K t t') : (sql f).Steps (Quiet K) := by
  refine Steps.atomic fun c w => ?_
  unfold statement
  split
  · exact quiet_fail c w _
  · split
    · rename_i t a hf
      exact ⟨.write t (h _ _ _ hf), .inl rfl⟩
    · exact ⟨.keep, .inl rfl⟩

theorem steps_update {f : Tables → Except Exn Tables} (h : ∀ t t', f t = .ok t' → K t t') :
    (update f).Steps (Quiet K) := by
  refine steps_sql fun t t' a hf => ?_
  obtain ⟨t'', ht, hf⟩ := bind_ok_iff.mp hf
  cases hf
  exact h t _ ht

theorem steps_select (f : Tables → Except Exn α) : (select f).Steps (Quiet KeepsSpend) := by
  refine steps_sql fun t t' a hf => ?_
  obtain ⟨a', -, hf⟩ := bind_ok_iff.mp hf
  cases hf
  exact .refl t

/-- What a `SELECT` returns is what the tables hold where it runs. -/
theorem wp_select {f : Tables → Except Exn α} {env : World → Choice → Prop}
    {safe : World → (Choice → World) → Prop} {Q : Except Exn α → World → Prop} {w : World}
    (hsafe : safe w fun c => (statement (fun t => do let a ← f t; return (t, a)) c (w.advance c)).1)
    (hQ : ∀ c r w', env w c → Quiet KeepsSpend c w w' → (∀ a, r = .ok a → f w.view = .ok a) → Q r w') :
    (select f).Wp env safe Q w := by
  refine wp_atomic.mpr ⟨hsafe, fun c hc => hQ c _ _ hc (steps_select f c w).1 fun a ha => ?_⟩
  unfold statement at ha
  cases hf : c.fault with
  | some fault =>
    rw [hf] at ha
    cases ha
  | none =>
    rw [hf] at ha
    have hview : (w.advance c).view = w.view := rfl
    simp only [hview] at ha
    cases hr : f w.view with
    | error e =>
      rw [hr] at ha
      cases ha
    | ok a' =>
      rw [hr] at ha
      cases ha
      rfl

theorem steps_beginImmediate : beginImmediate.Steps (Quiet K) := by
  refine Steps.atomic fun c w => ?_
  dsimp only
  split
  · exact quiet_fail c w _
  · exact ⟨.keep, .inl rfl⟩
  · exact ⟨.open, .inl rfl⟩

theorem steps_commit : commit.Steps (Quiet K) := by
  refine Steps.atomic fun c w => ?_
  dsimp only
  split
  · exact quiet_fail c w _
  · rename_i t _ ht
    exact ⟨.commit t ht, .inl rfl⟩
  · exact ⟨.keep, .inl rfl⟩

theorem steps_rollback : rollback.Steps (Quiet K) := by
  refine Steps.atomic fun c w => ?_
  dsimp only
  split
  · exact ⟨.drop, .inl rfl⟩
  · exact ⟨.keep, .inl rfl⟩

theorem steps_inTransaction : inTransaction.Steps (Quiet K) :=
  Steps.atomic fun _ _ => ⟨.keep, .inl rfl⟩

/-! ### The ledger -/

theorem steps_guardRow : Ledger.guardRow.Steps (Quiet KeepsSpend) := steps_select _

theorem steps_halted : Ledger.halted.Steps (Quiet KeepsSpend) :=
  steps_guardRow.bind fun _ => Steps.pure _

theorem steps_halt {reason : String} (h : reason ≠ "") :
    (Ledger.halt reason).Steps (Quiet KeepsSpend) :=
  steps_update fun _ _ ht => by cases ht; exact ⟨rfl, fun _ => ⟨rfl, h⟩⟩

theorem steps_refuseRegression (row : ClockGuard) (wall : Int) :
    (Ledger.refuseRegression row wall).Steps (Quiet KeepsSpend) := by
  unfold Ledger.refuseRegression
  split
  · refine (steps_halt fun h => ?_).bind fun _ => Steps.raise _
    simp [toString] at h
  · exact Steps.pure _

theorem steps_assertClockSane : Ledger.assertClockSane.Steps (Quiet KeepsSpend) :=
  steps_guardRow.bind fun _ => steps_now.bind fun _ => steps_refuseRegression _ _

theorem steps_tick : Ledger.tick.Steps (Quiet KeepsSpend) := by
  refine steps_guardRow.bind fun _ => steps_now.bind fun _ =>
    (steps_refuseRegression _ _).bind fun _ => Steps.bind ?_ fun _ => Steps.pure _
  exact steps_update fun _ _ ht => by cases ht; exact ⟨rfl, id⟩

theorem steps_insertAudit (x : Externals) (f : Ledger.AuditFields) (ts : Int) (head : String) :
    (Ledger.insertAudit x f ts head).Steps (Quiet KeepsSpend) := by
  refine steps_sql fun t t' a ht => ?_
  obtain ⟨_, -, ht⟩ := bind_ok_iff.mp ht
  cases ht
  exact ⟨rfl, id⟩

theorem steps_audit (x : Externals) (f : Ledger.AuditFields) :
    (Ledger.audit x f).Steps (Quiet KeepsSpend) := by
  refine steps_tick.bind fun _ => (steps_select _).bind fun _ => (steps_insertAudit _ _ _ _).bind
    fun _ => steps_update fun _ _ ht => ?_
  cases ht
  exact ⟨rfl, id⟩

theorem steps_get (k : Key) : (Ledger.get k).Steps (Quiet KeepsSpend) := steps_select _

theorem steps_readUnsigned (row : SpendRow) : (Ledger.readUnsigned row).Steps (Quiet KeepsSpend) := by
  refine (steps_select _).bind fun held => ?_
  cases held with
  | none => exact Steps.pure _
  | some r =>
    dsimp only
    split
    · exact (steps_select _).bind fun _ => Steps.pure _
    · exact Steps.pure _

theorem steps_recordAttemptStatus (txHash status : String) :
    (Ledger.recordAttemptStatus txHash status).Steps (Quiet KeepsSpend) :=
  steps_update fun _ _ ht => by cases ht; exact ⟨rfl, id⟩

theorem putAlloc_frame (a : NonceAlloc) (t : Tables) : KeepsSpend t (Ledger.putAlloc a t) := by
  unfold Ledger.putAlloc Tables.insertAlloc
  split <;> exact ⟨rfl, id⟩

theorem steps_setNextNonce (chainId : Int) (fromAddr : String) (nonce : Int) :
    (Ledger.setNextNonce chainId fromAddr nonce).Steps (Quiet KeepsSpend) := by
  refine steps_tick.bind fun _ => steps_update fun t t' ht => ?_
  obtain ⟨_, -, ht⟩ := bind_ok_iff.mp ht
  cases ht
  exact putAlloc_frame _ t

theorem steps_verifyChains (x : Externals) : (Ledger.verifyChains x).Steps (Quiet KeepsSpend) :=
  (steps_select _).bind fun _ => steps_select _

theorem steps_recordBoot (address : String) (chainId : Int) (escrow capsJson : String)
    (reconciled : Bool) :
    (Ledger.recordBoot address chainId escrow capsJson reconciled).Steps (Quiet KeepsSpend) := by
  refine steps_tick.bind fun _ => (steps_select _).bind fun _ => steps_update fun _ _ ht => ?_
  obtain ⟨_, -, ht⟩ := bind_ok_iff.mp ht
  cases ht
  exact ⟨rfl, id⟩

/-- A change of one row keeps a halt. -/
theorem updateRow_staysHalted {t t' : Tables} {k : Key} {f : SpendRow → SpendRow}
    (h : t.updateRow k f = .ok t') : StaysHalted t t' := by
  unfold Tables.updateRow Tables.setSpend at h
  split at h
  · cases h
    exact id
  · cases h

theorem steps_setState (x : Externals) (row : SpendRow) (state : RowState) (u : Ledger.RowUpdates) :
    (Ledger.setState x row state u).Steps (Quiet StaysHalted) := by
  refine Steps.bind (steps_update fun t t' ht => ?_) fun _ => (steps_audit _ _).staysHalted
  obtain ⟨_, -, ht⟩ := bind_ok_iff.mp ht
  exact updateRow_staysHalted ht

theorem steps_markSigned (x : Externals) (row : SpendRow) (txHash rawKeccak : String) :
    (Ledger.markSigned x row txHash rawKeccak).Steps (Quiet StaysHalted) := by
  refine (steps_setState _ _ _ _).bind fun _ => steps_tick.staysHalted.bind fun _ =>
    steps_update fun _ _ ht => ?_
  obtain ⟨_, -, ht⟩ := bind_ok_iff.mp ht
  cases ht
  exact id

theorem steps_markDead (x : Externals) (row : SpendRow) (reason : String) :
    (Ledger.markDead x row reason).Steps (Quiet StaysHalted) := by
  refine (steps_readUnsigned row).staysHalted.bind fun unsigned => (steps_setState _ _ _ _).bind
    fun _ => ?_
  cases unsigned with
  | none => exact Steps.pure _
  | some held =>
    exact steps_guardRow.staysHalted.bind fun _ => steps_update fun _ _ ht => by cases ht; exact id

/-! ### Reservations -/

theorem steps_windowChecks (x : Externals) (caps : Caps) (a : Ledger.Request) (cuts : Ledger.Cuts) :
    (Ledger.windowChecks x caps a cuts).Steps (Quiet KeepsSpend) := by
  unfold Ledger.windowChecks
  repeat refine (steps_select _).bind fun _ => ?_
  exact Steps.pure _

theorem steps_runChecks (checks : List Ledger.Check) :
    (Ledger.runChecks checks).Steps (Quiet KeepsSpend) := by
  induction checks with
  | nil => exact Steps.pure _
  | cons c rest ih =>
    unfold Ledger.runChecks
    split
    · exact ih
    · exact Steps.raise _

theorem steps_checkDistinctChannels (caps : Caps) (a : Ledger.Request) (cuts : Ledger.Cuts) :
    (Ledger.checkDistinctChannels caps a cuts).Steps (Quiet KeepsSpend) := by
  unfold Ledger.checkDistinctChannels
  split
  · exact Steps.pure _
  · refine (steps_select _).bind fun _ => (steps_select _).bind fun _ => ?_
    split
    · exact Steps.raise _
    · exact Steps.pure _

theorem steps_reviveOf (existing : Option SpendRow) (what : String) :
    (Ledger.reviveOf existing what).Steps (Quiet K) := by
  unfold Ledger.reviveOf
  split
  · exact Steps.pure _
  · split
    · exact Steps.pure _
    · exact Steps.raise _

theorem steps_allocate (chainId : Int) (fromAddr : String) :
    (Ledger.allocate chainId fromAddr).Steps (Quiet KeepsSpend) := by
  refine steps_beginImmediate.bind fun _ => steps_tick.bind fun _ => Steps.bind ?_ fun _ =>
    (steps_select _).bind fun _ => (steps_select _).bind fun _ => Steps.pure _
  refine steps_update fun t _ ht => ?_
  cases ht
  unfold Tables.insertAlloc
  split <;> exact ⟨rfl, id⟩

theorem steps_takeNonce (chainId : Int) (fromAddr : String) (seq : Int) :
    (Ledger.takeNonce chainId fromAddr seq).Steps (Quiet KeepsSpend) :=
  steps_update fun _ _ ht => by cases ht; exact ⟨rfl, id⟩

theorem steps_giveUp (e : Exn) : (Ledger.giveUp e : Code α).Steps (Quiet K) :=
  steps_rollback.bind fun _ => Steps.raise _

theorem steps_guardTransaction {body : Code α} (h : body.Steps (Quiet K)) :
    (Ledger.guardTransaction body).Steps (Quiet K) := by
  refine h.attempt.bind fun r => ?_
  split
  · exact Steps.pure _
  · exact steps_rollback.attempt.bind fun _ => Steps.raise _
  · exact steps_rollback.attempt.bind fun _ => Steps.raise _
  · exact Steps.raise _

theorem steps_rollbackOnError {body : Code α} (h : body.Steps (Quiet K)) :
    (Ledger.rollbackOnError body).Steps (Quiet K) := by
  refine h.attempt.bind fun r => ?_
  split
  · exact Steps.pure _
  · refine steps_inTransaction.bind fun _ => ?_
    split
    · exact steps_rollback.attempt.bind fun _ => Steps.raise _
    · exact Steps.raise _

theorem steps_committedRow (k : Key) : (Ledger.committedRow k).Steps (Quiet KeepsSpend) := by
  refine (steps_get k).bind fun row => ?_
  split
  · exact Steps.pure _
  · exact Steps.raise _

theorem steps_reviveRow (ints : List Int) (k : Key) (amountUnits : Int) (f : SpendRow → SpendRow) :
    (Ledger.reviveRow ints k amountUnits f).Steps (Quiet StaysHalted) := by
  refine steps_sql fun t t' a ht => ?_
  obtain ⟨_, -, ht⟩ := bind_ok_iff.mp ht
  split at ht
  · obtain ⟨t'', hrow, ht⟩ := bind_ok_iff.mp ht
    cases ht
    exact updateRow_staysHalted hrow
  · cases ht
    exact id

theorem steps_insertRow (ints : List Int) (guard : Tables → Except Exn Bool) (row : SpendRow) :
    (Ledger.insertRow ints guard row).Steps (Quiet StaysHalted) := by
  refine steps_sql fun t t' a ht => ?_
  obtain ⟨_, -, ht⟩ := bind_ok_iff.mp ht
  obtain ⟨b, -, ht⟩ := bind_ok_iff.mp ht
  split at ht
  · obtain ⟨t'', hrow, ht⟩ := bind_ok_iff.mp ht
    cases ht
    unfold Tables.setSpend at hrow
    split at hrow
    · cases hrow
      exact id
    · cases hrow
  · cases ht
    exact id

theorem steps_setHead (head : String) :
    (update fun t => .ok { t with spendHead := head }).Steps (Quiet KeepsSpend) :=
  steps_update fun _ _ ht => by cases ht; exact ⟨rfl, id⟩

theorem steps_reviveDebit (x : Externals) (a : Ledger.Request) (al : Ledger.Allocation) :
    (Ledger.reviveDebit x a al).Steps (Quiet StaysHalted) := by
  refine (steps_reviveRow _ _ _ _).bind fun changed => ?_
  split
  · refine (steps_takeNonce _ _ _).staysHalted.bind fun _ => steps_commit.bind fun _ =>
      (steps_get _).staysHalted.bind fun row => ?_
    split
    · exact Steps.raise _
    · exact (steps_audit _ _).staysHalted.bind fun _ => Steps.pure _
  · exact steps_giveUp _

theorem steps_insertDebit (x : Externals) (caps : Caps) (a : Ledger.Request) (cuts : Ledger.Cuts)
    (al : Ledger.Allocation) : (Ledger.insertDebit x caps a cuts al).Steps (Quiet StaysHalted) := by
  refine (steps_insertRow _ _ _).bind fun inserted => ?_
  split
  · exact (steps_takeNonce _ _ _).staysHalted.bind fun _ => (steps_setHead _).staysHalted.bind
      fun _ => steps_commit
  · exact steps_giveUp _

theorem steps_reserve (x : Externals) (caps : Caps) (a : Ledger.Request) :
    (Ledger.reserve x caps a).Steps (Quiet StaysHalted) := by
  refine steps_rollbackOnError ?_
  unfold Ledger.reserveUnlocked
  split
  · exact Steps.raise _
  · refine steps_assertClockSane.staysHalted.bind fun _ => steps_now.bind fun _ =>
      (steps_windowChecks _ _ _ _).staysHalted.bind fun _ => (steps_runChecks _).staysHalted.bind
      fun _ => (steps_checkDistinctChannels _ _ _).staysHalted.bind fun _ =>
      (steps_get _).staysHalted.bind fun _ => (steps_reviveOf _ _).bind fun revive => ?_
    refine (steps_guardTransaction ?_).bind fun row => ?_
    · refine (steps_allocate _ _).staysHalted.bind fun al => ?_
      split
      · exact (steps_reviveDebit _ _ _).bind fun _ => Steps.pure _
      · exact (steps_insertDebit _ _ _ _ _).bind fun _ => Steps.pure _
    · split
      · exact Steps.pure _
      · exact (steps_committedRow _).staysHalted

theorem steps_checkGasOnlyCount (a : Ledger.GasOnlyRequest) (cut : Int) :
    (Ledger.checkGasOnlyCount a cut).Steps (Quiet KeepsSpend) := by
  unfold Ledger.checkGasOnlyCount
  split
  · exact Steps.pure _
  · refine (steps_select _).bind fun _ => ?_
    split
    · exact Steps.raise _
    · exact Steps.pure _

theorem steps_checkGasOnlyFee (x : Externals) (caps : Caps) (a : Ledger.GasOnlyRequest) (cut : Int) :
    (Ledger.checkGasOnlyFee x caps a cut).Steps (Quiet KeepsSpend) := by
  unfold Ledger.checkGasOnlyFee
  split
  · exact Steps.pure _
  · refine (steps_select _).bind fun _ => ?_
    split
    · exact Steps.raise _
    · exact Steps.pure _

theorem steps_placeGasOnly (x : Externals) (a : Ledger.GasOnlyRequest) (cut : Int) (revive : Bool)
    (al : Ledger.Allocation) :
    (Ledger.placeGasOnly x a cut revive al).Steps (Quiet StaysHalted) := by
  unfold Ledger.placeGasOnly
  split
  · refine (steps_reviveRow _ _ _ _).bind fun changed => ?_
    split
    · exact Steps.pure _
    · exact steps_giveUp _
  · refine (steps_insertRow _ _ _).bind fun inserted => ?_
    split
    · exact (steps_setHead _).staysHalted
    · exact steps_giveUp _

theorem steps_reserveGasOnly (x : Externals) (caps : Caps) (a : Ledger.GasOnlyRequest) :
    (Ledger.reserveGasOnly x caps a).Steps (Quiet StaysHalted) := by
  refine steps_rollbackOnError (steps_assertClockSane.staysHalted.bind fun _ => steps_now.bind
    fun _ => (steps_checkGasOnlyCount _ _).staysHalted.bind fun _ =>
    (steps_checkGasOnlyFee _ _ _ _).staysHalted.bind fun _ => (steps_get _).staysHalted.bind
    fun _ => (steps_reviveOf _ _).bind fun revive => (steps_guardTransaction ?_).bind fun _ =>
    (steps_committedRow _).staysHalted.bind fun _ => (steps_audit _ _).staysHalted.bind
    fun _ => Steps.pure _)
  exact (steps_allocate _ _).staysHalted.bind fun _ => (steps_placeGasOnly _ _ _ _ _).bind fun _ =>
    (steps_takeNonce _ _ _).staysHalted.bind fun _ => steps_commit

/-! ### Reads of the chain -/

variable (i : Instance)

theorem steps_identifyChain : (identifyChain i).Steps (Quiet K) := by
  refine (steps_rpc rfl).bind fun chainId => ?_
  split
  · exact Steps.raise _
  · refine (steps_rpc rfl).bind fun found => ?_
    split
    · exact Steps.raise _
    · refine (steps_rpc rfl).bind fun authorized => ?_
      split
      · exact Steps.raise _
      · refine (steps_rpc rfl).bind fun decimals => ?_
        split
        · exact Steps.raise _
        · exact steps_readClock.bind fun _ => steps_writeMemory _

theorem steps_verifyChainIdentity (force : Bool) :
    (verifyChainIdentity i force).Steps (Quiet K) := by
  unfold verifyChainIdentity
  split
  · exact steps_identifyChain i
  · refine (steps_readClock.bind fun _ => steps_readMemory.bind fun _ => Steps.pure _).bind
      fun cached => ?_
    split
    · exact Steps.pure _
    · exact steps_identifyChain i

theorem steps_readFees (toAddr : String) (data : Bytes) :
    (readFees i toAddr data).Steps (Quiet K) :=
  (steps_rpc rfl).bind fun _ => (steps_rpc rfl).bind fun _ => Steps.pure _

theorem steps_readExpired (call : ExpireCall) : (readExpired i call).Steps (Quiet K) :=
  (steps_verifyChainIdentity i false).bind fun _ => steps_rpc rfl

theorem steps_refuseRead (common : Common) (e : Exn) : (refuseRead common e).Steps (Quiet K) := by
  unfold refuseRead
  split
  · exact Steps.pure _
  · exact Steps.pure _
  · exact Steps.raise _

theorem steps_refuseReservation (common : Common) (e : Exn) :
    (refuseReservation common e).Steps (Quiet K) := by
  unfold refuseReservation
  split
  · exact Steps.pure _
  · exact Steps.pure _
  · exact Steps.pure _
  · exact Steps.raise _

/-! ### Reconciliation and boot -/

theorem steps_settleReceipt (row : SpendRow) (txHash : String) (receipt : Json) (reason : String) :
    (settleReceipt i row txHash receipt reason).Steps (Quiet StaysHalted) := by
  refine (Steps.ofExcept _).bind fun status =>
    (steps_recordAttemptStatus _ _).staysHalted.bind fun _ => ?_
  split
  · exact (Steps.ofExcept _).bind fun _ => (steps_setState _ _ _ _).bind fun _ => Steps.pure _
  · split
    · exact (steps_markDead _ _ _).bind fun _ => Steps.pure _
    · exact Steps.pure _

theorem steps_reconcileAttempts (row : SpendRow) (attempts : List TxAttempt) :
    (reconcileAttempts i row attempts).Steps (Quiet StaysHalted) := by
  induction attempts with
  | nil => exact Steps.pure _
  | cons attempt rest ih =>
    refine (steps_rpc rfl).bind fun receipt => ?_
    split
    · refine (steps_settleReceipt i _ _ _ _).bind fun settled => ?_
      split
      · exact Steps.pure _
      · exact ih
    · exact (steps_recordAttemptStatus _ _).staysHalted.bind fun _ => ih

theorem steps_releaseRow (time : Int) (row : SpendRow) (attempts : List TxAttempt) :
    (releaseRow i time row attempts).Steps (Quiet StaysHalted) := by
  unfold releaseRow
  split
  · exact steps_markDead _ _ _
  · split
    · exact steps_markDead _ _ _
    · exact Steps.pure _

theorem steps_reconcileRow (time : Int) (row : SpendRow) :
    (reconcileRow i time row).Steps (Quiet StaysHalted) := by
  refine (Steps.ofExcept _).bind fun _ => (steps_rpc rfl).bind fun used => ?_
  split
  · exact steps_setState _ _ _ _
  · refine (steps_select _).staysHalted.bind fun attempts =>
      (steps_reconcileAttempts i _ _).bind fun landed => ?_
    split
    · exact Steps.pure _
    · exact steps_releaseRow i _ _ _

theorem steps_reconcile : (reconcile i).Steps (Quiet StaysHalted) := by
  refine steps_now.bind fun time => (steps_select _).staysHalted.bind fun rows =>
    Steps.bind ?_ fun _ => Steps.pure _
  induction rows with
  | nil => exact Steps.pure _
  | cons row rest ih => exact (steps_reconcileRow i time row).bind fun _ => ih

theorem steps_finishBoot (reconciled : Bool) (chainNonce : Int) :
    (finishBoot i reconciled chainNonce).Steps (Quiet KeepsSpend) :=
  (steps_select _).bind fun _ => (steps_setNextNonce _ _ _).bind fun _ =>
    (steps_recordBoot _ _ _ _ _).bind fun _ => (steps_audit _ _).bind fun _ => steps_writeMemory _

theorem steps_boot : (boot i).Steps (Quiet StaysHalted) := by
  refine (steps_writeMemory _).bind fun _ => (steps_verifyChains _).staysHalted.attempt.bind
    fun r => ?_
  split
  · refine steps_halted.staysHalted.bind fun reason => ?_
    split
    · exact steps_writeMemory _
    · refine Steps.bind (Steps.attempt ?_) fun r => ?_
      · exact (steps_verifyChainIdentity i true).bind fun _ => (steps_reconcile i).bind fun _ =>
          (steps_rpc rfl).bind fun _ => Steps.pure _
      · split
        · exact (steps_finishBoot i _ _).staysHalted
        · exact steps_writeMemory _
        · exact steps_writeMemory _
        · exact Steps.raise _
  · exact steps_writeMemory _
  · exact Steps.raise _

theorem steps_replay (row : SpendRow) (toAddr channelId : String) (call : DebitCall)
    (calldataKeccak : String) (common : Common) :
    (replay i row toAddr channelId call calldataKeccak common).Steps (Quiet StaysHalted) := by
  unfold replay
  split
  · exact Steps.pure _
  split
  · exact Steps.pure _
  split
  · exact Steps.pure _
  split
  · refine (steps_reconcile i).attempt.bind fun r => ?_
    split
    · exact Steps.pure _
    · exact Steps.pure _
    · exact Steps.raise _
    · refine (steps_get _).staysHalted.bind fun fresh => ?_
      split
      · split
        · exact Steps.pure _
        · split <;> exact Steps.pure _
      · exact Steps.pure _
  · exact Steps.pure _

/-! ### Sweeps, up to the reservation -/

theorem steps_refuseSweep (common : Common) (status : Int) (reason : String) :
    (refuseSweep i common status reason).Steps (Quiet KeepsSpend) :=
  ((steps_audit _ _).bind fun _ => Steps.pure _).bind fun _ => Steps.pure _

theorem steps_settleSweepAttempts (row : SpendRow) (attempts : List TxAttempt) :
    (settleSweepAttempts i row attempts).Steps (Quiet StaysHalted) := by
  induction attempts with
  | nil => exact Steps.pure _
  | cons attempt rest ih =>
    refine (steps_rpc rfl).attempt.bind fun r => ?_
    split
    · exact Steps.pure _
    · exact Steps.raise _
    · split
      · refine (steps_settleReceipt i _ _ _ _).bind fun settled => ?_
        split
        · exact Steps.pure _
        · exact ih
      · exact ih

theorem steps_settleSweepRow (row : SpendRow) :
    (settleSweepRow i row).Steps (Quiet StaysHalted) := by
  refine (steps_select _).staysHalted.bind fun attempts =>
    (steps_settleSweepAttempts i _ _).bind fun settled => ?_
  split
  · exact Steps.pure _
  · refine Steps.bind ?_ fun overdue => ?_
    · unfold sweepOverdue
      split
      · exact Steps.pure _
      · exact steps_now.bind fun _ => Steps.pure _
    · split
      · exact (steps_markDead _ _ _).bind fun _ => Steps.pure _
      · exact Steps.pure _

theorem steps_settleSweeps (rows : List SpendRow) :
    (settleSweeps i rows).Steps (Quiet StaysHalted) := by
  induction rows with
  | nil => exact Steps.pure _
  | cons row rest ih =>
    unfold settleSweeps
    split
    · refine (steps_settleSweepRow i row).bind fun settled => ?_
      split
      · exact ih
      · exact Steps.pure _
    · exact ih

/-! ### Functions that sign and send -/

/-- What the answers of a road to the broadcast do. -/
structure AnswerSteps (k : Answers α) : Prop where
  refused : ∀ status reason, (k.refused status reason).Steps (Quiet KeepsSpend)
  unavailable : k.unavailable.Steps (Quiet KeepsSpend)
  accepted : ∀ txHash, (k.accepted txHash).Steps (Quiet KeepsSpend)

theorem answerSteps_request (common : Common) (receiptId : String) :
    AnswerSteps (requestAnswers common receiptId) :=
  ⟨fun _ _ => Steps.pure _, Steps.pure _, fun _ => Steps.pure _⟩

theorem answerSteps_sweep (recipient : String) (balance : Int) (common : Common) :
    AnswerSteps (sweepAnswers i recipient balance common) :=
  ⟨fun _ _ => steps_refuseSweep i _ _ _, Steps.pure _,
    fun _ => ((steps_audit _ _).bind fun _ => Steps.pure _).bind fun _ => Steps.pure _⟩

end EscrowSigner.Machine
