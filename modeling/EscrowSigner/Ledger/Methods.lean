import EscrowSigner.Ledger.Reserve
import EscrowSigner.Process.Built

/-! The methods of the ledger, which run under its mutex: each is put together from statements and
readings of the clock, so it reads and writes nothing but the database. -/

namespace EscrowSigner.Ledger

open Process

variable {α β : Type} {x : Externals}

/-! ### Statements -/

/-- What a method of the ledger is put together from. -/
inductive Statement : ∀ β : Type, Code β → Prop
  | sql {β : Type} (f : Tables → Except Exn (Tables × β)) : Statement β (sql f)
  | readClock : Statement Nat readClock
  | beginImmediate : Statement Unit beginImmediate
  | commit : Statement Unit commit
  | rollback : Statement Unit rollback
  | inTransaction : Statement Bool inTransaction

/-- The code is put together from statements. -/
abbrev Stated (p : Code α) : Prop := Built Statement p

/-- A statement reads and writes the database alone. -/
theorem local_statement (p : Code β) (h : Statement β p) : p.Local World.db World.mem := by
  cases h with
  | sql f =>
    refine .atomic (fun c w => ?_) fun c w w' hdb => ?_
    · unfold statement World.fail
      split
      · split <;> rfl
      · split <;> rfl
    · obtain ⟨db, mem, clock, chain, log⟩ := w
      obtain ⟨db', mem', clock', chain', log'⟩ := w'
      subst hdb
      unfold statement
      cases c.fault with
      | some fault =>
        dsimp only
        unfold World.fail
        split <;> exact ⟨rfl, rfl⟩
      | none =>
        show _ ∧ _
        dsimp only [World.view, World.advance]
        cases f db'.view <;> exact ⟨rfl, rfl⟩
  | readClock => exact .atomic (fun _ _ => rfl) fun _ _ _ h => ⟨h, rfl⟩
  | beginImmediate =>
    refine .atomic (fun c w => ?_) fun c w w' hdb => ?_
    · unfold World.fail
      dsimp only
      split
      · split <;> rfl
      · rfl
      · rfl
    · obtain ⟨⟨committed, working⟩, mem, clock, chain, log⟩ := w
      obtain ⟨db', mem', clock', chain', log'⟩ := w'
      subst hdb
      dsimp only [World.advance]
      cases c.fault with
      | some fault =>
        dsimp only
        unfold World.fail
        split <;> exact ⟨rfl, rfl⟩
      | none => cases working <;> exact ⟨rfl, rfl⟩
  | commit =>
    refine .atomic (fun c w => ?_) fun c w w' hdb => ?_
    · unfold World.fail
      dsimp only
      split
      · split <;> rfl
      · rfl
      · rfl
    · obtain ⟨⟨committed, working⟩, mem, clock, chain, log⟩ := w
      obtain ⟨db', mem', clock', chain', log'⟩ := w'
      subst hdb
      dsimp only [World.advance]
      cases c.fault with
      | some fault =>
        dsimp only
        unfold World.fail
        split <;> exact ⟨rfl, rfl⟩
      | none => cases working <;> exact ⟨rfl, rfl⟩
  | rollback =>
    refine .atomic (fun c w => ?_) fun c w w' hdb => ?_
    · dsimp only
      split <;> rfl
    · obtain ⟨⟨committed, working⟩, mem, clock, chain, log⟩ := w
      obtain ⟨db', mem', clock', chain', log'⟩ := w'
      subst hdb
      cases working <;> exact ⟨rfl, rfl⟩
  | inTransaction =>
    refine .atomic (fun _ _ => rfl) fun c w w' hdb => ?_
    obtain ⟨db, mem, clock, chain, log⟩ := w
    obtain ⟨db', mem', clock', chain', log'⟩ := w'
    subst hdb
    exact ⟨rfl, rfl⟩

theorem stated_sql (f : Tables → Except Exn (Tables × α)) : Stated (sql f) := .part (.sql f)

theorem stated_update (f : Tables → Except Exn Tables) : Stated (update f) := stated_sql _

theorem stated_select (f : Tables → Except Exn α) : Stated (select f) := stated_sql _

theorem stated_now : Stated now := Built.bind (.part .readClock) fun _ => Built.pure _

theorem stated_beginImmediate : Stated beginImmediate := .part .beginImmediate

theorem stated_commit : Stated commit := .part .commit

theorem stated_rollback : Stated rollback := .part .rollback

theorem stated_giveUp (e : Exn) : Stated (giveUp e : Code α) :=
  stated_rollback.bind fun _ => Built.raise _

theorem stated_guardTransaction {body : Code α} (h : Stated body) :
    Stated (guardTransaction body) := by
  refine h.attempt.bind fun r => ?_
  split
  · exact Built.pure _
  · exact stated_rollback.attempt.bind fun _ => Built.raise _
  · exact stated_rollback.attempt.bind fun _ => Built.raise _
  · exact Built.raise _

theorem stated_rollbackOnError {body : Code α} (h : Stated body) :
    Stated (rollbackOnError body) := by
  refine h.attempt.bind fun r => ?_
  split
  · exact Built.pure _
  · refine Built.bind (.part .inTransaction) fun _ => ?_
    split
    · exact stated_rollback.attempt.bind fun _ => Built.raise _
    · exact Built.raise _

/-! ### Clock, audit and transitions -/

theorem stated_halted : Stated halted := (stated_select _).bind fun _ => Built.pure _

theorem stated_refuseRegression (row : ClockGuard) (wall : Int) :
    Stated (refuseRegression row wall) := by
  unfold refuseRegression
  split
  · exact (stated_update _).bind fun _ => Built.raise _
  · exact Built.pure _

theorem stated_assertClockSane : Stated assertClockSane :=
  (stated_select _).bind fun _ => stated_now.bind fun _ => stated_refuseRegression _ _

theorem stated_tick : Stated tick :=
  (stated_select _).bind fun _ => stated_now.bind fun _ => (stated_refuseRegression _ _).bind fun _ =>
    (stated_update _).bind fun _ => Built.pure _

theorem stated_audit (f : AuditFields) : Stated (audit x f) :=
  stated_tick.bind fun _ => (stated_select _).bind fun _ => (stated_sql _).bind fun _ =>
    stated_update _

theorem stated_setState (row : SpendRow) (state : RowState) (u : RowUpdates) :
    Stated (setState x row state u) := (stated_update _).bind fun _ => stated_audit _

theorem stated_markSigned (row : SpendRow) (txHash rawKeccak : String) :
    Stated (markSigned x row txHash rawKeccak) :=
  (stated_setState _ _ _).bind fun _ => stated_tick.bind fun _ => stated_update _

theorem stated_readUnsigned (row : SpendRow) : Stated (readUnsigned row) := by
  refine (stated_select _).bind fun held => ?_
  cases held with
  | none => exact Built.pure _
  | some r =>
    dsimp only
    split
    · exact (stated_select _).bind fun _ => Built.pure _
    · exact Built.pure _

theorem stated_markDead (row : SpendRow) (reason : String) : Stated (markDead x row reason) := by
  refine (stated_readUnsigned row).bind fun unsigned => (stated_setState _ _ _).bind fun _ => ?_
  cases unsigned with
  | none => exact Built.pure _
  | some held => exact (stated_select _).bind fun _ => stated_update _

theorem stated_setNextNonce (chainId : Int) (fromAddr : String) (nonce : Int) :
    Stated (setNextNonce chainId fromAddr nonce) := stated_tick.bind fun _ => stated_update _

theorem stated_recordBoot (address : String) (chainId : Int) (escrow capsJson : String)
    (reconciled : Bool) : Stated (recordBoot address chainId escrow capsJson reconciled) :=
  stated_tick.bind fun _ => (stated_select _).bind fun _ => stated_update _

theorem stated_stats : Stated stats :=
  stated_now.bind fun _ => (stated_select _).bind fun _ => (stated_select _).bind fun _ =>
    (stated_select _).bind fun _ => (stated_select _).bind fun _ => stated_halted.bind fun _ =>
      (stated_select _).bind fun _ => Built.pure _

/-! ### Reservations -/

theorem stated_windowChecks (caps : Caps) (a : Request) (cuts : Cuts) :
    Stated (windowChecks x caps a cuts) := by
  unfold windowChecks
  repeat refine (stated_select _).bind fun _ => ?_
  exact Built.pure _

theorem stated_runChecks (checks : List Check) : Stated (runChecks checks) := by
  induction checks with
  | nil => exact Built.pure _
  | cons c rest ih =>
    unfold runChecks
    split
    · exact ih
    · exact Built.raise _

theorem stated_checkDistinctChannels (caps : Caps) (a : Request) (cuts : Cuts) :
    Stated (checkDistinctChannels caps a cuts) := by
  unfold checkDistinctChannels
  split
  · exact Built.pure _
  · refine (stated_select _).bind fun _ => (stated_select _).bind fun _ => ?_
    split
    · exact Built.raise _
    · exact Built.pure _

theorem stated_reviveOf (existing : Option SpendRow) (what : String) :
    Stated (reviveOf existing what) := by
  unfold reviveOf
  split
  · exact Built.pure _
  · split
    · exact Built.pure _
    · exact Built.raise _

theorem stated_allocate (chainId : Int) (fromAddr : String) : Stated (allocate chainId fromAddr) :=
  stated_beginImmediate.bind fun _ => stated_tick.bind fun _ => (stated_update _).bind fun _ =>
    (stated_select _).bind fun _ => (stated_select _).bind fun _ => Built.pure _

theorem stated_committedRow (k : Key) : Stated (committedRow k) := by
  refine (stated_select _).bind fun row => ?_
  split
  · exact Built.pure _
  · exact Built.raise _

theorem stated_reviveDebit (a : Request) (al : Allocation) : Stated (reviveDebit x a al) := by
  refine Built.bind (stated_sql _) fun changed => ?_
  split
  · refine (stated_update _).bind fun _ => stated_commit.bind fun _ =>
      (stated_select _).bind fun row => ?_
    split
    · exact Built.raise _
    · exact (stated_audit _).bind fun _ => Built.pure _
  · exact stated_giveUp _

theorem stated_insertDebit (caps : Caps) (a : Request) (cuts : Cuts) (al : Allocation) :
    Stated (insertDebit x caps a cuts al) := by
  refine Built.bind (stated_sql _) fun inserted => ?_
  split
  · exact (stated_update _).bind fun _ => (stated_update _).bind fun _ => stated_commit
  · exact stated_giveUp _

theorem stated_reserve (caps : Caps) (a : Request) : Stated (reserve x caps a) := by
  refine stated_rollbackOnError ?_
  unfold reserveUnlocked
  split
  · exact Built.raise _
  refine stated_assertClockSane.bind fun _ => stated_now.bind fun _ =>
    (stated_windowChecks _ _ _).bind fun _ => (stated_runChecks _).bind fun _ =>
      (stated_checkDistinctChannels _ _ _).bind fun _ => (stated_select _).bind fun _ =>
        (stated_reviveOf _ _).bind fun revive => (stated_guardTransaction ?_).bind fun row => ?_
  · refine (stated_allocate _ _).bind fun al => ?_
    split
    · exact (stated_reviveDebit _ _).bind fun _ => Built.pure _
    · exact (stated_insertDebit _ _ _ _).bind fun _ => Built.pure _
  · split
    · exact Built.pure _
    · exact stated_committedRow _

theorem stated_checkGasOnlyCount (a : GasOnlyRequest) (cut : Int) :
    Stated (checkGasOnlyCount a cut) := by
  unfold checkGasOnlyCount
  split
  · exact Built.pure _
  · refine (stated_select _).bind fun _ => ?_
    split
    · exact Built.raise _
    · exact Built.pure _

theorem stated_checkGasOnlyFee (caps : Caps) (a : GasOnlyRequest) (cut : Int) :
    Stated (checkGasOnlyFee x caps a cut) := by
  unfold checkGasOnlyFee
  split
  · exact Built.pure _
  · refine (stated_select _).bind fun _ => ?_
    split
    · exact Built.raise _
    · exact Built.pure _

theorem stated_placeGasOnly (a : GasOnlyRequest) (cut : Int) (revive : Bool) (al : Allocation) :
    Stated (placeGasOnly x a cut revive al) := by
  unfold placeGasOnly
  split
  · refine Built.bind (stated_sql _) fun changed => ?_
    split
    · exact Built.pure _
    · exact stated_giveUp _
  · refine Built.bind (stated_sql _) fun inserted => ?_
    split
    · exact stated_update _
    · exact stated_giveUp _

theorem stated_reserveGasOnly (caps : Caps) (a : GasOnlyRequest) :
    Stated (reserveGasOnly x caps a) := by
  refine stated_rollbackOnError (stated_assertClockSane.bind fun _ => stated_now.bind fun _ =>
    (stated_checkGasOnlyCount _ _).bind fun _ => (stated_checkGasOnlyFee _ _ _).bind fun _ =>
      (stated_select _).bind fun _ => (stated_reviveOf _ _).bind fun revive =>
        (stated_guardTransaction ?_).bind fun _ => (stated_committedRow _).bind fun _ =>
          (stated_audit _).bind fun _ => Built.pure _)
  exact (stated_allocate _ _).bind fun _ => (stated_placeGasOnly _ _ _ _).bind fun _ =>
    (stated_update _).bind fun _ => stated_commit

/-! ### Methods -/

/-- The methods of the ledger that the service calls, each of which takes the mutex. -/
inductive Method (x : Externals) : ∀ β : Type, Code β → Prop
  | reserve (caps : Caps) (a : Request) : Method x SpendRow (reserve x caps a)
  | reserveGasOnly (caps : Caps) (a : GasOnlyRequest) : Method x SpendRow (reserveGasOnly x caps a)
  | markSigned (row : SpendRow) (txHash rawKeccak : String) :
      Method x Unit (markSigned x row txHash rawKeccak)
  | markBroadcast (row : SpendRow) (txHash : String) : Method x Unit (markBroadcast x row txHash)
  | markMined (row : SpendRow) (txHash : String) (feeWei : Int) :
      Method x Unit (markMined x row txHash feeWei)
  | markDead (row : SpendRow) (reason : String) : Method x Unit (markDead x row reason)
  | recordAttemptStatus (txHash status : String) : Method x Unit (recordAttemptStatus txHash status)
  | audit (f : AuditFields) : Method x Unit (audit x f)
  | setNextNonce (chainId : Int) (fromAddr : String) (nonce : Int) :
      Method x Unit (setNextNonce chainId fromAddr nonce)
  | recordBoot (address : String) (chainId : Int) (escrow capsJson : String) (reconciled : Bool) :
      Method x Unit (recordBoot address chainId escrow capsJson reconciled)
  | verifyChains : Method x Unit (verifyChains x)
  | halted : Method x String halted
  | get (k : Key) : Method x (Option SpendRow) (get k)
  | unresolved : Method x (List SpendRow) unresolved
  | attemptsFor (k : Key) : Method x (List TxAttempt) (attemptsFor k)
  | stats : Method x (List (String × Json)) stats

theorem Method.stated {p : Code β} (h : Method x β p) : Stated p := by
  cases h with
  | reserve caps a => exact stated_reserve caps a
  | reserveGasOnly caps a => exact stated_reserveGasOnly caps a
  | markSigned row txHash rawKeccak => exact stated_markSigned row txHash rawKeccak
  | markBroadcast row txHash => exact stated_setState row _ _
  | markMined row txHash feeWei => exact stated_setState row _ _
  | markDead row reason => exact stated_markDead row reason
  | recordAttemptStatus txHash status => exact stated_update _
  | audit f => exact stated_audit f
  | setNextNonce chainId fromAddr nonce => exact stated_setNextNonce chainId fromAddr nonce
  | recordBoot address chainId escrow capsJson reconciled => exact stated_recordBoot _ _ _ _ _
  | verifyChains => exact (stated_select _).bind fun _ => stated_select _
  | halted => exact stated_halted
  | get k => exact stated_select _
  | unresolved => exact stated_select _
  | attemptsFor k => exact stated_select _
  | stats => exact stated_stats

/-- A method reads and writes the database alone. -/
theorem Method.local (p : Code β) (h : Method x β p) : p.Local World.db World.mem :=
  h.stated.local fun _ q hq => local_statement q hq

end EscrowSigner.Ledger
