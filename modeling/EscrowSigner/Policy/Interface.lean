import EscrowSigner.Ledger.Methods
import EscrowSigner.Policy.Signer

/-! The code of the service against its interface: between the methods of the ledger it does nothing
but read the clock, look into its memory, ask the chain and sign. -/

namespace EscrowSigner.Policy

open Process
open Ledger (Method)
open Calldata (DebitCall ExpireCall)

variable {α β : Type} {x : Externals}

/-- What the service is put together from. -/
inductive Interface (x : Externals) : ∀ β : Type, Code β → Prop
  | method {β : Type} {p : Code β} (h : Method x β p) : Interface x β p
  | readClock : Interface x Nat readClock
  | readMemory : Interface x Memory readMemory
  | writeMemory (f : Memory → Memory) : Interface x Unit (writeMemory f)
  | rpc (q : Query) : Interface x q.Answer (rpc q)
  | sign (row : SpendRow) (tx : Tx) : Interface x Bytes (signTransaction x row tx)

/-- The code is put together from parts of the interface. -/
abbrev Composed (x : Externals) (p : Code α) : Prop := Built (Interface x) p

theorem composed_method {p : Code β} (h : Method x β p) : Composed x p := .part (.method h)

theorem composed_now : Composed x now := Built.bind (.part .readClock) fun _ => Built.pure _

theorem composed_rpc (q : Query) : Composed x (rpc q) := .part (.rpc q)

theorem composed_writeMemory (f : Memory → Memory) : Composed x (writeMemory f) :=
  .part (.writeMemory f)

theorem composed_readMemory : Composed x readMemory := .part .readMemory

theorem composed_audit (f : Ledger.AuditFields) : Composed x (Ledger.audit x f) :=
  composed_method (.audit f)

theorem composed_markDead (row : SpendRow) (reason : String) :
    Composed x (Ledger.markDead x row reason) := composed_method (.markDead row reason)

/-- The steps outside the ledger leave the database, and see no more of the world than the memory. -/
theorem Interface.threads (p : Code β) (h : Interface x β p) :
    ∃ t, Threads World.db World.mem (Method x) p t := by
  cases h with
  | method h => exact ⟨_, threads_whole h⟩
  | readClock => exact ⟨_, threads_atomic fun _ _ => ⟨rfl, fun _ h => ⟨h, rfl⟩⟩⟩
  | readMemory => exact ⟨_, threads_atomic fun _ _ => ⟨rfl, fun _ h => ⟨h, congrArg Except.ok h⟩⟩⟩
  | writeMemory f => exact ⟨_, threads_atomic fun _ _ => ⟨rfl, fun _ h => ⟨congrArg f h, rfl⟩⟩⟩
  | rpc q => exact ⟨_, threads_atomic fun _ _ => ⟨rfl, fun _ h => ⟨h, rfl⟩⟩⟩
  | sign row tx =>
    refine ⟨_, threads_atomic fun c w => ?_⟩
    dsimp only
    cases c.signFault <;> exact ⟨rfl, fun _ h => ⟨h, rfl⟩⟩

variable (i : Instance)

/-! ### Reads of the chain -/

theorem composed_identifyChain : Composed i.ext (identifyChain i) := by
  refine (composed_rpc _).bind fun chainId => ?_
  split
  · exact Built.raise _
  · refine (composed_rpc _).bind fun found => ?_
    split
    · exact Built.raise _
    · refine (composed_rpc _).bind fun authorized => ?_
      split
      · exact Built.raise _
      · refine (composed_rpc _).bind fun decimals => ?_
        split
        · exact Built.raise _
        · exact Built.bind (.part .readClock) fun _ => composed_writeMemory _

theorem composed_verifyChainIdentity (force : Bool) :
    Composed i.ext (verifyChainIdentity i force) := by
  unfold verifyChainIdentity
  split
  · exact composed_identifyChain i
  · refine Built.bind (Built.bind (.part .readClock) fun _ => composed_readMemory.bind fun _ =>
      Built.pure _) fun cached => ?_
    split
    · exact Built.pure _
    · exact composed_identifyChain i

theorem composed_readFees (toAddr : String) (data : Bytes) :
    Composed i.ext (readFees i toAddr data) :=
  (composed_rpc _).bind fun _ => (composed_rpc _).bind fun _ => Built.pure _

theorem composed_admitChannel (call : DebitCall) : Composed i.ext (admitChannel i call) := by
  refine (composed_verifyChainIdentity i false).bind fun _ => (composed_rpc _).bind fun _ =>
    composed_now.bind fun _ => (Built.ofExcept _).bind fun reason => ?_
  split
  · exact Built.pure _
  · refine (composed_rpc _).bind fun used => ?_
    split <;> exact Built.pure _

theorem composed_readExpired (call : ExpireCall) : Composed i.ext (readExpired i call) :=
  (composed_verifyChainIdentity i false).bind fun _ => composed_rpc _

theorem composed_readBalance : Composed i.ext (readBalance i) :=
  (composed_verifyChainIdentity i false).bind fun _ => composed_rpc _

theorem composed_refuseRead (common : Common) (e : Exn) : Composed x (refuseRead common e) := by
  unfold refuseRead
  split
  · exact Built.pure _
  · exact Built.pure _
  · exact Built.raise _

theorem composed_refuseReservation (common : Common) (e : Exn) :
    Composed x (refuseReservation common e) := by
  unfold refuseReservation
  split
  · exact Built.pure _
  · exact Built.pure _
  · exact Built.pure _
  · exact Built.raise _

/-! ### Reconciliation and boot -/

theorem composed_settleReceipt (row : SpendRow) (txHash : String) (receipt : Json)
    (reason : String) : Composed i.ext (settleReceipt i row txHash receipt reason) := by
  refine (Built.ofExcept _).bind fun status =>
    (composed_method (.recordAttemptStatus _ _)).bind fun _ => ?_
  split
  · exact (Built.ofExcept _).bind fun _ => (composed_method (.markMined _ _ _)).bind fun _ =>
      Built.pure _
  · split
    · exact (composed_markDead _ _).bind fun _ => Built.pure _
    · exact Built.pure _

theorem composed_reconcileAttempts (row : SpendRow) (attempts : List TxAttempt) :
    Composed i.ext (reconcileAttempts i row attempts) := by
  induction attempts with
  | nil => exact Built.pure _
  | cons attempt rest ih =>
    refine (composed_rpc _).bind fun receipt => ?_
    split
    · refine (composed_settleReceipt i _ _ _ _).bind fun settled => ?_
      split
      · exact Built.pure _
      · exact ih
    · exact (composed_method (.recordAttemptStatus _ _)).bind fun _ => ih

theorem composed_releaseRow (time : Int) (row : SpendRow) (attempts : List TxAttempt) :
    Composed i.ext (releaseRow i time row attempts) := by
  unfold releaseRow
  split
  · exact composed_markDead _ _
  · split
    · exact composed_markDead _ _
    · exact Built.pure _

theorem composed_reconcileRow (time : Int) (row : SpendRow) :
    Composed i.ext (reconcileRow i time row) := by
  refine (Built.ofExcept _).bind fun _ => (composed_rpc _).bind fun used => ?_
  split
  · exact composed_method (.markMined _ _ _)
  · refine (composed_method (.attemptsFor _)).bind fun attempts =>
      (composed_reconcileAttempts i _ _).bind fun landed => ?_
    split
    · exact Built.pure _
    · exact composed_releaseRow i _ _ _

theorem composed_reconcile : Composed i.ext (reconcile i) := by
  refine composed_now.bind fun time => (composed_method .unresolved).bind fun rows =>
    Built.bind ?_ fun _ => Built.pure _
  induction rows with
  | nil => exact Built.pure _
  | cons row rest ih => exact (composed_reconcileRow i time row).bind fun _ => ih

theorem composed_finishBoot (reconciled : Bool) (chainNonce : Int) :
    Composed i.ext (finishBoot i reconciled chainNonce) :=
  (composed_method .unresolved).bind fun _ => (composed_method (.setNextNonce _ _ _)).bind fun _ =>
    (composed_method (.recordBoot _ _ _ _ _)).bind fun _ => (composed_audit _).bind fun _ =>
      composed_writeMemory _

theorem composed_boot : Composed i.ext (boot i) := by
  refine (composed_writeMemory _).bind fun _ => (composed_method .verifyChains).attempt.bind
    fun r => ?_
  split
  · refine (composed_method .halted).bind fun reason => ?_
    split
    · exact composed_writeMemory _
    · refine Built.bind (Built.attempt ?_) fun r => ?_
      · exact (composed_verifyChainIdentity i true).bind fun _ => (composed_reconcile i).bind
          fun _ => (composed_rpc _).bind fun _ => Built.pure _
      · split
        · exact composed_finishBoot i _ _
        · exact composed_writeMemory _
        · exact composed_writeMemory _
        · exact Built.raise _
  · exact composed_writeMemory _
  · exact Built.raise _

/-! ### From the reservation to the broadcast -/

/-- The answers of a road to the broadcast are put together from parts of the interface. -/
structure ComposedAnswers (x : Externals) (k : Answers α) : Prop where
  refused : ∀ status reason, Composed x (k.refused status reason)
  unavailable : Composed x k.unavailable
  accepted : ∀ txHash, Composed x (k.accepted txHash)

theorem composedAnswers_request (common : Common) (receiptId : String) :
    ComposedAnswers x (requestAnswers common receiptId) :=
  ⟨fun _ _ => Built.pure _, Built.pure _, fun _ => Built.pure _⟩

theorem composed_refuseSweep (common : Common) (status : Int) (reason : String) :
    Composed i.ext (refuseSweep i common status reason) :=
  ((composed_audit _).bind fun _ => Built.pure _).bind fun _ => Built.pure _

theorem composedAnswers_sweep (recipient : String) (balance : Int) (common : Common) :
    ComposedAnswers i.ext (sweepAnswers i recipient balance common) :=
  ⟨fun _ _ => composed_refuseSweep i _ _ _, Built.pure _,
    fun _ => ((composed_audit _).bind fun _ => Built.pure _).bind fun _ => Built.pure _⟩

theorem composed_signRow {k : Answers α} (hk : ComposedAnswers i.ext k) (row : SpendRow) (tx : Tx) :
    Composed i.ext (signRow i row tx k) := by
  refine Built.bind (Built.attempt (.part (.sign row tx))) fun r => ?_
  split
  · exact (composed_markDead _ _).bind fun _ => hk.refused _ _
  · refine (composed_method (.markSigned _ _ _)).bind fun _ =>
      Built.bind (composed_rpc _).attempt fun r => ?_
    split
    · exact (composed_markDead _ _).bind fun _ => hk.refused _ _
    · exact hk.unavailable
    · exact Built.raise _
    · exact (composed_method (.markBroadcast _ _)).bind fun _ => hk.accepted _

theorem composed_simulateRow {k : Answers α} (hk : ComposedAnswers i.ext k) (row : SpendRow)
    (data : Bytes) {next : Code α} (hnext : Composed i.ext next) :
    Composed i.ext (simulateRow i row data k next) := by
  refine (composed_rpc _).attempt.bind fun r => ?_
  split
  · exact hnext
  · exact (composed_markDead _ _).bind fun _ => hk.refused _ _
  · exact (composed_markDead _ _).bind fun _ => hk.refused _ _
  · exact (composed_markDead _ _).bind fun _ => Built.raise _

/-! ### Requests -/

theorem composed_replay (row : SpendRow) (toAddr channelId : String) (call : DebitCall)
    (calldataKeccak : String) (common : Common) :
    Composed i.ext (replay i row toAddr channelId call calldataKeccak common) := by
  unfold replay
  split
  · exact Built.pure _
  split
  · exact Built.pure _
  split
  · exact Built.pure _
  split
  · refine (composed_reconcile i).attempt.bind fun r => ?_
    split
    · exact Built.pure _
    · exact Built.pure _
    · exact Built.raise _
    · refine (composed_method (.get _)).bind fun fresh => ?_
      split
      · split
        · exact Built.pure _
        · split <;> exact Built.pure _
      · exact Built.pure _
  · exact Built.pure _

theorem composed_freshDebit (env : Envelope) (call : DebitCall) (common : Common) :
    Composed i.ext (freshDebit i env call common) := by
  refine (composed_admitChannel i call).attempt.bind fun r => ?_
  split
  · exact Built.pure _
  · exact composed_refuseRead _ _
  · exact Built.pure _
  · refine (Built.ofExcept _).bind fun reason => ?_
    split
    · exact Built.pure _
    refine (composed_readFees i _ _).attempt.bind fun r => ?_
    split
    · exact composed_refuseRead _ _
    split
    · exact Built.pure _
    refine (composed_method (.reserve _ _)).attempt.bind fun r => ?_
    split
    · exact composed_refuseReservation _ _
    · exact composed_simulateRow i (composedAnswers_request _ _) _ _
        (composed_signRow i (composedAnswers_request _ _) _ _)

theorem composed_handleDebit (env : Envelope) (call : DebitCall) (digest16 : String) :
    Composed i.ext (handleDebit i env call digest16) := by
  refine composed_now.bind fun time => ?_
  dsimp only
  split
  · exact Built.pure _
  split
  · exact Built.pure _
  refine (composed_method (.get _)).bind fun existing => ?_
  split
  · exact composed_freshDebit i _ _ _
  · refine (composed_replay i _ _ _ _ _ _).bind fun decision => ?_
    split
    · exact Built.pure _
    · exact composed_freshDebit i _ _ _

theorem composed_freshExpire (env : Envelope) (call : ExpireCall) (pseudoReceipt channelId : String)
    (common : Common) : Composed i.ext (freshExpire i env call pseudoReceipt channelId common) := by
  refine (composed_readExpired i call).attempt.bind fun r => ?_
  split
  · exact Built.pure _
  · exact composed_refuseRead _ _
  refine composed_now.bind fun time => ?_
  split
  · exact Built.pure _
  refine (composed_readFees i _ _).attempt.bind fun r => ?_
  split
  · exact composed_refuseRead _ _
  split
  · exact Built.pure _
  refine (composed_method (.reserveGasOnly _ _)).attempt.bind fun r => ?_
  split
  · exact composed_refuseReservation _ _
  · exact composed_simulateRow i (composedAnswers_request _ _) _ _
      (composed_signRow i (composedAnswers_request _ _) _ _)

theorem composed_handleExpire (env : Envelope) (digest16 : String) :
    Composed i.ext (handleExpire i env digest16) := by
  unfold handleExpire
  split
  · exact Built.pure _
  · exact Built.raise _
  dsimp only
  split
  · exact Built.pure _
  refine (composed_method (.get _)).bind fun existing => ?_
  split
  · split
    · exact Built.pure _
    · exact composed_freshExpire i _ _ _ _ _
  · exact composed_freshExpire i _ _ _ _ _

theorem composed_handle (rawBody : Bytes) : Composed i.ext (handle i rawBody) := by
  refine (composed_method .halted).bind fun reason => ?_
  split
  · exact Built.pure _
  refine composed_readMemory.bind fun mem => ?_
  split
  · exact Built.pure _
  split
  · exact Built.pure _
  unfold dispatch
  dsimp only
  split
  · exact composed_handleExpire i _ _
  split
  · exact Built.pure _
  · unfold decodeRequest
    dsimp only
    split
    · exact Built.pure _
    · exact Built.raise _
    · exact composed_handleDebit i _ _ _

/-! ### The sweep -/

theorem composed_settleSweepAttempts (row : SpendRow) (attempts : List TxAttempt) :
    Composed i.ext (settleSweepAttempts i row attempts) := by
  induction attempts with
  | nil => exact Built.pure _
  | cons attempt rest ih =>
    refine (composed_rpc _).attempt.bind fun r => ?_
    split
    · exact Built.pure _
    · exact Built.raise _
    · split
      · refine (composed_settleReceipt i _ _ _ _).bind fun settled => ?_
        split
        · exact Built.pure _
        · exact ih
      · exact ih

theorem composed_settleSweepRow (row : SpendRow) : Composed i.ext (settleSweepRow i row) := by
  refine (composed_method (.attemptsFor _)).bind fun attempts =>
    (composed_settleSweepAttempts i _ _).bind fun settled => ?_
  split
  · exact Built.pure _
  · refine Built.bind ?_ fun overdue => ?_
    · unfold sweepOverdue
      split
      · exact Built.pure _
      · exact composed_now.bind fun _ => Built.pure _
    · split
      · exact (composed_markDead _ _).bind fun _ => Built.pure _
      · exact Built.pure _

theorem composed_settleSweeps (rows : List SpendRow) : Composed i.ext (settleSweeps i rows) := by
  induction rows with
  | nil => exact Built.pure _
  | cons row rest ih =>
    unfold settleSweeps
    split
    · refine (composed_settleSweepRow i row).bind fun settled => ?_
      split
      · exact ih
      · exact Built.pure _
    · exact ih

theorem composed_signSweep (recipient : String) (balance : Int) (data : Bytes) (common : Common)
    (fees : Fees) : Composed i.ext (signSweep i recipient balance data common fees) := by
  refine composed_now.bind fun time => (Built.ofExcept _).bind fun _ => ?_
  refine (composed_method (.reserveGasOnly _ _)).attempt.bind fun r => ?_
  split
  · exact composed_refuseSweep i _ _ _
  · exact composed_refuseSweep i _ _ _
  · exact composed_refuseSweep i _ _ _
  · exact Built.raise _
  · exact composed_signRow i (composedAnswers_sweep i _ _ _) _ _

theorem composed_startSweep (recipient : String) : Composed i.ext (startSweep i recipient) := by
  refine (composed_readBalance i).attempt.bind fun r => ?_
  split
  · exact composed_refuseSweep i _ _ _
  · exact Built.pure _
  · exact Built.pure _
  · exact Built.raise _
  split
  · exact Built.pure _
  refine (Built.ofExcept _).bind fun data => (composed_readFees i _ _).attempt.bind fun r => ?_
  split
  · exact composed_refuseSweep i _ _ _
  · exact Built.pure _
  · exact Built.raise _
  split
  · exact composed_refuseSweep i _ _ _
  · exact composed_signSweep i _ _ _ _ _

theorem composed_sweepProceeds : Composed i.ext (sweepProceeds i) := by
  unfold sweepProceeds
  generalize strip i.settings.sweepTo = recipient
  refine composed_readMemory.bind fun mem => ?_
  split
  · exact Built.pure _
  split
  · exact Built.pure _
  refine (composed_method .unresolved).bind fun rows =>
    (composed_settleSweeps i rows).bind fun settled => ?_
  split
  · exact composed_startSweep i _
  · exact Built.pure _

end EscrowSigner.Policy
