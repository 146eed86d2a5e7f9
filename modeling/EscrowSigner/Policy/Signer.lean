import EscrowSigner.Policy.Reconcile

/-! The decision: a debit, the collection of an expired channel and the sweep of proceeds, each from
the request to the broadcast. -/

namespace EscrowSigner.Policy

open Calldata (DebitCall ExpireCall)

variable (i : Instance)

/-- The decision on a chain read that failed; any other exception passes. -/
def refuseRead (common : Common) : Exn → Code Decision
  | .reverted name => return refuse 422 s!"simulation_reverted:{name}" common
  | .rpcUnavailable _ => return refuse 503 "rpc_unavailable" common
  | e => throwExn e

/-- The decision on a reservation that failed; any other exception passes. -/
def refuseReservation (common : Common) : Exn → Code Decision
  | .capBreach name retryAfterS => return refuse 429 name common (some retryAfterS)
  | .clockRegression _ => return refuse 503 "clock_regression" common
  | .ledgerUnavailable _ => return refuse 503 "ledger_unavailable" common
  | e => throwExn e

/-! ### Fees -/

/-- The gas limit and the fee cap of a transaction. -/
structure Fees where
  gasLimit : Int
  maxFee : Int
deriving DecidableEq, Repr

/-- The reads of the gas estimate and the base fee. -/
def readFees (toAddr : String) (data : Bytes) : Code (Int × Int) := do
  let estimate ← RpcPool.estimateGas toAddr data i.address
  let baseFee ← RpcPool.baseFeeWei
  return (estimate, baseFee)

/-- Our own gas limit and fee, or the status and reason of the refusal. -/
def priceFees (estimate baseFee : Int) : Except (Int × String) Fees :=
  let gasLimit :=
    min (estimate * Config.gasMultiplierNum / Config.gasMultiplierDen) Config.gasHardCap
  let maxFee := 2 * baseFee + i.settings.priorityFeeWei
  if estimate > Config.gasHardCap then .error (422, "gas_estimate_over_cap")
  else if maxFee > i.settings.maxFeeWeiCeiling then .error (503, "fee_ceiling")
  else .ok ⟨gasLimit, maxFee⟩

/-! ### From the reservation to the broadcast -/

/-- The transaction that a reserved row is signed for. -/
def rowTx (toAddr : String) (data : Bytes) (fees : Fees) (row : SpendRow) : Tx where
  toAddr := toAddr
  value := Config.txValue
  data := hexString data
  gas := fees.gasLimit
  maxFeePerGas := fees.maxFee
  maxPriorityFeePerGas := i.settings.priorityFeeWei
  nonce := row.accountNonce
  chainId := Config.chainId
  type := 2

/-- How a road from the reservation to the broadcast answers: a refusal, a broadcast that failed,
and a broadcast that was accepted. -/
structure Answers (α : Type) where
  refused : Int → String → Code α
  unavailable : Code α
  accepted : String → Code α

/-- The broadcast of a signed row. -/
def broadcastRow {α : Type} (row : SpendRow) (raw : Bytes) (txHash : String) (k : Answers α) :
    Code α := do
  match ← (RpcPool.sendRaw raw).attempt with
  | .error (.reverted name) => do
    Ledger.markDead i.ext row s!"broadcast rejected: {name}"
    k.refused 422 s!"simulation_reverted:{name}"
  | .error (.rpcUnavailable _) => k.unavailable
  | .error e => throwExn e
  | .ok _ => do
    Ledger.markBroadcast i.ext row txHash
    k.accepted txHash

/-- Signs a reserved row, records the attempt, then broadcasts. -/
def signRow {α : Type} (row : SpendRow) (tx : Tx) (k : Answers α) : Code α := do
  match ← (signTransaction i.ext row tx).attempt with
  | .error e => do
    Ledger.markDead i.ext row s!"signing failed: {e.typeName}"
    k.refused 500 "signing_failed"
  | .ok raw => do
    let txHash := hexString (i.ext.keccak raw)
    Ledger.markSigned i.ext row txHash txHash
    broadcastRow i row raw txHash k

/-- Simulates the exact call of a reserved row; a call that would fail releases the row. -/
def simulateRow {α : Type} (row : SpendRow) (data : Bytes) (k : Answers α) (next : Code α) :
    Code α := do
  match ← (RpcPool.simulate i.escrow data i.address).attempt with
  | .ok () => next
  | .error (.reverted name) => do
    Ledger.markDead i.ext row s!"simulation reverted: {name}"
    k.refused 422 s!"simulation_reverted:{name}"
  | .error (.rpcUnavailable _) => do
    Ledger.markDead i.ext row "simulation unavailable"
    k.refused 503 "rpc_unavailable"
  | .error e => do
    Ledger.markDead i.ext row s!"simulation failed: {e.typeName}"
    throwExn e

/-- The answers of a request. -/
def requestAnswers (common : Common) (receiptId : String) : Answers Decision where
  refused status reason := return refuse status reason common
  unavailable := return refuse 503 "broadcast_failed" common
  accepted txHash := return answer txHash "signed" false { common with receiptId := receiptId }

/-! ### Debits -/

/-- The key of a receipt in the ledger. -/
def receiptKey (receiptId : String) : Key := ⟨Config.chainId, i.escrow, receiptId⟩

/-- `_replay`: the decision on a receipt that the ledger knows, or nothing when it is new work. -/
def replay (row : SpendRow) (toAddr channelId : String) (call : DebitCall)
    (calldataKeccak : String) (common : Common) : Code (Option Decision) :=
  if row.semanticTuple ≠
      (lower toAddr, channelId, call.amount, hexString call.receiptId, calldataKeccak) then
    return some (refuse 422 "receipt_id_tuple_conflict" common)
  else if row.state = .superseded then return some (refuse 422 "superseded" common)
  else if (row.state = .broadcast ∨ row.state = .mined) ∧ row.txHash ≠ "" then
    return some (answer row.txHash "replayed" true common)
  else if row.state = .reserved ∨ row.state = .signed then do
    match ← (reconcile i).attempt with
    | .error (.rpcUnavailable _) => return some (refuse 409 "reserved_unresolved" common)
    | .error (.reverted _) => return some (refuse 409 "reserved_unresolved" common)
    | .error e => throwExn e
    | .ok _ => do
      match ← Ledger.get row.key with
      | some fresh =>
        if fresh.state = .mined ∧ fresh.txHash ≠ "" then
          return some (answer fresh.txHash "replayed" true common)
        else if fresh.state = .dead then return none
        else return some (refuse 409 "reserved_unresolved" common)
      | none => return some (refuse 409 "reserved_unresolved" common)
  else return none

/-- The chain reads of a debit: the channel, or the reason of the refusal. -/
def admitChannel (call : DebitCall) : Code (Except String Channel) := do
  verifyChainIdentity i false
  let channel ← RpcPool.getChannel i.escrow call.channelId
  let time ← now
  match ← .ofExcept (channelState i time channel call) with
  | some reason => return .error reason
  | none => do
    if (← RpcPool.receiptUsed i.escrow call.receiptId (some call.channelId)) then
      return .error "receipt_already_used"
    else return .ok channel

/-- Whether the depositor signed this debit: the reason of the refusal, if any. -/
def checkDepositor (call : DebitCall) (channel : Channel) : Except Exn (Option String) := do
  let digest ← Eip712.debitDigest i.ext (separator i) call.channelId i.address channel.token
    call.amount call.receiptId channel.nonce call.deadline
  match i.ext.recover digest call.signature with
  | .error _ => return some "signature_malformed"
  | .ok recovered =>
    if lower recovered ≠ lower channel.depositor then return some "signature_not_depositor"
    else return none

/-- The reservation of a debit. -/
def debitRequest (toAddr : String) (data : Bytes) (gasHint : Int) (call : DebitCall)
    (channel : Channel) (fees : Fees) : Ledger.Request where
  chainId := Config.chainId
  escrow := i.escrow
  receiptId := hexString call.receiptId
  channelId := hexString call.channelId
  depositor := channel.depositor
  token := lower channel.token
  amountUnits := call.amount
  deadline := call.deadline
  channelNonce := channel.nonce
  calldataKeccak := hexString (i.ext.keccak data)
  toAddr := lower toAddr
  gasLimit := fees.gasLimit
  hubGasHint := gasHint
  maxFeeWei := fees.maxFee
  fromAddr := i.address

/-- A debit from the reservation on. -/
def signDebit (env : Envelope) (call : DebitCall) (channel : Channel) (common : Common)
    (fees : Fees) : Code Decision := do
  let request := debitRequest i env.toAddr env.data env.gas call channel fees
  match ← (Ledger.reserve i.ext i.settings.caps request).attempt with
  | .error e => refuseReservation common e
  | .ok row =>
    let k := requestAnswers common common.receiptId
    simulateRow i row env.data k (signRow i row (rowTx i i.escrow env.data fees row) k)

/-- A debit from the gas estimate on. -/
def priceDebit (env : Envelope) (call : DebitCall) (channel : Channel) (common : Common) :
    Code Decision := do
  match ← (readFees i i.escrow env.data).attempt with
  | .error e => refuseRead common e
  | .ok (estimate, baseFee) =>
    match priceFees i estimate baseFee with
    | .error (status, reason) => return refuse status reason common
    | .ok fees => signDebit i env call channel common fees

/-- A debit that is new work. -/
def freshDebit (env : Envelope) (call : DebitCall) (common : Common) : Code Decision := do
  match ← (admitChannel i call).attempt with
  | .error (.chainUnverified _) => return refuse 503 "chain_unverified" common
  | .error e => refuseRead common e
  | .ok (.error reason) => return refuse 422 reason common
  | .ok (.ok channel) =>
    match ← .ofExcept (checkDepositor i call channel) with
    | some reason => return refuse 422 reason common
    | none => priceDebit i env call channel common

/-- A debit whose calldata is canonical. -/
def handleDebit (env : Envelope) (call : DebitCall) (digest16 : String) : Code Decision := do
  let receiptId := hexString call.receiptId
  let channelId := hexString call.channelId
  let common : Common := ⟨receiptId, channelId, call.amount, digest16⟩
  let time ← now
  match fieldSanity time call with
  | some reason => return refuse 422 reason common
  | none =>
    if env.gas > Config.gasHardCap then return refuse 422 "hub_gas_anomalous" common
    else
      let calldataKeccak := hexString (i.ext.keccak env.data)
      match ← Ledger.get (receiptKey i receiptId) with
      | none => freshDebit i env call common
      | some existing =>
        match ← replay i existing env.toAddr channelId call calldataKeccak common with
        | some decision => return decision
        | none => freshDebit i env call common

/-! ### Expired channels -/

/-- The key under which the collection of a channel is booked. -/
def expireReceipt (channelId : Bytes) : String :=
  hexString (i.ext.keccak (encode "expireChannel|" ++ channelId))

/-- The chain reads of a collection. -/
def readExpired (call : ExpireCall) : Code Channel := do
  verifyChainIdentity i false
  RpcPool.getChannel i.escrow call.channelId

/-- Why a channel is not collected, at the time `now`, if there is a reason. -/
def expireState (now : Int) (channel : Channel) : Option String :=
  if channel.status ≠ 0 then some "channel_not_open"
  else if channel.usedAmount ≤ 0 then some "channel_owes_nothing"
  else if lower channel.hub ≠ lower i.address then some "channel_not_ours"
  else if channel.expiresAt ≠ 0 ∧ now ≤ debitDeadline channel then some "channel_not_expired"
  else none

/-- The reservation of a gas-only call. -/
def gasOnlyRequest (receiptId channelId : String) (data : Bytes) (toAddr : String) (fees : Fees) :
    Ledger.GasOnlyRequest where
  chainId := Config.chainId
  escrow := i.escrow
  receiptId := receiptId
  channelId := channelId
  calldataKeccak := hexString (i.ext.keccak data)
  toAddr := toAddr
  gasLimit := fees.gasLimit
  maxFeeWei := fees.maxFee
  fromAddr := i.address
  maxPer24h := i.settings.maxGasOnlyPer24h

/-- A collection from the reservation on. -/
def signExpire (env : Envelope) (pseudoReceipt channelId : String) (common : Common)
    (fees : Fees) : Code Decision := do
  let request := gasOnlyRequest i pseudoReceipt channelId env.data (lower env.toAddr) fees
  match ← (Ledger.reserveGasOnly i.ext i.settings.caps request).attempt with
  | .error e => refuseReservation common e
  | .ok row =>
    let k := requestAnswers common pseudoReceipt
    simulateRow i row env.data k (signRow i row (rowTx i i.escrow env.data fees row) k)

/-- A collection from the gas estimate on. -/
def priceExpire (env : Envelope) (pseudoReceipt channelId : String) (common : Common) :
    Code Decision := do
  match ← (readFees i i.escrow env.data).attempt with
  | .error e => refuseRead common e
  | .ok (estimate, baseFee) =>
    match priceFees i estimate baseFee with
    | .error (status, reason) => return refuse status reason common
    | .ok fees => signExpire i env pseudoReceipt channelId common fees

/-- A collection that is new work. -/
def freshExpire (env : Envelope) (call : ExpireCall) (pseudoReceipt channelId : String)
    (common : Common) : Code Decision := do
  match ← (readExpired i call).attempt with
  | .error (.chainUnverified _) => return refuse 503 "chain_unverified" common
  | .error e => refuseRead common e
  | .ok channel => do
    let time ← now
    match expireState i time channel with
    | some reason => return refuse 422 reason common
    | none => priceExpire i env pseudoReceipt channelId common

/-- `_handle_expire`. -/
def handleExpire (env : Envelope) (digest16 : String) : Code Decision :=
  match Calldata.decodeExpire i.ext env.data with
  | .error (.calldata reason _) => return refuse 422 reason { Common.none with digest16 := digest16 }
  | .error e => throwExn e
  | .ok call => do
    let channelId := hexString call.channelId
    let common : Common := ⟨"", channelId, 0, digest16⟩
    if env.gas > Config.gasHardCap then return refuse 422 "hub_gas_anomalous" common
    else
      let pseudoReceipt := expireReceipt i call.channelId
      match ← Ledger.get (receiptKey i pseudoReceipt) with
      | some existing =>
        if existing.state = .signed ∨ existing.state = .broadcast ∨ existing.state = .mined then
          return answer existing.txHash "replayed" true { common with receiptId := pseudoReceipt }
        else freshExpire i env call pseudoReceipt channelId common
      | none => freshExpire i env call pseudoReceipt channelId common

/-! ### Requests -/

/-- `keccak(data).hex()[:16]`. -/
def digest16 (data : Bytes) : String := String.ofList ((hexChars (i.ext.keccak data)).take 16)

/-- A request with the selector of a debit. -/
def decodeRequest (env : Envelope) (digest : String) : Code Decision :=
  let decoded := do
    let call ← Calldata.decodeDebit i.ext env.data
    Calldata.checkSignatureShape call
    return call
  match decoded with
  | .error (.calldata reason _) => return refuse 422 reason { Common.none with digest16 := digest }
  | .error e => throwExn e
  | .ok call => handleDebit i env call digest

/-- The dispatch on the selector. -/
def dispatch (env : Envelope) : Code Decision :=
  let digest := digest16 i env.data
  let selector := Calldata.slice env.data 0 4
  if selector = Calldata.expireSelector i.ext then handleExpire i env digest
  else if selector ≠ Calldata.debitSelector i.ext then
    return refuse 422 "selector_not_allowed" { Common.none with digest16 := digest }
  else decodeRequest i env digest

/-- `handle`: everything after the authorization and the size cap. -/
def handle (rawBody : Bytes) : Code Decision := do
  let haltReason ← Ledger.halted
  if haltReason ≠ "" then return refuse 503 "clock_regression" .none
  else
    let mem ← readMemory
    if ¬ mem.ready then
      return refuse 503
        (if mem.notReadyReason = "" then "boot_reconciliation" else mem.notReadyReason) .none
    else match parseEnvelope i rawBody with
      | .error decision => return decision
      | .ok env => dispatch i env

/-! ### The sweep of proceeds -/

/-- `_audit_sweep`. -/
def auditSweep (d : Decision) : Code Decision := do
  Ledger.audit i.ext
    { kind := "sweep"
      decision := d.decision
      httpStatus := d.status
      reasonCode := d.reasonCode
      chainId := some Config.chainId
      escrow := some i.escrow
      receiptId := some d.receiptId
      channelId := some sweepChannel
      amountUnits := some d.amountUnits
      digest16 := ""
      txHash := d.txHash }
  return d

/-- A decision of a sweep, audited. -/
def decideSweep (d : Decision) : Code (Option Decision) := do
  let decision ← auditSweep i d
  return some decision

/-- The loop of `_settle_sweep_row`: true when an attempt settled the row, false when a read was
not available, nothing when the attempts say nothing. -/
def settleSweepAttempts (row : SpendRow) : List TxAttempt → Code (Option Bool)
  | [] => return none
  | attempt :: rest => do
    match ← (RpcPool.receipt attempt.txHash).attempt with
    | .error (.rpcUnavailable _) => return some false
    | .error e => throwExn e
    | .ok receipt =>
      if receipt.truthy then
        if (← settleReceipt i row attempt.txHash receipt "sweep reverted on chain") then
          return some true
        else settleSweepAttempts row rest
      else settleSweepAttempts row rest

/-- Whether a sweep is released without a receipt: never signed, or given up. -/
def sweepOverdue (row : SpendRow) : Code Bool :=
  if row.state = .reserved then return true
  else do
    let time ← now
    return decide (time - row.ts > sweepGiveUpS)

/-- `_settle_sweep_row`: true once the previous sweep is resolved. -/
def settleSweepRow (row : SpendRow) : Code Bool := do
  let attempts ← Ledger.attemptsFor row.key
  match ← settleSweepAttempts i row attempts with
  | some settled => return settled
  | none => do
    if (← sweepOverdue row) then
      Ledger.markDead i.ext row "sweep never landed"
      return true
    else return false

/-- Settles the live sweeps: whether none is left in flight. -/
def settleSweeps : List SpendRow → Code Bool
  | [] => return true
  | row :: rest =>
    if row.channelId = sweepChannel then do
      if (← settleSweepRow i row) then settleSweeps rest else return false
    else settleSweeps rest

/-- `_refuse` for a sweep, audited. -/
def refuseSweep (common : Common) (status : Int) (reason : String) : Code (Option Decision) :=
  decideSweep i (refuse status reason common)

/-- The answers of a sweep. -/
def sweepAnswers (recipient : String) (balance : Int) (common : Common) :
    Answers (Option Decision) where
  refused := refuseSweep i common
  unavailable := return none
  accepted txHash := decideSweep i
    { answer txHash "signed" false common with
      body := [("tx_hash", .str txHash), ("amount_units", .int balance), ("to", .str recipient)] }

/-- The key of a sweep, fresh for each recipient, second and balance. -/
def sweepReceipt (recipient : String) (time balance : Int) : Except Exn String := do
  let raw ← fromHex (recipient.toList.drop 2)
  let timeBytes ← toBytes 8 time
  let balanceBytes ← toBytes 32 balance
  return hexString (i.ext.keccak (encode "sweepProceeds|" ++ raw ++ timeBytes ++ balanceBytes))

/-- A sweep from the reservation on. -/
def signSweep (recipient : String) (balance : Int) (data : Bytes) (common : Common)
    (fees : Fees) : Code (Option Decision) := do
  let time ← now
  let pseudoReceipt ← .ofExcept (sweepReceipt i recipient time balance)
  let common := { common with receiptId := pseudoReceipt }
  let request := gasOnlyRequest i pseudoReceipt sweepChannel data (lower Config.token) fees
  match ← (Ledger.reserveGasOnly i.ext i.settings.caps request).attempt with
  | .error (.capBreach name _) => refuseSweep i common 429 name
  | .error (.clockRegression _) => refuseSweep i common 503 "clock_regression"
  | .error (.ledgerUnavailable _) => refuseSweep i common 503 "ledger_unavailable"
  | .error e => throwExn e
  | .ok row =>
    signRow i row (rowTx i Config.token data fees row) (sweepAnswers i recipient balance common)

/-- A sweep from the balance on. -/
def sweepBalance (recipient : String) (balance : Int) : Code (Option Decision) := do
  let common : Common := ⟨"", sweepChannel, balance, ""⟩
  let data ← .ofExcept (Calldata.encodeTransfer i.ext recipient balance)
  match ← (readFees i Config.token data).attempt with
  | .error (.reverted name) => refuseSweep i common 422 s!"simulation_reverted:{name}"
  | .error (.rpcUnavailable _) => return none
  | .error e => throwExn e
  | .ok (estimate, baseFee) =>
    match priceFees i estimate baseFee with
    | .error (status, reason) => refuseSweep i common status reason
    | .ok fees => signSweep i recipient balance data common fees

/-- The chain reads of a sweep: this key's balance. -/
def readBalance : Code Int := do
  verifyChainIdentity i false
  RpcPool.tokenBalance Config.token i.address

/-- A sweep when no other is in flight. -/
def startSweep (recipient : String) : Code (Option Decision) := do
  match ← (readBalance i).attempt with
  | .error (.chainUnverified _) =>
    refuseSweep i ⟨"", sweepChannel, 0, ""⟩ 503 "chain_unverified"
  | .error (.rpcUnavailable _) => return none
  | .error (.reverted _) => return none
  | .error e => throwExn e
  | .ok balance =>
    if balance < i.settings.sweepMinUnits then return none
    else sweepBalance i recipient balance

/-- `sweep_proceeds`: moves this key's own tokens to the operator's treasury. -/
def sweepProceeds : Code (Option Decision) := do
  let recipient := strip i.settings.sweepTo
  let mem ← readMemory
  if recipient = "" ∨ ¬ mem.ready then return none
  else if lower recipient = lower i.address then return none
  else
    let rows ← Ledger.unresolved
    if (← settleSweeps i rows) then startSweep i recipient else return none

end EscrowSigner.Policy
