import EscrowSigner.Policy.Decision

/-! Boot and reconciliation: the pinned chain is identified, every live row is classified from chain
evidence, and the allocator is put past what chain and books hold. -/

namespace EscrowSigner.Policy

variable (i : Instance)

/-- The domain separator that the signer computes when it is created. -/
def separator : Bytes :=
  match Eip712.domainSeparator i.ext Config.chainId i.escrow with
  | .ok bytes => bytes
  | .error _ => []

/-- The reads of `_verify_chain_identity`. -/
def identifyChain : Code Unit := do
  let chainId ← RpcPool.chainId
  if chainId ≠ Config.chainId then throwExn (.chainUnverified s!"rpc chain_id={chainId}")
  else
    let found ← RpcPool.domainSeparator i.escrow
    if found ≠ separator i then throwExn (.chainUnverified "domain separator mismatch")
    else
      let authorized ← RpcPool.hubAuthorized i.escrow i.address
      if ¬ authorized then throwExn (.chainUnverified "this key is not an authorized hub")
      else
        let decimals ← RpcPool.tokenDecimals Config.token
        if decimals ≠ Config.tokenDecimals then
          throwExn (.chainUnverified "token decimals changed")
        else
          let instant ← readClock
          writeMemory fun m =>
            { m with chainOkUntil := instant + Config.chainCacheTtlS * 1000000000 }

/-- Whether the last identification of the chain still holds. -/
def identityCached : Code Bool := do
  let instant ← readClock
  let mem ← readMemory
  return decide (instant < mem.chainOkUntil)

/-- `_verify_chain_identity`. -/
def verifyChainIdentity (force : Bool) : Code Unit :=
  if force then identifyChain i
  else do
    if (← identityCached) then return ()
    else identifyChain i

/-! ### Receipts of attempts -/

/-- `str` of a parsed value. -/
def jsonStr (x : Externals) : Json → String
  | .str text => text
  | .null => "None"
  | .bool true => "True"
  | .bool false => "False"
  | .int n => toString n
  | value => x.str value

/-- `str(receipt.get(key, fallback))`. -/
def receiptField (x : Externals) (receipt : Json) (key fallback : String) : Except Exn String := do
  let value ← receipt.get key (.str fallback)
  return jsonStr x value

/-- The fee that a receipt reports. -/
def receiptFee (x : Externals) (receipt : Json) : Except Exn Int := do
  let gasUsed ← intOfHex (← receiptField x receipt "gasUsed" "0x0")
  let gasPrice ← intOfHex (← receiptField x receipt "effectiveGasPrice" "0x0")
  return gasUsed * gasPrice

/-- What the receipt of an attempt decides about its row: mined, dead with a reason, or nothing. -/
def settleReceipt (row : SpendRow) (txHash : String) (receipt : Json) (reason : String) :
    Code Bool := do
  let status ← .ofExcept (receiptField i.ext receipt "status" "")
  Ledger.recordAttemptStatus txHash status
  if status = "0x1" then
    let fee ← .ofExcept (receiptFee i.ext receipt)
    Ledger.markMined i.ext row txHash fee
    return true
  else if status = "0x0" then
    Ledger.markDead i.ext row reason
    return true
  else return false

/-- The loop of `_reconcile` over the attempts of a row: whether one of them landed. -/
def reconcileAttempts (row : SpendRow) : List TxAttempt → Code Bool
  | [] => return false
  | attempt :: rest => do
    let receipt ← RpcPool.receipt attempt.txHash
    if receipt.truthy then
      if (← settleReceipt i row attempt.txHash receipt "transaction reverted on chain") then
        return true
      else reconcileAttempts row rest
    else
      Ledger.recordAttemptStatus attempt.txHash "absent"
      reconcileAttempts row rest

/-- What `_reconcile` does with a row of which no attempt landed. -/
def releaseRow (time : Int) (row : SpendRow) (attempts : List TxAttempt) : Code Unit :=
  if row.state = .reserved ∧ ¬ (attempts.any fun a => a.accountNonce == row.accountNonce) then
    Ledger.markDead i.ext row "never signed"
  else if time > row.deadline then
    Ledger.markDead i.ext row "deadline passed before it landed"
  else return ()

/-- The body of the loop of `_reconcile`. -/
def reconcileRow (time : Int) (row : SpendRow) : Code Unit := do
  let receiptId ← .ofExcept (fromHex (row.receiptId.toList.drop 2))
  let used ← RpcPool.receiptUsed i.escrow receiptId (channelBytes row.channelId)
  if used then Ledger.markMined i.ext row "" 0
  else
    let attempts ← Ledger.attemptsFor row.key
    if (← reconcileAttempts i row attempts) then return ()
    else releaseRow i time row attempts

def reconcileRows (time : Int) : List SpendRow → Code Unit
  | [] => return ()
  | row :: rest => do
    reconcileRow i time row
    reconcileRows time rest

/-- `_reconcile`: classifies every live row from chain evidence. -/
def reconcile : Code Bool := do
  let time ← now
  let rows ← Ledger.unresolved
  reconcileRows i time rows
  return true

/-! ### Boot -/

def refuseToServe (reason : String) : Code Unit :=
  writeMemory fun m => { m with notReadyReason := reason }

/-- The reads of chain at boot: whether rows were reconciled, and the pending count. -/
def bootReads : Code (Bool × Int) := do
  verifyChainIdentity i true
  let reconciled ← reconcile i
  let chainNonce ← RpcPool.transactionCount i.address "pending"
  return (reconciled, chainNonce)

/-- `max((r.account_nonce for r in live), default=-1)`. -/
def highestNonce (rows : List SpendRow) : Int :=
  match rows.map (·.accountNonce) with
  | [] => -1
  | n :: ns => ns.foldl max n

/-- The end of a successful boot: the allocator, the boot row, the audit row. -/
def finishBoot (reconciled : Bool) (chainNonce : Int) : Code Unit := do
  let live ← Ledger.unresolved
  Ledger.setNextNonce Config.chainId i.address (max chainNonce (highestNonce live + 1))
  Ledger.recordBoot i.address Config.chainId i.escrow (i.ext.jsonText i.settings.caps.asJson)
    reconciled
  Ledger.audit i.ext
    { kind := "boot"
      decision := "ready"
      httpStatus := 200
      reasonCode := ""
      chainId := some Config.chainId
      escrow := some i.escrow
      receiptId := none
      channelId := none
      amountUnits := none
      digest16 := ""
      txHash := "" }
  writeMemory fun m => { m with ready := true, notReadyReason := "" }

/-- The part of `boot` after the books verified. -/
def bootChain : Code Unit := do
  let haltReason ← Ledger.halted
  if haltReason ≠ "" then refuseToServe "clock_regression"
  else
    match ← (bootReads i).attempt with
    | .ok (reconciled, chainNonce) => finishBoot i reconciled chainNonce
    | .error (.rpcUnavailable _) => refuseToServe "boot_reconciliation"
    | .error (.reverted _) => refuseToServe "boot_reconciliation"
    | .error e => throwExn e

/-- `boot`: refuses everything until the books verify, the chain agrees and rows are classified. -/
def boot : Code Unit := do
  writeMemory fun m => { m with ready := false }
  match ← (Ledger.verifyChains i.ext).attempt with
  | .ok () => bootChain i
  | .error (.ledgerUnavailable _) => refuseToServe "ledger_chain_mismatch"
  | .error e => throwExn e

end EscrowSigner.Policy
