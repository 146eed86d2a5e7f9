import EscrowSigner.Ledger.Operations

/-! The two reservations: `reserve`, which checks every window of the caps, and `reserve_gas_only`,
for a call that moves no tokens.  Each inserts a row, or revives a dead one, and allocates the
account nonce in one transaction. -/

namespace EscrowSigner.Ledger

/-- The keyword arguments of `reserve` other than the caps. -/
structure Request where
  chainId : Int
  escrow : String
  receiptId : String
  channelId : String
  depositor : String
  token : String
  amountUnits : Int
  deadline : Int
  channelNonce : Int
  calldataKeccak : String
  toAddr : String
  gasLimit : Int
  hubGasHint : Int
  maxFeeWei : Int
  fromAddr : String
deriving DecidableEq, Repr

def Request.key (a : Request) : Key := ⟨a.chainId, a.escrow, a.receiptId⟩

/-- The row that a request inserts. -/
def Request.row (x : Externals) (a : Request) (seq ts accountNonce : Int) (head : String) :
    SpendRow :=
  let unhashed : SpendRow :=
    { chainId := a.chainId
      escrow := a.escrow
      receiptId := a.receiptId
      seq := seq
      ts := ts
      channelId := a.channelId
      depositor := a.depositor
      token := a.token
      amountUnits := a.amountUnits
      deadline := a.deadline
      channelNonce := a.channelNonce
      calldataKeccak := a.calldataKeccak
      toAddr := a.toAddr
      gasLimit := a.gasLimit
      hubGasHint := a.hubGasHint
      maxFeeWei := a.maxFeeWei
      accountNonce := accountNonce
      fromAddr := a.fromAddr
      state := .reserved
      txHash := ""
      feeWeiSpent := 0
      deadReason := ""
      prevRowHash := head
      rowHash := ""
      reservedSeq := seq
      reservedAt := ts }
  { unhashed with rowHash := spendHash x head unhashed }

/-- The dead row of a debit after its revival.  `seq` and `ts` stay as first written. -/
def Request.revived (a : Request) (seq ts accountNonce : Int) (r : SpendRow) : SpendRow :=
  { r with
    state := .reserved
    accountNonce := accountNonce
    gasLimit := a.gasLimit
    hubGasHint := a.hubGasHint
    maxFeeWei := a.maxFeeWei
    txHash := ""
    deadReason := ""
    reservedSeq := seq
    reservedAt := ts }

/-- The times at which the windows of a reservation begin. -/
structure Cuts where
  tenMinutes : Int
  hour : Int
  day : Int
deriving DecidableEq, Repr

def Cuts.at (now : Int) : Cuts := ⟨now - 600, now - 3600, now - 86400⟩

/-- One of the checks: the name of the cap, its limit, what is added and what is there. -/
structure Check where
  name : String
  limit : Int
  adding : Int
  existing : Int
deriving DecidableEq, Repr

def Check.passes (c : Check) : Bool := c.limit == -1 || c.existing + c.adding ≤ c.limit

/-- `CapBreach` with its default delay before a retry. -/
def capBreach (name : String) : Exn := .capBreach name 60

/-- The first check that fails names the cap that the reservation would breach. -/
def runChecks : List Check → Code Unit
  | [] => return ()
  | c :: rest => if c.passes then runChecks rest else throwExn (capBreach c.name)

/-- The reads of the windows, in the order of the source, as checks. -/
def windowChecks (x : Externals) (caps : Caps) (a : Request) (cuts : Cuts) : Code (List Check) := do
  let units10m ← windowUnits a.chainId a.escrow a.token cuts.tenMinutes
  let units1h ← windowUnits a.chainId a.escrow a.token cuts.hour
  let units24h ← windowUnits a.chainId a.escrow a.token cuts.day
  let unitsChannel ← channelUnits a.chainId a.escrow a.channelId cuts.day
  let tx1h ← windowCount a.chainId a.escrow cuts.hour
  let tx24h ← windowCount a.chainId a.escrow cuts.day
  let txChannel ← channelCount a.chainId a.escrow a.channelId cuts.day
  let fees ← feeWeiWindow x a.chainId a.escrow cuts.day
  return [⟨"cap_units_per_tx", caps.unitsPerTx, a.amountUnits, 0⟩,
    ⟨"cap_units_10m", caps.units10m, a.amountUnits, units10m⟩,
    ⟨"cap_units_1h", caps.units1h, a.amountUnits, units1h⟩,
    ⟨"cap_units_24h", caps.units24h, a.amountUnits, units24h⟩,
    ⟨"cap_units_channel_24h", caps.unitsChannel24h, a.amountUnits, unitsChannel⟩,
    ⟨"cap_tx_1h", caps.tx1h, 1, tx1h⟩,
    ⟨"cap_tx_24h", caps.tx24h, 1, tx24h⟩,
    ⟨"cap_tx_per_channel_24h", caps.txPerChannel24h, 1, txChannel⟩,
    ⟨"cap_fee_wei_24h", caps.feeWei24h, a.maxFeeWei * a.gasLimit, fees⟩]

/-- The check on the number of distinct channels of a day. -/
def checkDistinctChannels (caps : Caps) (a : Request) (cuts : Cuts) : Code Unit :=
  if caps.distinctChannels24h = -1 then return ()
  else do
    let seen ← distinctChannels a.chainId a.escrow cuts.day
    let count ← channelCount a.chainId a.escrow a.channelId cuts.day
    if count = 0 ∧ seen + 1 > caps.distinctChannels24h then
      throwExn (capBreach "cap_distinct_channels_24h")
    else return ()

/-- Whether a reservation revives a dead row; any other row stands in its way. -/
def reviveOf (existing : Option SpendRow) (what : String) : Code Bool :=
  match existing with
  | none => return false
  | some r =>
    if r.state = .dead then return true
    else throwExn (.ledgerUnavailable
      (s!"a row for this {what} already exists in state '{r.state.name}'; " ++
        "only a dead row may be retried"))

/-- What a reservation reads in its transaction: `seq`, `ts`, the account nonce and the head of the
spend chain. -/
structure Allocation where
  seq : Int
  ts : Int
  accountNonce : Int
  head : String

/-- The statements that both reservations begin their transaction with. -/
def allocate (chainId : Int) (fromAddr : String) : Code Allocation := do
  beginImmediate
  let (seq, ts) ← tick
  update fun t => .ok (t.insertAlloc ⟨chainId, fromAddr, 0, seq⟩)
  let accountNonce ← select fun t =>
    match t.allocOf chainId fromAddr with
    | some entry => .ok entry.nextNonce
    | none => .error (.other "TypeError")
  let head ← select fun t => .ok t.spendHead
  return ⟨seq, ts, accountNonce, head⟩

/-- `UPDATE nonce_alloc SET next_nonce = next_nonce + 1`. -/
def takeNonce (chainId : Int) (fromAddr : String) (seq : Int) : Code Unit :=
  update fun t => .ok (t.updateAlloc chainId fromAddr fun e =>
    { e with nextNonce := e.nextNonce + 1, updatedSeq := seq })

/-- `UPDATE spend` on the dead row of a key that holds an amount; the count of changed rows. -/
def reviveRow (ints : List Int) (k : Key) (amountUnits : Int) (f : SpendRow → SpendRow) :
    Code Bool :=
  sql fun t => do
    bindInts ints
    if (t.spend.rows.any fun r => r.key = k && r.state = .dead && r.amountUnits = amountUnits) then
      let t' ← t.updateRow k f
      return (t', true)
    else return (t, false)

/-- Whether a limit admits a total, in the `WHERE` clause of an `INSERT`. -/
def clause (cap : Int) (existing : Except Exn Int) (adding : Int) : Except Exn Bool :=
  if cap = -1 then .ok true else return decide ((← existing) + adding ≤ cap)

/-- Clauses joined by `AND`, up to the first that fails. -/
def conjunction : List (Except Exn Bool) → Except Exn Bool
  | [] => .ok true
  | c :: rest => do
    if (← c) then conjunction rest else return false

/-- The `WHERE` clause of the `INSERT` of a debit. -/
def debitGuard (caps : Caps) (a : Request) (cuts : Cuts) (t : Tables) : Except Exn Bool :=
  conjunction
    [clause caps.units24h (t.windowUnits a.chainId a.escrow a.token cuts.day) a.amountUnits,
      clause caps.units1h (t.windowUnits a.chainId a.escrow a.token cuts.hour) a.amountUnits,
      clause caps.units10m (t.windowUnits a.chainId a.escrow a.token cuts.tenMinutes) a.amountUnits,
      clause caps.unitsChannel24h (t.channelUnits a.chainId a.escrow a.channelId cuts.day)
        a.amountUnits,
      clause caps.tx1h (.ok (t.windowCount a.chainId a.escrow cuts.hour)) 1,
      clause caps.tx24h (.ok (t.windowCount a.chainId a.escrow cuts.day)) 1]

/-- The guarded `INSERT`: whether the row went in, with the hash of the row. -/
def insertRow (ints : List Int) (guard : Tables → Except Exn Bool) (row : SpendRow) : Code Bool :=
  sql fun t => do
    bindInts ints
    if (← guard t) then
      let t' ← t.setSpend (t.spend.rows ++ [row])
      return (t', true)
    else return (t, false)

/-- Both reservations end their transaction with a rollback when the row did not change. -/
def giveUp {α : Type} (e : Exn) : Code α := do
  rollback
  throwExn e

/-- The handlers around the transaction: a failed statement or a clock regression rolls back. -/
def guardTransaction {α : Type} (body : Code α) : Code α := do
  match ← body.attempt with
  | .ok a => return a
  | .error (.sqlite name) => do
    let _ ← rollback.attempt
    throwExn (.ledgerUnavailable name)
  | .error (.clockRegression message) => do
    let _ ← rollback.attempt
    throwExn (.clockRegression message)
  | .error e => throwExn e

/-- `_rollback_on_error`. -/
def rollbackOnError {α : Type} (body : Code α) : Code α := do
  match ← body.attempt with
  | .ok a => return a
  | .error e => do
    if (← inTransaction) then
      let _ ← rollback.attempt
      throwExn e
    else throwExn e

/-- The integers that the statements of a reservation bind. -/
def Request.ints (a : Request) (accountNonce : Int) : List Int :=
  [a.chainId, a.amountUnits, a.deadline, a.channelNonce, a.gasLimit, a.hubGasHint, a.maxFeeWei,
    accountNonce]

/-- The transaction that revives a debit, with what follows its commit inside the handlers. -/
def reviveDebit (x : Externals) (a : Request) (al : Allocation) : Code SpendRow := do
  let changed ← reviveRow [al.accountNonce, a.gasLimit, a.hubGasHint, a.maxFeeWei, a.chainId,
    a.amountUnits] a.key a.amountUnits (a.revived al.seq al.ts al.accountNonce)
  if changed then
    takeNonce a.chainId a.fromAddr al.seq
    commit
    match ← get a.key with
    | none => throwExn (.ledgerUnavailable "row vanished after revive")
    | some revived => do
      audit x
        { kind := "transition"
          decision := "reserved"
          httpStatus := 0
          reasonCode := "revived after a released attempt"
          chainId := some a.chainId
          escrow := some a.escrow
          receiptId := some a.receiptId
          channelId := some a.channelId
          amountUnits := some a.amountUnits
          digest16 := ""
          txHash := "" }
      return revived
  else giveUp (.ledgerUnavailable "the dead row changed under us, or its amount does not match")

/-- The transaction that inserts a debit. -/
def insertDebit (x : Externals) (caps : Caps) (a : Request) (cuts : Cuts) (al : Allocation) :
    Code Unit := do
  let row := a.row x al.seq al.ts al.accountNonce al.head
  let inserted ← insertRow (a.ints al.accountNonce ++ [caps.units24h, caps.units1h, caps.units10m,
    caps.unitsChannel24h, caps.tx1h, caps.tx24h]) (debitGuard caps a cuts) row
  if inserted then
    takeNonce a.chainId a.fromAddr al.seq
    update fun t => .ok { t with spendHead := row.rowHash }
    commit
  else giveUp (capBreach "cap_race")

/-- The part of `_reserve_unlocked` under the handlers: the revived row, or nothing for a fresh
one. -/
def reserveTransaction (x : Externals) (caps : Caps) (a : Request) (cuts : Cuts) (revive : Bool) :
    Code (Option SpendRow) := do
  let al ← allocate a.chainId a.fromAddr
  if revive then
    let row ← reviveDebit x a al
    return some row
  else
    insertDebit x caps a cuts al
    return none

/-- The row of a reservation that was committed. -/
def committedRow (k : Key) : Code SpendRow := do
  match ← get k with
  | some row => return row
  | none => throwExn (.ledgerUnavailable "row vanished after commit")

def reserveUnlocked (x : Externals) (caps : Caps) (a : Request) : Code SpendRow :=
  if a.amountUnits ≤ 0 then throwExn .valueError
  else do
    assertClockSane
    let instant ← now
    let cuts := Cuts.at instant
    let checks ← windowChecks x caps a cuts
    runChecks checks
    checkDistinctChannels caps a cuts
    let existing ← get a.key
    let revive ← reviveOf existing "receipt"
    match ← guardTransaction (reserveTransaction x caps a cuts revive) with
    | some row => return row
    | none => committedRow a.key

/-- `reserve`. -/
def reserve (x : Externals) (caps : Caps) (a : Request) : Code SpendRow :=
  rollbackOnError (reserveUnlocked x caps a)

/-! ### The gas-only door -/

/-- The keyword arguments of `reserve_gas_only` other than the caps. -/
structure GasOnlyRequest where
  chainId : Int
  escrow : String
  receiptId : String
  channelId : String
  calldataKeccak : String
  toAddr : String
  gasLimit : Int
  maxFeeWei : Int
  fromAddr : String
  maxPer24h : Int
deriving DecidableEq, Repr

/-- A gas-only request as the request whose row it inserts. -/
def GasOnlyRequest.request (a : GasOnlyRequest) : Request where
  chainId := a.chainId
  escrow := a.escrow
  receiptId := a.receiptId
  channelId := a.channelId
  depositor := ""
  token := ""
  amountUnits := 0
  deadline := 0
  channelNonce := 0
  calldataKeccak := a.calldataKeccak
  toAddr := a.toAddr
  gasLimit := a.gasLimit
  hubGasHint := 0
  maxFeeWei := a.maxFeeWei
  fromAddr := a.fromAddr

/-- The dead row of a gas-only call after its revival, which leaves the hub's hint as it was. -/
def GasOnlyRequest.revived (a : GasOnlyRequest) (seq ts accountNonce : Int) (r : SpendRow) :
    SpendRow :=
  { r with
    state := .reserved
    accountNonce := accountNonce
    gasLimit := a.gasLimit
    maxFeeWei := a.maxFeeWei
    txHash := ""
    deadReason := ""
    reservedSeq := seq
    reservedAt := ts }

/-- The limit on the gas-only calls of a day, read only when it is on. -/
def checkGasOnlyCount (a : GasOnlyRequest) (cut : Int) : Code Unit :=
  if a.maxPer24h = -1 then return ()
  else do
    let used ← gasOnlyCount a.chainId a.escrow cut
    if used + 1 > a.maxPer24h then throwExn (capBreach "cap_gas_only_24h") else return ()

/-- The limit on the fees of a day, read only when it is on. -/
def checkGasOnlyFee (x : Externals) (caps : Caps) (a : GasOnlyRequest) (cut : Int) : Code Unit :=
  if caps.feeWei24h = -1 then return ()
  else do
    let spent ← feeWeiWindow x a.chainId a.escrow cut
    if spent + a.maxFeeWei * a.gasLimit > caps.feeWei24h then
      throwExn (capBreach "cap_fee_wei_24h")
    else return ()

/-- The `WHERE` clause of the `INSERT` of a gas-only call. -/
def gasOnlyGuard (a : GasOnlyRequest) (cut : Int) (t : Tables) : Except Exn Bool :=
  clause a.maxPer24h (.ok (t.gasOnlyCount a.chainId a.escrow cut)) 1

/-- The row of a gas-only call, revived or inserted. -/
def placeGasOnly (x : Externals) (a : GasOnlyRequest) (cut : Int) (revive : Bool)
    (al : Allocation) : Code Unit :=
  if revive then do
    let changed ← reviveRow [al.accountNonce, a.gasLimit, a.maxFeeWei, a.chainId] a.request.key 0
      (a.revived al.seq al.ts al.accountNonce)
    if changed then return ()
    else giveUp (.ledgerUnavailable "the dead row changed under us")
  else do
    let row := a.request.row x al.seq al.ts al.accountNonce al.head
    let inserted ← insertRow (a.request.ints al.accountNonce ++ [a.maxPer24h])
      (gasOnlyGuard a cut) row
    if inserted then update fun t => .ok { t with spendHead := row.rowHash }
    else giveUp (capBreach "cap_race")

/-- The part of `_reserve_gas_only_unlocked` under the handlers. -/
def gasOnlyTransaction (x : Externals) (a : GasOnlyRequest) (cut : Int) (revive : Bool) :
    Code Unit := do
  let al ← allocate a.chainId a.fromAddr
  placeGasOnly x a cut revive al
  takeNonce a.chainId a.fromAddr al.seq
  commit

def reserveGasOnlyUnlocked (x : Externals) (caps : Caps) (a : GasOnlyRequest) : Code SpendRow := do
  assertClockSane
  let instant ← now
  let cut := instant - 86400
  checkGasOnlyCount a cut
  checkGasOnlyFee x caps a cut
  let existing ← get a.request.key
  let revive ← reviveOf existing "key"
  guardTransaction (gasOnlyTransaction x a cut revive)
  let row ← committedRow a.request.key
  audit x
    { kind := "transition"
      decision := "reserved"
      httpStatus := 0
      reasonCode := "gas-only call reserved"
      chainId := some a.chainId
      escrow := some a.escrow
      receiptId := some a.receiptId
      channelId := some a.channelId
      amountUnits := some 0
      digest16 := ""
      txHash := "" }
  return row

/-- `reserve_gas_only`. -/
def reserveGasOnly (x : Externals) (caps : Caps) (a : GasOnlyRequest) : Code SpendRow :=
  rollbackOnError (reserveGasOnlyUnlocked x caps a)

end EscrowSigner.Ledger
