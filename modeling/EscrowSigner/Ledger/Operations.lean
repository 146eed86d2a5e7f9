import EscrowSigner.World

/-! The operations of `Ledger`, statement by statement: the guarded clock, the audit log, the reads
that the caps rest on, the two reservations and the transitions of a row. -/

namespace EscrowSigner.Ledger

def clockToleranceS : Int := 5

/-! ### Clock and sequence -/

/-- `_guard`. -/
def guardRow : Code ClockGuard := select fun t => .ok t.clockGuard

/-- The property `halted`: the reason, empty when the ledger is not halted. -/
def halted : Code String := do
  let row ← guardRow
  return if row.halted then row.haltReason else ""

def halt (reason : String) : Code Unit :=
  update fun t => .ok { t with clockGuard := { t.clockGuard with halted := true, haltReason := reason } }

def clearHalt : Code Unit :=
  update fun t => .ok { t with clockGuard := { t.clockGuard with halted := false, haltReason := "" } }

/-- Halts the ledger and raises when the wall clock stands too far behind the guard. -/
def refuseRegression (row : ClockGuard) (wall : Int) : Code Unit :=
  if wall < row.maxTs - clockToleranceS then do
    halt s!"clock regression: wall={wall} max_ts={row.maxTs}"
    throwExn (.clockRegression s!"wall clock is {row.maxTs - wall}s behind the ledger")
  else return ()

def assertClockSane : Code Unit := do
  let row ← guardRow
  let wall ← now
  refuseRegression row wall

/-- Allocates `(seq, ts)`. -/
def tick : Code (Int × Int) := do
  let row ← guardRow
  let wall ← now
  refuseRegression row wall
  let ts := max wall row.maxTs
  let seq := row.maxSeq + 1
  update fun t => .ok { t with clockGuard := { t.clockGuard with maxTs := ts, maxSeq := seq } }
  return (seq, ts)

/-! ### Audit -/

/-- The keyword arguments of `audit`; an absent text is empty. -/
structure AuditFields where
  kind : String
  decision : String
  httpStatus : Int
  reasonCode : String
  chainId : Option Int
  escrow : Option String
  receiptId : Option String
  channelId : Option String
  amountUnits : Option Int
  digest16 : String
  txHash : String

/-- The row that `audit` stores. -/
def AuditFields.row (x : Externals) (f : AuditFields) (seq ts : Int) (head : String) : AuditRow :=
  let unhashed : AuditRow :=
    { seq := seq
      ts := ts
      kind := if f.kind = "" then "request" else f.kind
      decision := if f.decision = "" then "refused" else f.decision
      httpStatus := f.httpStatus
      reasonCode := f.reasonCode
      chainId := f.chainId
      escrow := f.escrow
      receiptId := f.receiptId
      channelId := f.channelId
      amountUnits := f.amountUnits
      digest16 := f.digest16
      txHash := f.txHash
      prevHash := head
      rowHash := "" }
  { unhashed with rowHash := rowHash x head (auditPayload unhashed) }

/-- The integers of a row that are bound from the caller's arguments. -/
def AuditFields.ints (f : AuditFields) : List Int :=
  f.httpStatus :: (f.chainId.toList ++ f.amountUnits.toList)

/-- `INSERT INTO audit`. -/
def insertAudit (x : Externals) (f : AuditFields) (ts : Int) (head : String) : Code String :=
  sql fun t => do
    bindInts f.ints
    let row := f.row x (t.auditSeq + 1) ts head
    return ({ t with audit := t.audit ++ [row], auditSeq := t.auditSeq + 1 }, row.rowHash)

/-- Appends one row to the decision log.  Its texts can be encoded: a string holds no lone surrogate. -/
def audit (x : Externals) (f : AuditFields) : Code Unit := do
  let (_, ts) ← tick
  let head ← select fun t => .ok t.auditHead
  let rowHash ← insertAudit x f ts head
  update fun t => .ok { t with auditHead := rowHash }

/-! ### Totals and rows -/

def windowUnits (chainId : Int) (escrow token : String) (sinceTs : Int) : Code Int :=
  select fun t => t.windowUnits chainId escrow token sinceTs

def windowCount (chainId : Int) (escrow : String) (sinceTs : Int) : Code Int :=
  select fun t => .ok (t.windowCount chainId escrow sinceTs)

def channelUnits (chainId : Int) (escrow channelId : String) (sinceTs : Int) : Code Int :=
  select fun t => t.channelUnits chainId escrow channelId sinceTs

def channelCount (chainId : Int) (escrow channelId : String) (sinceTs : Int) : Code Int :=
  select fun t => .ok (t.channelCount chainId escrow channelId sinceTs)

def distinctChannels (chainId : Int) (escrow : String) (sinceTs : Int) : Code Int :=
  select fun t => .ok (t.distinctChannels chainId escrow sinceTs)

def feeWeiWindow (x : Externals) (chainId : Int) (escrow : String) (sinceTs : Int) : Code Int :=
  select fun t => t.feeWeiWindow x chainId escrow sinceTs

def gasOnlyCount (chainId : Int) (escrow : String) (sinceTs : Int) : Code Int :=
  select fun t => .ok (t.gasOnlyCount chainId escrow sinceTs)

def get (k : Key) : Code (Option SpendRow) := select fun t => .ok (t.get k)

def unresolved : Code (List SpendRow) := select fun t => .ok t.unresolved

def attemptsFor (k : Key) : Code (List TxAttempt) := select fun t => .ok (t.attemptsFor k)

/-! ### State transitions -/

/-- The columns that a transition changes beside `state`. -/
structure RowUpdates where
  txHash : Option String
  feeWeiSpent : Option Int
  deadReason : Option String

/-- A row after a transition. -/
def RowUpdates.apply (u : RowUpdates) (state : RowState) (r : SpendRow) : SpendRow :=
  { r with
    state := state
    txHash := u.txHash.getD r.txHash
    feeWeiSpent := u.feeWeiSpent.getD r.feeWeiSpent
    deadReason := u.deadReason.getD r.deadReason }

/-- The audit row of a transition of a row. -/
def transition (row : SpendRow) (decision reasonCode txHash : String) : AuditFields where
  kind := "transition"
  decision := decision
  httpStatus := 0
  reasonCode := reasonCode
  chainId := some row.chainId
  escrow := some row.escrow
  receiptId := some row.receiptId
  channelId := some row.channelId
  amountUnits := some row.amountUnits
  digest16 := ""
  txHash := txHash

/-- `_set_state`. -/
def setState (x : Externals) (row : SpendRow) (state : RowState) (u : RowUpdates) : Code Unit := do
  update fun t => do
    bindInts (row.chainId :: u.feeWeiSpent.toList)
    t.updateRow row.key (u.apply state)
  audit x (transition row state.name (u.deadReason.getD "") (u.txHash.getD row.txHash))

def markSigned (x : Externals) (row : SpendRow) (txHash rawKeccak : String) : Code Unit := do
  setState x row .signed ⟨some txHash, none, none⟩
  let (seq, ts) ← tick
  update fun t => do
    bindInts [row.chainId, row.accountNonce, row.maxFeeWei]
    return t.replaceAttempt
      { txHash := txHash
        chainId := row.chainId
        escrow := row.escrow
        receiptId := row.receiptId
        accountNonce := row.accountNonce
        rawKeccak := rawKeccak
        maxFeeWei := row.maxFeeWei
        sentAt := ts
        receiptStatus := ""
        seq := seq }

def markBroadcast (x : Externals) (row : SpendRow) (txHash : String) : Code Unit :=
  setState x row .broadcast ⟨some txHash, none, none⟩

def markMined (x : Externals) (row : SpendRow) (txHash : String) (feeWei : Int) : Code Unit :=
  setState x row .mined
    ⟨if txHash = "" then none else some txHash, if feeWei = 0 then none else some feeWei, none⟩

/-- Whether a row, read from the books, was never signed: it is reserved, and no attempt on the
chain carries its nonce. -/
def readUnsigned (row : SpendRow) : Code (Option SpendRow) := do
  let held ← select fun t => .ok (t.get row.key)
  match held with
  | some r =>
    if r.state = .reserved then do
      let attempt ← select fun t => .ok (t.txAttempt.find? fun a =>
        a.chainId = row.chainId ∧ a.accountNonce = r.accountNonce)
      return if attempt = none then some r else none
    else return none
  | none => return none

/-- Releases a row, and gives its nonce back when it was never signed and is the newest. -/
def markDead (x : Externals) (row : SpendRow) (reason : String) : Code Unit := do
  let unsigned ← readUnsigned row
  setState x row .dead ⟨none, none, some reason⟩
  match unsigned with
  | some held => do
    let guard ← guardRow
    update fun t => .ok (t.updateAlloc row.chainId held.fromAddr fun a =>
      if a.nextNonce = held.accountNonce + 1 then
        { a with nextNonce := held.accountNonce, updatedSeq := guard.maxSeq }
      else a)
  | none => return ()

def recordAttemptStatus (txHash status : String) : Code Unit :=
  update fun t => .ok { t with txAttempt := stampAttempts txHash status t.txAttempt }

/-- The allocator with the next nonce of an address set. -/
def putAlloc (a : NonceAlloc) (t : Tables) : Tables :=
  if (t.allocOf a.chainId a.fromAddr).isSome then t.updateAlloc a.chainId a.fromAddr fun _ => a
  else t.insertAlloc a

def setNextNonce (chainId : Int) (fromAddr : String) (nonce : Int) : Code Unit := do
  let (seq, _) ← tick
  update fun t => do
    bindInts [chainId, nonce]
    return putAlloc ⟨chainId, fromAddr, nonce, seq⟩ t

/-! ### Integrity -/

/-- The head that recomputing a chain from `head` ends in, or the first row whose stored hash does
not match. -/
def recompute {ρ : Type} (hash : String → ρ → String) (stored : ρ → String) :
    String → List ρ → Except ρ String
  | head, [] => .ok head
  | head, row :: rest =>
    if hash head row = stored row then recompute hash stored (hash head row) rest else .error row

def spendHash (x : Externals) (head : String) (r : SpendRow) : String :=
  rowHash x head (spendPayload r)

def auditHash (x : Externals) (head : String) (r : AuditRow) : String :=
  rowHash x head (auditPayload r)

/-- `SELECT * FROM spend ORDER BY seq`. -/
def spendBySeq (t : Tables) : List SpendRow :=
  t.spend.rows.insertionSort fun a b => a.seq ≤ b.seq

/-- `SELECT * FROM audit ORDER BY seq`. -/
def auditBySeq (t : Tables) : List AuditRow := t.audit.insertionSort fun a b => a.seq ≤ b.seq

def verifySpend (x : Externals) (t : Tables) : Except Exn Unit :=
  match recompute (spendHash x) (·.rowHash) genesis (spendBySeq t) with
  | .ok _ => .ok ()
  | .error row => .error (.ledgerUnavailable
      (s!"spend chain broken at seq {row.seq}: the row was edited after it was written, " ++
        "or a row was removed"))

def verifyAudit (x : Externals) (t : Tables) : Except Exn Unit :=
  match recompute (auditHash x) (·.rowHash) genesis (auditBySeq t) with
  | .ok _ => .ok ()
  | .error row => .error (.ledgerUnavailable s!"audit chain broken at seq {row.seq}")

/-- Recomputes both hash chains. -/
def verifyChains (x : Externals) : Code Unit := do
  select (verifySpend x)
  select (verifyAudit x)

def recordBoot (address : String) (chainId : Int) (escrow capsJson : String) (reconciled : Bool) :
    Code Unit := do
  let (_, ts) ← tick
  let head ← select fun t => .ok t.auditHead
  update fun t => do
    bindInts [chainId]
    return { t with boot := t.boot ++ [⟨ts, address, chainId, escrow, capsJson, head, reconciled⟩] }

/-! ### Counters -/

/-- `stats`. -/
def stats : Code (List (String × Json)) := do
  let time ← now
  let rows ← select fun t => .ok t.spend.rows.length
  let live ← unresolved
  let auditRows ← select fun t => .ok t.audit.length
  let auditHead ← select fun t => .ok t.auditHead
  let reason ← halted
  let guard ← guardRow
  return [("rows", .int rows), ("live", .int live.length), ("audit_rows", .int auditRows),
    ("audit_head", .str auditHead), ("halted", .str reason), ("max_ts", .int guard.maxTs),
    ("now", .int time)]

end EscrowSigner.Ledger
