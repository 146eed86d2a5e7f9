import EscrowSigner.Config

/-! The ledger's tables and the SQL statements that read and write them.  A statement that breaks a
constraint of the schema fails and leaves the tables as they were, so a `SpendTable` carries the
constraints of `spend` with its rows. -/

namespace EscrowSigner

/-- The column `state` of `spend`. -/
inductive RowState
  | reserved
  | signed
  | broadcast
  | mined
  | dead
  | superseded
deriving DecidableEq, Repr

namespace RowState

def name : RowState → String
  | reserved => "reserved"
  | signed => "signed"
  | broadcast => "broadcast"
  | mined => "mined"
  | dead => "dead"
  | superseded => "superseded"

/-- The states that hold budget. -/
def counted : RowState → Bool
  | reserved | signed | broadcast | mined => true
  | dead | superseded => false

/-- The states that are not yet terminal. -/
def live : RowState → Bool
  | reserved | signed | broadcast => true
  | mined | dead | superseded => false

theorem counted_of_live {s : RowState} (h : s.live = true) : s.counted = true := by
  cases s <;> first | rfl | cases h

end RowState

/-- The primary key of `spend`. -/
structure Key where
  chainId : Int
  escrow : String
  receiptId : String
deriving DecidableEq, Repr

/-- A row of `spend`.  The last two fields are history variables, which no statement reads: the
`seq` and the time that the clock guard gave to the reservation that the row now stands for. -/
structure SpendRow where
  chainId : Int
  escrow : String
  receiptId : String
  seq : Int
  ts : Int
  channelId : String
  depositor : String
  token : String
  amountUnits : Int
  deadline : Int
  channelNonce : Int
  calldataKeccak : String
  toAddr : String
  gasLimit : Int
  hubGasHint : Int
  maxFeeWei : Int
  accountNonce : Int
  fromAddr : String
  state : RowState
  txHash : String
  feeWeiSpent : Int
  deadReason : String
  prevRowHash : String
  rowHash : String
  reservedSeq : Int
  reservedAt : Int
deriving DecidableEq, Repr

namespace SpendRow

def key (r : SpendRow) : Key := ⟨r.chainId, r.escrow, r.receiptId⟩

/-- What "the same request" means. -/
def semanticTuple (r : SpendRow) : String × String × Int × String × String :=
  (r.toAddr, r.channelId, r.amountUnits, r.receiptId, r.calldataKeccak)

/-- The columns of the partial unique index `idx_spend_nonce`. -/
def nonceKey (r : SpendRow) : Int × String × Int := (r.chainId, r.fromAddr, r.accountNonce)

end SpendRow

/-- The schema's constraints on the rows of `spend`: the primary key, the unique column `seq` and
the unique index over the nonces of the rows that are not dead. -/
def SpendConstraints (rows : List SpendRow) : Prop :=
  (rows.map SpendRow.key).Nodup ∧ (rows.map SpendRow.seq).Nodup ∧
    ((rows.filter fun r => r.state ≠ .dead).map SpendRow.nonceKey).Nodup

instance (rows : List SpendRow) : Decidable (SpendConstraints rows) :=
  inferInstanceAs (Decidable (_ ∧ _ ∧ _))

/-- The table `spend`. -/
structure SpendTable where
  rows : List SpendRow
  constraints : SpendConstraints rows

structure TxAttempt where
  txHash : String
  chainId : Int
  escrow : String
  receiptId : String
  accountNonce : Int
  rawKeccak : String
  maxFeeWei : Int
  sentAt : Int
  receiptStatus : String
  seq : Int
deriving DecidableEq, Repr

def TxAttempt.key (a : TxAttempt) : Key := ⟨a.chainId, a.escrow, a.receiptId⟩

structure AuditRow where
  seq : Int
  ts : Int
  kind : String
  decision : String
  httpStatus : Int
  reasonCode : String
  chainId : Option Int
  escrow : Option String
  receiptId : Option String
  channelId : Option String
  amountUnits : Option Int
  digest16 : String
  txHash : String
  prevHash : String
  rowHash : String
deriving DecidableEq, Repr

structure ClockGuard where
  maxTs : Int
  maxSeq : Int
  halted : Bool
  haltReason : String
deriving DecidableEq, Repr

structure NonceAlloc where
  chainId : Int
  fromAddr : String
  nextNonce : Int
  updatedSeq : Int
deriving DecidableEq, Repr

structure BootRow where
  ts : Int
  address : String
  chainId : Int
  escrow : String
  capsJson : String
  auditHead : String
  reconciled : Bool
deriving DecidableEq, Repr

/-- The database.  `auditSeq` is the counter behind the automatic key of `audit`. -/
structure Tables where
  spend : SpendTable
  txAttempt : List TxAttempt
  audit : List AuditRow
  auditSeq : Int
  clockGuard : ClockGuard
  nonceAlloc : List NonceAlloc
  boot : List BootRow
  spendHead : String
  auditHead : String

/-- The head of an empty hash chain. -/
def genesis : String := "0x00"

/-- The tables as the schema creates them. -/
def Tables.empty : Tables where
  spend := ⟨[], by decide⟩
  txAttempt := []
  audit := []
  auditSeq := 0
  clockGuard := ⟨0, 0, false, ""⟩
  nonceAlloc := []
  boot := []
  spendHead := genesis
  auditHead := genesis

/-! ### Integers as SQLite holds them -/

def inInt64 (n : Int) : Bool := -(2 ^ 63) ≤ n && n < 2 ^ 63

/-- `sqlite3` refuses to bind an integer that does not fit. -/
def bindInts (ns : List Int) : Except Exn Unit :=
  if ns.all inInt64 then .ok () else .error .overflowError

/-- `SUM` over integers, which fails when the total overflows. -/
def sumInts (terms : List Int) : Except Exn Int :=
  terms.foldlM (fun total n =>
    if inInt64 (total + n) then .ok (total + n) else .error (.sqlite "OperationalError")) 0

/-! ### Reads of `spend` and `tx_attempt` -/

/-- The rows in a counted state that were first written after `since`. -/
def countedSince (chainId : Int) (escrow : String) (since : Int) (rows : List SpendRow) :
    List SpendRow :=
  rows.filter fun r =>
    r.chainId == chainId && r.escrow == escrow && since < r.ts && r.state.counted

namespace Tables

variable (t : Tables)

def countedRows (chainId : Int) (escrow : String) (since : Int) : List SpendRow :=
  countedSince chainId escrow since t.spend.rows

def windowUnits (chainId : Int) (escrow token : String) (since : Int) : Except Exn Int :=
  sumInts (((t.countedRows chainId escrow since).filter (·.token == token)).map (·.amountUnits))

def windowCount (chainId : Int) (escrow : String) (since : Int) : Int :=
  (t.countedRows chainId escrow since).length

def channelUnits (chainId : Int) (escrow channelId : String) (since : Int) : Except Exn Int :=
  sumInts
    (((t.countedRows chainId escrow since).filter (·.channelId == channelId)).map (·.amountUnits))

def channelCount (chainId : Int) (escrow channelId : String) (since : Int) : Int :=
  ((t.countedRows chainId escrow since).filter (·.channelId == channelId)).length

def distinctChannels (chainId : Int) (escrow : String) (since : Int) : Int :=
  ((t.countedRows chainId escrow since).map (·.channelId)).dedup.length

def gasOnlyCount (chainId : Int) (escrow : String) (since : Int) : Int :=
  ((t.countedRows chainId escrow since).filter (·.amountUnits == 0)).length

/-- The fee of a row: spent where known, otherwise what was authorised. -/
def feeOf (r : SpendRow) : Int :=
  if r.feeWeiSpent > 0 then r.feeWeiSpent else r.maxFeeWei * r.gasLimit

/-- `SUM` of the fees.  A fee beyond 64 bits is a floating-point number, and so is the sum then; what it
comes to where the integers among the fees overflow as well depends on the version of SQLite. -/
def feeWeiWindow (x : Externals) (chainId : Int) (escrow : String) (since : Int) :
    Except Exn Int :=
  let fees := (t.countedRows chainId escrow since).map feeOf
  if fees.all inInt64 then sumInts fees else .ok (x.floatTotal fees)

def get (k : Key) : Option SpendRow := t.spend.rows.find? fun r => r.key == k

/-- The live rows, in the order in which they were first written. -/
def unresolved : List SpendRow :=
  (t.spend.rows.filter fun r => r.state.live).insertionSort fun a b => a.seq ≤ b.seq

def attemptsFor (k : Key) : List TxAttempt :=
  (t.txAttempt.filter fun a => a.key == k).insertionSort fun a b => a.seq ≤ b.seq

def allocOf (chainId : Int) (fromAddr : String) : Option NonceAlloc :=
  t.nonceAlloc.find? fun a => a.chainId == chainId && a.fromAddr == fromAddr

end Tables

/-! ### Hash chains -/

/-- `_row_hash`. -/
def rowHash (x : Externals) (prev : String) (payload : List (String × Scalar)) : String :=
  hexString (x.keccak (encode prev ++ x.dumps payload))

/-- The chained subset of a row of `spend`. -/
def spendPayload (r : SpendRow) : List (String × Scalar) :=
  [("chain_id", .int r.chainId), ("escrow", .text r.escrow), ("receipt_id", .text r.receiptId),
    ("seq", .int r.seq), ("ts", .int r.ts), ("channel_id", .text r.channelId),
    ("depositor", .text r.depositor), ("token", .text r.token),
    ("amount_units", .int r.amountUnits), ("deadline", .int r.deadline),
    ("channel_nonce", .int r.channelNonce), ("calldata_keccak", .text r.calldataKeccak),
    ("to_addr", .text r.toAddr), ("from_addr", .text r.fromAddr)]

def Scalar.ofInt? : Option Int → Scalar
  | some n => .int n
  | none => .null

def Scalar.ofText? : Option String → Scalar
  | some s => .text s
  | none => .null

/-- The hashed subset of a row of `audit`. -/
def auditPayload (r : AuditRow) : List (String × Scalar) :=
  [("ts", .int r.ts), ("kind", .text r.kind), ("decision", .text r.decision),
    ("http_status", .int r.httpStatus), ("reason_code", .text r.reasonCode),
    ("chain_id", .ofInt? r.chainId), ("escrow", .ofText? r.escrow),
    ("receipt_id", .ofText? r.receiptId), ("channel_id", .ofText? r.channelId),
    ("amount_units", .ofInt? r.amountUnits), ("digest16", .text r.digest16),
    ("tx_hash", .text r.txHash)]

/-! ### Writes -/

/-- The rows with the row of a key changed. -/
def mapRow (k : Key) (f : SpendRow → SpendRow) (rows : List SpendRow) : List SpendRow :=
  rows.map fun r => if r.key = k then f r else r

theorem mem_mapRow {k : Key} {f : SpendRow → SpendRow} {rows : List SpendRow} {r' : SpendRow} :
    r' ∈ mapRow k f rows ↔ ∃ r ∈ rows, (r.key = k ∧ r' = f r) ∨ (r.key ≠ k ∧ r' = r) := by
  simp only [mapRow, List.mem_map]
  refine exists_congr fun r => and_congr_right fun _ => ?_
  split <;> simp_all [eq_comm]

/-- A change that keeps the key keeps the keys of all rows. -/
theorem map_key_mapRow {k : Key} {f : SpendRow → SpendRow} {rows : List SpendRow}
    (hf : ∀ r, (f r).key = r.key) : (mapRow k f rows).map SpendRow.key = rows.map SpendRow.key := by
  simp only [mapRow, List.map_map]
  refine List.map_congr_left fun r _ => ?_
  simp only [Function.comp_apply]
  split
  · exact hf r
  · rfl

/-- The attempts with `a` in the place of those that share a unique column with it. -/
def putAttempt (a : TxAttempt) (attempts : List TxAttempt) : List TxAttempt :=
  (attempts.filter fun b => b.txHash ≠ a.txHash && b.seq ≠ a.seq) ++ [a]

/-- The attempts with a new status on those with a hash. -/
def stampAttempts (txHash status : String) (attempts : List TxAttempt) : List TxAttempt :=
  attempts.map fun a => if a.txHash = txHash then { a with receiptStatus := status } else a

theorem mem_putAttempt {a b : TxAttempt} {attempts : List TxAttempt} :
    b ∈ putAttempt a attempts ↔ (b ∈ attempts ∧ b.txHash ≠ a.txHash ∧ b.seq ≠ a.seq) ∨ b = a := by
  simp [putAttempt]

theorem mem_stampAttempts {txHash status : String} {attempts : List TxAttempt} {b : TxAttempt}
    (h : b ∈ stampAttempts txHash status attempts) :
    ∃ a ∈ attempts, b = { a with receiptStatus := b.receiptStatus } := by
  obtain ⟨a, ha, rfl⟩ := List.mem_map.mp h
  refine ⟨a, ha, ?_⟩
  split <;> rfl

namespace Tables

variable (t : Tables)

/-- The rows as the new contents of `spend`, unless they break a constraint. -/
def setSpend (rows : List SpendRow) : Except Exn Tables :=
  if h : SpendConstraints rows then .ok { t with spend := ⟨rows, h⟩ }
  else .error (.sqlite "IntegrityError")

/-- `UPDATE spend` on the row with a key. -/
def updateRow (k : Key) (f : SpendRow → SpendRow) : Except Exn Tables :=
  t.setSpend (mapRow k f t.spend.rows)

/-- `INSERT OR IGNORE INTO nonce_alloc`. -/
def insertAlloc (a : NonceAlloc) : Tables :=
  if (t.allocOf a.chainId a.fromAddr).isSome then t
  else { t with nonceAlloc := t.nonceAlloc ++ [a] }

/-- `UPDATE nonce_alloc` on the entry of an address. -/
def updateAlloc (chainId : Int) (fromAddr : String) (f : NonceAlloc → NonceAlloc) : Tables :=
  { t with nonceAlloc := t.nonceAlloc.map fun a =>
      if a.chainId = chainId ∧ a.fromAddr = fromAddr then f a else a }

/-- `INSERT OR REPLACE INTO tx_attempt`. -/
def replaceAttempt (a : TxAttempt) : Tables := { t with txAttempt := putAttempt a t.txAttempt }

end Tables

end EscrowSigner
