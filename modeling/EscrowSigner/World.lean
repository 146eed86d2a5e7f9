import EscrowSigner.Process.Exec
import EscrowSigner.Ledger.Tables

/-! The world in which the service runs: its database, its memory, the clock, the chain, and a log
of what passes between the service and the outside.  The environment chooses what each step meets:
the time, whether a statement fails, what the chain answers. -/

namespace EscrowSigner

/-- A channel of the escrow, as the service reads it. -/
structure Channel where
  depositor : String
  hub : String
  token : String
  depositAmount : Int
  balance : Int
  usedAmount : Int
  expiresAt : Int
  nonce : Int
  status : Int
  closableAt : Int
  v2 : Bool
deriving DecidableEq, Repr

/-- The property `is_open`. -/
def Channel.isOpen (c : Channel) : Bool := c.status == 0

/-- The property `exists`. -/
def Channel.present (c : Channel) : Except Exn Bool := do
  let depositor ← intOfHex c.depositor
  return depositor != 0

/-- The calls that the service makes on its RPC pool. -/
inductive Query
  | chainId
  | domainSeparator (escrow : String)
  | hubAuthorized (escrow address : String)
  | tokenDecimals (token : String)
  | tokenBalance (token address : String)
  | getChannel (escrow : String) (channelId : Bytes)
  | receiptUsed (escrow : String) (receiptId : Bytes) (channelId : Option Bytes)
  | estimateGas (toAddr : String) (data : Bytes) (sender : String)
  | baseFeeWei
  | transactionCount (address block : String)
  | simulate (escrow : String) (data : Bytes) (sender : String)
  | sendRaw (raw : Bytes)
  | receipt (txHash : String)
deriving DecidableEq, Repr

/-- What a call returns when it raises nothing. -/
def Query.Answer : Query → Type
  | chainId | tokenDecimals _ | tokenBalance .. | estimateGas .. | baseFeeWei
  | transactionCount .. => Int
  | domainSeparator _ => Bytes
  | hubAuthorized .. | receiptUsed .. => Bool
  | getChannel .. => Channel
  | simulate .. => Unit
  | sendRaw _ => String
  | receipt _ => Json

/-- What the outside asks of the service. -/
inductive Call
  | boot
  | handle (rawBody : Bytes)
  | sweep
deriving DecidableEq, Repr

/-- What passes between the service and the outside, with its readings of the clock.  A signature
comes with two history variables, which the code does not pass on: the row that it is for, and the
time. -/
inductive Event
  | call (c : Call)
  | clock (instant : Nat)
  | rpc (q : Query) (answer : Except Exn q.Answer)
  | sign (row : SpendRow) (instant : Nat) (tx : Tx) (result : Except Exn Bytes)

/-- The state of the chain that truthful answers report: the hashes that have a receipt, with their
status, the receipts that each channel has collected, the number of account nonces that the key has
used up, and the time of the newest block. -/
structure Chain where
  receipts : List (String × Bool)
  collected : List (Bytes × Bytes)
  nonce : Int
  time : Int

/-- The database: the committed tables, and those of the transaction that is open. -/
structure Db where
  committed : Tables
  working : Option Tables

/-- The tables that a statement sees. -/
def Db.view (db : Db) : Tables := db.working.getD db.committed

/-- The tables after a statement: inside a transaction it is not yet committed. -/
def Db.write (db : Db) (t : Tables) : Db :=
  match db.working with
  | some _ => { db with working := some t }
  | none => { db with committed := t }

/-- A statement that writes what it sees changes nothing. -/
theorem Db.write_view (db : Db) : db.write db.view = db := by
  obtain ⟨committed, working⟩ := db
  cases working <;> rfl

/-- What the signer keeps in memory.  Instants are counted in nanoseconds. -/
structure Memory where
  ready : Bool
  notReadyReason : String
  chainOkUntil : Nat
deriving DecidableEq, Repr

/-- The memory of a process that has just started. -/
def Memory.fresh : Memory := ⟨false, "boot_reconciliation", 0⟩

structure World where
  db : Db
  mem : Memory
  clock : Nat
  chain : Chain
  log : List Event

/-- An exception in place of a statement: an error of the database, or a `foreign` one from the code
around it.  Some failures roll the open transaction back. -/
structure Fault where
  typeName : String
  rollsBack : Bool
  foreign : Bool := false
deriving DecidableEq, Repr

/-- The exception that is raised. -/
def Fault.exn (f : Fault) : Exn := if f.foreign then .other f.typeName else .sqlite f.typeName

theorem Fault.exn_eq (f : Fault) : f.exn = .sqlite f.typeName ∨ f.exn = .other f.typeName := by
  unfold Fault.exn
  split
  · exact .inr rfl
  · exact .inl rfl

/-- What the environment chooses for one step: the time, the state of the chain, whether an SQL
statement fails, what the RPC pool answers, and whether the signature fails. -/
structure Choice where
  now : Nat
  chain : Chain
  fault : Option Fault
  answer : (q : Query) → Except Exn q.Answer
  signFault : Option String

abbrev Code (α : Type) := Process Choice World Exn α

/-- The whole seconds of an instant: `int(clock())`. -/
def seconds (instant : Nat) : Int := (instant / 1000000000 : Nat)

theorem seconds_mono {a b : Nat} (h : a ≤ b) : seconds a ≤ seconds b :=
  Int.ofNat_le.mpr (Nat.div_le_div_right h)

namespace World

/-- Time and chain move on before each step. -/
def advance (c : Choice) (w : World) : World := { w with clock := c.now, chain := c.chain }

def record (w : World) (e : Event) : World := { w with log := e :: w.log }

/-- The tables that a statement sees. -/
def view (w : World) : Tables := w.db.view

/-- The tables that survive a crash. -/
def tables (w : World) : Tables := w.db.committed

def write (w : World) (t : Tables) : World := { w with db := w.db.write t }

def fail (w : World) (f : Fault) : World :=
  if f.rollsBack then { w with db := { w.db with working := none } } else w

end World

/-! ### The steps of the code -/

/-- A step that sees the world after time and chain have moved on. -/
def action {α : Type} (f : Choice → World → World × Except Exn α) : Code α :=
  .atomic fun c w => f c (w.advance c)

/-- `raise`. -/
def throwExn {α : Type} (e : Exn) : Code α := .raise e

/-- `self._clock()`. -/
def readClock : Code Nat := action fun c w => (w.record (.clock c.now), .ok c.now)

/-- `int(self._clock())`. -/
def now : Code Int := do
  let instant ← readClock
  return seconds instant

def readMemory : Code Memory := action fun _ w => (w, .ok w.mem)

def writeMemory (f : Memory → Memory) : Code Unit :=
  action fun _ w => ({ w with mem := f w.mem }, .ok ())

/-- The world after an SQL statement, and its result. -/
def statement {α : Type} (f : Tables → Except Exn (Tables × α)) (c : Choice) (w : World) :
    World × Except Exn α :=
  match c.fault with
  | some fault => (w.fail fault, .error fault.exn)
  | none =>
    match f w.view with
    | .ok (t, a) => (w.write t, .ok a)
    | .error e => (w, .error e)

@[simp] theorem World.fail_log (w : World) (f : Fault) : (w.fail f).log = w.log := by
  unfold World.fail
  split <;> rfl

@[simp] theorem statement_log {α : Type} (f : Tables → Except Exn (Tables × α)) (c : Choice)
    (w : World) : (statement f c w).1.log = w.log := by
  unfold statement
  split
  · exact w.fail_log _
  · split <;> rfl

/-- A fault between two transactions leaves the database as it is. -/
theorem World.fail_eq {w : World} {c : Choice} {fault : Fault} (h : w.db.working = none) :
    (w.advance c).fail fault = w.advance c := by
  unfold World.fail
  split
  · obtain ⟨⟨committed, working⟩, mem, clock, chain, log⟩ := w
    subst h
    rfl
  · rfl

/-- A statement between two transactions. -/
theorem statement_eq {α : Type} {f : Tables → Except Exn (Tables × α)} {c : Choice} {w : World}
    (h : w.db.working = none) :
    statement f c (w.advance c) =
      match c.fault with
      | some fault => (w.advance c, .error fault.exn)
      | none =>
        match f w.tables with
        | .ok (t, a) => ({ w.advance c with db := ⟨t, none⟩ }, .ok a)
        | .error e => (w.advance c, .error e) := by
  have hview : (w.advance c).view = w.tables := by
    simp [World.view, World.advance, Db.view, h, World.tables]
  unfold statement
  cases hc : c.fault with
  | some fault =>
    dsimp only
    rw [World.fail_eq h]
  | none =>
    dsimp only
    rw [hview]
    cases f w.tables with
    | error e => rfl
    | ok r =>
      dsimp only
      simp [World.write, World.advance, Db.write, h]

def sql {α : Type} (f : Tables → Except Exn (Tables × α)) : Code α := action (statement f)

/-- A `SELECT`. -/
def select {α : Type} (f : Tables → Except Exn α) : Code α :=
  sql fun t => do
    let a ← f t
    return (t, a)

/-- A read on a database between two operations. -/
theorem run_select_bind {α β : Type} {f : Tables → Except Exn α} {k : α → Code β} {w : World}
    {c : Choice} {script : List Choice} (hclosed : w.db.working = none) (hc : c.fault = none) :
    ((select f).bind k).run (c :: script) w =
      match f w.tables with
      | .ok a => (k a).run script (w.advance c)
      | .error e => (.raised e, w.advance c) := by
  have hview : (w.advance c).view = w.tables := by
    simp [World.view, World.advance, Db.view, hclosed, World.tables]
  have hwrite : (w.advance c).write w.tables = w.advance c := by
    obtain ⟨⟨committed, working⟩, mem, clock, chain, log⟩ := w
    subst hclosed
    rfl
  refine (Process.run_atomic_bind _ k c script w).trans ?_
  simp only [statement, hc, hview]
  cases f w.tables with
  | ok a => exact congrArg ((k a).run script) hwrite
  | error e => rfl

/-- A read between two transactions, with the choices that it leaves. -/
theorem exec_select {α : Type} {f : Tables → Except Exn α} {w : World} {c : Choice}
    {script : List Choice} (hclosed : w.db.working = none) :
    (select f).exec (c :: script) w =
      match c.fault, f w.tables with
      | some fault, _ => (.raised fault.exn, w.advance c, script)
      | none, .ok a => (.returned a, w.advance c, script)
      | none, .error e => (.raised e, w.advance c, script) := by
  obtain ⟨⟨committed, working⟩, mem, clock, chain, log⟩ := w
  subst hclosed
  refine (Process.exec_atomic _ c script _).trans ?_
  rw [statement_eq rfl]
  cases c.fault with
  | some fault => rfl
  | none =>
    simp only [World.tables]
    cases f committed <;> rfl

/-- An `INSERT` or `UPDATE`. -/
def update (f : Tables → Except Exn Tables) : Code Unit :=
  sql fun t => do
    let t' ← f t
    return (t', ())

/-- `BEGIN IMMEDIATE`. -/
def beginImmediate : Code Unit :=
  action fun c w =>
    match c.fault, w.db.working with
    | some fault, _ => (w.fail fault, .error fault.exn)
    | none, some _ => (w, .error (.sqlite "OperationalError"))
    | none, none => ({ w with db := { w.db with working := some w.tables } }, .ok ())

/-- `COMMIT`. -/
def commit : Code Unit :=
  action fun c w =>
    match c.fault, w.db.working with
    | some fault, _ => (w.fail fault, .error fault.exn)
    | none, some t => ({ w with db := ⟨t, none⟩ }, .ok ())
    | none, none => (w, .error (.sqlite "OperationalError"))

/-- `ROLLBACK`, which fails only when no transaction is open. -/
def rollback : Code Unit :=
  action fun _ w =>
    match w.db.working with
    | some _ => ({ w with db := ⟨w.tables, none⟩ }, .ok ())
    | none => (w, .error (.sqlite "OperationalError"))

/-- `self.db.in_transaction`. -/
def inTransaction : Code Bool := action fun _ w => (w, .ok w.db.working.isSome)

/-- A call on the RPC pool. -/
def rpc (q : Query) : Code q.Answer :=
  action fun c w => (w.record (.rpc q (c.answer q)), c.answer q)

/-- `bytes(account.sign_transaction(tx).raw_transaction)`, for a row of the ledger. -/
def signTransaction (x : Externals) (row : SpendRow) (tx : Tx) : Code Bytes :=
  action fun c w =>
    match c.signFault with
    | some name => (w.record (.sign row c.now tx (.error (.other name))), .error (.other name))
    | none =>
      (w.record (.sign row c.now tx (.ok (x.signTransaction tx))), .ok (x.signTransaction tx))

/-! ### The methods of the RPC pool -/

namespace RpcPool

def chainId : Code Int := rpc .chainId

def domainSeparator (escrow : String) : Code Bytes := rpc (.domainSeparator escrow)

def hubAuthorized (escrow address : String) : Code Bool := rpc (.hubAuthorized escrow address)

def tokenDecimals (token : String) : Code Int := rpc (.tokenDecimals token)

def tokenBalance (token address : String) : Code Int := rpc (.tokenBalance token address)

def getChannel (escrow : String) (channelId : Bytes) : Code Channel :=
  rpc (.getChannel escrow channelId)

def receiptUsed (escrow : String) (receiptId : Bytes) (channelId : Option Bytes) : Code Bool :=
  rpc (.receiptUsed escrow receiptId channelId)

def estimateGas (toAddr : String) (data : Bytes) (sender : String) : Code Int :=
  rpc (.estimateGas toAddr data sender)

def baseFeeWei : Code Int := rpc .baseFeeWei

def transactionCount (address block : String) : Code Int := rpc (.transactionCount address block)

def simulate (escrow : String) (data : Bytes) (sender : String) : Code Unit :=
  rpc (.simulate escrow data sender)

def sendRaw (raw : Bytes) : Code String := rpc (.sendRaw raw)

def receipt (txHash : String) : Code Json := rpc (.receipt txHash)

end RpcPool

end EscrowSigner
