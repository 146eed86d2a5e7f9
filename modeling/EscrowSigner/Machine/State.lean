import EscrowSigner.Service

/-! The signer as a state machine.  Its state is what the books commit, what passed between the
service and the outside, and a phase that says what the call in progress has established.  Memory,
open transactions, the audit log and the order of single statements are left behind. -/

namespace EscrowSigner.Machine

open Policy
open Calldata (DebitCall ExpireCall)

/-! ### The log of a call -/

/-- The call in progress: the newest one of the log. -/
def request : List Event → Option Call
  | [] => none
  | .call c :: _ => some c
  | _ :: log => request log

/-- The events of the log since the newest call. -/
def session : List Event → List Event
  | [] => []
  | .call _ :: _ => []
  | e :: log => e :: session log

theorem mem_of_mem_session {e : Event} {log : List Event} (h : e ∈ session log) : e ∈ log := by
  induction log with
  | nil => exact h
  | cons e' log ih =>
    cases e' with
    | call c => cases h
    | clock t => exact List.mem_cons.mpr ((List.mem_cons.mp h).imp id ih)
    | rpc q a => exact List.mem_cons.mpr ((List.mem_cons.mp h).imp id ih)
    | sign row t tx r => exact List.mem_cons.mpr ((List.mem_cons.mp h).imp id ih)

/-! ### Plans -/

/-- What a call has decided to sign: the collection of a debit or of an expired channel, or a
transfer of proceeds. -/
inductive Plan
  | debit (body : Bytes) (env : Envelope) (call : DebitCall) (channel : Channel) (fees : Fees)
  | expire (body : Bytes) (env : Envelope) (call : ExpireCall) (fees : Fees)
  | sweep (recipient : String) (balance : Int) (data : Bytes) (receipt : String) (fees : Fees)

namespace Plan

variable (i : Instance)

/-- The reservation of the collection of an expired channel. -/
def expireRequest (env : Envelope) (call : ExpireCall) (fees : Fees) : Ledger.GasOnlyRequest :=
  gasOnlyRequest i (expireReceipt i call.channelId) (hexString call.channelId) env.data
    (lower env.toAddr) fees

/-- The reservation of a sweep. -/
def sweepRequest (data : Bytes) (receipt : String) (fees : Fees) : Ledger.GasOnlyRequest :=
  gasOnlyRequest i receipt sweepChannel data (lower Config.token) fees

/-- The reservation of a plan. -/
def request : Plan → Ledger.Request
  | debit _ env call channel fees => debitRequest i env.toAddr env.data env.gas call channel fees
  | expire _ env call fees => (expireRequest i env call fees).request
  | sweep _ _ data receipt fees => (sweepRequest i data receipt fees).request

/-- The row that a plan revives. -/
def revived : Plan → Int → Int → Int → SpendRow → SpendRow
  | debit _ env call channel fees =>
    (debitRequest i env.toAddr env.data env.gas call channel fees).revived
  | expire _ env call fees => (expireRequest i env call fees).revived
  | sweep _ _ data receipt fees => (sweepRequest i data receipt fees).revived

/-- The transaction that a plan signs for its row. -/
def tx : Plan → SpendRow → Tx
  | debit _ env _ _ fees => rowTx i i.escrow env.data fees
  | expire _ env _ fees => rowTx i i.escrow env.data fees
  | sweep _ _ data _ fees => rowTx i Config.token data fees

def raw (p : Plan) (row : SpendRow) : Bytes := i.ext.signTransaction (p.tx i row)

/-- The hash under which the books hold a transaction. -/
def txHash (p : Plan) (row : SpendRow) : String := hexString (i.ext.keccak (p.raw i row))

def isDebit : Plan → Bool
  | debit .. => true
  | _ => false

end Plan

/-- What the books compare to tell whether a row is the same request. -/
def tupleOf (a : Ledger.Request) : String × String × Int × String × String :=
  (a.toAddr, a.channelId, a.amountUnits, a.receiptId, a.calldataKeccak)

/-! ### What stands behind a plan -/

/-- The fees come from an estimate and a base fee that the call read. -/
def Priced (i : Instance) (fees : Fees) (log : List Event) : Prop :=
  ∃ (toAddr : String) (data : Bytes) (estimate baseFee : Int),
    .rpc (.estimateGas toAddr data i.address) (.ok estimate) ∈ session log ∧
      .rpc .baseFeeWei (.ok baseFee) ∈ session log ∧ priceFees i estimate baseFee = .ok fees

/-- What a debit rests on: the request, and what its call read about the channel. -/
structure DebitEvidence (i : Instance) (body : Bytes) (env : Envelope) (call : DebitCall)
    (channel : Channel) (fees : Fees) (log : List Event) : Prop where
  asked : request log = some (.handle body)
  envelope : parseEnvelope i body = .ok env
  decoded : Calldata.decodeDebit i.ext env.data = .ok call
  read : .rpc (.getChannel i.escrow call.channelId) (.ok channel) ∈ session log
  admitted : ∃ instant, .clock instant ∈ session log ∧
    channelState i (seconds instant) channel call = .ok none
  unused : .rpc (.receiptUsed i.escrow call.receiptId (some call.channelId)) (.ok false) ∈
    session log
  depositor : checkDepositor i call channel = .ok none
  priced : Priced i fees log

/-- What the collection of an expired channel rests on. -/
structure ExpireEvidence (i : Instance) (body : Bytes) (env : Envelope) (call : ExpireCall)
    (fees : Fees) (log : List Event) : Prop where
  asked : request log = some (.handle body)
  envelope : parseEnvelope i body = .ok env
  decoded : Calldata.decodeExpire i.ext env.data = .ok call
  priced : Priced i fees log

/-- What a sweep rests on: the timer, and the balance that its call read. -/
structure SweepEvidence (i : Instance) (recipient : String) (balance : Int) (data : Bytes)
    (receipt : String) (fees : Fees) (log : List Event) : Prop where
  asked : request log = some .sweep
  chosen : recipient = strip i.settings.sweepTo
  read : .rpc (.tokenBalance Config.token i.address) (.ok balance) ∈ session log
  enough : i.settings.sweepMinUnits ≤ balance
  encoded : Calldata.encodeTransfer i.ext recipient balance = .ok data
  labelled : ∃ instant, .clock instant ∈ session log ∧
    sweepReceipt i recipient (seconds instant) balance = .ok receipt
  priced : Priced i fees log

def Justified (i : Instance) (log : List Event) : Plan → Prop
  | .debit body env call channel fees => DebitEvidence i body env call channel fees log
  | .expire body env call fees => ExpireEvidence i body env call fees log
  | .sweep recipient balance data receipt fees =>
    SweepEvidence i recipient balance data receipt fees log

/-- The windows of the caps on units, with their caps. -/
def unitWindows (caps : Caps) : List (Int × Int) :=
  [(600, caps.units10m), (3600, caps.units1h), (86400, caps.units24h)]

def totalUnits (rows : List SpendRow) : Int := (rows.map (·.amountUnits)).sum

/-- What the reads of a reservation at `cut` have to find. -/
structure WithinCaps (caps : Caps) (a : Ledger.Request) (cut : Int) (rows : List SpendRow) :
    Prop where
  units : ∀ window ∈ unitWindows caps, window.2 ≠ -1 →
    totalUnits ((countedSince a.chainId a.escrow (cut - window.1) rows).filter
      (·.token == a.token)) + a.amountUnits ≤ window.2
  channel : caps.unitsChannel24h ≠ -1 →
    totalUnits ((countedSince a.chainId a.escrow (cut - 86400) rows).filter
      (·.channelId == a.channelId)) + a.amountUnits ≤ caps.unitsChannel24h

/-- The total of the fees that a read finds. -/
def spentSince (x : Externals) (chainId : Int) (escrow : String) (since : Int)
    (rows : List SpendRow) : Except Exn Int :=
  let fees := (countedSince chainId escrow since rows).map Tables.feeOf
  if fees.all inInt64 then sumInts fees else .ok (x.floatTotal fees)

/-- What the read of the cap on fees has to find at `cut`. -/
def WithinFeeCap (i : Instance) (a : Ledger.Request) (cut : Int) (rows : List SpendRow) : Prop :=
  i.settings.caps.feeWei24h ≠ -1 →
    ∃ spent, spentSince i.ext a.chainId a.escrow (cut - 86400) rows = .ok spent ∧
      spent + a.maxFeeWei * a.gasLimit ≤ i.settings.caps.feeWei24h

/-- What the books allow of a plan: it stays within the cap on fees, a debit stays within the caps on
units, and a sweep is the only one. -/
def Fits (i : Instance) (cut : Int) (rows : List SpendRow) : Plan → Prop
  | p@(.debit ..) => 0 < (p.request i).amountUnits ∧
      WithinCaps i.settings.caps (p.request i) cut rows ∧ WithinFeeCap i (p.request i) cut rows
  | p@(.expire ..) => WithinFeeCap i (p.request i) cut rows
  | p@(.sweep ..) => (∀ r ∈ rows, r.channelId = sweepChannel → r.state.live = false) ∧
      WithinFeeCap i (p.request i) cut rows

/-- How a reservation changes the rows: a fresh row at the end, or a dead one revived. -/
inductive Places (i : Instance) (p : Plan) (seq ts nonce : Int) (rows : List SpendRow) :
    List SpendRow → SpendRow → Prop
  | fresh (head : String) (hkey : ∀ r ∈ rows, r.key ≠ (p.request i).key) :
      Places i p seq ts nonce rows (rows ++ [(p.request i).row i.ext seq ts nonce head])
        ((p.request i).row i.ext seq ts nonce head)
  | revived (r : SpendRow) (hr : r ∈ rows) (hkey : r.key = (p.request i).key)
      (hdead : r.state = .dead) (hamount : r.amountUnits = (p.request i).amountUnits)
      (hsame : p.isDebit = true → r.semanticTuple = tupleOf (p.request i)) :
      Places i p seq ts nonce rows (mapRow r.key (p.revived i seq ts nonce) rows)
        (p.revived i seq ts nonce r)

/-! ### Phases and states -/

/-- The way of a plan from its reservation to its broadcast. -/
inductive Stage
  | held
  | signed
  | marked
  | recorded
  | accepted
  | rejected
  | unanswered
deriving DecidableEq, Repr

/-- The stage that an answer to a broadcast leads to. -/
def Stage.after : Except Exn String → Stage
  | .ok _ => accepted
  | .error (.reverted _) => rejected
  | .error _ => unanswered

/-- What the chain said about a live row: nobody collected its receipt, read after the clock stood
at `instant`, or somebody did, or an attempt of it landed or failed. -/
inductive Finding
  | unused (instant : Nat)
  | collected
  | mined (txHash : String)
  | reverted (txHash : String)
deriving DecidableEq, Repr

/-- What the call in progress has established. -/
inductive Phase
  | idle
  | counted (nonce : Int)
  | found (row : SpendRow) (finding : Finding)
  | freed (row : SpendRow)
  | working (plan : Plan) (row : SpendRow) (stage : Stage)
  | ended

/-- The phases in which nothing is left half done. -/
def Phase.settled : Phase → Bool
  | idle | counted _ | found .. => true
  | working _ _ stage =>
    match stage with
    | .recorded | .accepted | .rejected | .unanswered => true
    | .held | .signed | .marked => false
  | freed _ | ended => false

structure State where
  rows : List SpendRow
  attempts : List TxAttempt
  next : Int
  maxTs : Int
  maxSeq : Int
  log : List Event
  clock : Nat
  chain : Chain

/-- Time and chain move on. -/
def State.after (s : State) (c : Choice) : State := { s with clock := c.now, chain := c.chain }

/-- The next nonce of this instance's address. -/
def nextOf (i : Instance) (t : Tables) : Int :=
  ((t.allocOf Config.chainId i.address).map (·.nextNonce)).getD 0

/-- The state that committed tables, a log, a time and a chain stand for. -/
def stateAt (i : Instance) (t : Tables) (log : List Event) (clock : Nat) (chain : Chain) : State where
  rows := t.spend.rows
  attempts := t.txAttempt
  next := nextOf i t
  maxTs := t.clockGuard.maxTs
  maxSeq := t.clockGuard.maxSeq
  log := log
  clock := clock
  chain := chain

/-- The state of the machine that a world stands for. -/
def stateOf (i : Instance) (w : World) : State := stateAt i w.tables w.log w.clock w.chain

/-! ### Steps -/

/-- Whether a query is a broadcast. -/
def sends : Query → Bool
  | .sendRaw _ => true
  | _ => false

/-- The events that change nothing but the log. -/
inductive Passive (c : Choice) : Event → Prop
  | clock : Passive c (.clock c.now)
  | rpc (q : Query) (hq : sends q = false) : Passive c (.rpc q (c.answer q))

/-- What the answer to a query shows about a row. -/
inductive Shows (i : Instance) (s : State) (c : Choice) (row : SpendRow) : Query → Finding → Prop
  | unused (receiptId : Bytes) (instant : Nat)
      (hid : fromHex (row.receiptId.toList.drop 2) = .ok receiptId)
      (ha : c.answer (.receiptUsed i.escrow receiptId (channelBytes row.channelId)) = .ok false)
      (ht : .clock instant ∈ s.log) :
      Shows i s c row (.receiptUsed i.escrow receiptId (channelBytes row.channelId))
        (.unused instant)
  | collected (receiptId : Bytes)
      (hid : fromHex (row.receiptId.toList.drop 2) = .ok receiptId)
      (ha : c.answer (.receiptUsed i.escrow receiptId (channelBytes row.channelId)) = .ok true) :
      Shows i s c row (.receiptUsed i.escrow receiptId (channelBytes row.channelId)) .collected
  | mined (a : TxAttempt) (receipt : Json) (ha : a ∈ s.attempts) (hkey : a.key = row.key)
      (hr : c.answer (.receipt a.txHash) = .ok receipt) (ht : receipt.truthy = true)
      (hs : receiptField i.ext receipt "status" "" = .ok "0x1") :
      Shows i s c row (.receipt a.txHash) (.mined a.txHash)
  | reverted (a : TxAttempt) (receipt : Json) (ha : a ∈ s.attempts) (hkey : a.key = row.key)
      (hr : c.answer (.receipt a.txHash) = .ok receipt) (ht : receipt.truthy = true)
      (hs : receiptField i.ext receipt "status" "" = .ok "0x0") :
      Shows i s c row (.receipt a.txHash) (.reverted a.txHash)

/-- Why a row is released. -/
inductive Falls (s : State) (r : SpendRow) : Phase → Prop
  | held (p : Plan) (row : SpendRow) (hkey : r.key = row.key) : Falls s r (.working p row .held)
  | rejected (p : Plan) (row : SpendRow) (hkey : r.key = row.key) :
      Falls s r (.working p row .rejected)
  | reverted (txHash : String) : Falls s r (.found r (.reverted txHash))
  | lapsed (instant : Nat) (h : r.deadline < seconds instant) :
      Falls s r (.found r (.unused instant))
  | neverSigned (instant : Nat) (hs : r.state = .reserved)
      (h : ∀ a ∈ s.attempts, a.key = r.key → a.accountNonce ≠ r.accountNonce) :
      Falls s r (.found r (.unused instant))
  | unsentSweep (hc : r.channelId = sweepChannel) (hs : r.state = .reserved) : Falls s r .idle
  | lostSweep (instant : Nat) (hc : r.channelId = sweepChannel) (hs : r.state.live = true)
      (ht : .clock instant ∈ s.log) (h : seconds instant - r.ts > sweepGiveUpS) : Falls s r .idle

/-- Whether the books show that a row was never signed. -/
def Unsigned (s : State) (r : SpendRow) : Prop :=
  r.state = .reserved ∧ ∀ a ∈ s.attempts, a.accountNonce ≠ r.accountNonce

instance (s : State) (r : SpendRow) : Decidable (Unsigned s r) := inferInstanceAs (Decidable (_ ∧ _))

/-- The phase after a row was released. -/
def Phase.released (s : State) (r : SpendRow) : Phase := if Unsigned s r then .freed r else .idle

/-- Which transaction, and which fee of it, a finding attributes to a row. The fee is that of the receipt
that was read last. -/
inductive Settles (i : Instance) (s : State) : Finding → Ledger.RowUpdates → Prop
  | collected : Settles i s .collected ⟨none, none, none⟩
  | mined (txHash : String) (receipt : Json) (fee : Int)
      (hread : s.log.head? = some (.rpc (.receipt txHash) (.ok receipt)))
      (hfee : receiptFee i.ext receipt = .ok fee) :
      Settles i s (.mined txHash)
        ⟨if txHash = "" then none else some txHash, if fee = 0 then none else some fee, none⟩

/-- The clock of the environment never steps back. -/
def Steady (env : State → Choice → Prop) : Prop := ∀ s c, env s c → s.clock ≤ c.now

/-- What has a receipt on the chain keeps it. -/
def Lasting (env : State → Choice → Prop) : Prop :=
  ∀ s c, env s c → ∀ h ∈ s.chain.receipts, h ∈ c.chain.receipts

/-- A time that the clock guard gives: a reading of the clock, or the newest time before it. -/
def Stamped (env : State → Choice → Prop) (s : State) (ts : Int) : Prop :=
  ∃ instant : Nat, (Steady env → instant ≤ s.clock) ∧ ts = max (seconds instant) s.maxTs

/-- A second that the call in progress read from the clock while the books held `rows`. -/
structure Shown (env : State → Choice → Prop) (rows : List SpendRow) (log : List Event) (cut : Int) :
    Prop where
  read : ∃ instant, .clock instant ∈ session log ∧ cut = seconds instant
  stood : ∃ s c, env s c ∧ s.rows = rows ∧ request s.log = request log ∧ cut = seconds c.now

/-- The integers of a row that later statements bind. -/
def Bindable (r : SpendRow) : Prop :=
  inInt64 r.amountUnits = true ∧ inInt64 r.accountNonce = true ∧ inInt64 r.maxFeeWei = true

/-- The steps of the machine.  Every step of the code is at most one of them. -/
inductive Step (i : Instance) (env : State → Choice → Prop)
    (ok : State → Call → List Choice → Prop) : Phase × State → Phase × State → Prop
  /-- A call comes in. -/
  | receive {φ : Phase} {s : State} (call : Call) (script : List Choice)
      (hφ : φ = .idle ∨ φ = .ended) (hok : ok s call script) :
      Step i env ok (φ, s) (.idle, { s with log := .call call :: s.log })
  /-- The call ends, or the process does. -/
  | finish {φ : Phase} {s : State} : Step i env ok (φ, s) (.ended, s)
  /-- What was established is no longer needed. -/
  | settle {φ : Phase} {s : State} (hφ : φ.settled = true) : Step i env ok (φ, s) (.idle, s)
  /-- A step that leaves rows, attempts and allocator alone. -/
  | pass {φ : Phase} {s : State} {c : Choice} {log : List Event} {ts seq : Int} (he : env s c)
      (hlog : log = s.log ∨ ∃ e, Passive c e ∧ log = e :: s.log)
      (hts : ts = s.maxTs ∨ Stamped env s ts) (hseq : s.maxSeq ≤ seq) :
      Step i env ok (φ, s) (φ, { s.after c with log := log, maxTs := ts, maxSeq := seq })
  /-- The status of an attempt is noted. -/
  | stamp {φ : Phase} {s : State} {c : Choice} (txHash status : String) (he : env s c) :
      Step i env ok (φ, s)
        (φ, { s.after c with attempts := stampAttempts txHash status s.attempts })
  /-- The chain says something about a live row. -/
  | find {φ : Phase} {s : State} {c : Choice} {row : SpendRow} {q : Query} {f : Finding}
      (he : env s c) (hφ : φ = .idle ∨ ∃ f', φ = .found row f') (hrow : row ∈ s.rows)
      (hlive : row.state.live = true) (hs : Shows i s c row q f) :
      Step i env ok (φ, s) (.found row f, { s.after c with log := .rpc q (c.answer q) :: s.log })
  /-- Boot reads the pending count. -/
  | count {s : State} {c : Choice} {n : Int} (he : env s c) (hboot : request s.log = some .boot)
      (ha : c.answer (.transactionCount i.address "pending") = .ok n) :
      Step i env ok (.idle, s) (.counted n,
        { s.after c with log := .rpc (.transactionCount i.address "pending") (.ok n) :: s.log })
  /-- Boot puts the allocator past the chain and past every live row. -/
  | setNext {s : State} {c : Choice} {n : Int} {live : List SpendRow} (he : env s c)
      (hlive : live.Perm (s.rows.filter (·.state.live))) :
      Step i env ok (.counted n, s)
        (.idle, { s.after c with next := max n (highestNonce live + 1) })
  /-- A plan reserves its row and takes the next nonce. -/
  | grant {s : State} {c : Choice} {p : Plan} {row : SpendRow} {rows : List SpendRow}
      {ts seq cut : Int} (he : env s c) (hj : Justified i s.log p) (hfit : Fits i cut s.rows p)
      (hcut : Steady env → cut ≤ ts) (hshown : Shown env s.rows s.log cut)
      (hts : Stamped env s ts) (hseq : s.maxSeq < seq)
      (hplace : Places i p seq ts s.next s.rows rows row) (hbind : Bindable row) :
      Step i env ok (.idle, s) (.working p row .held,
        { s.after c with rows := rows, next := s.next + 1, maxTs := ts, maxSeq := seq })
  /-- The key signs. -/
  | sign {s : State} {c : Choice} {p : Plan} {row : SpendRow} (he : env s c) :
      Step i env ok (.working p row .held, s) (.working p row .signed,
        { s.after c with log := .sign row c.now (p.tx i row) (.ok (p.raw i row)) :: s.log })
  /-- The key is asked to sign, and raises. -/
  | balk {s : State} {c : Choice} {p : Plan} {row : SpendRow} (e : Exn) (he : env s c) :
      Step i env ok (.working p row .held, s) (.working p row .held,
        { s.after c with log := .sign row c.now (p.tx i row) (.error e) :: s.log })
  /-- The row is marked as signed. -/
  | mark {s : State} {c : Choice} {p : Plan} {row : SpendRow} (he : env s c) :
      Step i env ok (.working p row .signed, s) (.working p row .marked,
        { s.after c with
          rows := mapRow row.key (fun r => { r with state := .signed, txHash := p.txHash i row })
            s.rows })
  /-- The attempt is recorded. -/
  | record {s : State} {c : Choice} {p : Plan} {row : SpendRow} {sentAt seq : Int}
      (he : env s c) (hnew : ∀ a ∈ s.attempts, a.seq < seq) (hseq : seq ≤ s.maxSeq) :
      Step i env ok (.working p row .marked, s) (.working p row .recorded,
        { s.after c with
          attempts := putAttempt
            { txHash := p.txHash i row
              chainId := row.chainId
              escrow := row.escrow
              receiptId := row.receiptId
              accountNonce := row.accountNonce
              rawKeccak := p.txHash i row
              maxFeeWei := row.maxFeeWei
              sentAt := sentAt
              receiptStatus := ""
              seq := seq } s.attempts })
  /-- The transaction is sent. -/
  | send {s : State} {c : Choice} {p : Plan} {row : SpendRow} (he : env s c) :
      Step i env ok (.working p row .recorded, s)
        (.working p row (.after (c.answer (.sendRaw (p.raw i row)))),
          { s.after c with
            log := .rpc (.sendRaw (p.raw i row)) (c.answer (.sendRaw (p.raw i row))) :: s.log })
  /-- The row is marked as broadcast. -/
  | broadcast {s : State} {c : Choice} {p : Plan} {row : SpendRow} (he : env s c) :
      Step i env ok (.working p row .accepted, s) (.idle,
        { s.after c with
          rows := mapRow row.key
            (fun r => { r with state := .broadcast, txHash := p.txHash i row }) s.rows })
  /-- A live row of which the chain said that it landed is mined. -/
  | mine {s : State} {c : Choice} {row : SpendRow} {f : Finding} {u : Ledger.RowUpdates}
      (he : env s c) (hu : Settles i s f u) :
      Step i env ok (.found row f, s)
        (.idle, { s.after c with rows := mapRow row.key (u.apply .mined) s.rows })
  /-- A row is released. -/
  | kill {φ : Phase} {s : State} {c : Choice} {r : SpendRow} (reason : String) (he : env s c)
      (hr : r ∈ s.rows) (hfalls : Falls s r φ) :
      Step i env ok (φ, s) (.released s r,
        { s.after c with
          rows := mapRow r.key (fun r => { r with state := .dead, deadReason := reason }) s.rows })
  /-- The nonce of a row that was never signed is given back. -/
  | giveBack {s : State} {c : Choice} {r : SpendRow} (he : env s c) :
      Step i env ok (.freed r, s) (.idle,
        { s.after c with next := if s.next = r.accountNonce + 1 then r.accountNonce else s.next })

end EscrowSigner.Machine
