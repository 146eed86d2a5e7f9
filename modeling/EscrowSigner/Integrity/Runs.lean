import EscrowSigner.History
import EscrowSigner.Integrity.Books

/-! Runs of the ledger: any sequence of its operations, stopped and reopened anywhere.  The rows of
`spend` only grow, and the books verify unless an audit row is written over a head that was left
behind. -/

namespace EscrowSigner.Integrity

open Ledger HashChain

variable {x : Externals} {g : Regime x} {w : World}

/-! ### Operations -/

/-- An operation of the ledger with its arguments. -/
inductive Operation
  | reserve (caps : Caps) (a : Request)
  | reserveGasOnly (caps : Caps) (a : GasOnlyRequest)
  | markSigned (row : SpendRow) (txHash rawKeccak : String)
  | markBroadcast (row : SpendRow) (txHash : String)
  | markMined (row : SpendRow) (txHash : String) (feeWei : Int)
  | markDead (row : SpendRow) (reason : String)
  | recordAttemptStatus (txHash status : String)
  | audit (f : AuditFields)
  | setNextNonce (chainId : Int) (fromAddr : String) (nonce : Int)
  | recordBoot (address : String) (chainId : Int) (escrow capsJson : String) (reconciled : Bool)
  | assertClockSane
  | tick
  | halt (reason : String)
  | clearHalt

namespace Operation

/-- The code of an operation, whatever it returns. -/
def code (x : Externals) : Operation → Code Unit
  | reserve caps a => do
    let _ ← Ledger.reserve x caps a
    return ()
  | reserveGasOnly caps a => do
    let _ ← Ledger.reserveGasOnly x caps a
    return ()
  | markSigned row txHash rawKeccak => Ledger.markSigned x row txHash rawKeccak
  | markBroadcast row txHash => Ledger.markBroadcast x row txHash
  | markMined row txHash feeWei => Ledger.markMined x row txHash feeWei
  | markDead row reason => Ledger.markDead x row reason
  | recordAttemptStatus txHash status => Ledger.recordAttemptStatus txHash status
  | audit f => Ledger.audit x f
  | setNextNonce chainId fromAddr nonce => Ledger.setNextNonce chainId fromAddr nonce
  | recordBoot address chainId escrow capsJson reconciled =>
    Ledger.recordBoot address chainId escrow capsJson reconciled
  | assertClockSane => Ledger.assertClockSane
  | tick => do
    let _ ← Ledger.tick
    return ()
  | halt reason => Ledger.halt reason
  | clearHalt => Ledger.clearHalt

/-- The execution of an operation on a script. -/
def run (x : Externals) (op : Operation) (script : List Choice) (w : World) :
    Process.Outcome Exn Unit × World := (op.code x).run script w

theorem does (op : Operation) (h : g.Closed w) :
    g.Does g.Fallen (fun _ w' => g.Closed w') (op.code x) w := by
  cases op with
  | reserve caps a => exact (h.reserve caps a).bind fun _ _ h' => .pure h'
  | reserveGasOnly caps a => exact (h.reserveGasOnly caps a).bind fun _ _ h' => .pure h'
  | markSigned row txHash rawKeccak => exact h.markSigned row txHash rawKeccak
  | markBroadcast row txHash => exact h.setState row _ _
  | markMined row txHash feeWei => exact h.setState row _ _
  | markDead row reason => exact h.markDead row reason
  | recordAttemptStatus txHash status => exact h.recordAttemptStatus txHash status
  | audit f => exact h.audit f
  | setNextNonce chainId fromAddr nonce => exact h.setNextNonce chainId fromAddr nonce
  | recordBoot address chainId escrow capsJson reconciled =>
    exact h.recordBoot address chainId escrow capsJson reconciled
  | assertClockSane => exact h.assertClockSane
  | tick => exact h.tick.bind fun _ _ h' => .pure h'
  | halt reason => exact h.halt reason
  | clearHalt => exact h.clearHalt

/-- What an operation leaves whose choices a regime allows. -/
theorem leaves (op : Operation) {script : List Choice}
    (hadmits : (op.code x).Admits (fun w c => g.env w.clock c) script w) (h : g.Closed w) :
    g.Safe (op.run x script w).2.tables ∧
      (Status.after (op.run x script w).1 = .running → g.Fallen (op.run x script w).2) := by
  have hm := Process.Wp.run (op.does h) hadmits
  unfold run
  cases ho : ((op.code x).run script w).1 with
  | returned a =>
    rw [ho] at hm
    exact ⟨Regime.Closed.safe hm, fun _ => Regime.Closed.fallen hm⟩
  | raised e =>
    rw [ho] at hm
    exact ⟨g.safe (Regime.Fallen.torn hm), fun _ => hm⟩
  | stopped =>
    rw [ho] at hm
    obtain ⟨_, hsafe⟩ := hm
    exact ⟨hsafe, fun h => by cases h⟩

theorem admits_of_forall (op : Operation) (henv : ∀ n c, g.env n c) (script : List Choice)
    (w : World) : (op.code x).Admits (fun w c => g.env w.clock c) script w :=
  (Process.admits_true _ script w).mono fun w c _ => henv w.clock c

end Operation

/-- The worlds that a sequence of operations reaches from a world.  An operation may be stopped
before any of its steps, any of its statements may fail, and the file may be reopened. -/
inductive Ran (x : Externals) (ok : World → Operation → List Choice → Prop) (status₀ : Status)
    (w₀ : World) : Status → World → Prop
  | start : Ran x ok status₀ w₀ status₀ w₀
  | operation {w : World} (op : Operation) (script : List Choice)
      (h : Ran x ok status₀ w₀ .running w) (hok : ok w op script) :
      Ran x ok status₀ w₀ (.after (op.run x script w).1) (op.run x script w).2
  | reopen {status : Status} {w : World} (h : Ran x ok status₀ w₀ status w) :
      Ran x ok status₀ w₀ .running w.restart

/-- The worlds that a sequence of operations reaches from a new database. -/
abbrev Books (x : Externals) (ok : World → Operation → List Choice → Prop) : Status → World → Prop :=
  Ran x ok .running .initial

variable {ok ok' : World → Operation → List Choice → Prop} {status status' : Status} {w' : World}

/-- What every operation keeps at every statement holds wherever a run stops, and between two
operations no transaction is open. -/
theorem Ran.always {P : Tables → Prop} (h : Ran x ok status w status' w') (hstart : P w.tables)
    (hclosed : status = .running → w.db.working = none) (hkept : ∀ t n, g.Kept t n ↔ P t)
    (hsafe : ∀ t, g.Safe t → P t) (henv : ∀ n c, g.env n c) :
    P w'.tables ∧ (status' = .running → w'.db.working = none) := by
  induction h with
  | start => exact ⟨hstart, hclosed⟩
  | operation op script h hok ih =>
    obtain ⟨hs, hf⟩ := op.leaves (op.admits_of_forall henv script _) ⟨ih.2 rfl, (hkept _ _).mpr ih.1⟩
    exact ⟨hsafe _ hs, fun hr => (hf hr).1⟩
  | reopen h ih => exact ⟨ih.1, fun _ => rfl⟩

/-- The books are sound wherever a run stops. -/
theorem Ran.sound (h : Books x ok status w) :
    Sound x w.tables ∧ (status = .running → w.db.working = none) :=
  Ran.always (g := soundRegime x) h sound_empty (fun _ => rfl) (fun _ _ => Iff.rfl) (fun _ h => h)
    fun _ _ => trivial

/-! ### Verification -/

/-- An operation that appends to the audit log finds its head in place. -/
def FindsHead (x : Externals) (w : World) (op : Operation) (script : List Choice) : Prop :=
  Settled w.tables ∨ (op.run x script w).2.tables.audit = w.tables.audit

theorem Ran.auditChained (h : Books x (FindsHead x) status w) : AuditChained x w.tables := by
  induction h with
  | start => trivial
  | @operation w op script h hok ih =>
    rcases hok with hsettled | hsame
    · exact (op.leaves (g := settledRegime x) (op.admits_of_forall (fun _ _ => trivial) script w)
        ⟨h.sound.2 rfl, ih, hsettled⟩).1
    · unfold AuditChained
      rw [hsame]
      exact ih
  | reopen h ih => exact ih

/-- While every operation that appends to the audit log finds its head in place, the books verify
wherever a run stops and is reopened, and between any two operations. -/
theorem books_verify (h : Books x (FindsHead x) status w) {c c' : Choice} (hc : c.fault = none)
    (hc' : c'.fault = none) :
    ((verifyChains x).run [c, c'] w.restart).1 = .returned () ∧
      (status = .running → ((verifyChains x).run [c, c'] w).1 = .returned ()) := by
  have hv : Verifies x w.tables := h.sound.1.verifies_iff.mpr h.auditChained
  exact ⟨(verifyChains_run (w := w.restart) rfl hc hc').1 hv,
    fun hr => (verifyChains_run (h.sound.2 hr) hc hc').1 hv⟩

/-- An entry of the decision log. -/
def entry : Operation :=
  .audit ⟨"request", "refused", 422, "", none, none, none, none, none, "", ""⟩

/-- The choice for a step at which nothing fails. -/
def quiet : Choice where
  now := 0
  chain := ⟨[], [], 0, 0⟩
  fault := none
  answer _ := .error (.rpcUnavailable "")
  signFault := none

/-- The log after one more entry, stopped after some steps. -/
def logEntry (steps : Nat) (w : World) : Process.Outcome Exn Unit × World :=
  entry.run Sample.plain (List.replicate steps quiet) w

/-- A debit of one cent. -/
def cent : Request where
  chainId := Config.chainId
  escrow := Sample.escrow
  receiptId := "0x01"
  channelId := "0x02"
  depositor := Sample.depositor
  token := Config.token
  amountUnits := 10000
  deadline := 100
  channelNonce := 0
  calldataKeccak := "0x03"
  toAddr := Sample.escrow
  gasLimit := 100000
  hubGasHint := 100000
  maxFeeWei := 1
  fromAddr := Sample.address

/-- The reservation of the debit, stopped after some steps. -/
def reserveCent (steps : Nat) (w : World) : Process.Outcome Exn Unit × World :=
  Operation.run Sample.plain (.reserve Sample.unlimited cent) (List.replicate steps quiet) w

/-- After an entry and a reservation that was stopped inside its transaction, the file was reopened and
the debit reserved. -/
def retriedWorld : World := (reserveCent 60 (reserveCent 20 (logEntry 6 .initial).2).2.restart).2

theorem books_verify_after_stop :
    Status.after (reserveCent 20 (logEntry 6 .initial).2).1 = .stopped ∧
      retriedWorld.tables.audit.length = 1 ∧ retriedWorld.tables.spend.rows.length = 1 ∧
      ((verifyChains Sample.plain).run [quiet, quiet] retriedWorld.restart).1 = .returned () ∧
      ((verifyChains Sample.plain).run [quiet, quiet] retriedWorld).1 = .returned () := by
  have hentered : Status.after (logEntry 6 .initial).1 = .running := by decide +kernel
  have hsettled : Settled (logEntry 6 .initial).2.tables := by decide +kernel
  have hlogged : Books Sample.plain (FindsHead Sample.plain) .running (logEntry 6 .initial).2 :=
    hentered ▸ Ran.start.operation entry (List.replicate 6 quiet) (.inl rfl)
  have hstopped := hlogged.operation (.reserve Sample.unlimited cent) (List.replicate 20 quiet)
    (.inl hsettled)
  have hagain : Settled (reserveCent 20 (logEntry 6 .initial).2).2.restart.tables := by decide +kernel
  have hretried := hstopped.reopen.operation (.reserve Sample.unlimited cent)
    (List.replicate 60 quiet) (.inl hagain)
  have hstatus : Status.after (reserveCent 60 (reserveCent 20 (logEntry 6 .initial).2).2.restart).1 =
      .running := by decide +kernel
  have hquiet : quiet.fault = none := rfl
  obtain ⟨hreopened, hopen⟩ := books_verify hretried hquiet hquiet
  exact ⟨by decide +kernel, by decide +kernel, by decide +kernel, hreopened, hopen hstatus⟩

/-- An audit row that was written without its head, then another: the books no longer verify. -/
theorem books_not_verify :
    ∃ w, Books Sample.plain (fun _ _ _ => True) .running w ∧
      ∃ message, ((verifyChains Sample.plain).run [quiet, quiet] w).1 =
        .raised (.ledgerUnavailable message) := by
  have hreach := ((Ran.start : Books Sample.plain (fun _ _ _ => True) _ _).operation entry
    (List.replicate 5 quiet) trivial).reopen.operation entry (List.replicate 6 quiet) trivial
  have hstatus : Status.after (logEntry 6 (logEntry 5 .initial).2.restart).1 = .running := by
    decide +kernel
  have hbroken : (verifyAudit Sample.plain
      (logEntry 6 (logEntry 5 .initial).2.restart).2.tables).toOption = none := by decide +kernel
  refine ⟨_, hstatus ▸ hreach, (verifyChains_run (hreach.sound.2 hstatus) rfl rfl).2 fun hv => ?_⟩
  have hok : verifyAudit Sample.plain
      (logEntry 6 (logEntry 5 .initial).2.restart).2.tables = .ok () := verifyAudit_iff.mpr hv.2
  rw [hok] at hbroken
  cases hbroken

end EscrowSigner.Integrity
