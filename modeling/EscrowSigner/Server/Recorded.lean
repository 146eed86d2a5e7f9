import EscrowSigner.Codec
import EscrowSigner.History
import EscrowSigner.Integrity.Books
import EscrowSigner.Machine.Smooth
import EscrowSigner.Machine.Road
import EscrowSigner.Server.Receipts

/-! Which decisions the audit log records.  A decision is stored with the integers that it carries, and
a database holds integers of 64 bits only: the refusal of a debit of a larger amount is not stored. -/

namespace EscrowSigner.Server

open Policy Ledger Process HashChain
open Integrity (Regime SameLog ticked audited auditedHead auditRow)
open Machine

variable {x : Externals} {t t' t₀ : Tables} {w w' : World} {i : Instance} {body : Bytes}

/-! ### The audit chain -/

/-- No write to the audit log was cut in two: the head of the chain is the hash of its last row, and
the next number is new. -/
structure Tended (t : Tables) : Prop where
  head : t.auditHead = tip (·.rowHash) genesis (auditBySeq t)
  below : ∀ r ∈ t.audit, r.seq ≤ t.auditSeq

theorem auditBySeq_same (hl : SameLog t t') : auditBySeq t' = auditBySeq t := by
  unfold auditBySeq
  rw [hl.audit]

theorem Tended.same (h : Tended t) (hl : SameLog t t') : Tended t' where
  head := by
    rw [auditBySeq_same hl, hl.auditHead]
    exact h.head
  below r hr := by
    rw [hl.auditSeq]
    exact h.below r (hl.audit ▸ hr)

theorem verifyAudit_same (hl : SameLog t t') :
    verifyAudit x t' = .ok () ↔ verifyAudit x t = .ok () := by
  rw [verifyAudit_iff, verifyAudit_iff, auditBySeq_same hl]

theorem Tended.sorted (h : Tended t) (f : AuditFields) (ts : Int) :
    auditBySeq (auditedHead x t f ts) = auditBySeq t ++ [auditRow x t f ts] :=
  insertionSort_concat fun r hr => (h.below r hr).trans (Int.le_add_one le_rfl)

theorem Tended.auditedHead (h : Tended t) (f : AuditFields) (ts : Int) :
    Tended (auditedHead x t f ts) where
  head := by
    rw [h.sorted]
    show (auditRow x t f ts).rowHash = _
    exact tip_concat.symm
  below r hr := by
    rcases List.mem_append.mp hr with hr | hr
    · exact (h.below r hr).trans (Int.le_add_one le_rfl)
    · rw [List.mem_singleton.mp hr]
      exact le_rfl

/-- A row over the head of the chain neither breaks the chain nor mends it. -/
theorem Tended.verify_auditedHead (h : Tended t) (f : AuditFields) (ts : Int) :
    verifyAudit x (Integrity.auditedHead x t f ts) = .ok () ↔ verifyAudit x t = .ok () := by
  rw [verifyAudit_iff, verifyAudit_iff, h.sorted]
  refine chained_concat.trans ⟨fun hc => hc.1, fun hc => ⟨hc, ?_⟩⟩
  exact congrArg (fun head => auditHash x head (auditRow x t f ts)) h.head

/-! ### A writable database and a clock that does not step back -/

/-- No statement fails, and the clock does not step back.  The texts that the node answers with are
strings, so that the database can encode them: a lone surrogate is no part of one. -/
def Calm (w : World) (c : Choice) : Prop := c.fault = none ∧ w.clock ≤ c.now

/-- The audit log is whole, it verifies where it did on the tables `t₀`, and the clock is not behind
the guard. -/
structure Held (x : Externals) (t₀ t : Tables) (n : Nat) : Prop where
  tended : Tended t
  verifies : verifyAudit x t = .ok () ↔ verifyAudit x t₀ = .ok ()
  clock : t.clockGuard.maxTs ≤ seconds n

theorem Held.same {n : Nat} (h : Held x t₀ t n) (hl : SameLog t t') : Held x t₀ t' n where
  tended := h.tended.same hl
  verifies := (verifyAudit_same hl).trans h.verifies
  clock := hl.maxTs ▸ h.clock

theorem Held.ticked {n : Nat} (h : Held x t₀ t n) : Held x t₀ (Integrity.ticked t (seconds n)) n where
  tended := ⟨h.tended.head, h.tended.below⟩
  verifies := h.verifies
  clock := max_le le_rfl h.clock

theorem Held.auditedHead {n : Nat} (h : Held x t₀ t n) (f : AuditFields) (ts : Int) :
    Held x t₀ (auditedHead x t f ts) n where
  tended := h.tended.auditedHead f ts
  verifies := (h.tended.verify_auditedHead f ts).trans h.verifies
  clock := h.clock

theorem Held.later {n m : Nat} (h : Held x t₀ t n) (hm : n ≤ m) : Held x t₀ t m :=
  { h with clock := h.clock.trans (seconds_mono hm) }

/-- What is kept while a request is decided on that came in on the tables `t₀`. -/
def requestRegime (x : Externals) (t₀ : Tables) : Regime x where
  env n c := c.fault = none ∧ n ≤ c.now
  Kept := Held x t₀
  Broken := Held x t₀
  Safe _ := True
  safe _ := trivial
  broken h := h
  later h hc := h.later hc.2
  laterBroken h hc := h.later hc.2
  plain h hp := h.same hp.toSameLog
  tick h := h.ticked
  half _ _ _ := trivial
  fault _ _ _ hc hfault := absurd hc.1 hfault
  audit f ts h := h.auditedHead f ts
  place _ h _ hc := h.same hc.toSameLog

/-- Between two operations of a request that came in on the tables `t₀`. -/
structure Midway (x : Externals) (t₀ : Tables) (w : World) : Prop where
  closed : (requestRegime x t₀).Closed w
  logs : Logs t₀ w.tables

/-- An operation of the ledger that the regime allows keeps a request on its way. -/
theorem Midway.upholds {α : Type} {p : Code α} (h : Midway x t₀ w)
    (hdoes : (requestRegime x t₀).Does (requestRegime x t₀).Fallen
      (fun _ w' => (requestRegime x t₀).Closed w') p w)
    (hsteps : p.Steps LedgerStep) : Upholds Calm (fun _ => True) (Midway x t₀) Anything p w := by
  have hholds : Holds (Logs t₀) w.db := ⟨h.logs, fun t ht => by rw [h.closed.1] at ht; cases ht⟩
  have hlogs : p.Wp Calm (fun _ _ => True) (fun _ w' => Holds (Logs t₀) w'.db) w :=
    hsteps.wp (fun _ _ _ hI hstep => hstep.db.holds hI fun _ _ => Logs.trans)
      (fun _ _ _ _ => trivial) hholds
  have hclosed := Wp.weaken hdoes (fun _ _ (hc : Calm _ _) => hc) fun _ _ _ => trivial
  refine Wp.mono (Wp.and hclosed hlogs) fun r w' hr => ?_
  cases r with
  | ok a => exact ⟨⟨hr.1, hr.2.committed⟩, trivial⟩
  | error e => exact ⟨hr.1, hr.2.committed⟩

/-- A step that leaves the database alone. -/
theorem Midway.aside {α : Type} {f : Choice → World → World × Except Exn α} (h : Midway x t₀ w)
    (hdb : ∀ c w, (f c w).1.db = w.db) (hclock : ∀ c w, (f c w).1.clock = w.clock) :
    Upholds Calm (fun _ => True) (Midway x t₀) Anything (action f) w := by
  refine .atomic trivial fun c hc => ?_
  have hnext : Midway x t₀ (f c (w.advance c)).1 :=
    { closed := h.closed.step hc (hdb c _) (hclock c _)
      logs := by
        unfold World.tables
        rw [hdb]
        exact h.logs }
  split
  · exact ⟨hnext, trivial⟩
  · exact hnext

theorem Midway.rpc (h : Midway x t₀ w) (q : Query) :
    Upholds Calm (fun _ => True) (Midway x t₀) Anything (rpc q) w :=
  h.aside (fun _ _ => rfl) fun _ _ => rfl

theorem Midway.identify (h : Midway x t₀ w) :
    Upholds Calm (fun _ => True) (Midway x t₀) Anything (identifyChain i) w := by
  refine (h.rpc .chainId).then fun chainId w h => ?_
  split
  · exact .throw h
  refine (h.rpc (.domainSeparator _)).then fun found w h => ?_
  split
  · exact .throw h
  refine (h.rpc (.hubAuthorized _ _)).then fun authorized w h => ?_
  split
  · exact .throw h
  refine (h.rpc (.tokenDecimals _)).then fun decimals w h => ?_
  split
  · exact .throw h
  exact Upholds.then (h.aside (fun _ _ => rfl) fun _ _ => rfl) fun _ _ h =>
    h.aside (fun _ _ => rfl) fun _ _ => rfl

theorem Midway.verify (h : Midway x t₀ w) :
    Upholds Calm (fun _ => True) (Midway x t₀) Anything (verifyChainIdentity i false) w := by
  refine Upholds.then (Q := Anything) ?_ fun cached w h => ?_
  · exact Upholds.then (h.aside (fun _ _ => rfl) fun _ _ => rfl) fun _ _ h =>
      Upholds.then (h.aside (fun _ _ => rfl) fun _ _ => rfl) fun _ _ h => .done h trivial
  split
  · exact .done h trivial
  · exact h.identify

theorem upheld_midway (i : Instance) (t₀ : Tables) :
    UpheldSigning i Calm (fun _ => True) (Midway i.ext t₀) where
  clock h := h.aside (fun _ _ => rfl) fun _ _ => rfl
  memory h := h.aside (fun _ _ => rfl) fun _ _ => rfl
  rpc q _ _ h := h.rpc q
  read f _ h := h.upholds ((h.closed.select f).mono (fun _ h => h) fun _ _ h => h.1)
    (footprint_select f)
  reserve a _ h := h.upholds (h.closed.reserve _ a) (footprint_reserve _ a)
  reserveGasOnly a _ h := h.upholds (h.closed.reserveGasOnly _ a) (footprint_reserveGasOnly _ a)
  markMined row _ _ _ h := h.upholds (h.closed.setState row _ _) (footprint_setState row _ _)
  markDead row reason _ h := h.upholds (h.closed.markDead row reason) (footprint_markDead row reason)
  recordAttemptStatus txHash status _ h :=
    h.upholds (h.closed.recordAttemptStatus txHash status)
      (footprint_recordAttemptStatus txHash status)
  sign _ _ _ h := by
    refine h.aside (fun c w => ?_) fun c w => ?_
    · split <;> rfl
    · split <;> rfl
  send raw _ h := h.rpc (.sendRaw raw)
  markSigned row txHash rawKeccak _ h :=
    h.upholds (h.closed.markSigned row txHash rawKeccak) (footprint_markSigned row txHash rawKeccak)
  markBroadcast row _ _ h := h.upholds (h.closed.setState row _ _) (footprint_setState row _ _)

/-- The decision carries the amount `n` or none, a status that a database holds, and a name. -/
structure Bears (n : Int) (d : Decision) : Prop where
  amount : d.amountUnits = 0 ∨ d.amountUnits = n
  status : inInt64 d.status = true
  decision : d.decision ≠ ""

theorem bears_refuse {n status : Int} {common : Common} (reason : String) (retry : Option Int)
    (hamount : common.amountUnits = 0 ∨ common.amountUnits = n) (hstatus : inInt64 status = true) :
    Bears n (refuse status reason common retry) where
  amount := hamount
  status := hstatus
  decision := by show "refused" ≠ ""; decide

theorem bears_answer {n : Int} {common : Common} (txHash decision : String) (replayed : Bool)
    (hamount : common.amountUnits = 0 ∨ common.amountUnits = n) (hdecision : decision ≠ "") :
    Bears n (answer txHash decision replayed common) where
  amount := hamount
  status := by show inInt64 200 = true; decide
  decision := hdecision

theorem inInt64_refusals : ∀ status ∈ refusals, inInt64 status = true := by decide

theorem speaks_bears {n : Int} {common : Common}
    (hamount : common.amountUnits = 0 ∨ common.amountUnits = n) :
    SpeaksSigned (Midway x t₀) (fun d w => Midway x t₀ w ∧ Bears n d) common where
  refused h _ hs reason := ⟨h, bears_refuse reason none hamount (inInt64_refusals _ hs)⟩
  capped h reason retry := ⟨h, bears_refuse reason (some retry) hamount (by decide)⟩
  replayed h txHash _ := ⟨h, bears_answer txHash _ _ hamount (by decide)⟩
  signed h txHash _ := ⟨h, bears_answer txHash _ _ hamount (by decide)⟩

/-- A request keeps its way, and its decision carries the amount that it asks for, or none. -/
theorem Midway.handle (h : Midway i.ext t₀ w) :
    (handle i body).Under Calm (fun _ w' => Midway i.ext t₀ w')
      (fun d w' => Midway i.ext t₀ w' ∧ Bears (debitAmount i body) d) w :=
  ((upheld_midway i t₀).road (C := fun common =>
    common.amountUnits = 0 ∨ common.amountUnits = debitAmount i body) Midway.verify speaks_bears).handle
      body (fun _ h => h) h

/-! ### What is recorded -/

/-- The row shows the decision; an amount of zero is stored as `NULL`. -/
structure Shows (d : Decision) (r : AuditRow) : Prop where
  decision : r.decision = d.decision
  status : r.httpStatus = d.status
  reasonCode : r.reasonCode = d.reasonCode
  amount : r.amountUnits = if d.amountUnits = 0 then none else some d.amountUnits

/-- Between the tables `t` and `t'` exactly one row of the kind `request` was appended, it shows the
decision, and the extended chain verifies exactly when the chain did. -/
structure Recorded (x : Externals) (d : Decision) (t t' : Tables) : Prop where
  appended : ∃ added row, t'.audit = t.audit ++ added ∧
    added.filter (fun r => r.kind = "request") = [row] ∧ Shows d row
  extended : verifyAudit x t' = .ok () ↔ verifyAudit x t = .ok ()

section Gate

variable {es : List Event}

end Gate

/-! ### Requests -/

/-- A world between two calls: no write to its audit log was cut in two, and its clock is not behind
the guard of its ledger. -/
structure Settled (w : World) : Prop where
  closed : w.db.working = none
  tended : Tended w.tables
  clock : w.tables.clockGuard.maxTs ≤ seconds w.clock

instance (w : World) (c : Choice) : Decidable (Calm w c) := inferInstanceAs (Decidable (_ ∧ _))

end EscrowSigner.Server
