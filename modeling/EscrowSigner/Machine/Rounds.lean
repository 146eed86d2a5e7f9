import EscrowSigner.Machine.Road

/-! The road of a sweep.  It differs from that of a request in what it says: a refusal is audited before
it is returned, and a sweep that has nothing to do says nothing. -/

namespace EscrowSigner.Machine

open Policy Process

variable {i : Instance} {env : World → Choice → Prop} {S J J₁ K : World → Prop} {w : World}
  {R : Option Decision → World → Prop}

/-- What a sweep says where `J` holds: nothing, or a refusal after it was audited. -/
structure Reports (i : Instance) (env : World → Choice → Prop) (S J : World → Prop)
    (R : Option Decision → World → Prop) : Prop where
  audit : ∀ d {w}, J w → Upholds env S J (· = d) (auditSweep i d) w
  silent : ∀ {w}, J w → R none w
  refused : ∀ {w}, J w → ∀ d, d.decision = "refused" → R (some d) w

/-- Where `J` holds, a sweep can also report a transfer. -/
structure ReportsSigned (i : Instance) (env : World → Choice → Prop) (S J : World → Prop)
    (R : Option Decision → World → Prop) : Prop extends Reports i env S J R where
  signed : ∀ {w}, J w → ∀ d, d.decision = "signed" → R (some d) w

/-- The road of a sweep. -/
structure SweepRoad (i : Instance) (env : World → Choice → Prop) (S J J₁ K : World → Prop)
    (R : Option Decision → World → Prop) : Prop extends Way i env S J J₁ K where
  reports : Reports i env S J R
  reportsVerified : Reports i env S J₁ R
  sign : ∀ recipient balance common row tx {w}, J₁ w →
    Arrives env S K R (signRow i row tx (sweepAnswers i recipient balance common)) w

/-- What a step of the ledger keeps, the audit of a sweep keeps. -/
theorem upholds_auditSweep (hledger : ∀ c w w', J w → LedgerStep c w w' → J w')
    (hS : ∀ w, J w → S w) (d : Decision) (hJ : J w) :
    Upholds env S J (· = d) (auditSweep i d) w :=
  (upholds_of_steps (footprint_audit (.tail _ (.head _))) hledger hS hJ).then fun _ _ hJ => .done hJ rfl

theorem Reports.refuseSweep (h : Reports i env S J R) (hJK : ∀ w, J w → K w) (common : Common)
    (status : Int) (reason : String) (hJ : J w) :
    Arrives env S K R (refuseSweep i common status reason) w :=
  Upholds.into (h.audit _ hJ) hJK fun _ _ hJ hd => h.refused hJ _ (hd ▸ rfl)

theorem ReportsSigned.closes (h : ReportsSigned i env S J R) (recipient : String) (balance : Int)
    (common : Common) : Closes env S J R (sweepAnswers i recipient balance common) where
  refused hJ _ _ _ := h.refuseSweep (fun _ h => h) _ _ _ hJ
  unavailable hJ := h.silent hJ
  accepted hJ _ := Upholds.into (h.audit _ hJ) (fun _ h => h) fun _ _ hJ hd => h.signed hJ _ (hd ▸ rfl)

/-! ### Sweeps in flight -/

theorem Upheld.settleSweepAttempts (h : Upheld i env S J) (row : SpendRow)
    (attempts : List TxAttempt) (hJ : J w) :
    Upholds env S J Anything (settleSweepAttempts i row attempts) w := by
  induction attempts generalizing w with
  | nil => exact .done hJ trivial
  | cons attempt attempts ih =>
    refine (h.rpc _ rfl hJ).caught.then fun receipt w hJ => ?_
    split
    · exact .done hJ trivial
    · exact .throw hJ
    · split
      · refine (h.settleReceipt row _ _ _ hJ).then fun settled w hJ => ?_
        split
        · exact .done hJ trivial
        · exact ih hJ
      · exact ih hJ

theorem Upheld.settleSweepRow (h : Upheld i env S J) (row : SpendRow) (hJ : J w) :
    Upholds env S J Anything (settleSweepRow i row) w := by
  refine (h.read _ hJ).then fun attempts w hJ => ?_
  refine (h.settleSweepAttempts row attempts hJ).then fun settled w hJ => ?_
  split
  · exact .done hJ trivial
  · have hoverdue : Upholds env S J Anything (sweepOverdue row) w := by
      unfold Policy.sweepOverdue
      split
      · exact .done hJ trivial
      · exact (h.now hJ).then fun _ _ hJ => .done hJ trivial
    refine hoverdue.then fun overdue w hJ => ?_
    split
    · exact (h.markDead _ _ hJ).then fun _ _ hJ => .done hJ trivial
    · exact .done hJ trivial

theorem Upheld.settleSweeps (h : Upheld i env S J) (rows : List SpendRow) (hJ : J w) :
    Upholds env S J Anything (settleSweeps i rows) w := by
  induction rows generalizing w with
  | nil => exact .done hJ trivial
  | cons row rows ih =>
    unfold Policy.settleSweeps
    split
    · refine (h.settleSweepRow row hJ).then fun settled w hJ => ?_
      split
      · exact ih hJ
      · exact .done hJ trivial
    · exact ih hJ

/-! ### The walk -/

theorem SweepRoad.refuseVerified (h : SweepRoad i env S J J₁ K R) (common : Common) (status : Int)
    (reason : String) (hJ : J₁ w) : Arrives env S K R (refuseSweep i common status reason) w :=
  h.reportsVerified.refuseSweep h.finish common status reason hJ

theorem SweepRoad.signSweep (h : SweepRoad i env S J J₁ K R) (recipient : String) (balance : Int)
    (data : Bytes) (common : Common) (fees : Fees) (hJ : J₁ w) :
    Arrives env S K R (signSweep i recipient balance data common fees) w := by
  refine Upholds.into (h.after.now hJ) h.finish fun time w hJ _ => ?_
  refine Upholds.into (Upholds.ofExcept hJ) h.finish fun receipt w hJ _ => ?_
  refine Upholds.into (h.after.reserveGasOnly _ hJ).caught h.finish fun r w hJ _ => ?_
  split
  · exact h.refuseVerified _ _ _ hJ
  · exact h.refuseVerified _ _ _ hJ
  · exact h.refuseVerified _ _ _ hJ
  · exact h.finish _ hJ
  · exact h.sign _ _ _ _ _ hJ

theorem SweepRoad.sweepBalance (h : SweepRoad i env S J J₁ K R) (recipient : String) (balance : Int)
    (hJ : J₁ w) : Arrives env S K R (sweepBalance i recipient balance) w := by
  refine Upholds.into (Upholds.ofExcept hJ) h.finish fun data w hJ _ => ?_
  refine Upholds.into (h.after.readFees _ _ hJ).caught h.finish fun r w hJ _ => ?_
  split
  · exact h.refuseVerified _ _ _ hJ
  · exact h.reportsVerified.silent hJ
  · exact h.finish _ hJ
  · split
    · exact h.refuseVerified _ _ _ hJ
    · exact h.signSweep recipient balance data _ _ hJ

theorem SweepRoad.startSweep (h : SweepRoad i env S J J₁ K R) (recipient : String) (hJ : J w) :
    Arrives env S K R (startSweep i recipient) w := by
  have hsilent : ∀ {w}, J w ∨ J₁ w → R none w := fun hJ =>
    hJ.elim h.reports.silent h.reportsVerified.silent
  refine Through.bind (h.verified (fun hJ => h.after.rpc _ rfl hJ) hJ) fun r w hr => ?_
  split
  · exact hr.elim (h.reports.refuseSweep h.start _ _ _) (h.refuseVerified _ _ _)
  · exact hsilent hr
  · exact hsilent hr
  · exact hr.elim (h.start _) (h.finish _)
  · split
    · exact h.reportsVerified.silent hr.1
    · exact h.sweepBalance recipient _ hr.1

/-- A sweep ends as its road says. -/
theorem SweepRoad.sweepProceeds (h : SweepRoad i env S J J₁ K R) (hJ : J w) :
    Arrives env S K R (sweepProceeds i) w := by
  unfold Policy.sweepProceeds
  generalize strip i.settings.sweepTo = recipient
  refine Upholds.into (h.before.memory hJ) h.start fun mem w hJ _ => ?_
  split
  · exact h.reports.silent hJ
  split
  · exact h.reports.silent hJ
  refine Upholds.into (h.before.read _ hJ) h.start fun rows w hJ _ => ?_
  refine Upholds.into (h.before.settleSweeps rows hJ) h.start fun settled w hJ _ => ?_
  split
  · exact h.startSweep _ hJ
  · exact h.reports.silent hJ

/-- One property all along the road of a sweep. -/
theorem UpheldSigning.sweepRoad (h : UpheldSigning i env S J)
    (hverify : ∀ {w}, J w → Upholds env S J Anything (verifyChainIdentity i false) w)
    (hr : ReportsSigned i env S J R) : SweepRoad i env S J J J R where
  before := h.toUpheld
  after := h.toUpheld
  verify hJ := (hverify hJ).mono (fun _ _ h => h) fun _ _ h => h.1
  start _ h := h
  finish _ h := h
  reports := hr.toReports
  reportsVerified := hr.toReports
  sign recipient balance common row tx _ hJ :=
    h.signRow (hr.closes recipient balance common) row tx hJ

end EscrowSigner.Machine
