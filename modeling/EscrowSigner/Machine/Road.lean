import EscrowSigner.Machine.Footprint
import EscrowSigner.Process.Through

/-! The road of a request.  A property of the world that every operation keeps is kept up to the
signature; the identity of the chain is verified on the way, and may establish more.  What holds at the
end is then a matter of the signature and the broadcast alone. -/

namespace EscrowSigner.Machine

open Policy Process
open Calldata (DebitCall ExpireCall)

variable {α β : Type} {env : World → Choice → Prop} {S J J₁ K : World → Prop} {w : World}

/-! ### Parts that keep a property -/

/-- From `w` the code keeps `J`, what it returns meets `Q`, and `S` holds wherever it can be stopped. -/
abbrev Upholds (env : World → Choice → Prop) (S J : World → Prop) (Q : α → Prop) (p : Code α)
    (w : World) : Prop :=
  p.Through env S (fun _ => J) (fun a w' => J w' ∧ Q a) w

/-- Nothing is said of what the code returns. -/
def Anything (_ : α) : Prop := True

section Rules

variable {Q : α → Prop} {P : β → Prop} {R : β → World → Prop}

theorem Upholds.then {p : Code α} {f : α → Code β} (hp : Upholds env S J Q p w)
    (hf : ∀ a w', J w' → Upholds env S J P (f a) w') : Upholds env S J P (p >>= f) w :=
  Through.bind hp fun a w' h => hf a w' h.1

/-- A part that keeps `J` before one that ends otherwise. -/
theorem Upholds.into {p : Code α} {f : α → Code β} (hp : Upholds env S J Q p w)
    (hJK : ∀ w, J w → K w) (hf : ∀ a w', J w' → Q a → (f a).Through env S (fun _ => K) R w') :
    (p >>= f).Through env S (fun _ => K) R w :=
  Through.bind (P := fun a w' => J w' ∧ Q a) (hp.mono (fun _ w' => hJK w') fun _ _ h => h)
    fun a w' h => hf a w' h.1 h.2

theorem Upholds.caught {p : Code α} (hp : Upholds env S J Q p w) :
    Upholds env S J Anything p.attempt w :=
  (Through.attempt hp).mono (fun _ _ h => h) fun r w' h => by
    cases r with
    | ok a => exact ⟨h.1, trivial⟩
    | error e => exact ⟨h, trivial⟩

theorem Upholds.done {a : α} (hJ : J w) (ha : Q a) : Upholds env S J Q (pure a : Code α) w := ⟨hJ, ha⟩

theorem Upholds.throw {e : Exn} (hJ : J w) : Upholds env S J Q (throwExn e : Code α) w := hJ

theorem Upholds.ofExcept {r : Except Exn α} (hJ : J w) :
    Upholds env S J Anything (Process.ofExcept r : Code α) w :=
  Through.ofExcept (fun _ _ => ⟨hJ, trivial⟩) fun _ _ => hJ

end Rules

/-! ### Calls on the chain and on the key -/

/-- A call on the pool, by its answer. -/
theorem through_rpc {q : Query} (P : Except Exn q.Answer → World → Prop) (hS : S w)
    (h : ∀ c, env w c → P (c.answer q) ((w.advance c).record (.rpc q (c.answer q)))) :
    (rpc q).Through env S (fun e => P (.error e)) (fun a => P (.ok a)) w := by
  refine .atomic hS fun c hc => ?_
  have hP := h c hc
  dsimp only
  cases ha : c.answer q with
  | ok a =>
    rw [ha] at hP
    exact hP
  | error e =>
    rw [ha] at hP
    exact hP

/-- A signature, by what came of it. -/
theorem through_sign {x : Externals} {row : SpendRow} {tx : Tx} (P : Except Exn Bytes → World → Prop)
    (hS : S w) (h : ∀ c r, env w c → P r ((w.advance c).record (.sign row c.now tx r))) :
    (signTransaction x row tx).Through env S (fun e => P (.error e)) (fun raw => P (.ok raw)) w := by
  refine .atomic hS fun c hc => ?_
  dsimp only
  cases hfault : c.signFault with
  | some name => exact h c _ hc
  | none => exact h c _ hc

/-- Every operation of which a request is made, up to the signature, keeps `J`. -/
structure Upheld (i : Instance) (env : World → Choice → Prop) (S J : World → Prop) : Prop where
  clock : ∀ {w}, J w → Upholds env S J Anything readClock w
  memory : ∀ {w}, J w → Upholds env S J Anything readMemory w
  rpc : ∀ q, sends q = false → ∀ {w}, J w → Upholds env S J Anything (EscrowSigner.rpc q) w
  read : ∀ {α : Type} (f : Tables → Except Exn α) {w}, J w → Upholds env S J Anything (select f) w
  reserve : ∀ a {w}, J w → Upholds env S J Anything (Ledger.reserve i.ext i.settings.caps a) w
  reserveGasOnly : ∀ a {w}, J w →
    Upholds env S J Anything (Ledger.reserveGasOnly i.ext i.settings.caps a) w
  markMined : ∀ row txHash feeWei {w}, J w →
    Upholds env S J Anything (Ledger.markMined i.ext row txHash feeWei) w
  markDead : ∀ row reason {w}, J w → Upholds env S J Anything (Ledger.markDead i.ext row reason) w
  recordAttemptStatus : ∀ txHash status {w}, J w →
    Upholds env S J Anything (Ledger.recordAttemptStatus txHash status) w

/-- What a step of the ledger keeps, an operation of the ledger keeps. -/
theorem upholds_of_steps {p : Code α} (hp : p.Steps LedgerStep)
    (hledger : ∀ c w w', J w → LedgerStep c w w' → J w') (hS : ∀ w, J w → S w) (hJ : J w) :
    Upholds env S J Anything p w :=
  (hp.through hledger hS hJ).mono (fun _ _ h => h) fun _ _ h => ⟨h, trivial⟩

/-- What the steps of the ledger and the reads of the chain keep, every operation keeps. -/
theorem upheld_of_steps (i : Instance) (hledger : ∀ c w w', J w → LedgerStep c w w' → J w')
    (hrpc : ∀ q c w, sends q = false → J w → J ((w.advance c).record (.rpc q (c.answer q))))
    (hS : ∀ w, J w → S w) :
    Upheld i env S J where
  clock := upholds_of_steps (Steps.atomic fun _ _ => ⟨.keep, rfl, rfl, .inr rfl⟩) hledger hS
  memory := upholds_of_steps (Steps.atomic fun _ _ => ⟨.keep, rfl, rfl, .inl rfl⟩) hledger hS
  rpc q hq w hJ := by
    refine .atomic (hS w hJ) fun c _ => ?_
    have hnext := hrpc q c w hq hJ
    split
    · exact ⟨hnext, trivial⟩
    · exact hnext
  read f := upholds_of_steps (footprint_select f) hledger hS
  reserve a := upholds_of_steps (footprint_reserve _ a) hledger hS
  reserveGasOnly a := upholds_of_steps (footprint_reserveGasOnly _ a) hledger hS
  markMined row _ _ := upholds_of_steps (footprint_setState row _ _) hledger hS
  markDead row reason := upholds_of_steps (footprint_markDead row reason) hledger hS
  recordAttemptStatus txHash status :=
    upholds_of_steps (footprint_recordAttemptStatus txHash status) hledger hS

section Reconcile

variable {i : Instance}

theorem Upheld.now (h : Upheld i env S J) (hJ : J w) : Upholds env S J Anything now w :=
  (h.clock hJ).then fun _ _ hJ => .done hJ trivial

theorem Upheld.readFees (h : Upheld i env S J) (toAddr : String) (data : Bytes) (hJ : J w) :
    Upholds env S J Anything (readFees i toAddr data) w :=
  (h.rpc _ rfl hJ).then fun _ _ hJ => (h.rpc _ rfl hJ).then fun _ _ hJ => .done hJ trivial

theorem Upheld.settleReceipt (h : Upheld i env S J) (row : SpendRow) (txHash : String)
    (receipt : Json) (reason : String) (hJ : J w) :
    Upholds env S J Anything (settleReceipt i row txHash receipt reason) w := by
  refine (Upholds.ofExcept hJ).then fun status w hJ => ?_
  refine (h.recordAttemptStatus _ _ hJ).then fun _ w hJ => ?_
  split
  · exact (Upholds.ofExcept hJ).then fun fee w hJ =>
      (h.markMined _ _ _ hJ).then fun _ w hJ => .done hJ trivial
  split
  · exact (h.markDead _ _ hJ).then fun _ w hJ => .done hJ trivial
  · exact .done hJ trivial

theorem Upheld.reconcileAttempts (h : Upheld i env S J) (row : SpendRow) (attempts : List TxAttempt)
    (hJ : J w) : Upholds env S J Anything (reconcileAttempts i row attempts) w := by
  induction attempts generalizing w with
  | nil => exact .done hJ trivial
  | cons attempt attempts ih =>
    refine (h.rpc _ rfl hJ).then fun receipt w hJ => ?_
    split
    · refine (h.settleReceipt row _ receipt _ hJ).then fun settled w hJ => ?_
      split
      · exact .done hJ trivial
      · exact ih hJ
    · exact (h.recordAttemptStatus _ _ hJ).then fun _ w hJ => ih hJ

theorem Upheld.releaseRow (h : Upheld i env S J) (time : Int) (row : SpendRow)
    (attempts : List TxAttempt) (hJ : J w) :
    Upholds env S J Anything (releaseRow i time row attempts) w := by
  unfold Policy.releaseRow
  split
  · exact h.markDead _ _ hJ
  split
  · exact h.markDead _ _ hJ
  · exact .done hJ trivial

theorem Upheld.reconcileRow (h : Upheld i env S J) (time : Int) (row : SpendRow) (hJ : J w) :
    Upholds env S J Anything (reconcileRow i time row) w := by
  refine (Upholds.ofExcept hJ).then fun receiptId w hJ => (h.rpc _ rfl hJ).then fun used w hJ => ?_
  split
  · exact h.markMined _ _ _ hJ
  refine (h.read _ hJ).then fun attempts w hJ => ?_
  refine (h.reconcileAttempts row attempts hJ).then fun landed w hJ => ?_
  split
  · exact .done hJ trivial
  · exact h.releaseRow time row attempts hJ

theorem Upheld.reconcileRows (h : Upheld i env S J) (time : Int) (rows : List SpendRow) (hJ : J w) :
    Upholds env S J Anything (reconcileRows i time rows) w := by
  induction rows generalizing w with
  | nil => exact .done hJ trivial
  | cons row rows ih => exact (h.reconcileRow time row hJ).then fun _ w hJ => ih hJ

theorem Upheld.reconcile (h : Upheld i env S J) (hJ : J w) :
    Upholds env S J Anything (reconcile i) w := by
  refine (h.now hJ).then fun time w hJ => (h.read _ hJ).then fun rows w hJ => ?_
  exact (h.reconcileRows time rows hJ).then fun _ w hJ => .done hJ trivial

end Reconcile

/-! ### What a request says -/

/-- The statuses of the refusals that do not concern a cap. -/
def refusals : List Int := [400, 409, 422, 500, 503]

/-- Where `J` holds, a request can be refused or answered with an earlier hash: `R` allows it. -/
structure Speaks (J : World → Prop) (R : Decision → World → Prop) (common : Common) : Prop where
  refused : ∀ {w}, J w → ∀ {status}, status ∈ refusals → ∀ reason,
    R (refuse status reason common) w
  capped : ∀ {w}, J w → ∀ reason retryAfterS, R (refuse 429 reason common (some retryAfterS)) w
  replayed : ∀ {w}, J w → ∀ txHash receiptId,
    R (answer txHash "replayed" true { common with receiptId := receiptId }) w

/-- The way of a call: `J` is kept until the chain is verified, `J₁` from there to the signature, and
an exception leaves `K`. -/
structure Way (i : Instance) (env : World → Choice → Prop) (S J J₁ K : World → Prop) : Prop where
  before : Upheld i env S J
  after : Upheld i env S J₁
  verify : ∀ {w}, J w → (verifyChainIdentity i false).Through env S (fun _ => J) (fun _ => J₁) w
  start : ∀ w, J w → K w
  finish : ∀ w, J₁ w → K w

/-- The road of a request: it ends in `R` with a decision.  `C` holds of what its decisions have in
common. -/
structure Road (i : Instance) (env : World → Choice → Prop) (S J J₁ K : World → Prop)
    (R : Decision → World → Prop) (C : Common → Prop) : Prop extends Way i env S J J₁ K where
  speaks : ∀ {common}, C common → Speaks J R common
  speaksVerified : ∀ {common}, C common → Speaks J₁ R common
  sign : ∀ {common}, C common → ∀ row tx receiptId {w}, J₁ w →
    (signRow i row tx (requestAnswers common receiptId)).Through env S (fun _ => K) R w

section Walk

variable {i : Instance} {R : Decision → World → Prop} {C : Common → Prop} {common : Common}

/-- `p` ends as the road says. -/
abbrev Arrives (env : World → Choice → Prop) (S K : World → Prop) (R : α → World → Prop)
    (p : Code α) (w : World) : Prop := p.Through env S (fun _ => K) R w

theorem Speaks.refuseRead (h : Speaks J R common) (hJK : ∀ w, J w → K w) (e : Exn) (hJ : J w) :
    Arrives env S K R (refuseRead common e) w := by
  unfold Policy.refuseRead
  split
  · exact h.refused hJ (by decide) _
  · exact h.refused hJ (by decide) _
  · exact hJK _ hJ

theorem Speaks.refuseReservation (h : Speaks J R common) (hJK : ∀ w, J w → K w) (e : Exn)
    (hJ : J w) : Arrives env S K R (refuseReservation common e) w := by
  unfold Policy.refuseReservation
  split
  · exact h.capped hJ _ _
  · exact h.refused hJ (by decide) _
  · exact h.refused hJ (by decide) _
  · exact hJK _ hJ

theorem priceFees_refusals {estimate baseFee status : Int} {reason : String}
    (h : priceFees i estimate baseFee = .error (status, reason)) : status ∈ refusals := by
  unfold priceFees at h
  dsimp only at h
  split at h
  · cases h
    decide
  · split at h
    · cases h
      decide
    · cases h

/-- A simulation that fails releases the row. -/
theorem Road.simulateRow (h : Road i env S J J₁ K R C) (hC : C common) (row : SpendRow) (data : Bytes)
    (receiptId : String) {next : Code Decision}
    (hnext : ∀ {w}, J₁ w → Arrives env S K R next w) (hJ : J₁ w) :
    Arrives env S K R (simulateRow i row data (requestAnswers common receiptId) next) w := by
  have hspeaks := h.speaksVerified hC
  refine Upholds.into (h.after.rpc (.simulate i.escrow data i.address) rfl hJ).caught h.finish
    fun simulated w hJ _ => ?_
  split
  · exact hnext hJ
  · exact Upholds.into (h.after.markDead _ _ hJ) h.finish fun _ _ hJ _ =>
      hspeaks.refused hJ (by decide) _
  · exact Upholds.into (h.after.markDead _ _ hJ) h.finish fun _ _ hJ _ =>
      hspeaks.refused hJ (by decide) _
  · exact Upholds.into (h.after.markDead _ _ hJ) h.finish fun _ _ hJ _ => h.finish _ hJ

/-- From the reservation on, on either road. -/
theorem Road.reserved (h : Road i env S J J₁ K R C) (hC : C common) {reservation : Code SpendRow}
    (hreservation : ∀ {w}, J₁ w → Upholds env S J₁ Anything reservation w) (data : Bytes)
    (receiptId : String) (tx : SpendRow → Tx) (hJ : J₁ w) :
    Arrives env S K R (do
      match ← reservation.attempt with
      | .error e => refuseReservation common e
      | .ok row =>
        Policy.simulateRow i row data (requestAnswers common receiptId)
          (Policy.signRow i row (tx row) (requestAnswers common receiptId))) w := by
  refine Upholds.into (hreservation hJ).caught h.finish fun r w hJ _ => ?_
  cases r with
  | error e => exact (h.speaksVerified hC).refuseReservation h.finish e hJ
  | ok row => exact h.simulateRow hC row data receiptId (h.sign hC row _ receiptId) hJ

theorem Road.signDebit (h : Road i env S J J₁ K R C) (hC : C common) (e : Envelope)
    (call : DebitCall) (channel : Channel) (fees : Fees) (hJ : J₁ w) :
    Arrives env S K R (signDebit i e call channel common fees) w :=
  h.reserved hC (h.after.reserve _) e.data common.receiptId _ hJ

theorem Road.signExpire (h : Road i env S J J₁ K R C) (hC : C common) (e : Envelope)
    (pseudoReceipt channelId : String) (fees : Fees) (hJ : J₁ w) :
    Arrives env S K R (signExpire i e pseudoReceipt channelId common fees) w :=
  h.reserved hC (h.after.reserveGasOnly _) e.data pseudoReceipt _ hJ

/-- From the gas estimate on, on either road. -/
theorem Road.priced (h : Road i env S J J₁ K R C) (hC : C common) (data : Bytes)
    {next : Fees → Code Decision} (hnext : ∀ fees {w}, J₁ w → Arrives env S K R (next fees) w)
    (hJ : J₁ w) :
    Arrives env S K R (do
      match ← (Policy.readFees i i.escrow data).attempt with
      | .error e => refuseRead common e
      | .ok (estimate, baseFee) =>
        match priceFees i estimate baseFee with
        | .error (status, reason) => return refuse status reason common
        | .ok fees => next fees) w := by
  refine Upholds.into (h.after.readFees _ _ hJ).caught h.finish fun r w hJ _ => ?_
  cases r with
  | error e => exact (h.speaksVerified hC).refuseRead h.finish e hJ
  | ok reads =>
    dsimp only
    split
    · rename_i hfees
      exact (h.speaksVerified hC).refused hJ (priceFees_refusals hfees) _
    · exact hnext _ hJ

/-- What a read of the chain after its verification leaves. -/
def Verified (J J₁ : World → Prop) (Q : α → World → Prop) : Except Exn α → World → Prop
  | .ok a, w => J₁ w ∧ Q a w
  | .error _, w => J w ∨ J₁ w

/-- The verification, then reads that keep what it establishes. -/
theorem Way.verified (h : Way i env S J J₁ K) {p : Code α}
    (hp : ∀ {w}, J₁ w → Upholds env S J₁ Anything p w) (hJ : J w) :
    (do Policy.verifyChainIdentity i false; p : Code α).attempt.Through env S (fun _ => K)
      (Verified J J₁ fun _ _ => True) w := by
  have hreads : (do Policy.verifyChainIdentity i false; p : Code α).Through env S
      (fun _ w => J w ∨ J₁ w) (fun _ => J₁) w :=
    Through.bind ((h.verify hJ).mono (fun _ _ h => .inl h) fun _ _ h => h) fun _ w hJ =>
      (hp hJ).mono (fun _ _ h => .inr h) fun _ _ h => h.1
  refine (Through.attempt hreads).mono (fun _ _ h => h) fun r w h => ?_
  cases r with
  | ok a => exact ⟨h, trivial⟩
  | error e => exact h

theorem Upheld.channelReads (h : Upheld i env S J₁) (call : DebitCall) (hJ : J₁ w) :
    Upholds env S J₁ Anything (do
      let channel ← RpcPool.getChannel i.escrow call.channelId
      let time ← EscrowSigner.now
      match ← .ofExcept (channelState i time channel call) with
      | some reason => return .error reason
      | none => do
        if (← RpcPool.receiptUsed i.escrow call.receiptId (some call.channelId)) then
          return .error "receipt_already_used"
        else return .ok channel : Code (Except String Channel)) w := by
  refine (h.rpc _ rfl hJ).then fun channel w hJ => (h.now hJ).then fun time w hJ => ?_
  refine (Upholds.ofExcept hJ).then fun reason w hJ => ?_
  split
  · exact .done hJ trivial
  refine (h.rpc _ rfl hJ).then fun used w hJ => ?_
  split <;> exact .done hJ trivial

theorem Road.refused (h : Road i env S J J₁ K R C) (hC : C common) {status : Int}
    (hs : status ∈ refusals) (reason : String) (hJ : J w ∨ J₁ w) :
    R (refuse status reason common) w :=
  hJ.elim (fun hJ => (h.speaks hC).refused hJ hs reason) fun hJ =>
    (h.speaksVerified hC).refused hJ hs reason

theorem Road.refuseRead (h : Road i env S J J₁ K R C) (hC : C common) (e : Exn) (hJ : J w ∨ J₁ w) :
    Arrives env S K R (refuseRead common e) w :=
  hJ.elim (fun hJ => (h.speaks hC).refuseRead h.start e hJ) fun hJ =>
    (h.speaksVerified hC).refuseRead h.finish e hJ

theorem Road.freshDebit (h : Road i env S J J₁ K R C) (hC : C common) (e : Envelope)
    (call : DebitCall) (hJ : J w) : Arrives env S K R (freshDebit i e call common) w := by
  refine Through.bind (h.verified (fun hJ => h.after.channelReads call hJ) hJ) fun r w hr => ?_
  split
  · exact h.refused hC (by decide) _ hr
  · exact h.refuseRead hC _ hr
  · exact (h.speaksVerified hC).refused hr.1 (by decide) _
  · refine Upholds.into (Upholds.ofExcept hr.1) h.finish fun reason w hJ _ => ?_
    split
    · exact (h.speaksVerified hC).refused hJ (by decide) _
    · exact h.priced hC e.data (fun fees _ hJ => h.signDebit hC e call _ fees hJ) hJ

/-- What a replay leaves: a decision, or the world as a request finds it. -/
def AfterReplay (J : World → Prop) (R : Decision → World → Prop) : Option Decision → World → Prop
  | some d, w => R d w
  | none, w => J w

theorem Road.replay (h : Road i env S J J₁ K R C) (hC : C common) (row : SpendRow)
    (toAddr channelId : String) (call : DebitCall) (calldataKeccak : String) (hJ : J w) :
    Arrives env S K (AfterReplay J R) (replay i row toAddr channelId call calldataKeccak common) w := by
  have hspeaks := h.speaks hC
  unfold Policy.replay
  split
  · exact hspeaks.refused hJ (by decide) _
  split
  · exact hspeaks.refused hJ (by decide) _
  split
  · exact hspeaks.replayed hJ _ common.receiptId
  split
  · refine Upholds.into (h.before.reconcile hJ).caught h.start fun r w hJ _ => ?_
    split
    · exact hspeaks.refused hJ (by decide) _
    · exact hspeaks.refused hJ (by decide) _
    · exact h.start _ hJ
    · refine Upholds.into (h.before.read _ hJ) h.start fun found w hJ _ => ?_
      split
      · split
        · exact hspeaks.replayed hJ _ common.receiptId
        split
        · exact hJ
        · exact hspeaks.refused hJ (by decide) _
      · exact hspeaks.refused hJ (by decide) _
  · exact hJ

theorem Road.handleDebit (h : Road i env S J J₁ K R C) (e : Envelope) (call : DebitCall)
    (digest : String) (hC : C ⟨hexString call.receiptId, hexString call.channelId, call.amount, digest⟩)
    (hJ : J w) : Arrives env S K R (handleDebit i e call digest) w := by
  refine Upholds.into (h.before.now hJ) h.start fun time w hJ _ => ?_
  split
  · exact (h.speaks hC).refused hJ (by decide) _
  split
  · exact (h.speaks hC).refused hJ (by decide) _
  refine Upholds.into (h.before.read _ hJ) h.start fun found w hJ _ => ?_
  cases found with
  | none => exact h.freshDebit hC e call hJ
  | some existing =>
    refine Through.bind (h.replay hC existing _ _ call _ hJ) fun r w hr => ?_
    cases r with
    | some d => exact hr
    | none => exact h.freshDebit hC e call hr

theorem Road.freshExpire (h : Road i env S J J₁ K R C) (hC : C common) (e : Envelope)
    (call : ExpireCall) (pseudoReceipt channelId : String) (hJ : J w) :
    Arrives env S K R (freshExpire i e call pseudoReceipt channelId common) w := by
  refine Through.bind (h.verified (fun hJ => h.after.rpc _ rfl hJ) hJ) fun r w hr => ?_
  split
  · exact h.refused hC (by decide) _ hr
  · exact h.refuseRead hC _ hr
  · refine Upholds.into (h.after.now hr.1) h.finish fun time w hJ _ => ?_
    split
    · exact (h.speaksVerified hC).refused hJ (by decide) _
    · exact h.priced hC e.data (fun fees _ hJ => h.signExpire hC e _ _ fees hJ) hJ

theorem Road.handleExpire (h : Road i env S J J₁ K R C) (e : Envelope) (digest : String)
    (hC : ∀ common, common.amountUnits = 0 → C common) (hJ : J w) :
    Arrives env S K R (handleExpire i e digest) w := by
  have hspeaks : ∀ channelId, Speaks J R ⟨"", channelId, 0, digest⟩ := fun _ => h.speaks (hC _ rfl)
  unfold Policy.handleExpire
  split
  · exact (h.speaks (hC _ rfl)).refused hJ (by decide) _
  · exact h.start _ hJ
  · dsimp only
    split
    · exact (hspeaks _).refused hJ (by decide) _
    refine Upholds.into (h.before.read _ hJ) h.start fun found w hJ _ => ?_
    split
    · split
      · exact (hspeaks _).replayed hJ _ _
      · exact h.freshExpire (hC _ rfl) e _ _ _ hJ
    · exact h.freshExpire (hC _ rfl) e _ _ _ hJ

/-- The debit that an envelope asks for, if it asks for one. -/
def debitOf (i : Instance) (e : Envelope) : Option DebitCall :=
  let selector := Calldata.slice e.data 0 4
  if selector = Calldata.expireSelector i.ext then none
  else if selector ≠ Calldata.debitSelector i.ext then none
  else match Calldata.decodeDebit i.ext e.data with
    | .error _ => none
    | .ok call =>
      match Calldata.checkSignatureShape call with
      | .error _ => none
      | .ok () => some call

/-- The amount of the debit that a body asks for, and zero when it asks for none. -/
def debitAmount (i : Instance) (rawBody : Bytes) : Int :=
  match parseEnvelope i rawBody with
  | .error _ => 0
  | .ok e => ((debitOf i e).map DebitCall.amount).getD 0

theorem Road.dispatch (h : Road i env S J J₁ K R C) (e : Envelope)
    (hC : ∀ common, common.amountUnits = 0 ∨
      common.amountUnits = ((debitOf i e).map DebitCall.amount).getD 0 → C common) (hJ : J w) :
    Arrives env S K R (dispatch i e) w := by
  have hplain : ∀ common, common.amountUnits = 0 → C common := fun common hzero => hC common (.inl hzero)
  unfold Policy.dispatch
  unfold debitOf at hC
  dsimp only at hC ⊢
  split
  · exact h.handleExpire e _ hplain hJ
  rename_i hexpire
  rw [if_neg hexpire] at hC
  split
  · exact (h.speaks (hplain _ rfl)).refused hJ (by decide) _
  rename_i hdebit
  rw [if_neg hdebit] at hC
  unfold Policy.decodeRequest
  cases hdecoded : Calldata.decodeDebit i.ext e.data with
  | error err =>
    cases err with
    | calldata reason detail => exact (h.speaks (hplain _ rfl)).refused hJ (by decide) _
    | _ => exact h.start _ hJ
  | ok call =>
    simp only [hdecoded] at hC
    cases hshape : Calldata.checkSignatureShape call with
    | error err =>
      simp only [Bind.bind, Except.bind, hshape]
      cases err with
      | calldata reason detail => exact (h.speaks (hplain _ rfl)).refused hJ (by decide) _
      | _ => exact h.start _ hJ
    | ok _ =>
      simp only [hshape] at hC
      simp only [Bind.bind, Except.bind, Pure.pure, Except.pure, hshape]
      exact h.handleDebit e call _ (hC _ (.inr rfl)) hJ

/-- A request ends as its road says. -/
theorem Road.handle (h : Road i env S J J₁ K R C) (rawBody : Bytes)
    (hC : ∀ common, common.amountUnits = 0 ∨ common.amountUnits = debitAmount i rawBody → C common)
    (hJ : J w) : Arrives env S K R (handle i rawBody) w := by
  have hnone : C .none := hC _ (.inl rfl)
  have hhalted : Upholds env S J Anything Ledger.halted w :=
    (h.before.read _ hJ).then fun _ _ hJ => .done hJ trivial
  refine Upholds.into hhalted h.start fun reason w hJ _ => ?_
  split
  · exact (h.speaks hnone).refused hJ (by decide) _
  refine Upholds.into (h.before.memory hJ) h.start fun mem w hJ _ => ?_
  split
  · exact (h.speaks hnone).refused hJ (by decide) _
  unfold debitAmount at hC
  cases henv : parseEnvelope i rawBody with
  | error d =>
    obtain ⟨status, reason, hs, rfl⟩ := parseEnvelope_error i henv
    refine (h.speaks hnone).refused hJ ?_ _
    rcases hs with rfl | rfl <;> decide
  | ok e =>
    rw [henv] at hC
    exact h.dispatch e hC hJ

/-! ### One property all along the road -/

/-- The signature, its record and the broadcast keep `J` too. -/
structure UpheldSigning (i : Instance) (env : World → Choice → Prop) (S J : World → Prop) : Prop
    extends Upheld i env S J where
  sign : ∀ row tx {w}, J w → Upholds env S J Anything (signTransaction i.ext row tx) w
  send : ∀ raw {w}, J w → Upholds env S J Anything (RpcPool.sendRaw raw) w
  markSigned : ∀ row txHash rawKeccak {w}, J w →
    Upholds env S J Anything (Ledger.markSigned i.ext row txHash rawKeccak) w
  markBroadcast : ∀ row txHash {w}, J w →
    Upholds env S J Anything (Ledger.markBroadcast i.ext row txHash) w

/-- What the steps of the ledger, the calls on the chain and the signature keep, every operation
keeps. -/
theorem upheldSigning_of_steps (i : Instance) (hledger : ∀ c w w', J w → LedgerStep c w w' → J w')
    (hrpc : ∀ q c w, J w → J ((w.advance c).record (.rpc q (c.answer q))))
    (hsign : ∀ row tx r c w, J w → J ((w.advance c).record (.sign row c.now tx r)))
    (hS : ∀ w, J w → S w) :
    UpheldSigning i env S J where
  toUpheld := upheld_of_steps i hledger (fun q c w _ hJ => hrpc q c w hJ) hS
  sign row tx w hJ := (through_sign (fun _ => J) (hS w hJ) fun c r _ => hsign row tx r c w hJ).mono
    (fun _ _ h => h) fun _ _ h => ⟨h, trivial⟩
  send _ w hJ := (through_rpc (fun _ => J) (hS w hJ) fun c _ => hrpc _ c w hJ).mono
    (fun _ _ h => h) fun _ _ h => ⟨h, trivial⟩
  markSigned row txHash rawKeccak _ hJ :=
    upholds_of_steps (footprint_markSigned row txHash rawKeccak) hledger hS hJ
  markBroadcast row _ _ hJ := upholds_of_steps (footprint_setState row _ _) hledger hS hJ

/-- Where `J` holds, the answers to a broadcast end in `R`. -/
structure Closes (env : World → Choice → Prop) (S J : World → Prop) (R : α → World → Prop)
    (k : Answers α) : Prop where
  refused : ∀ {w}, J w → ∀ {status}, status ∈ refusals → ∀ reason,
    Arrives env S J R (k.refused status reason) w
  unavailable : ∀ {w}, J w → Arrives env S J R k.unavailable w
  accepted : ∀ {w}, J w → ∀ txHash, Arrives env S J R (k.accepted txHash) w

theorem UpheldSigning.signRow {R : α → World → Prop} {k : Answers α}
    (h : UpheldSigning i env S J) (hk : Closes env S J R k) (row : SpendRow) (tx : Tx) (hJ : J w) :
    Arrives env S J R (signRow i row tx k) w := by
  refine Upholds.into (h.sign row tx hJ).caught (fun _ h => h) fun signed w hJ _ => ?_
  split
  · exact Upholds.into (h.markDead _ _ hJ) (fun _ h => h) fun _ _ hJ _ => hk.refused hJ (by decide) _
  refine Upholds.into (h.markSigned _ _ _ hJ) (fun _ h => h) fun _ w hJ _ => ?_
  refine Upholds.into (h.send _ hJ).caught (fun _ h => h) fun sent w hJ _ => ?_
  split
  · exact Upholds.into (h.markDead _ _ hJ) (fun _ h => h) fun _ _ hJ _ => hk.refused hJ (by decide) _
  · exact hk.unavailable hJ
  · exact hJ
  · exact Upholds.into (h.markBroadcast _ _ hJ) (fun _ h => h) fun _ _ hJ _ => hk.accepted hJ _

/-- Where `J` holds, a request can also be answered with a new hash. -/
structure SpeaksSigned (J : World → Prop) (R : Decision → World → Prop) (common : Common) : Prop
    extends Speaks J R common where
  signed : ∀ {w}, J w → ∀ txHash receiptId,
    R (answer txHash "signed" false { common with receiptId := receiptId }) w

theorem SpeaksSigned.closes (h : SpeaksSigned J R common) (receiptId : String) :
    Closes env S J R (requestAnswers common receiptId) where
  refused hJ _ hs reason := h.refused hJ hs reason
  unavailable hJ := h.refused hJ (by decide) "broadcast_failed"
  accepted hJ txHash := h.signed hJ txHash receiptId

theorem UpheldSigning.road (h : UpheldSigning i env S J)
    (hverify : ∀ {w}, J w → Upholds env S J Anything (verifyChainIdentity i false) w)
    (hs : ∀ {common}, C common → SpeaksSigned J R common) : Road i env S J J J R C where
  before := h.toUpheld
  after := h.toUpheld
  verify hJ := (hverify hJ).mono (fun _ _ h => h) fun _ _ h => h.1
  start _ h := h
  finish _ h := h
  speaks hC := (hs hC).toSpeaks
  speaksVerified hC := (hs hC).toSpeaks
  sign hC row tx receiptId _ hJ := h.signRow ((hs hC).closes receiptId) row tx hJ

end Walk

end EscrowSigner.Machine
