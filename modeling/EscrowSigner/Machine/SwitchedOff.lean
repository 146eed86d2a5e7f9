import EscrowSigner.Integrity.Unlimited
import EscrowSigner.Machine.Answers

/-! A limit that is switched off.  A request or a sweep with a window switched off is never refused on
account of it, and ends as with any other setting of it that does not refuse. -/

namespace EscrowSigner.Machine

open Policy Process
open Calldata (DebitCall ExpireCall)
open Integrity (Faultless Denied Unbindable)

/-- The instance with one of its limits set to `v`. -/
def setLimit (i : Instance) (l : CapSetting) (v : Int) : Instance :=
  { i with settings := l.write i.settings v }

/-- A refusal on account of a limit. -/
def OnAccount (l : CapSetting) (d : Decision) : Prop := d.status = l.status ∧ d.reasonCode = l.reasonCode

variable {i : Instance} {l : CapSetting} {v : Int} {w : World}

/-! ### What reads no limit -/

theorem reconcileAttempts_setLimit (row : SpendRow) (attempts : List TxAttempt) :
    reconcileAttempts (setLimit i l v) row attempts = reconcileAttempts i row attempts := by
  induction attempts with
  | nil => rfl
  | cons attempt attempts ih =>
    unfold reconcileAttempts
    rw [ih]
    rfl

theorem reconcileRow_setLimit (time : Int) (row : SpendRow) :
    reconcileRow (setLimit i l v) time row = reconcileRow i time row := by
  unfold reconcileRow
  simp only [reconcileAttempts_setLimit]
  rfl

theorem reconcileRows_setLimit (time : Int) (rows : List SpendRow) :
    reconcileRows (setLimit i l v) time rows = reconcileRows i time rows := by
  induction rows with
  | nil => rfl
  | cons row rows ih =>
    unfold reconcileRows
    rw [ih, reconcileRow_setLimit]

theorem reconcile_setLimit : reconcile (setLimit i l v) = reconcile i := by
  unfold reconcile
  simp only [reconcileRows_setLimit]

theorem replay_setLimit (row : SpendRow) (toAddr channelId : String) (call : DebitCall)
    (calldataKeccak : String) (common : Common) :
    replay (setLimit i l v) row toAddr channelId call calldataKeccak common =
      replay i row toAddr channelId call calldataKeccak common := by
  unfold replay
  rw [reconcile_setLimit]

theorem settleSweepAttempts_setLimit (row : SpendRow) (attempts : List TxAttempt) :
    settleSweepAttempts (setLimit i l v) row attempts = settleSweepAttempts i row attempts := by
  induction attempts with
  | nil => rfl
  | cons attempt attempts ih =>
    unfold settleSweepAttempts
    rw [ih]
    rfl

theorem settleSweepRow_setLimit (row : SpendRow) :
    settleSweepRow (setLimit i l v) row = settleSweepRow i row := by
  unfold settleSweepRow
  simp only [settleSweepAttempts_setLimit]
  rfl

theorem settleSweeps_setLimit (rows : List SpendRow) :
    settleSweeps (setLimit i l v) rows = settleSweeps i rows := by
  induction rows with
  | nil => rfl
  | cons row rows ih =>
    unfold settleSweeps
    rw [ih, settleSweepRow_setLimit]

theorem priceFees_setLimit (hl : l ≠ .maxFeeWeiCeiling) (estimate baseFee : Int) :
    priceFees (setLimit i l v) estimate baseFee = priceFees i estimate baseFee := by
  cases l with
  | maxFeeWeiCeiling => exact absurd rfl hl
  | _ => rfl

theorem rowTx_setLimit (hl : l ≠ .maxFeeWeiCeiling) (toAddr : String) (data : Bytes) (fees : Fees)
    (row : SpendRow) : rowTx (setLimit i l v) toAddr data fees row = rowTx i toAddr data fees row := by
  cases l with
  | maxFeeWeiCeiling => exact absurd rfl hl
  | _ => rfl

theorem gasOnlyRequest_setLimit (receiptId channelId : String) (data : Bytes) (toAddr : String)
    (fees : Fees) : gasOnlyRequest (setLimit i l v) receiptId channelId data toAddr fees =
      gasOnlyRequest i receiptId channelId data toAddr fees := by
  cases l <;> rfl

@[simp] theorem setLimit_ext : (setLimit i l v).ext = i.ext := rfl

/-! ### Next to another setting -/

theorem status_window (hl : l ≠ .maxFeeWeiCeiling) : l.status = 429 := by
  cases l with
  | maxFeeWeiCeiling => exact absurd rfl hl
  | _ => rfl

/-- What follows a reservation that was denied on account of the limit. -/
theorem leaves_denied (hl : l ≠ .maxFeeWeiCeiling) {common : Common} {e : Exn} (h : Denied l e) :
    (refuseReservation common e).Leaves (OnAccount l) Unbindable := by
  rcases h with ⟨retryAfterS, rfl⟩ | rfl | rfl
  · exact .pure ⟨(status_window hl).symm, rfl⟩
  · exact .raise (.inl rfl)
  · exact .raise (.inr rfl)

/-- A reservation that fails on account of the limit, with the decision on it. -/
theorem leaves_reservation (hl : l ≠ .maxFeeWeiCeiling) {common : Common} {p : Code SpendRow}
    {f : SpendRow → Code Decision} (h : p.Fails (Denied l)) :
    (p.attempt >>= fun
      | .error e => refuseReservation common e
      | .ok row => f row).Leaves (OnAccount l) Unbindable := by
  refine Leaves.bind h.attempt fun r hr => ?_
  cases r with
  | error e => exact leaves_denied hl hr
  | ok row => exact hr.elim

/-- What a call comes to that is refused on account of a limit. -/
def RefusedFor (l : CapSetting) (r : Option Decision) : Prop := ∃ d, r = some d ∧ OnAccount l d

/-- What a refusal on account of a limit may come to though no statement fails: SQLite does not hold an
integer, or the audit finds the clock behind the ledger. -/
def Strays (e : Exn) : Prop := Unbindable e ∨ ∃ message, e = .clockRegression message

/-- A call that is refused on account of the limit, if it returns.  If it raises, a statement has failed
or it strays. -/
structure Refusing (l : CapSetting) (p : Code (Option Decision)) : Prop where
  leaves : p.Leaves (RefusedFor l) (fun _ => True)
  calmly : ∀ w, p.Under (fun _ => Faultless) (fun e _ => Strays e) (fun r _ => RefusedFor l r) w

theorem refusing_of_leaves {p : Code (Option Decision)} (h : p.Leaves (RefusedFor l) Strays) :
    Refusing l p :=
  ⟨h.mono (fun _ h => h) fun _ _ => trivial, fun w => h.under _ w⟩

section Calm

variable {α : Type} {S : Exn → Prop}

/-- A statement, where none fails from outside. -/
theorem calm_sql {f : Tables → Except Exn (Tables × α)} (h : ∀ t e, f t = .error e → S e) :
    (sql f).Under (fun _ => Faultless) (fun e _ => S e) (fun _ _ => True) w := by
  refine .atomic fun c hc => ?_
  unfold statement
  rw [show c.fault = none from hc]
  dsimp only
  cases hf : f (w.advance c).view with
  | ok r => trivial
  | error e => exact h _ e hf

theorem calm_read {f : Tables → α} :
    (select fun t => .ok (f t)).Under (fun _ => Faultless) (fun e _ => S e) (fun _ _ => True) w :=
  calm_sql fun _ _ he => by cases he

theorem calm_write {f : Tables → Tables} :
    (update fun t => .ok (f t)).Under (fun _ => Faultless) (fun e _ => S e) (fun _ _ => True) w :=
  calm_sql fun _ _ he => by cases he

theorem calm_now : now.Under (fun _ => Faultless) (fun e _ => S e) (fun _ _ => True) w :=
  Under.bind (P := fun _ _ => True) (.atomic fun _ _ => trivial) fun _ _ _ => .pure trivial

theorem calm_refuseRegression (row : ClockGuard) (wall : Int) :
    (Ledger.refuseRegression row wall).Under (fun _ => Faultless) (fun e _ => Strays e)
      (fun _ _ => True) w := by
  unfold Ledger.refuseRegression
  split
  · exact calm_write.bind fun _ _ _ => .raise (.inr ⟨_, rfl⟩)
  · exact .pure trivial

theorem calm_tick :
    Ledger.tick.Under (fun _ => Faultless) (fun e _ => Strays e) (fun _ _ => True) w :=
  calm_read.bind fun row _ _ => calm_now.bind fun wall _ _ => (calm_refuseRegression row wall).bind
    fun _ _ _ => calm_write.bind fun _ _ _ => .pure trivial

theorem calm_insertAudit {x : Externals} (f : Ledger.AuditFields) (ts : Int) (head : String) :
    (Ledger.insertAudit x f ts head).Under (fun _ => Faultless) (fun e _ => Strays e)
      (fun _ _ => True) w := by
  refine calm_sql fun t e he => ?_
  rcases bind_error_iff.mp he with he | ⟨_, -, he⟩
  · unfold bindInts at he
    split at he
    · cases he
    · exact .inl (.inl (Except.error.inj he).symm)
  · cases he

theorem calm_audit {x : Externals} (f : Ledger.AuditFields) :
    (Ledger.audit x f).Under (fun _ => Faultless) (fun e _ => Strays e) (fun _ _ => True) w :=
  calm_tick.bind fun stamp _ _ => calm_read.bind fun head _ _ =>
    (calm_insertAudit f stamp.2 head).bind fun _ _ _ => calm_write

end Calm

theorem refusing_bind {α : Type} {p : Code α} {f : α → Code (Option Decision)} {X : α → Prop}
    (hp : p.Leaves X fun _ => False) (hf : ∀ a, X a → Refusing l (f a)) : Refusing l (p >>= f) where
  leaves := (hp.mono (fun _ h => h) fun _ h => h.elim).bind fun a ha => (hf a ha).leaves
  calmly w := ((hp.under _ w).mono (fun _ _ h => h.elim) fun _ _ h => h).bind fun a w' ha =>
    (hf a ha).calmly w'

theorem refusing_refuseSweep {common : Common} {status : Int} {reason : String}
    (h : status = l.status ∧ reason = l.reasonCode) :
    Refusing l (refuseSweep i common status reason) where
  leaves := Leaves.bind (X := fun d => OnAccount l d)
    (Leaves.bind (Leaves.trivial _) fun _ _ => .pure h) fun d hd => .pure ⟨d, rfl, hd⟩
  calmly _ := Under.bind (P := fun d _ => OnAccount l d)
    ((calm_audit _).bind fun _ _ _ => .pure h) fun d _ hd => .pure ⟨d, rfl, hd⟩

/-- A part of a request, with a window switched off and with another setting of it. -/
def Rivals (i : Instance) (l : CapSetting) (v : Int) (part : Instance → Code Decision) : Prop :=
  ∀ w, Shadows Faultless l.reads (Process.Leaves (OnAccount l) Unbindable) (part i)
    (part (setLimit i l v)) w

section Rivals

variable (hl : l ≠ .maxFeeWeiCeiling) (hoff : l.read i.settings = -1)

include hl hoff

theorem rivals_signDebit (env : Envelope) (call : DebitCall) (channel : Channel) (common : Common)
    (fees : Fees) : Rivals i l v fun i => signDebit i env call channel common fees := by
  refine fun w => (Integrity.shadows_reserve hoff).attempt.bind (n := 0) (fun r w₁ _ _ => ?_)
    fun _ ⟨q, heq, hq⟩ => heq ▸ leaves_reservation hl hq
  cases r with
  | error e => exact .refl _ w₁
  | ok row =>
    show Shadows _ _ _ _ (simulateRow (setLimit i l v) row env.data _ (signRow (setLimit i l v) row
      (rowTx (setLimit i l v) i.escrow env.data fees row) _)) w₁
    rw [rowTx_setLimit hl]
    exact .refl _ w₁

theorem rivals_signExpire (env : Envelope) (pseudoReceipt channelId : String) (common : Common)
    (fees : Fees) : Rivals i l v fun i => signExpire i env pseudoReceipt channelId common fees := by
  intro w
  dsimp only
  unfold signExpire
  rw [gasOnlyRequest_setLimit]
  refine (Integrity.shadows_reserveGasOnly hoff).attempt.bind (n := 0) (fun r w₁ _ _ => ?_)
    fun _ ⟨q, heq, hq⟩ => heq ▸ leaves_reservation hl hq
  cases r with
  | error e => exact .refl _ w₁
  | ok row =>
    show Shadows _ _ _ _ (simulateRow (setLimit i l v) row env.data _ (signRow (setLimit i l v) row
      (rowTx (setLimit i l v) i.escrow env.data fees row) _)) w₁
    rw [rowTx_setLimit hl]
    exact .refl _ w₁

theorem rivals_priceDebit (env : Envelope) (call : DebitCall) (channel : Channel) (common : Common) :
    Rivals i l v fun i => priceDebit i env call channel common := by
  refine fun w => Shadows.behind _ fun r w₁ _ => ?_
  cases r with
  | error e => exact .refl _ w₁
  | ok fees =>
    obtain ⟨estimate, baseFee⟩ := fees
    dsimp only
    rw [priceFees_setLimit hl]
    cases priceFees i estimate baseFee with
    | error refusal => exact .refl _ w₁
    | ok fees => exact rivals_signDebit hl hoff env call channel common fees w₁

theorem rivals_freshDebit (env : Envelope) (call : DebitCall) (common : Common) :
    Rivals i l v fun i => freshDebit i env call common := by
  refine fun w => Shadows.behind _ fun r w₁ _ => ?_
  split
  · exact .refl _ w₁
  · exact .refl _ w₁
  · exact .refl _ w₁
  · refine Shadows.behind _ fun objection w₂ _ => ?_
    cases objection with
    | some reason => exact .refl _ w₂
    | none => exact rivals_priceDebit hl hoff env call _ common w₂

theorem rivals_handleDebit (env : Envelope) (call : DebitCall) (digest : String) :
    Rivals i l v fun i => handleDebit i env call digest := by
  refine fun w => Shadows.behind _ fun time w₁ _ => ?_
  split
  · exact .refl _ w₁
  · split
    · exact .refl _ w₁
    · refine Shadows.behind _ fun existing w₂ _ => ?_
      cases existing with
      | none => exact rivals_freshDebit hl hoff env call _ w₂
      | some row =>
        dsimp only
        rw [replay_setLimit]
        refine Shadows.behind _ fun decision w₃ _ => ?_
        cases decision with
        | some d => exact .refl _ w₃
        | none => exact rivals_freshDebit hl hoff env call _ w₃

theorem rivals_priceExpire (env : Envelope) (pseudoReceipt channelId : String) (common : Common) :
    Rivals i l v fun i => priceExpire i env pseudoReceipt channelId common := by
  refine fun w => Shadows.behind _ fun r w₁ _ => ?_
  cases r with
  | error e => exact .refl _ w₁
  | ok fees =>
    obtain ⟨estimate, baseFee⟩ := fees
    dsimp only
    rw [priceFees_setLimit hl]
    cases priceFees i estimate baseFee with
    | error refusal => exact .refl _ w₁
    | ok fees => exact rivals_signExpire hl hoff env pseudoReceipt channelId common fees w₁

theorem rivals_freshExpire (env : Envelope) (call : ExpireCall) (pseudoReceipt channelId : String)
    (common : Common) : Rivals i l v fun i => freshExpire i env call pseudoReceipt channelId common := by
  refine fun w => Shadows.behind _ fun r w₁ _ => ?_
  split
  · exact .refl _ w₁
  · exact .refl _ w₁
  · refine Shadows.behind _ fun time w₂ _ => ?_
    split
    · rename_i h
      rw [show expireState (setLimit i l v) time _ = some _ from h]
      exact .refl _ w₂
    · rename_i h
      rw [show expireState (setLimit i l v) time _ = none from h]
      exact rivals_priceExpire hl hoff env pseudoReceipt channelId common w₂

theorem rivals_handleExpire (env : Envelope) (digest : String) :
    Rivals i l v fun i => handleExpire i env digest := by
  intro w
  dsimp only
  unfold handleExpire
  rw [setLimit_ext]
  split
  · exact .refl _ w
  · exact .refl _ w
  · split
    · exact .refl _ w
    · refine Shadows.behind _ fun existing w₁ _ => ?_
      cases existing with
      | none => exact rivals_freshExpire hl hoff env _ _ _ _ w₁
      | some row =>
        dsimp only
        split
        · exact .refl _ w₁
        · exact rivals_freshExpire hl hoff env _ _ _ _ w₁

theorem rivals_decodeRequest (env : Envelope) (digest : String) :
    Rivals i l v fun i => decodeRequest i env digest := by
  intro w
  dsimp only
  unfold decodeRequest
  rw [setLimit_ext]
  dsimp only
  split
  · exact .refl _ w
  · exact .refl _ w
  · exact rivals_handleDebit hl hoff env _ digest w

theorem rivals_dispatch (env : Envelope) : Rivals i l v fun i => dispatch i env := by
  intro w
  dsimp only
  unfold dispatch
  dsimp only
  rw [setLimit_ext]
  split
  · exact rivals_handleExpire hl hoff env _ w
  · split
    · exact .refl _ w
    · exact rivals_decodeRequest hl hoff env _ w

/-- A request. -/
theorem rivals_handle (rawBody : Bytes) : Rivals i l v fun i => handle i rawBody := by
  refine fun w => Shadows.behind _ fun haltReason w₁ _ => ?_
  split
  · exact .refl _ w₁
  refine Shadows.behind _ fun mem w₂ _ => ?_
  split
  · exact .refl _ w₂
  rw [show parseEnvelope (setLimit i l v) rawBody = parseEnvelope i rawBody from rfl]
  cases parseEnvelope i rawBody with
  | error decision => exact .refl _ w₂
  | ok env => exact rivals_dispatch hl hoff env w₂

theorem shadows_signSweep (recipient : String) (balance : Int) (data : Bytes) (common : Common)
    (fees : Fees) : Shadows Faultless l.reads (Refusing l)
      (signSweep i recipient balance data common fees)
      (signSweep (setLimit i l v) recipient balance data common fees) w := by
  refine Shadows.behind _ fun time w₁ _ => Shadows.behind _ fun pseudoReceipt w₂ _ => ?_
  rw [gasOnlyRequest_setLimit]
  refine (Integrity.shadows_reserveGasOnly hoff).attempt.bind (n := 0) (fun r w₃ _ _ => ?_)
    fun _ ⟨q, heq, hq⟩ => heq ▸ ?_
  · split
    · exact .refl _ w₃
    · exact .refl _ w₃
    · exact .refl _ w₃
    · exact .refl _ w₃
    · rename_i row _ _
      show Shadows _ _ _ _ (signRow (setLimit i l v) row
        (rowTx (setLimit i l v) Config.token data fees row) _) w₃
      rw [rowTx_setLimit hl]
      exact .refl _ w₃
  · refine refusing_bind hq.attempt fun r hr => ?_
    cases r with
    | ok row => exact hr.elim
    | error e =>
      rcases hr with ⟨retryAfterS, rfl⟩ | rfl | rfl
      · exact refusing_refuseSweep ⟨(status_window hl).symm, rfl⟩
      · exact refusing_of_leaves (.raise (.inl (.inl rfl)))
      · exact refusing_of_leaves (.raise (.inl (.inr rfl)))

theorem shadows_sweepBalance (recipient : String) (balance : Int) :
    Shadows Faultless l.reads (Refusing l) (sweepBalance i recipient balance)
      (sweepBalance (setLimit i l v) recipient balance) w := by
  refine Shadows.behind _ fun data w₁ _ => Shadows.behind _ fun r w₂ _ => ?_
  split
  · exact .refl _ w₂
  · exact .refl _ w₂
  · exact .refl _ w₂
  · rename_i estimate baseFee _
    rw [priceFees_setLimit hl]
    cases priceFees i estimate baseFee with
    | error refusal => exact .refl _ w₂
    | ok fees => exact shadows_signSweep hl hoff recipient balance data _ fees

theorem shadows_startSweep (recipient : String) :
    Shadows Faultless l.reads (Refusing l) (startSweep i recipient)
      (startSweep (setLimit i l v) recipient) w := by
  refine Shadows.behind _ fun r w₁ _ => ?_
  split
  · exact .refl _ w₁
  · exact .refl _ w₁
  · exact .refl _ w₁
  · exact .refl _ w₁
  · rw [show (setLimit i l v).settings.sweepMinUnits = i.settings.sweepMinUnits by cases l <;> rfl]
    split
    · exact .refl _ w₁
    · exact shadows_sweepBalance hl hoff recipient _

/-- A sweep. -/
theorem shadows_sweep : Shadows Faultless l.reads (Refusing l) (sweepProceeds i)
    (sweepProceeds (setLimit i l v)) w := by
  unfold sweepProceeds
  rw [show (setLimit i l v).settings.sweepTo = i.settings.sweepTo by cases l <;> rfl]
  refine Shadows.behind _ fun mem w₁ _ => ?_
  split
  · exact .refl _ w₁
  rw [show (setLimit i l v).address = i.address from rfl]
  split
  · exact .refl _ w₁
  refine Shadows.behind _ fun rows w₂ _ => ?_
  rw [settleSweeps_setLimit]
  refine Shadows.behind _ fun settled w₃ _ => ?_
  split
  · exact shadows_startSweep hl hoff _
  · exact .refl _ w₃

/-- A call other than boot. -/
theorem shadows_serve {c : Call} (hc : c ≠ .boot) :
    Shadows Faultless l.reads (Refusing l) (serve i c) (serve (setLimit i l v) c) w := by
  cases c with
  | boot => exact absurd rfl hc
  | sweep => exact shadows_sweep hl hoff
  | handle rawBody =>
    exact (rivals_handle hl hoff rawBody w).bind (n := 0) (fun _ _ _ _ => .refl _ _) fun q hq =>
      refusing_of_leaves ((hq.mono (fun _ h => h) fun _ he => .inl he).bind fun d hd =>
        .pure ⟨d, rfl, hd⟩)

end Rivals

/-! ### No refusal on account of a window that is off -/

/-- A part of a call that never refuses on account of the limit. -/
def Spares (l : CapSetting) (p : Code Decision) : Prop :=
  p.Leaves (fun d => ¬ OnAccount l d) fun _ => True

theorem priceFees_refusal {estimate baseFee : Int} {refusal : Int × String}
    (h : priceFees i estimate baseFee = .error refusal) : refusal.1 ≠ 429 := by
  unfold priceFees at h
  dsimp only at h
  split at h
  · cases h
    decide
  · split at h
    · cases h
      decide
    · cases h

theorem parseEnvelope_refusal {rawBody : Bytes} {d : Decision}
    (h : parseEnvelope i rawBody = .error d) : d.status ≠ 429 := by
  have hstatus := (parseEnvelope_error i h).status
  omega

/-- A call that is never refused on account of the limit. -/
def SparesCall (l : CapSetting) (p : Code (Option Decision)) : Prop :=
  p.Leaves (fun r => ¬ RefusedFor l r) fun _ => True

theorem sparesCall_none : SparesCall l (pure none) := .pure fun ⟨_, h, _⟩ => by cases h

theorem sparesCall_decided {d : Decision} (h : ¬ OnAccount l d) : SparesCall l (decideSweep i d) :=
  Leaves.bind (X := fun d => ¬ OnAccount l d) (Leaves.bind (Leaves.trivial _) fun _ _ => .pure h)
    fun _ hd => .pure fun ⟨_, heq, hon⟩ => hd (Option.some.inj heq ▸ hon)

section Spares

variable (hl : l ≠ .maxFeeWeiCeiling) (hoff : l.read i.settings = -1)

include hl

theorem not_onAccount {d : Decision} (h : d.status ≠ 429) : ¬ OnAccount l d := fun hd => by
  refine h (hd.1.trans ?_)
  cases l with
  | maxFeeWeiCeiling => exact absurd rfl hl
  | _ => rfl

theorem spares_pure {d : Decision} (h : d.status ≠ 429) : Spares l (pure d) :=
  .pure (not_onAccount hl h)

theorem sparesCall_refused {common : Common} {status : Int} {reason : String} (h : status ≠ 429) :
    SparesCall l (refuseSweep i common status reason) := sparesCall_decided (not_onAccount hl h)

theorem spares_refuseRead (common : Common) (e : Exn) : Spares l (refuseRead common e) := by
  cases e with
  | reverted name => exact spares_pure hl (show (422 : Int) ≠ 429 by decide)
  | rpcUnavailable => exact spares_pure hl (show (503 : Int) ≠ 429 by decide)
  | capBreach | ledgerUnavailable | clockRegression | chainUnverified | calldata | sqlite | other =>
    exact .raise trivial

theorem spares_refuseReservation (common : Common) {e : Exn} (h : Integrity.Spared l e) :
    Spares l (refuseReservation common e) := by
  cases e with
  | capBreach name retryAfterS => exact .pure fun hd => h retryAfterS (hd.2 ▸ rfl)
  | clockRegression | ledgerUnavailable => exact spares_pure hl (show (503 : Int) ≠ 429 by decide)
  | reverted | rpcUnavailable | chainUnverified | calldata | sqlite | other => exact .raise trivial

/-- From the reservation of a row to its broadcast, where a refusal is no refusal of a limit. -/
theorem spares_signed (row : SpendRow) (data : Bytes) (tx : Tx) (common : Common) (receiptId : String) :
    Spares l (simulateRow i row data (requestAnswers common receiptId)
      (signRow i row tx (requestAnswers common receiptId))) := by
  have hrefused : ∀ (status : Int) (reason : String), status ≠ 429 →
      Spares l ((requestAnswers common receiptId).refused status reason) :=
    fun _ _ h => spares_pure hl h
  refine Leaves.bind (Leaves.trivial _).attempt fun r _ => ?_
  split
  · refine Leaves.bind (Leaves.trivial _).attempt fun r _ => ?_
    split
    · exact Leaves.bind (Leaves.trivial _) fun _ _ => hrefused _ _ (by decide)
    · refine Leaves.bind (Leaves.trivial _) fun _ _ => Leaves.bind (Leaves.trivial _).attempt fun r _ => ?_
      split
      · exact Leaves.bind (Leaves.trivial _) fun _ _ => hrefused _ _ (by decide)
      · exact spares_pure hl (show (503 : Int) ≠ 429 by decide)
      · exact .raise trivial
      · exact Leaves.bind (Leaves.trivial _) fun _ _ => spares_pure hl (show (200 : Int) ≠ 429 by decide)
  · exact Leaves.bind (Leaves.trivial _) fun _ _ => hrefused _ _ (by decide)
  · exact Leaves.bind (Leaves.trivial _) fun _ _ => hrefused _ _ (by decide)
  · exact Leaves.bind (Leaves.trivial _) fun _ _ => .raise trivial

theorem spares_replay (row : SpendRow) (toAddr channelId : String) (call : DebitCall)
    (calldataKeccak : String) (common : Common) :
    (replay i row toAddr channelId call calldataKeccak common).Leaves
      (fun r => ∀ d, r = some d → ¬ OnAccount l d) fun _ => True := by
  have hsome : ∀ {d : Decision}, d.status ≠ 429 → ((pure (some d) : Code (Option Decision)).Leaves
      (fun r => ∀ d, r = some d → ¬ OnAccount l d) fun _ => True) := fun h =>
    .pure fun _ hd => Option.some.inj hd ▸ not_onAccount hl h
  have hnone : ((pure none : Code (Option Decision)).Leaves
      (fun r => ∀ d, r = some d → ¬ OnAccount l d) fun _ => True) := .pure fun _ hd => by cases hd
  have h409 : (409 : Int) ≠ 429 := by decide
  have h200 : (200 : Int) ≠ 429 := by decide
  unfold replay
  split
  · exact hsome (show (422 : Int) ≠ 429 by decide)
  split
  · exact hsome (show (422 : Int) ≠ 429 by decide)
  split
  · exact hsome h200
  split
  · refine Leaves.bind (Leaves.trivial _).attempt fun r _ => ?_
    split
    · exact hsome h409
    · exact hsome h409
    · exact .raise trivial
    · refine Leaves.bind (Leaves.trivial _) fun fresh _ => ?_
      split
      · split
        · exact hsome h200
        · split
          · exact hnone
          · exact hsome h409
      · exact hsome h409
  · exact hnone

include hoff

theorem spares_priceDebit (env : Envelope) (call : DebitCall) (channel : Channel) (common : Common) :
    Spares l (priceDebit i env call channel common) := by
  refine Leaves.bind (Leaves.trivial _).attempt fun r _ => ?_
  split
  · exact spares_refuseRead hl common _
  · split
    · rename_i h
      exact spares_pure hl (priceFees_refusal h)
    · refine Leaves.bind ((Integrity.spared_reserve hoff).attempt (F := fun _ => True)) fun r hr => ?_
      cases r with
      | error e => exact spares_refuseReservation hl common hr
      | ok row => exact spares_signed hl row _ _ common _

theorem spares_freshDebit (env : Envelope) (call : DebitCall) (common : Common) :
    Spares l (freshDebit i env call common) := by
  refine Leaves.bind (Leaves.trivial _).attempt fun r _ => ?_
  split
  · exact spares_pure hl (show (503 : Int) ≠ 429 by decide)
  · exact spares_refuseRead hl common _
  · exact spares_pure hl (show (422 : Int) ≠ 429 by decide)
  · refine Leaves.bind (Leaves.trivial _) fun objection _ => ?_
    split
    · exact spares_pure hl (show (422 : Int) ≠ 429 by decide)
    · exact spares_priceDebit hl hoff env call _ common

theorem spares_handleDebit (env : Envelope) (call : DebitCall) (digest : String) :
    Spares l (handleDebit i env call digest) := by
  refine Leaves.bind (Leaves.trivial _) fun time _ => ?_
  split
  · exact spares_pure hl (show (422 : Int) ≠ 429 by decide)
  · split
    · exact spares_pure hl (show (422 : Int) ≠ 429 by decide)
    · refine Leaves.bind (Leaves.trivial _) fun existing _ => ?_
      split
      · exact spares_freshDebit hl hoff env call _
      · refine Leaves.bind (spares_replay hl _ _ _ _ _ _) fun decision hd => ?_
        split
        · exact .pure (hd _ rfl)
        · exact spares_freshDebit hl hoff env call _

theorem spares_priceExpire (env : Envelope) (pseudoReceipt channelId : String) (common : Common) :
    Spares l (priceExpire i env pseudoReceipt channelId common) := by
  refine Leaves.bind (Leaves.trivial _).attempt fun r _ => ?_
  split
  · exact spares_refuseRead hl common _
  · split
    · rename_i h
      exact spares_pure hl (priceFees_refusal h)
    · refine Leaves.bind ((Integrity.spared_reserveGasOnly hoff).attempt (F := fun _ => True))
        fun r hr => ?_
      cases r with
      | error e => exact spares_refuseReservation hl common hr
      | ok row => exact spares_signed hl row _ _ common _

theorem spares_freshExpire (env : Envelope) (call : ExpireCall) (pseudoReceipt channelId : String)
    (common : Common) : Spares l (freshExpire i env call pseudoReceipt channelId common) := by
  refine Leaves.bind (Leaves.trivial _).attempt fun r _ => ?_
  split
  · exact spares_pure hl (show (503 : Int) ≠ 429 by decide)
  · exact spares_refuseRead hl common _
  · refine Leaves.bind (Leaves.trivial _) fun time _ => ?_
    split
    · exact spares_pure hl (show (422 : Int) ≠ 429 by decide)
    · exact spares_priceExpire hl hoff env pseudoReceipt channelId common

theorem spares_handleExpire (env : Envelope) (digest : String) :
    Spares l (handleExpire i env digest) := by
  unfold handleExpire
  split
  · exact spares_pure hl (show (422 : Int) ≠ 429 by decide)
  · exact .raise trivial
  · dsimp only
    split
    · exact spares_pure hl (show (422 : Int) ≠ 429 by decide)
    · refine Leaves.bind (Leaves.trivial _) fun existing _ => ?_
      split
      · split
        · exact spares_pure hl (show (200 : Int) ≠ 429 by decide)
        · exact spares_freshExpire hl hoff env _ _ _ _
      · exact spares_freshExpire hl hoff env _ _ _ _

theorem spares_dispatch (env : Envelope) : Spares l (dispatch i env) := by
  unfold dispatch
  dsimp only
  split
  · exact spares_handleExpire hl hoff env _
  · split
    · exact spares_pure hl (show (422 : Int) ≠ 429 by decide)
    · unfold decodeRequest
      dsimp only
      split
      · exact spares_pure hl (show (422 : Int) ≠ 429 by decide)
      · exact .raise trivial
      · exact spares_handleDebit hl hoff env _ _

theorem spares_handle (rawBody : Bytes) : Spares l (handle i rawBody) := by
  refine Leaves.bind (Leaves.trivial _) fun haltReason _ => ?_
  split
  · exact spares_pure hl (show (503 : Int) ≠ 429 by decide)
  refine Leaves.bind (Leaves.trivial _) fun mem _ => ?_
  split
  · exact spares_pure hl (show (503 : Int) ≠ 429 by decide)
  split
  · rename_i h
    exact spares_pure hl (parseEnvelope_refusal h)
  · exact spares_dispatch hl hoff _

theorem spares_signSweep (recipient : String) (balance : Int) (data : Bytes) (common : Common)
    (fees : Fees) : SparesCall l (signSweep i recipient balance data common fees) := by
  refine Leaves.bind (Leaves.trivial _) fun time _ => Leaves.bind (Leaves.trivial _) fun receipt _ =>
    Leaves.bind ((Integrity.spared_reserveGasOnly hoff).attempt (F := fun _ => True)) fun r hr => ?_
  split
  · exact sparesCall_decided fun hd => hr _ (congrArg (Exn.capBreach · _) hd.2)
  · exact sparesCall_refused hl (by decide)
  · exact sparesCall_refused hl (by decide)
  · exact .raise trivial
  · refine Leaves.bind (Leaves.trivial _).attempt fun r _ => ?_
    split
    · exact Leaves.bind (Leaves.trivial _) fun _ _ => sparesCall_refused hl (by decide)
    · refine Leaves.bind (Leaves.trivial _) fun _ _ => Leaves.bind (Leaves.trivial _).attempt fun r _ => ?_
      split
      · exact Leaves.bind (Leaves.trivial _) fun _ _ => sparesCall_refused hl (by decide)
      · exact sparesCall_none
      · exact .raise trivial
      · exact Leaves.bind (Leaves.trivial _) fun _ _ =>
          sparesCall_decided (not_onAccount hl (show (200 : Int) ≠ 429 by decide))

theorem spares_sweepBalance (recipient : String) (balance : Int) :
    SparesCall l (sweepBalance i recipient balance) := by
  refine Leaves.bind (Leaves.trivial _) fun data _ => Leaves.bind (Leaves.trivial _).attempt fun r _ => ?_
  split
  · exact sparesCall_refused hl (by decide)
  · exact sparesCall_none
  · exact .raise trivial
  · split
    · rename_i h
      exact sparesCall_refused hl (priceFees_refusal h)
    · exact spares_signSweep hl hoff _ _ _ _ _

theorem spares_startSweep (recipient : String) : SparesCall l (startSweep i recipient) := by
  refine Leaves.bind (Leaves.trivial _).attempt fun r _ => ?_
  split
  · exact sparesCall_refused hl (by decide)
  · exact sparesCall_none
  · exact sparesCall_none
  · exact .raise trivial
  · split
    · exact sparesCall_none
    · exact spares_sweepBalance hl hoff _ _

theorem spares_sweep : SparesCall l (sweepProceeds i) := by
  unfold sweepProceeds
  generalize strip i.settings.sweepTo = recipient
  refine Leaves.bind (Leaves.trivial _) fun mem _ => ?_
  split
  · exact sparesCall_none
  · split
    · exact sparesCall_none
    · refine Leaves.bind (Leaves.trivial _) fun rows _ => Leaves.bind (Leaves.trivial _)
        fun settled _ => ?_
      cases settled with
      | true => exact spares_startSweep hl hoff _
      | false => exact sparesCall_none

/-- No call is refused on account of a window that is off. -/
theorem spares_serve (c : Call) : SparesCall l (serve i c) := by
  cases c with
  | boot => exact Leaves.bind (Leaves.trivial _) fun _ _ => .pure fun ⟨_, h, _⟩ => by cases h
  | sweep => exact spares_sweep hl hoff
  | handle rawBody =>
    exact Leaves.bind (spares_handle hl hoff rawBody) fun d hd =>
      .pure fun ⟨_, heq, hon⟩ => hd (Option.some.inj heq ▸ hon)

end Spares

/-! ### A ceiling that is off -/

section Ceiling

open EscrowSigner.Sample

/-- A process that is ready, with a new database. -/
def atRest : World := { World.initial with mem := ⟨true, "", 3000000000⟩ }

/-- The database and the memory are those at rest. -/
def Rests (w : World) : Prop := w.db = atRest.db ∧ w.mem = atRest.mem

variable {α β : Type} {s : Settings} {w : World} {Q : α → World → Prop} {c₀ : Choice}

/-- The outside stays as it is. -/
def Stays (c₀ : Choice) (_ : World) (c : Choice) : Prop := c = c₀

/-- A step that leaves the world at rest. -/
def Gives (c₀ : Choice) (p : Code α) (r : α) : Prop :=
  ∀ w, Rests w → p.Under (Stays c₀) (fun _ _ => False) (fun r' w' => r' = r ∧ Rests w') w

theorem Gives.bind {p : Code α} {f : α → Code β} {r : α} {r' : β} (hp : Gives c₀ p r)
    (hf : Gives c₀ (f r) r') :
    Gives c₀ (p >>= f) r' := fun w h =>
  (hp w h).bind fun _ w' h' => by
    obtain ⟨rfl, h'⟩ := h'
    exact hf w' h'

theorem Gives.pure (r : α) : Gives c₀ (Pure.pure r) r := fun _ h => .pure ⟨rfl, h⟩

theorem Gives.attempt {p : Code α} {r : α} (hp : Gives c₀ p r) : Gives c₀ p.attempt (.ok r) := fun w h =>
  ((hp w h).attempt).mono (fun _ _ h => h) fun r' _ h' => by
    cases r' with
    | ok a => exact ⟨congrArg _ h'.1, h'.2⟩
    | error e => exact h'.elim

theorem gives_select {f : Tables → Except Exn α} {r : α} (hc : c₀.fault = none) (hr : f .empty = .ok r) :
    Gives c₀ (select f) r := by
  refine fun w h => .atomic fun c hc' => ?_
  obtain rfl : c = c₀ := hc'
  have hclosed : w.db.working = none := congrArg Db.working h.1
  have htables : w.tables = .empty := congrArg Db.committed h.1
  rw [statement_eq hclosed, htables, hc, hr]
  exact ⟨rfl, rfl, h.2⟩

theorem gives_rpc {q : Query} {r : q.Answer} (hr : c₀.answer q = .ok r) : Gives c₀ (rpc q) r := by
  refine fun w h => .atomic fun c hc' => ?_
  obtain rfl : c = c₀ := hc'
  dsimp only
  rw [hr]
  exact ⟨rfl, h⟩

theorem gives_readClock : Gives c₀ readClock c₀.now := fun w h => .atomic fun c hc' => by
  obtain rfl : c = c₀ := hc'
  exact ⟨rfl, h⟩

theorem gives_readMemory : Gives c₀ readMemory atRest.mem := fun _ h => .atomic fun _ _ => ⟨h.2, h⟩

/-- What is given is what an execution returns that is long enough. -/
theorem Gives.run {p : Code α} {r : α} (hp : Gives c₀ p r) (hw : Rests w) :
    ∃ n, (p.run (List.replicate n c₀) w).1 = .returned r := by
  obtain ⟨n, hn⟩ := exists_ends p (fun _ => c₀) w
  rw [List.map_const', List.length_range] at hn
  have hadmits : p.Admits (Stays c₀) (List.replicate n c₀) w :=
    ((admits_true p _ _).and_of_forall (Q := fun c => c = c₀) fun c hc => List.eq_of_mem_replicate hc).mono
      fun _ _ h => h.2
  have hrun := (hp w hw).run hadmits
  cases ho : (p.run (List.replicate n c₀) w).1 with
  | returned r' =>
    rw [ho] at hrun
    exact ⟨n, ho.trans (congrArg _ hrun.1)⟩
  | raised e =>
    rw [ho] at hrun
    exact hrun.elim
  | stopped => exact absurd ho hn

/-- An instance with the given settings. -/
def withSettings (s : Settings) : Instance := { signer unlimited "" with settings := s }

/-- A channel of this hub that has expired. -/
def collectible : Channel := ⟨depositor, address, Config.token, 1, 0, 1, 1, 0, 0, 0, false⟩

/-- The choice for every step while a channel can be collected and a block costs `baseFee`. -/
def costing (baseFee : Int) : Choice where
  now := 2000000000
  chain := ⟨[], [], 0, 0⟩
  fault := none
  answer
    | .getChannel .. => .ok collectible
    | .estimateGas .. => .ok (100000 : Int)
    | .baseFeeWei => .ok baseFee
    | _ => .error (.rpcUnavailable "")
  signFault := none

/-- The request to collect the first channel. -/
def collect : Envelope := ⟨escrow, expireData 1, Config.chainId, 100000, 0⟩

variable {b : Int}

theorem gives_handle (hceiling : s.maxFeeWeiCeiling = -1) (hb : 0 ≤ 2 * b + s.priorityFeeWei) :
    ∃ d, OnAccount .maxFeeWeiCeiling d ∧ Gives (costing b) (handle (withSettings s) [0, 1]) d := by
  have hparse : parseEnvelope (withSettings s) [0, 1] = .ok collect := parse_payload rfl rfl
  have hselector : Calldata.slice collect.data 0 4 = Calldata.expireSelector externals := by decide +kernel
  have hdecode : Calldata.decodeExpire externals collect.data = .ok ⟨zeroBytes 31 ++ [1]⟩ := by
    decide +kernel
  have hstate : expireState (signer unlimited "") (seconds 2000000000) collectible = none := by
    decide +kernel
  have hfees : priceFees (withSettings s) 100000 b = .error (503, "fee_ceiling") := by
    unfold priceFees
    rw [if_neg (by decide), if_pos]
    show 2 * b + s.priorityFeeWei > s.maxFeeWeiCeiling
    omega
  generalize hcommon : (⟨"", hexString (zeroBytes 31 ++ [1]), 0, digest16 (withSettings s) collect.data⟩ :
    Common) = common
  refine ⟨refuse 503 "fee_ceiling" common, ⟨rfl, rfl⟩, ?_⟩
  have hprice : ∀ receipt channelId, Gives (costing b)
      (priceExpire (withSettings s) collect receipt channelId common)
      (refuse 503 "fee_ceiling" common) := fun receipt channelId => by
    refine Gives.bind (Gives.attempt (Gives.bind (gives_rpc rfl) (Gives.bind (gives_rpc rfl)
      (Gives.pure (100000, b))))) ?_
    dsimp only
    rw [hfees]
    exact .pure _
  have hfresh : ∀ call receipt channelId, Gives (costing b)
      (freshExpire (withSettings s) collect call receipt channelId common)
      (refuse 503 "fee_ceiling" common) := fun call receipt channelId => by
    have hidentity : Gives (costing b) (verifyChainIdentity (withSettings s) false) () :=
      Gives.bind (Gives.bind gives_readClock (Gives.bind gives_readMemory (Gives.pure true)))
        (Gives.pure ())
    refine Gives.bind (Gives.attempt (Gives.bind hidentity (gives_rpc rfl))) (Gives.bind
      (Gives.bind gives_readClock (Gives.pure (seconds 2000000000))) ?_)
    rw [show expireState (withSettings s) (seconds 2000000000) collectible = none from hstate]
    exact hprice receipt channelId
  have hexpire : Gives (costing b)
      (handleExpire (withSettings s) collect (digest16 (withSettings s) collect.data))
      (refuse 503 "fee_ceiling" common) := by
    unfold handleExpire
    rw [show Calldata.decodeExpire (withSettings s).ext collect.data = _ from hdecode]
    dsimp only
    rw [if_neg (by decide), hcommon]
    exact Gives.bind (gives_select rfl rfl) (hfresh _ _ _)
  refine Gives.bind (r := "") (Gives.bind (gives_select rfl rfl) (Gives.pure "")) ?_
  rw [if_neg (by decide)]
  refine Gives.bind gives_readMemory ?_
  rw [if_neg (by decide), hparse]
  dsimp only
  unfold dispatch
  dsimp only
  rw [if_pos (show Calldata.slice collect.data 0 4 = Calldata.expireSelector (withSettings s).ext from
    hselector)]
  exact hexpire

end Ceiling

/-! ### The law of a limit that is off -/

/-- How a call ends that is refused on account of a limit, or strays where it would be. -/
def GivesUp (l : CapSetting) : Outcome Exn (Option Decision) → Prop
  | .returned r => RefusedFor l r
  | .raised e => Strays e
  | .stopped => False

/-- With another setting of the limit, a call on the beginning of a script gives up, once no statement
fails any more; and if it returns at all, whatever fails, it is refused on account of the limit. -/
structure Departs (i : Instance) (l : CapSetting) (c : Call) (script : List Choice) (w : World) :
    Prop where
  refused : ∀ more r, (execute i c (script ++ more) w).1 = .returned r → RefusedFor l r
  givesUp : ∀ choices : Nat → Choice, (∀ k, Faultless (choices k)) → ∃ n,
    GivesUp l (execute i c (script ++ (List.range n).map choices) w).1

/-- A call with a limit switched off: it is not refused on account of the limit; with another setting of
the limit it ends in the same way, or parts from there on to be refused on account of it; and the
`INSERT` of a debit fails on no table on account of the clause of the limit.  The other setting may ask
for a few reads more, which succeed. -/
structure SwitchedOff (i : Instance) (l : CapSetting) (c : Call) (script : List Choice) (w : World) :
    Prop where
  passes : ∀ r, (execute i c script w).1 = .returned r → ¬ RefusedFor l r
  others : ∀ v, (execute i c script w).1 ≠ .stopped →
    (∃ padded, Padded Faultless l.reads script padded ∧
      execute (setLimit i l v) c padded w = execute i c script w) ∨
    ∃ shared padded, shared <+: script ∧ Padded Faultless l.reads shared padded ∧
      Departs (setLimit i l v) l c padded w
  clauses : ∀ v a cuts t,
    Ledger.debitGuard (setLimit i l v).settings.caps a cuts t = .ok true →
      Ledger.debitGuard i.settings.caps a cuts t = .ok true

/-- A call that goes on as a refusal. -/
theorem Refusing.departs {c : Call} {padded : List Choice} {q : Code (Option Decision)} {w₁ : World}
    (h : Refusing l q)
    (hrest : ∀ rest, (serve i c).exec (padded ++ rest) (w.record (.call c)) = q.exec rest w₁) :
    Departs i l c padded w where
  refused more r hr := by
    have hexcused := h.leaves.exec more w₁
    rw [execute, run_eq_exec, hrest] at hr
    rw [show (q.exec more w₁).1 = .returned r from hr] at hexcused
    exact hexcused
  givesUp choices hcalm := by
    obtain ⟨n, hn⟩ := exists_ends q choices w₁
    refine ⟨n, ?_⟩
    have hadmits : q.Admits (fun _ => Faultless) ((List.range n).map choices) w₁ :=
      ((admits_true q _ w₁).and_of_forall (Q := Faultless) fun c hc => by
        obtain ⟨k, -, rfl⟩ := List.mem_map.mp hc
        exact hcalm k).mono fun _ _ h => h.2
    have hrun := (h.calmly w₁).run hadmits
    rw [execute, run_eq_exec, hrest, ← run_eq_exec]
    cases ho : (q.run ((List.range n).map choices) w₁).1 with
    | returned r =>
      rw [ho] at hrun
      exact hrun
    | raised e =>
      rw [ho] at hrun
      exact hrun
    | stopped => exact absurd ho hn

/-- Every limit that the `INSERT` of a debit compares is as it was, or off. -/
theorem compared_setLimit (hoff : l.read i.settings = -1) :
    ∀ cap ∈ [Caps.units24h, Caps.units1h, Caps.units10m, Caps.unitsChannel24h, Caps.tx1h, Caps.tx24h],
      cap (setLimit i l v).settings.caps = cap i.settings.caps ∨ cap i.settings.caps = -1 := by
  simp only [List.forall_mem_cons]
  cases l <;>
    exact ⟨by first | exact .inl rfl | exact .inr hoff, by first | exact .inl rfl | exact .inr hoff,
      by first | exact .inl rfl | exact .inr hoff, by first | exact .inl rfl | exact .inr hoff,
      by first | exact .inl rfl | exact .inr hoff, by first | exact .inl rfl | exact .inr hoff,
      fun _ h => absurd h List.not_mem_nil⟩

theorem clause_setLimit {cap cap' adding : Int} {existing : Except Exn Int} (h : cap' = cap ∨ cap = -1)
    (hclause : Ledger.clause cap' existing adding = .ok true) :
    Ledger.clause cap existing adding = .ok true := by
  rcases h with rfl | hoff
  · exact hclause
  · exact if_pos hoff

theorem conjunction_mono {clauses clauses' : List (Except Exn Bool)}
    (h : List.Forall₂ (fun c c' => c = .ok true → c' = .ok true) clauses clauses')
    (hclauses : Ledger.conjunction clauses = .ok true) : Ledger.conjunction clauses' = .ok true := by
  induction h with
  | nil => exact hclauses
  | cons h _ ih =>
    obtain ⟨b, hb, hclauses⟩ := bind_ok_iff.mp hclauses
    cases b with
    | true =>
      unfold Ledger.conjunction
      rw [h hb]
      exact ih hclauses
    | false => cases hclauses

theorem debitGuard_setLimit {a : Ledger.Request} {cuts : Ledger.Cuts} {t : Tables}
    (hoff : l.read i.settings = -1)
    (h : Ledger.debitGuard (setLimit i l v).settings.caps a cuts t = .ok true) :
    Ledger.debitGuard i.settings.caps a cuts t = .ok true := by
  have hcompared := compared_setLimit (v := v) hoff
  simp only [List.forall_mem_cons] at hcompared
  obtain ⟨h24h, h1h, h10m, hchannel, htx1h, htx24h, -⟩ := hcompared
  exact conjunction_mono (.cons (clause_setLimit h24h) (.cons (clause_setLimit h1h)
    (.cons (clause_setLimit h10m) (.cons (clause_setLimit hchannel) (.cons (clause_setLimit htx1h)
      (.cons (clause_setLimit htx24h) .nil)))))) h

theorem switchedOff_of_window (hl : l ≠ .maxFeeWeiCeiling) (hoff : l.read i.settings = -1) {c : Call}
    (hc : c ≠ .boot) (script : List Choice) (w : World) : SwitchedOff i l c script w where
  passes r hr := by
    have h := (spares_serve hl hoff c).exec script (w.record (.call c))
    have hr' : ((serve i c).exec script (w.record (.call c))).1 = .returned r := by
      rw [← hr, execute, run_eq_exec]
    rw [hr'] at h
    exact h
  others v hended := by
    unfold execute at hended
    rw [run_eq_exec] at hended
    cases hexec : (serve i c).exec script (w.record (.call c)) with
    | mk o r =>
      obtain ⟨w₁, rest⟩ := r
      rw [hexec] at hended
      obtain ⟨used, rfl, hused⟩ := uses_of_exec hexec hended
      rcases shadows_serve hl hoff (v := v) hc _ _ _ hused with
        ⟨padded, hpadded, hsame⟩ | ⟨shared, padded, q, w₂, hshared, hpadded, hq, hrest⟩
      · refine .inl ⟨padded ++ rest, hpadded.append (n := 0) (.refl rest), ?_⟩
        rw [execute, execute, run_eq_exec, run_eq_exec, hexec, hsame.2 rest]
      · exact .inr ⟨shared, padded, hshared.trans ⟨rest, rfl⟩, hpadded, hq.departs hrest⟩
  clauses v a cuts t h := debitGuard_setLimit hoff h

/-- `unlimited` switches a limit off and nothing more exactly where the limit is one of the windows: the
ceiling on fees refuses everything when it is spelled so. -/
theorem switches_off {int : String → Option Int} {environ : String → Option String} {base s : Settings}
    (hload : Config.loadLimits int environ base = .ok s)
    (hoff : lower (Config.env environ l.envName) = "unlimited") :
    (∀ deployment address ext c script w, c ≠ .boot →
      SwitchedOff ⟨s, deployment, address, ext⟩ l c script w) ↔ l ≠ .maxFeeWeiCeiling := by
  have hread : l.read s = -1 := CapSetting.read_unlimited hload hoff
  refine ⟨?_, fun hl _ _ _ c script w hc => switchedOff_of_window hl hread hc script w⟩
  rintro h rfl
  obtain ⟨d, hd, hgives⟩ := gives_handle (b := s.priorityFeeWei.natAbs) hread (by omega)
  have hserve : Gives (costing s.priorityFeeWei.natAbs) (serve (withSettings s) (.handle [0, 1]))
      (some d) := hgives.bind (.pure _)
  obtain ⟨n, hn⟩ := hserve.run (w := atRest.record (.call (.handle [0, 1]))) ⟨rfl, rfl⟩
  exact (h .aicom Sample.address Sample.externals (.handle [0, 1]) _ atRest (by simp)).passes _ hn
    ⟨d, rfl, hd⟩

section Sample

open EscrowSigner.Sample

/-- What is loaded where every limit is spelled `unlimited`. -/
def limitless : Settings := ⟨unlimited, -1, -1, -1, "", 1⟩

theorem limitless_loaded :
    Config.loadLimits (fun _ => none) (fun _ => some "unlimited") limitless = .ok limitless := by
  have hspelled : lower (strip "unlimited") = "unlimited" := by decide +kernel
  have hcap : ∀ name, Config.cap (fun _ => none) (fun _ => some "unlimited") name = .ok (-1) :=
    fun _ => Config.cap_unlimited hspelled
  simp only [Config.loadLimits, Config.loadCaps, hcap]
  rfl

/-- What is loaded where the number of debits a day is spelled `unlimited`, and every other limit is set. -/
def uncounted : Settings :=
  ⟨⟨1000000, 1000000, 1000000, 1000000, 1000000, 9, -1, 9, 9, 1000000⟩, 1, 9, -1, "", 1⟩

def uncountedEnviron : String → Option String
  | "SIGNER_CAP_TX_24H" => some "unlimited"
  | "SIGNER_CAP_TX_1H" | "SIGNER_CAP_TX_PER_CHANNEL_24H" | "SIGNER_CAP_DISTINCT_CHANNELS_24H" => some "9"
  | "SIGNER_PRIORITY_FEE_WEI" => some "1"
  | "SIGNER_MAX_FEE_WEI_CEILING" => some "9"
  | _ => some "1000000"

/-- What `int` reads of these texts. -/
def uncountedInt : String → Option Int
  | "1" => some 1
  | "9" => some 9
  | "1000000" => some 1000000
  | _ => none

theorem uncounted_loaded : Config.loadLimits uncountedInt uncountedEnviron uncounted = .ok uncounted :=
  eq_ok_of_toOption (by decide +kernel)

/-- A process with these settings, after its boot on a new database. -/
def uncountedWorld : World :=
  ((boot (withSettings uncounted)).run ({ time := 2 } : Outside).script .initial).2

/-- A debit that is signed while the number of debits is unlimited, and a ceiling that refuses. -/
theorem switches_off_uncounted :
    (∃ d, (execute (withSettings uncounted) (.handle [1]) ({ time := 2 } : Outside).script
        uncountedWorld).1 = .returned (some d) ∧ d.status = 200) ∧
      SwitchedOff (withSettings uncounted) .tx24h (.handle [1]) ({ time := 2 } : Outside).script
        uncountedWorld ∧
      ¬ ∀ deployment address ext c script w, c ≠ .boot →
        SwitchedOff ⟨limitless, deployment, address, ext⟩ .maxFeeWeiCeiling c script w := by
  have hparse : parseEnvelope (withSettings uncounted) [1] =
      .ok ⟨escrow, debitData 1, Config.chainId, 100000, 0⟩ := parse_payload rfl rfl
  have hsigned : (decisionOf (((do
      let decision ← answerParsed (withSettings uncounted)
        (.ok ⟨escrow, debitData 1, Config.chainId, 100000, 0⟩)
      return some decision : Code (Option Decision))).run ({ time := 2 } : Outside).script
        (uncountedWorld.record (.call (.handle [1])))).1).any (fun d => d.status = 200) = true := by
    decide +kernel
  obtain ⟨d, hd, hstatus⟩ := (Option.any_eq_true _ _).mp hsigned
  rw [serve_handle hparse] at hd
  have hspelled : lower (Config.env uncountedEnviron CapSetting.tx24h.envName) = "unlimited" := by
    decide +kernel
  exact ⟨⟨d, eq_returned_of_decisionOf hd, of_decide_eq_true hstatus⟩,
    (switches_off (l := .tx24h) uncounted_loaded hspelled).mpr (by decide) .aicom address externals
      (.handle [1]) ({ time := 2 } : Outside).script uncountedWorld (by simp),
    fun h => (switches_off limitless_loaded (by decide +kernel)).mp h rfl⟩

/-- A service with every limit spelled `unlimited` refuses a debit on account of the ceiling on fees. -/
theorem ceiling_refuses : ∃ w script d,
    Config.loadLimits (fun _ => none) (fun _ => some "unlimited") limitless = .ok limitless ∧
      Reach (withSettings limitless) (fun _ _ => True) (fun _ _ _ => True) .running w ∧
      (execute (withSettings limitless) (.handle [1]) script w).1 = .returned (some d) ∧
      d.status = 503 ∧ d.reasonCode = "fee_ceiling" := by
  let answer : Outside := { time := 2 }
  obtain ⟨status, w, hw, hrunning, hrefused⟩ := Reach.exists_of_play (i := withSettings limitless)
    (Q := fun _ => True) (E := fun _ _ => True) (K := fun _ _ _ => True)
    (P := fun status w => status = .running ∧
      (decisionOf (((do
        let decision ← answerParsed (withSettings limitless)
          (.ok ⟨escrow, debitData 1, Config.chainId, 100000, 0⟩)
        return some decision : Code (Option Decision))).run answer.script
          (w.record (.call (.handle [1])))).1).any
        (fun d => d.status = 503 ∧ d.reasonCode = "fee_ceiling") = true)
    [.call .boot _ rfl answer.script] (fun _ _ _ _ => trivial) (by decide +kernel)
  obtain ⟨d, hd, hrefused⟩ := (Option.any_eq_true _ _).mp hrefused
  obtain ⟨hstatus, hreason⟩ := of_decide_eq_true hrefused
  subst hrunning
  have hparse : parseEnvelope (withSettings limitless) [1] =
      .ok ⟨escrow, debitData 1, Config.chainId, 100000, 0⟩ := parse_payload rfl rfl
  rw [serve_handle hparse] at hd
  exact ⟨w, answer.script, d, limitless_loaded, hw.mono (fun _ _ _ => trivial) fun _ _ _ h => h,
    eq_returned_of_decisionOf hd, hstatus, hreason⟩

end Sample

end EscrowSigner.Machine
