import EscrowSigner.Integrity.Jitter
import EscrowSigner.Process.Shadow
import EscrowSigner.Load

/-! A window that is switched off.  Next to a reservation with a limit switched off runs the same
reservation with another setting of it: they end alike, or the second is denied on account of it. -/

namespace EscrowSigner.Integrity

open Ledger Process

variable {x : Externals} {caps : Caps} {a : Request} {b : GasOnlyRequest} {w : World} {l : CapSetting}
  {s : Settings} {n : Nat} {v : Int} {α β : Type} {D : Code α → Prop} {R : Code β → Prop}
  {E : Exn → Prop}

/-- A choice under which no statement fails. -/
def Faultless (c : Choice) : Prop := c.fault = none

/-- What the code raises where SQLite does not hold an integer: one that is bound to a statement, or the
sum of the fees. -/
def Unbindable (e : Exn) : Prop := e = .overflowError ∨ e = .sqlite "OperationalError"

/-- What the code raises where the limit denies a reservation, or SQLite does not hold its setting or what
it is compared with. -/
def Denied (l : CapSetting) (e : Exn) : Prop :=
  (∃ retryAfterS, e = .capBreach l.reasonCode retryAfterS) ∨ Unbindable e

/-! ### Statements -/

/-- A statement that does the same with what it sees, or fails in a way that is excused. -/
theorem shadows_sql {f f' : Tables → Except Exn (Tables × α)}
    (h : f' w.view = f w.view ∨ ∃ e, f' w.view = .error e ∧ D (.raise e)) :
    Shadows Faultless n D (sql f) (sql f') w := by
  refine .atomic fun c => ?_
  have hview : (w.advance c).view = w.view := rfl
  unfold statement
  rw [hview]
  cases c.fault with
  | some fault => exact .inl rfl
  | none =>
    rcases h with h | ⟨e, h, he⟩
    · rw [h]
      exact .inl rfl
    · rw [h]
      exact .inr ⟨e, rfl, he⟩

/-- A choice that leaves the world as it is. -/
def holding (w : World) : Choice := ⟨w.clock, w.chain, none, fun _ => .error (.rpcUnavailable ""), none⟩

theorem statement_holding (f : Tables → Except Exn (Tables × α)) :
    statement f (holding w) (w.advance (holding w)) =
      match f w.view with
      | .ok (t, r) => (w.write t, .ok r)
      | .error e => (w, .error e) := rfl

/-- A read of the second process alone. -/
theorem shadows_select {q : Code β} {f : Tables → Except Exn α} {k : α → Code β} {r : α}
    (hr : f w.view = .ok r) (h : Shadows Faultless n R q (k r) w) :
    Shadows Faultless (n + 1) R q (select f >>= k) w := by
  refine Shadows.alone (c := holding w) rfl ((statement_holding _).trans ?_) h
  rw [hr]
  show (w.write w.view, Except.ok r) = (w, Except.ok r)
  rw [World.write, World.view, Db.write_view]

/-- A read of the second process alone, which fails. -/
theorem shadows_select_error {q : Code β} {f : Tables → Except Exn α} {k : α → Code β} {e : Exn}
    (hr : f w.view = .error e) (he : R (.raise e)) :
    Shadows Faultless (n + 1) R q (select f >>= k) w := by
  refine Shadows.alone_raises (c := holding w) rfl ((congrArg Prod.snd (statement_holding _)).trans ?_) he
  rw [hr]
  rfl

/-! ### Checks -/

/-- A check and the same check with another setting of the limit, which the first passes. -/
def Eased (l : CapSetting) (c c' : Check) : Prop := c' = c ∨ c.passes = true ∧ c'.name = l.reasonCode

theorem shadows_runChecks {checks checks' : List Check} (h : List.Forall₂ (Eased l) checks checks') :
    Shadows Faultless n (Fails (Denied l)) (runChecks checks) (runChecks checks') w := by
  induction h with
  | nil => exact .refl _ w
  | @cons c c' checks checks' hc h ih =>
    unfold runChecks
    rcases hc with rfl | ⟨hpasses, hname⟩
    · split
      · exact ih
      · exact .refl _ w
    · rw [if_pos hpasses]
      split
      · exact ih
      · exact .excused (.inl ⟨60, hname ▸ rfl⟩)

/-- The checks of the windows. -/
def windowList (caps : Caps) (a : Request) (u10m u1h u24h uchannel n1h n24h nchannel fees : Int) :
    List Check :=
  [⟨"cap_units_per_tx", caps.unitsPerTx, a.amountUnits, 0⟩,
    ⟨"cap_units_10m", caps.units10m, a.amountUnits, u10m⟩,
    ⟨"cap_units_1h", caps.units1h, a.amountUnits, u1h⟩,
    ⟨"cap_units_24h", caps.units24h, a.amountUnits, u24h⟩,
    ⟨"cap_units_channel_24h", caps.unitsChannel24h, a.amountUnits, uchannel⟩,
    ⟨"cap_tx_1h", caps.tx1h, 1, n1h⟩,
    ⟨"cap_tx_24h", caps.tx24h, 1, n24h⟩,
    ⟨"cap_tx_per_channel_24h", caps.txPerChannel24h, 1, nchannel⟩,
    ⟨"cap_fee_wei_24h", caps.feeWei24h, a.maxFeeWei * a.gasLimit, fees⟩]

/-- Another setting of a limit that is off changes at most its own check. -/
theorem eased_windowList {u10m u1h u24h uchannel n1h n24h nchannel fees : Int} (hoff : l.read s = -1) :
    List.Forall₂ (Eased l) (windowList s.caps a u10m u1h u24h uchannel n1h n24h nchannel fees)
      (windowList (l.write s v).caps a u10m u1h u24h uchannel n1h n24h nchannel fees) := by
  unfold windowList
  cases l <;>
    simp_all [Eased, CapSetting.read, CapSetting.write, CapSetting.writeCap, CapSetting.reasonCode,
      Check.passes]

theorem shadows_distinct (cuts : Cuts) (hoff : l.read s = -1) :
    Shadows Faultless l.reads (Fails (Denied l)) (checkDistinctChannels s.caps a cuts)
      (checkDistinctChannels (l.write s v).caps a cuts) w := by
  cases l with
  | distinctChannels24h =>
    have hnone : checkDistinctChannels s.caps a cuts = pure () := if_pos hoff
    rw [hnone]
    unfold checkDistinctChannels
    split
    · exact .refl _ w
    · refine shadows_select rfl (shadows_select rfl ?_)
      split
      · exact .excused (.inl ⟨_, rfl⟩)
      · exact .refl _ w
  | _ => exact .refl _ w

theorem shadows_debitChecks (hoff : l.read s = -1) :
    Shadows Faultless l.reads (Fails (Denied l)) (debitChecks x s.caps a)
      (debitChecks x (l.write s v).caps a) w := by
  unfold debitChecks
  split
  · exact .refl _ w
  refine Shadows.behind _ fun _ _ _ => Shadows.behind _ fun instant _ _ => ?_
  unfold windowChecks
  simp only [bind_eq, Process.bind_assoc]
  refine Shadows.behind _ fun u10m _ _ => Shadows.behind _ fun u1h _ _ => Shadows.behind _ fun u24h _ _ =>
    Shadows.behind _ fun uchannel _ _ => Shadows.behind _ fun n1h _ _ => Shadows.behind _ fun n24h _ _ =>
    Shadows.behind _ fun nchannel _ _ => Shadows.behind _ fun fees w₁ _ => ?_
  refine ((shadows_runChecks (n := 0) (eased_windowList hoff)).bind (n := l.reads) (fun _ w₂ _ _ => ?_)
    fun _ h => h.bind).mono (Nat.le_of_eq (Nat.zero_add _)) fun _ h => h
  exact (shadows_distinct _ hoff).bind (n := 0) (fun _ _ _ _ => .refl _ _) fun _ h => h.bind

/-! ### Reservations -/

/-- What the transaction of a reservation raises where the setting of a limit does not fit. -/
def Unfit (e : Exn) : Prop := e = .overflowError

theorem leaves_rollback : rollback.attempt.Leaves (fun _ => True) E :=
  (Leaves.trivial _).attempt.mono (fun _ _ => trivial) fun _ h => h

/-- A reservation that fails rolls back and raises the same. -/
theorem leaves_rollbackOnError {X : α → Prop} {p : Code α} (h : p.Leaves X E) :
    (rollbackOnError p).Leaves X E := by
  rw [rollbackOnError_eq]
  refine Leaves.bind h.attempt fun r hr => ?_
  cases r with
  | ok a => exact .pure hr
  | error e =>
    have hopened : inTransaction.Leaves (fun _ => True) E :=
      .atomic (fun _ _ _ _ => trivial) fun _ _ _ he => by cases he
    refine Leaves.bind hopened fun opened _ => ?_
    split
    · exact Leaves.bind leaves_rollback fun _ _ => .raise hr
    · exact .raise hr

/-- The handlers of the transaction raise the same, or name an error of SQLite. -/
theorem leaves_guardTransaction {X : α → Prop} {p : Code α} (h : p.Leaves X E)
    (hE : ∀ name, E (.sqlite name) → E (.ledgerUnavailable name)) :
    (guardTransaction p).Leaves X E := by
  rw [guardTransaction_eq]
  refine Leaves.bind h.attempt fun r hr => ?_
  cases r with
  | ok a => exact .pure hr
  | error e =>
    cases e with
    | sqlite name => exact Leaves.bind leaves_rollback fun _ _ => .raise (hE name hr)
    | clockRegression message => exact Leaves.bind leaves_rollback fun _ _ => .raise hr
    | capBreach | ledgerUnavailable | chainUnverified | reverted | rpcUnavailable | calldata | other =>
      exact .raise hr

theorem shadows_rollbackOnError {p p' : Code α} (h : Shadows Faultless n (Fails E) p p' w) :
    Shadows Faultless n (Fails E) (rollbackOnError p) (rollbackOnError p') w := by
  rw [rollbackOnError_eq, rollbackOnError_eq]
  refine h.attempt.bind (n := 0) (fun _ _ _ _ => .refl _ _) fun _ ⟨q, heq, hq⟩ => ?_
  rw [heq, ← rollbackOnError_eq]
  exact leaves_rollbackOnError hq

theorem shadows_guardTransaction {p p' : Code α} (h : Shadows Faultless n (Fails Unfit) p p' w) :
    Shadows Faultless n (Fails Unfit) (guardTransaction p) (guardTransaction p') w := by
  rw [guardTransaction_eq, guardTransaction_eq]
  refine h.attempt.bind (n := 0) (fun _ _ _ _ => .refl _ _) fun _ ⟨q, heq, hq⟩ => ?_
  rw [heq, ← guardTransaction_eq]
  exact leaves_guardTransaction hq fun _ h => by cases h

/-- What fits with a limit on fits with it off. -/
theorem fits_off {ints : List Int} (hoff : l.read s = -1)
    (h : (ints ++ [(l.write s v).caps.units24h, (l.write s v).caps.units1h, (l.write s v).caps.units10m,
      (l.write s v).caps.unitsChannel24h, (l.write s v).caps.tx1h, (l.write s v).caps.tx24h]).all
        inInt64 = true) :
    (ints ++ [s.caps.units24h, s.caps.units1h, s.caps.units10m, s.caps.unitsChannel24h, s.caps.tx1h,
      s.caps.tx24h]).all inInt64 = true := by
  have hone : inInt64 (-1) = true := by decide
  cases l <;> simp_all [CapSetting.read, CapSetting.write, CapSetting.writeCap]

theorem shadows_insertDebit {cuts : Cuts} {al : Allocation} (hoff : l.read s = -1)
    (hguard : debitGuard s.caps a cuts w.view = .ok true)
    (hguard' : debitGuard (l.write s v).caps a cuts w.view = .ok true) :
    Shadows Faultless 0 (Fails Unfit) (insertDebit x s.caps a cuts al)
      (insertDebit x (l.write s v).caps a cuts al) w := by
  unfold insertDebit
  refine Shadows.bind (m := 0) (n := 0) (D := Fails Unfit) (shadows_sql ?_) (fun _ _ _ _ => .refl _ _)
    fun _ h => h.bind
  rw [hguard, hguard']
  unfold bindInts
  split
  · rename_i hfits
    rw [if_pos (fits_off hoff hfits)]
    exact .inl rfl
  · exact .inr ⟨_, rfl, rfl⟩

/-- No transaction begins inside another. -/
theorem opening_open {t : Tables} (hopen : w.db.working = some t) :
    opening.Ends (fun _ _ => True) (fun _ _ => False) w := by
  refine Under.bind (P := fun _ _ => False) (.atomic fun c _ => ?_) fun _ _ h => h.elim
  have hopen' : (w.advance c).db.working = some t := hopen
  dsimp only
  rw [hopen']
  cases c.fault <;> trivial

theorem shadows_debitBody {plan : Cuts × Bool} (hoff : l.read s = -1)
    (hguard : debitGuard s.caps a plan.1 w.view = .ok true)
    (hguard' : debitGuard (l.write s v).caps a plan.1 w.view = .ok true) :
    Shadows Faultless 0 (Fails Unfit) (opening >>= (debitParts x s.caps a).body plan)
      (opening >>= (debitParts x (l.write s v).caps a).body plan) w := by
  refine Shadows.behind _ fun stamp w₁ ⟨used, hopening⟩ =>
    Shadows.behind _ fun al w₂ ⟨used', hallocate⟩ => ?_
  split
  · exact .refl _ _
  cases hopen : w.db.working with
  | some t => exact (hopening.ends (opening_open hopen)).elim
  | none =>
    have hidle : Idle (fun _ => True) w := ⟨hopen, trivial⟩
    have hdraft := hallocate.ends
      ((hopening.ends hidle.opening).allocateAt (R := True) (fun _ _ h => h) _ _ _)
    obtain ⟨t, ht, hspend⟩ := hdraft.opened
    have hview : w₂.view.spend = w.view.spend := by
      rw [World.view, Db.view, ht, World.view, Db.view, hopen]
      exact hspend
    exact shadows_insertDebit hoff ((debitGuard_congr hview).trans hguard)
      ((debitGuard_congr hview).trans hguard')

theorem shadows_whole {π γ : Type} {p p' : Parts π γ α} (hinner : p'.inner = p.inner)
    (houter : p'.outer = p.outer)
    (hchecks : Shadows Faultless n (Fails (Denied l)) p.checks p'.checks w)
    (hbody : ∀ plan w₁, (∃ used, p.checks.Uses w used (.returned plan) w₁) →
      (∃ used, p'.checks.Uses w used (.returned plan) w₁) →
      Shadows Faultless 0 (Fails Unfit) (opening >>= p.body plan) (opening >>= p'.body plan) w₁) :
    Shadows Faultless n (Fails (Denied l)) p.whole p'.whole w := by
  unfold Parts.whole
  rw [hinner, houter]
  refine shadows_rollbackOnError (hchecks.bind (n := 0) (fun plan w₁ hused hmeet => ?_)
    fun _ h => h.bind)
  have hdenied : ∀ q : Code γ, q.Fails Unfit → q.Fails (Denied l) := fun q hq =>
    hq.mono (fun _ h => h) fun _ he => .inr (.inl he)
  refine Shadows.bind (m := 0) (n := 0) (D := Fails (Denied l)) ?_ (fun _ _ _ _ => .refl _ _)
    fun _ h => h.bind
  refine (shadows_guardTransaction ?_).mono le_rfl hdenied
  exact (hbody plan w₁ hused hmeet).bind (n := 0) (fun _ _ _ _ => .refl _ _) fun _ h => h.bind

/-- A debit with a limit switched off, and the same debit with another setting of it. -/
theorem shadows_reserve (hoff : l.read s = -1) :
    Shadows Faultless l.reads (Fails (Denied l)) (reserve x s.caps a)
      (reserve x (l.write s v).caps a) w := by
  rw [reserve_eq, reserve_eq]
  refine shadows_whole rfl rfl (shadows_debitChecks hoff) fun plan w₁ ⟨_, h⟩ ⟨_, h'⟩ => ?_
  obtain ⟨-, -, _, _, hstill, -, units, fees, hunits, -, hroom⟩ := h.ends (Still.refl w).debitChecks
  obtain ⟨-, -, _, _, -, -, units', fees', hunits', -, hroom'⟩ := h'.ends (Still.refl w).debitChecks
  have hview : w₁.view = w.view := congrArg Db.view hstill.db
  exact shadows_debitBody hoff (hview ▸ debitGuard_of_room hunits hroom)
    (hview ▸ debitGuard_of_room hunits' hroom')

theorem denied_feeWeiWindow {t : Tables} {chainId since : Int} {escrow : String} {e : Exn}
    (h : t.feeWeiWindow x chainId escrow since = .error e) : Denied l e := by
  unfold Tables.feeWeiWindow at h
  dsimp only at h
  split at h
  · exact .inr (.inr (sumInts_overflow h))
  · cases h

theorem shadows_gasOnlyFee {cut : Int} (hoff : l.read s = -1) :
    Shadows Faultless l.reads (Fails (Denied l)) (checkGasOnlyFee x s.caps b cut)
      (checkGasOnlyFee x (l.write s v).caps b cut) w := by
  cases l with
  | feeWei24h =>
    have hnone : checkGasOnlyFee x s.caps b cut = pure () := if_pos hoff
    rw [hnone]
    unfold checkGasOnlyFee
    split
    · exact .refl _ w
    · cases hfees : w.view.feeWeiWindow x b.chainId b.escrow cut with
      | ok spent =>
        refine shadows_select hfees ?_
        split
        · exact .excused (.inl ⟨_, rfl⟩)
        · exact .refl _ w
      | error e => exact shadows_select_error hfees (denied_feeWeiWindow hfees)
  | _ => exact .refl _ w

/-- The same for a gas-only call. -/
theorem shadows_reserveGasOnly (hoff : l.read s = -1) :
    Shadows Faultless l.reads (Fails (Denied l)) (reserveGasOnly x s.caps b)
      (reserveGasOnly x (l.write s v).caps b) w := by
  rw [reserveGasOnly_eq, reserveGasOnly_eq]
  refine shadows_whole rfl rfl ?_ fun plan w₁ _ _ => .refl _ _
  refine Shadows.behind _ fun _ _ _ => Shadows.behind _ fun instant _ _ => Shadows.behind _ fun _ _ _ => ?_
  exact (shadows_gasOnlyFee hoff).bind (n := 0) (fun _ _ _ _ => .refl _ _) fun _ h => h.bind

/-! ### No denial on account of a limit that is off -/

/-- An exception that does not deny a reservation on account of the limit. -/
def Spared (l : CapSetting) (e : Exn) : Prop := ∀ retryAfterS, e ≠ .capBreach l.reasonCode retryAfterS

theorem NoBreach.spared {e : Exn} (h : NoBreach e) : Spared l e := h l.reasonCode

theorem spared_capBreach {name : String} (h : name ≠ l.reasonCode) : Spared l (capBreach name) :=
  fun _ he => h (Exn.capBreach.inj he).1

/-- The caps that no setting switches off. -/
theorem spared_race : Spared l (capBreach "cap_race") :=
  spared_capBreach (by cases l <;> decide)

theorem spared_gasOnly : Spared l (capBreach "cap_gas_only_24h") :=
  spared_capBreach (by cases l <;> decide)

theorem Raises.spared {p : Code α} (h : p.Raises NoBreach) : p.Leaves (fun _ => True) (Spared l) :=
  h.leaves.mono (fun _ h => h) fun _ h => h.spared

theorem raises_assertClockSane : assertClockSane.Raises NoBreach := by
  refine (raises_read _).bind fun row => raises_now.bind fun wall => ?_
  unfold refuseRegression
  split
  · exact (raises_write _).bind fun _ => .raise fun _ _ h => (by cases h)
  · exact .pure _

theorem raises_sum {f : Tables → List Int} : (select fun t => sumInts (f t)).Raises NoBreach :=
  raises_select fun _ _ he => (sumInts_error he).noBreach

theorem raises_feeWeiWindow (chainId : Int) (escrow : String) (since : Int) :
    (feeWeiWindow x chainId escrow since).Raises NoBreach :=
  raises_select fun _ _ he => (feeWeiWindow_error he).noBreach

theorem raises_reviveOf (existing : Option SpendRow) (what : String) :
    (reviveOf existing what).Raises NoBreach := by
  unfold reviveOf
  split
  · exact .pure _
  · split
    · exact .pure _
    · exact .raise fun _ _ h => (by cases h)

/-- A check of a limit that is off passes. -/
theorem spared_windowChecks {cuts : Cuts} (hoff : l.read s = -1) :
    (windowChecks x s.caps a cuts).Leaves (fun checks => ∀ c ∈ checks, c.name = l.reasonCode →
      c.passes = true) (Spared l) := by
  refine Leaves.bind (Raises.spared raises_sum) fun u10m _ => Leaves.bind (Raises.spared raises_sum)
    fun u1h _ => Leaves.bind (Raises.spared raises_sum) fun u24h _ => Leaves.bind (Raises.spared raises_sum)
    fun uchannel _ => Leaves.bind (Raises.spared (raises_read _)) fun n1h _ =>
    Leaves.bind (Raises.spared (raises_read _)) fun n24h _ => Leaves.bind (Raises.spared (raises_read _))
    fun nchannel _ => Leaves.bind (Raises.spared (raises_feeWeiWindow _ _ _)) fun fees _ => .pure ?_
  cases l <;>
    simp_all [CapSetting.read, CapSetting.reasonCode, Check.passes]

theorem spared_runChecks {checks : List Check}
    (h : ∀ c ∈ checks, c.name = l.reasonCode → c.passes = true) :
    (runChecks checks).Leaves (fun _ => True) (Spared l) := by
  induction checks with
  | nil => exact .pure trivial
  | cons c checks ih =>
    unfold runChecks
    split
    · exact ih fun c' hc' => h c' (List.mem_cons_of_mem c hc')
    · rename_i hfails
      exact .raise (spared_capBreach fun hname => hfails (h c List.mem_cons_self hname))

theorem spared_distinct {cuts : Cuts} (hoff : l.read s = -1) :
    (checkDistinctChannels s.caps a cuts).Leaves (fun _ => True) (Spared l) := by
  unfold checkDistinctChannels
  split
  · exact .pure trivial
  · rename_i hon
    refine Leaves.bind (Raises.spared (raises_read _)) fun _ _ =>
      Leaves.bind (Raises.spared (raises_read _)) fun _ _ => ?_
    split
    · refine .raise (spared_capBreach ?_)
      cases l with
      | distinctChannels24h => exact absurd hoff hon
      | _ => decide
    · exact .pure trivial

theorem spared_debitChecks (hoff : l.read s = -1) :
    (debitChecks x s.caps a).Leaves (fun _ => True) (Spared l) := by
  unfold debitChecks
  split
  · exact .raise (Ordinary.other _).noBreach.spared
  · exact Leaves.bind (Raises.spared raises_assertClockSane) fun _ _ =>
      Leaves.bind (Raises.spared raises_now) fun _ _ => Leaves.bind (spared_windowChecks hoff)
      fun _ hchecks => Leaves.bind (spared_runChecks hchecks) fun _ _ => Leaves.bind (spared_distinct hoff)
      fun _ _ => Leaves.bind (Raises.spared (raises_read _)) fun _ _ =>
      Leaves.bind (Raises.spared (raises_reviveOf _ _)) fun _ _ => .pure trivial

theorem raises_allocateAt (chainId : Int) (fromAddr : String) (stamp : Int × Int) :
    (allocateAt chainId fromAddr stamp).Raises NoBreach := by
  refine (raises_write _).bind fun _ => (raises_select fun t e he => ?_).bind fun _ =>
    (raises_read _).bind fun _ => .pure _
  split at he
  · cases he
  · cases he
    exact (Ordinary.other _).noBreach

theorem raises_commit : commit.Raises NoBreach := by
  refine Raises.atomic fun c w e he => ?_
  dsimp only at he
  split at he
  · cases he
    exact (Ordinary.fault _).noBreach
  · cases he
  · cases he
    exact (Ordinary.sqlite _).noBreach

theorem raises_reviveRow (ints : List Int) (k : Key) (amountUnits : Int) (f : SpendRow → SpendRow) :
    (reviveRow ints k amountUnits f).Raises NoBreach := by
  refine raises_sql fun t e he => ?_
  rcases bind_error_iff.mp he with he | ⟨_, -, he⟩
  · exact (bindInts_error he).noBreach
  · split at he
    · rcases bind_error_iff.mp he with he | ⟨_, -, he⟩
      · exact (setSpend_error he).noBreach
      · cases he
    · cases he

theorem raises_insertRow (ints : List Int) {guard : Tables → Except Exn Bool} (row : SpendRow)
    (hguard : ∀ t e, guard t = .error e → NoBreach e) : (insertRow ints guard row).Raises NoBreach := by
  refine raises_sql fun t e he => ?_
  rcases bind_error_iff.mp he with he | ⟨_, -, he⟩
  · exact (bindInts_error he).noBreach
  · rcases bind_error_iff.mp he with he | ⟨_, -, he⟩
    · exact hguard t e he
    · split at he
      · rcases bind_error_iff.mp he with he | ⟨_, -, he⟩
        · exact (setSpend_error he).noBreach
        · cases he
      · cases he

theorem spared_giveUp {e : Exn} (h : Spared l e) :
    (giveUp e : Code α).Leaves (fun _ => True) (Spared l) := by
  refine Leaves.bind (X := fun _ => True) (.atomic (fun _ _ _ _ => trivial) fun c w e' he => ?_)
    fun _ _ => .raise h
  dsimp only at he
  split at he
  · cases he
  · cases he
    exact (Ordinary.sqlite _).noBreach.spared

theorem spared_debitBody (plan : Cuts × Bool) (stamp : Int × Int) :
    ((debitParts x caps a).body plan stamp).Leaves (fun _ => True) (Spared l) := by
  refine Leaves.bind (Raises.spared (raises_allocateAt _ _ _)) fun al _ => ?_
  split
  · refine Leaves.bind (Raises.spared (raises_reviveRow _ _ _ _)) fun changed _ => ?_
    split
    · exact Leaves.bind (Raises.spared (raises_write _)) fun _ _ => Raises.spared raises_commit
    · exact spared_giveUp fun _ h => by cases h
  · refine Leaves.bind (Raises.spared (raises_insertRow _ _ fun t e he =>
      (debitGuard_error he).noBreach)) fun inserted _ => ?_
    split
    · exact Leaves.bind (Raises.spared (raises_write _)) fun _ _ =>
        Leaves.bind (Raises.spared (raises_write _)) fun _ _ => Raises.spared raises_commit
    · exact spared_giveUp spared_race

theorem spared_gasOnlyBody (plan : Int × Bool) (stamp : Int × Int) :
    ((gasOnlyParts x caps b).body plan stamp).Leaves (fun _ => True) (Spared l) := by
  refine Leaves.bind (Raises.spared (raises_allocateAt _ _ _)) fun al _ =>
    Leaves.bind (X := fun _ => True) ?_ fun _ _ => Leaves.bind (Raises.spared (raises_write _))
    fun _ _ => Raises.spared raises_commit
  unfold placeGasOnly
  split
  · refine Leaves.bind (Raises.spared (raises_reviveRow _ _ _ _)) fun changed _ => ?_
    split
    · exact .pure trivial
    · exact spared_giveUp fun _ h => by cases h
  · refine Leaves.bind (Raises.spared (raises_insertRow _ _ fun t e he =>
      (gasOnlyGuard_error he).noBreach)) fun inserted _ => ?_
    split
    · exact Raises.spared (raises_write _)
    · exact spared_giveUp spared_race

theorem spared_whole {π γ : Type} {p : Parts π γ α} (hchecks : p.checks.Leaves (fun _ => True) (Spared l))
    (hbody : ∀ plan stamp, (p.body plan stamp).Leaves (fun _ => True) (Spared l))
    (hinner : ∀ plan, (p.inner plan).Raises NoBreach) (houter : ∀ c, (p.outer c).Raises NoBreach) :
    p.whole.Leaves (fun _ => True) (Spared l) :=
  leaves_rollbackOnError (Leaves.bind hchecks fun plan _ => Leaves.bind (leaves_guardTransaction
    (Leaves.bind (Leaves.bind (Raises.spared raises_opening) fun stamp _ => hbody plan stamp)
      fun _ _ => Raises.spared (hinner plan)) fun _ _ _ h => by cases h) fun c _ =>
        Raises.spared (houter c))

/-- No debit is denied on account of a limit that is off. -/
theorem spared_reserve (hoff : l.read s = -1) :
    (reserve x s.caps a).Leaves (fun _ => True) (Spared l) := by
  rw [reserve_eq]
  exact spared_whole (spared_debitChecks hoff) spared_debitBody raises_inner raises_outer

theorem spared_gasOnlyChecks (hoff : l.read s = -1) :
    (gasOnlyChecks x s.caps b).Leaves (fun _ => True) (Spared l) := by
  refine Leaves.bind (Raises.spared raises_assertClockSane) fun _ _ =>
    Leaves.bind (Raises.spared raises_now) fun instant _ => Leaves.bind (X := fun _ => True) ?_ fun _ _ =>
    Leaves.bind (X := fun _ => True) ?_ fun _ _ => Leaves.bind (Raises.spared (raises_read _))
    fun _ _ => Leaves.bind (Raises.spared (raises_reviveOf _ _)) fun _ _ => .pure trivial
  · unfold checkGasOnlyCount
    split
    · exact .pure trivial
    · refine Leaves.bind (Raises.spared (raises_read _)) fun _ _ => ?_
      split
      · exact .raise spared_gasOnly
      · exact .pure trivial
  · unfold checkGasOnlyFee
    split
    · exact .pure trivial
    · rename_i hon
      refine Leaves.bind (Raises.spared (raises_feeWeiWindow _ _ _)) fun _ _ => ?_
      split
      · refine .raise (spared_capBreach ?_)
        cases l with
        | feeWei24h => exact absurd hoff hon
        | _ => decide
      · exact .pure trivial

/-- No gas-only call is denied on account of a limit that is off. -/
theorem spared_reserveGasOnly (hoff : l.read s = -1) :
    (reserveGasOnly x s.caps b).Leaves (fun _ => True) (Spared l) := by
  rw [reserveGasOnly_eq]
  exact spared_whole (spared_gasOnlyChecks hoff) spared_gasOnlyBody (fun _ => .pure _) fun _ =>
    (raises_committedRow _).bind fun row => (raises_audit _).bind fun _ => .pure _

end EscrowSigner.Integrity
