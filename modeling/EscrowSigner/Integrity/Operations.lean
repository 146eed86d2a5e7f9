import EscrowSigner.Integrity.Regime

/-! The operations of the ledger under a regime: each ends between two transactions, with what the
regime keeps when it returns and with what the regime leaves when it raises. -/

namespace EscrowSigner.Integrity

open Ledger

namespace Regime

variable {x : Externals} {g : Regime x} {α : Type} {w : World} {E : World → Prop}

/-! ### Clock and audit -/

theorem Closed.halt (h : g.Closed w) (reason : String) :
    g.Does g.Fallen (fun _ w' => g.Closed w') (halt reason) w :=
  h.update fun t ht => by
    cases ht
    exact .of_spend ⟨rfl, rfl, rfl, rfl, rfl⟩ rfl rfl

theorem Closed.clearHalt (h : g.Closed w) :
    g.Does g.Fallen (fun _ w' => g.Closed w') clearHalt w :=
  h.update fun t ht => by
    cases ht
    exact .of_spend ⟨rfl, rfl, rfl, rfl, rfl⟩ rfl rfl

theorem Closed.refuseRegression (h : g.Closed w) (row : ClockGuard) (wall : Int) :
    g.Does g.Fallen (fun _ w' => w' = w) (refuseRegression row wall) w := by
  unfold Ledger.refuseRegression
  split
  · exact (h.halt _).bind fun _ _ h' => .raise h'.fallen
  · exact .pure rfl

theorem Closed.assertClockSane (h : g.Closed w) :
    g.Does g.Fallen (fun _ w' => g.Closed w') assertClockSane w :=
  (h.select _).bind fun _ _ h₁ => h₁.1.now.bind fun _ _ h₂ =>
    (h₂.1.refuseRegression _ _).mono (fun _ h => h) fun _ _ heq => heq ▸ h₂.1

theorem Closed.tick (h : g.Closed w) :
    g.Does g.Fallen (fun _ w' => g.Closed w') Ledger.tick w := by
  refine (h.select _).bind fun row w₁ h₁ => h₁.1.now.bind fun wall w₂ h₂ => ?_
  refine (h₂.1.refuseRegression row wall).bind fun _ w₃ heq => ?_
  subst heq
  refine Does.bind (P := fun _ w' => g.Closed w') ?_ fun _ _ h₄ => .pure h₄
  have hrow : row = w₃.tables.clockGuard := by
    rw [h₂.2.1]
    exact (Except.ok.inj (h₁.2.1 ▸ h₁.2.2)).symm
  refine Does.sql h₂.1.1 h₂.1.safe (fun _ hc _ => (h₂.1.advance hc).fallen) fun c t _ hc ht => ?_
  cases ht
  subst hrow
  rw [h₂.2.2]
  exact ⟨rfl, g.later (g.tick h₂.1.2) hc⟩

theorem Closed.audit (h : g.Closed w) (f : AuditFields) :
    g.Does g.Fallen (fun _ w' => g.Closed w') (Ledger.audit x f) w := by
  refine h.tick.bind fun r w₁ h₁ => (h₁.select _).bind fun head w₂ h₂ => ?_
  obtain ⟨h₂, htables, hhead⟩ := h₂
  cases Except.ok.inj hhead
  rw [← htables]
  refine Does.bind (P := fun hash w' => w'.db.working = none ∧ ∃ c n, g.Kept w₂.tables n ∧
    g.env n c ∧ w'.clock = c.now ∧ w'.tables = audited x w₂.tables f r.2 ∧
      hash = (auditRow x w₂.tables f r.2).rowHash) ?_ fun hash w₃ h₃ => ?_
  · refine Does.sql h₂.1 h₂.safe (fun _ hc _ => (h₂.advance hc).fallen) fun c t a hc ht => ?_
    obtain ⟨-, -, heq⟩ := bind_ok_iff.mp ht
    cases heq
    exact ⟨rfl, c, w₂.clock, h₂.2, hc, rfl, rfl, rfl⟩
  · obtain ⟨hclosed, c, n, hkept, hc, hclock, htables₃, rfl⟩ := h₃
    have hlater : g.Kept w₂.tables w₃.clock := hclock ▸ g.later hkept hc
    refine Process.wp_atomic.mpr ⟨htables₃ ▸ g.half f r.2 hlater, fun c' hc' => ?_⟩
    rw [statement_eq hclosed]
    cases hfault : c'.fault with
    | some fault =>
      refine ⟨hclosed, ?_⟩
      show g.Broken w₃.tables c'.now
      rw [htables₃]
      exact g.fault f r.2 hlater hc' (by rw [hfault]; exact Option.some_ne_none _)
    | none =>
      refine ⟨rfl, ?_⟩
      show g.Kept { w₃.tables with auditHead := _ } c'.now
      rw [htables₃]
      exact g.later (g.audit f r.2 hlater) hc'

/-! ### Transitions -/

theorem Closed.setState (h : g.Closed w) (row : SpendRow) (state : RowState) (u : RowUpdates) :
    g.Does g.Fallen (fun _ w' => g.Closed w') (setState x row state u) w := by
  refine Does.bind (h.update fun t ht => ?_) fun _ _ h₁ => h₁.audit _
  obtain ⟨-, -, ht⟩ := bind_ok_iff.mp ht
  exact .updateRow (sameRow_apply u state) ht

theorem Closed.markSigned (h : g.Closed w) (row : SpendRow) (txHash rawKeccak : String) :
    g.Does g.Fallen (fun _ w' => g.Closed w') (markSigned x row txHash rawKeccak) w := by
  refine (h.setState _ _ _).bind fun _ _ h₁ => h₁.tick.bind fun _ _ h₂ => h₂.update fun t ht => ?_
  obtain ⟨-, -, heq⟩ := bind_ok_iff.mp ht
  cases heq
  exact .attempts

theorem Closed.readUnsigned (h : g.Closed w) (row : SpendRow) :
    g.Does g.Fallen (fun _ w' => g.Closed w') (readUnsigned row) w := by
  refine (h.select _).bind fun held w₁ h₁ => ?_
  split
  · split
    · exact (h₁.1.select _).bind fun _ _ h₂ => .pure h₂.1
    · exact .pure h₁.1
  · exact .pure h₁.1

theorem Closed.markDead (h : g.Closed w) (row : SpendRow) (reason : String) :
    g.Does g.Fallen (fun _ w' => g.Closed w') (markDead x row reason) w := by
  refine (h.readUnsigned row).bind fun unsigned w₁ h₁ => (h₁.setState _ _ _).bind fun _ w₂ h₂ => ?_
  split
  · refine (h₂.select _).bind fun guard w₃ h₃ => h₃.1.update fun t ht => ?_
    cases ht
    exact .alloc
  · exact .pure h₂

theorem Closed.recordAttemptStatus (h : g.Closed w) (txHash status : String) :
    g.Does g.Fallen (fun _ w' => g.Closed w') (recordAttemptStatus txHash status) w :=
  h.update fun t ht => by
    cases ht
    exact .attempts

theorem plain_putAlloc (a : NonceAlloc) (t : Tables) : Plain t (putAlloc a t) := by
  unfold putAlloc
  split
  · exact .alloc
  · unfold Tables.insertAlloc
    split
    · exact .refl t
    · exact .alloc

theorem Closed.setNextNonce (h : g.Closed w) (chainId : Int) (fromAddr : String) (nonce : Int) :
    g.Does g.Fallen (fun _ w' => g.Closed w') (setNextNonce chainId fromAddr nonce) w := by
  refine h.tick.bind fun _ _ h₁ => h₁.update fun t ht => ?_
  obtain ⟨-, -, heq⟩ := bind_ok_iff.mp ht
  cases heq
  exact plain_putAlloc _ _

theorem Closed.recordBoot (h : g.Closed w) (address : String) (chainId : Int)
    (escrow capsJson : String) (reconciled : Bool) :
    g.Does g.Fallen (fun _ w' => g.Closed w')
      (recordBoot address chainId escrow capsJson reconciled) w := by
  refine h.tick.bind fun _ _ h₁ => (h₁.select _).bind fun _ _ h₂ => h₂.1.update fun t ht => ?_
  obtain ⟨-, -, heq⟩ := bind_ok_iff.mp ht
  cases heq
  exact .of_spend ⟨rfl, rfl, rfl, rfl, rfl⟩ rfl rfl

/-! ### Reservations -/

/-- The tables have ticked to `seq` and `ts` since tables that the regime allows. -/
def Ticking (g : Regime x) (seq ts : Int) (t : Tables) : Prop :=
  ∃ t₁ n₁, g.Kept t₁ n₁ ∧ Follows t₁ t seq ts

theorem Ticking.plain {seq ts : Int} {t t' : Tables} (h : g.Ticking seq ts t)
    (hspend : t'.spend = t.spend) (hguard : t'.clockGuard = t.clockGuard) :
    g.Ticking seq ts t' := by
  obtain ⟨t₁, n₁, hkept, hf⟩ := h
  exact ⟨t₁, n₁, hkept, hspend ▸ hf.rows, hf.next, hguard ▸ hf.newestSeq, hguard ▸ hf.newestTs,
    hf.times⟩

theorem Inside.refuseRegression (h : g.Inside (fun t₀ t => t₀ = t) w) (row : ClockGuard)
    (wall : Int) : g.Does g.Torn (fun _ w' => w' = w) (refuseRegression row wall) w := by
  unfold Ledger.refuseRegression
  split
  · refine Does.bind (P := fun _ w' => g.Inside (fun t₀ t => t₀ = t) w') ?_ fun _ _ h' =>
      .raise h'.torn
    refine h.update fun c t₀ t t' hc h₀ heq ht => ?_
    subst heq
    have hplain : Plain t₀ t' := by
      cases ht
      exact .of_spend ⟨rfl, rfl, rfl, rfl, rfl⟩ rfl rfl
    exact ⟨t', g.plain (g.later h₀ hc) hplain, rfl⟩
  · exact .pure rfl

theorem Inside.tick (h : g.Inside (fun t₀ t => t₀ = t) w) :
    g.Does g.Torn (fun r w' => g.Inside (fun t₀ t => t₀ = t ∧ g.Ticking r.1 r.2 t) w')
      Ledger.tick w := by
  refine h.select.bind fun row w₁ h₁ => h₁.now.bind fun wall w₂ h₂ => ?_
  obtain ⟨h₂, hwall⟩ := h₂
  refine ((h₂.mono fun _ _ h => h.1).refuseRegression row wall).bind fun _ w₃ heq => ?_
  subst heq
  refine Does.bind (P := fun _ w' => g.Inside (fun t₀ t => t₀ = t ∧
    g.Ticking (row.maxSeq + 1) (max wall row.maxTs) t) w') ?_ fun _ _ h₄ => .pure h₄
  refine h₂.update fun c t₀ t t' hc h₀ hF ht => ?_
  obtain ⟨rfl, hrow⟩ := hF
  cases Except.ok.inj hrow
  cases ht
  subst hwall
  exact ⟨_, g.later (g.tick h₀) hc, rfl, t₀, _, h₀, rfl, rfl, rfl, rfl, le_max_right _ _⟩

/-- What an allocation has read. -/
structure Allocated (g : Regime x) (al : Allocation) (t : Tables) : Prop where
  ticking : g.Ticking al.seq al.ts t
  head : al.head = t.spendHead

theorem Closed.allocate (h : g.Closed w) (chainId : Int) (fromAddr : String) :
    g.Does g.Torn (fun al w' => g.Inside (fun t₀ t => t₀ = t ∧ g.Allocated al t) w')
      (allocate chainId fromAddr) w := by
  refine h.beginImmediate.bind fun _ w₁ h₁ => h₁.tick.bind fun r w₂ h₂ => ?_
  refine Does.bind (P := fun _ w' => g.Inside (fun t₀ t => t₀ = t ∧ g.Ticking r.1 r.2 t) w')
    ?_ fun _ w₃ h₃ => h₃.select.bind fun nonce w₄ h₄ => h₄.select.bind fun head w₅ h₅ => .pure ?_
  · refine h₂.plain fun t t' ht heq => ?_
    cases heq
    unfold Tables.insertAlloc
    split
    · exact ⟨.refl t, ht⟩
    · exact ⟨.alloc, ht.plain rfl rfl⟩
  · refine h₅.mono fun t₀ t hF => ?_
    obtain ⟨⟨⟨heq, hticking⟩, -⟩, hhead⟩ := hF
    exact ⟨heq, hticking, (Except.ok.inj hhead).symm⟩

theorem Inside.takeNonce (h : g.Inside (fun t₀ t => t₀ = t) w) (chainId : Int)
    (fromAddr : String) (seq : Int) :
    g.Does g.Torn (fun _ w' => g.Inside (fun t₀ t => t₀ = t) w')
      (takeNonce chainId fromAddr seq) w := by
  refine h.update fun c t₀ t t' hc h₀ hF ht => ?_
  subst hF
  cases ht
  exact ⟨_, g.plain (g.later h₀ hc) .alloc, rfl⟩

theorem Inside.giveUp {F : Tables → Tables → Prop} {Q : α → World → Prop} (h : g.Inside F w)
    (e : Exn) : g.Does g.Torn Q (giveUp e) w :=
  (h.torn.rollback.mono (fun _ h => h.torn) fun _ _ h => h).bind fun _ _ h' => .raise h'.torn

theorem Inside.reviveRow {F : Tables → Tables → Prop} (h : g.Inside (fun t₀ t => t₀ = t ∧ F t₀ t) w)
    (ints : List Int) (k : Key) (amountUnits : Int) {f : SpendRow → SpendRow}
    (hf : ∀ r, SameRow r (f r)) :
    g.Does g.Torn (fun _ w' => g.Inside (fun t₀ t => t₀ = t) w')
      (reviveRow ints k amountUnits f) w := by
  refine h.sql fun c t₀ t t' changed hc h₀ hF ht => ?_
  obtain ⟨rfl, -⟩ := hF
  obtain ⟨-, -, ht⟩ := bind_ok_iff.mp ht
  split at ht
  · obtain ⟨t'', ht'', heq⟩ := bind_ok_iff.mp ht
    cases heq
    exact ⟨_, g.plain (g.later h₀ hc) (.updateRow hf ht''), rfl⟩
  · cases ht
    exact ⟨t₀, g.later h₀ hc, rfl⟩

theorem Inside.reviveDebit {F : Tables → Tables → Prop}
    (h : g.Inside (fun t₀ t => t₀ = t ∧ F t₀ t) w) (a : Request) (al : Allocation) :
    g.Does g.Torn (fun _ w' => g.Closed w') (reviveDebit x a al) w := by
  refine (h.reviveRow _ _ _ (sameRow_revived a _ _ _)).bind fun changed w₁ h₁ => ?_
  split
  · refine (h₁.takeNonce _ _ _).bind fun _ w₂ h₂ => h₂.commit.bind fun _ w₃ h₃ => ?_
    refine ((h₃.select _).mono (fun _ h => h.torn) fun _ _ h => h).bind fun row w₄ h₄ => ?_
    split
    · exact .raise h₄.1.torn
    · exact ((h₄.1.audit _).mono (fun _ h => h.torn) fun _ _ h => h).bind fun _ _ h₅ => .pure h₅
  · exact h₁.giveUp _

/-- A row written with what an allocation read. -/
structure RowOf (x : Externals) (al : Allocation) (row : SpendRow) : Prop where
  seq : row.seq = al.seq
  ts : row.ts = al.ts
  prev : row.prevRowHash = al.head
  hash : row.rowHash = spendHash x al.head row

theorem rowOf_request (a : Request) (al : Allocation) :
    RowOf x al (a.row x al.seq al.ts al.accountNonce al.head) := ⟨rfl, rfl, rfl, rfl⟩

/-- The tables with a row placed whose hash is not yet the head. -/
def Placed (g : Regime x) (al : Allocation) (row : SpendRow) (t₀ t : Tables) : Prop :=
  g.Allocated al t₀ ∧ ∃ h, t = { t₀ with spend := ⟨t₀.spend.rows ++ [row], h⟩ }

theorem Inside.insertRow {al : Allocation} (h : g.Inside (fun t₀ t => t₀ = t ∧ g.Allocated al t) w)
    (ints : List Int) (guard : Tables → Except Exn Bool) (row : SpendRow) :
    g.Does g.Torn (fun inserted w' => if inserted then g.Inside (g.Placed al row) w'
      else g.Inside (fun t₀ t => t₀ = t) w') (insertRow ints guard row) w := by
  refine (Inside.sql (G := fun inserted t₀ t => if inserted then g.Placed al row t₀ t
    else t₀ = t) h fun c t₀ t t' inserted hc h₀ hF ht => ?_).mono (fun _ h => h) fun inserted _ h =>
      ?_
  · obtain ⟨rfl, hal⟩ := hF
    obtain ⟨-, -, ht⟩ := bind_ok_iff.mp ht
    obtain ⟨passes, -, ht⟩ := bind_ok_iff.mp ht
    split at ht
    · obtain ⟨t'', ht'', heq⟩ := bind_ok_iff.mp ht
      cases heq
      obtain ⟨hrows, rfl⟩ := setSpend_eq ht''
      exact ⟨t₀, g.later h₀ hc, hal, hrows, rfl⟩
    · cases ht
      exact ⟨t₀, g.later h₀ hc, rfl⟩
  · cases inserted <;> exact h

theorem Inside.takeNoncePlaced {al : Allocation} {row : SpendRow}
    (h : g.Inside (g.Placed al row) w) (chainId : Int) (fromAddr : String) (seq : Int) :
    g.Does g.Torn (fun _ w' => g.Inside (g.Placed al row) w')
      (Ledger.takeNonce chainId fromAddr seq) w := by
  refine h.update fun c t₀ t t' hc h₀ hF ht => ?_
  obtain ⟨hal, hrows, rfl⟩ := hF
  cases ht
  exact ⟨t₀.updateAlloc chainId fromAddr _, g.plain (g.later h₀ hc) .alloc,
    ⟨hal.ticking.plain rfl rfl, hal.head⟩, hrows, rfl⟩

theorem Inside.setHead {al : Allocation} {row : SpendRow} (h : g.Inside (g.Placed al row) w)
    (hrow : RowOf x al row) :
    g.Does g.Torn (fun _ w' => g.Inside (fun t₀ t => t₀ = t) w')
      (EscrowSigner.update fun t => .ok { t with spendHead := row.rowHash }) w := by
  refine h.update fun c t₀ t t' hc h₀ hF ht => ?_
  obtain ⟨⟨⟨t₁, n₁, h₁, hf⟩, hhead⟩, hrows, rfl⟩ := hF
  have hplaced : g.Kept t' w.clock := by
    cases ht
    refine g.place h₁ h₀ ⟨hf.rows, ?_, ?_, ?_, ?_⟩
      ⟨⟨rfl, rfl, rfl, rfl, rfl⟩, hrow.prev.trans hhead, hhead ▸ hrow.hash, rfl, rfl⟩
    · rw [hrow.seq, hf.next]
    · rw [hrow.seq, hf.newestSeq]
    · rw [hrow.ts, hf.newestTs]
    · rw [hrow.ts]
      exact hf.times
  exact ⟨t', g.later hplaced hc, rfl⟩

theorem Inside.insertDebit {al : Allocation}
    (h : g.Inside (fun t₀ t => t₀ = t ∧ g.Allocated al t) w) (caps : Caps) (a : Request)
    (cuts : Cuts) : g.Does g.Torn (fun _ w' => g.Closed w') (insertDebit x caps a cuts al) w := by
  refine (h.insertRow _ _ _).bind fun inserted w₁ h₁ => ?_
  cases inserted with
  | false => exact Inside.giveUp h₁ _
  | true =>
    exact (Inside.takeNoncePlaced h₁ _ _ _).bind fun _ _ h₂ =>
      (h₂.setHead (rowOf_request a al)).bind fun _ _ h₃ => h₃.commit

theorem Inside.placeGasOnly {al : Allocation}
    (h : g.Inside (fun t₀ t => t₀ = t ∧ g.Allocated al t) w) (a : GasOnlyRequest) (cut : Int)
    (revive : Bool) :
    g.Does g.Torn (fun _ w' => g.Inside (fun t₀ t => t₀ = t) w')
      (placeGasOnly x a cut revive al) w := by
  unfold Ledger.placeGasOnly
  split
  · refine (h.reviveRow _ _ _ (sameRow_gasOnlyRevived a _ _ _)).bind fun changed w₁ h₁ => ?_
    split
    · exact .pure h₁
    · exact h₁.giveUp _
  · refine (h.insertRow _ _ _).bind fun inserted w₁ h₁ => ?_
    cases inserted with
    | false => exact Inside.giveUp h₁ _
    | true => exact Inside.setHead h₁ (rowOf_request a.request al)

theorem Does.guardTransaction {p : Code α} {Q : α → World → Prop} (h : g.Does g.Torn Q p w) :
    g.Does g.Torn Q (guardTransaction p) w := by
  have hthrow : ∀ (e : Exn) (w' : World), g.Torn w' →
      g.Does g.Torn Q (do let _ ← rollback.attempt; throwExn e) w' := fun e w' h' =>
    Does.bind (P := fun _ w' => g.Torn w')
      (Does.mono h'.rollback.attempt (fun _ h => h) fun r _ h'' => by
        cases r <;> exact Fallen.torn h'') fun _ _ h'' => .raise h''
  refine Does.bind (E := g.Torn) h.attempt fun r w₁ h₁ => ?_
  cases r with
  | ok a => exact .pure h₁
  | error e =>
    cases e with
    | sqlite name => exact hthrow _ _ h₁
    | clockRegression message => exact hthrow _ _ h₁
    | capBreach | ledgerUnavailable | chainUnverified | reverted | rpcUnavailable | calldata
    | other => exact .raise h₁

theorem Torn.inTransaction (h : g.Torn w) :
    g.Does E (fun opened w' => g.Torn w' ∧ opened = w'.db.working.isSome) inTransaction w :=
  Does.action (g.safe h) fun _ hc => ⟨g.laterBroken h hc, rfl⟩

/-- Whatever raises, no transaction is left open. -/
theorem Does.rollbackOnError {p : Code α} {Q : α → World → Prop} (h : g.Does g.Torn Q p w) :
    g.Does g.Fallen Q (rollbackOnError p) w := by
  refine Does.bind (E := g.Fallen) h.attempt fun r w₁ h₁ => ?_
  cases r with
  | ok a => exact .pure h₁
  | error e =>
    refine (Torn.inTransaction h₁).bind fun opened w₂ h₂ => ?_
    obtain ⟨h₂, hopened⟩ := h₂
    split
    · refine Does.bind (P := fun _ w' => g.Fallen w')
        (Does.mono h₂.rollback.attempt (fun _ h => h) fun r _ h₃ => ?_) fun _ _ h₃ => .raise h₃
      cases r <;> exact h₃
    · rename_i hclosed
      refine .raise ⟨?_, h₂⟩
      cases hw : w₂.db.working with
      | none => rfl
      | some t => exact absurd (by rw [hopened, hw]; rfl) hclosed

theorem Closed.runChecks (h : g.Closed w) (checks : List Check) :
    g.Does g.Fallen (fun _ w' => w' = w) (runChecks checks) w := by
  induction checks with
  | nil => exact .pure rfl
  | cons c checks ih =>
    unfold Ledger.runChecks
    split
    · exact ih
    · exact .raise h.fallen

theorem Closed.windowChecks (h : g.Closed w) (caps : Caps) (a : Request) (cuts : Cuts) :
    g.Does g.Fallen (fun _ w' => g.Closed w') (windowChecks x caps a cuts) w :=
  (h.select _).bind fun _ _ h₁ => (h₁.1.select _).bind fun _ _ h₂ =>
    (h₂.1.select _).bind fun _ _ h₃ => (h₃.1.select _).bind fun _ _ h₄ =>
      (h₄.1.select _).bind fun _ _ h₅ => (h₅.1.select _).bind fun _ _ h₆ =>
        (h₆.1.select _).bind fun _ _ h₇ => (h₇.1.select _).bind fun _ _ h₈ => .pure h₈.1

theorem Closed.checkDistinctChannels (h : g.Closed w) (caps : Caps) (a : Request) (cuts : Cuts) :
    g.Does g.Fallen (fun _ w' => g.Closed w') (checkDistinctChannels caps a cuts) w := by
  unfold Ledger.checkDistinctChannels
  split
  · exact .pure h
  · refine (h.select _).bind fun _ _ h₁ => (h₁.1.select _).bind fun _ _ h₂ => ?_
    split
    · exact .raise h₂.1.fallen
    · exact .pure h₂.1

theorem Closed.reviveOf (h : g.Closed w) (existing : Option SpendRow) (what : String) :
    g.Does g.Fallen (fun _ w' => w' = w) (reviveOf existing what) w := by
  unfold Ledger.reviveOf
  split
  · exact .pure rfl
  · split
    · exact .pure rfl
    · exact .raise h.fallen

theorem Closed.committedRow (h : g.Closed w) (k : Key) :
    g.Does g.Fallen (fun _ w' => g.Closed w') (committedRow k) w := by
  refine (h.select _).bind fun row w₁ h₁ => ?_
  split
  · exact .pure h₁.1
  · exact .raise h₁.1.fallen

theorem Closed.reserveTransaction (h : g.Closed w) (caps : Caps) (a : Request) (cuts : Cuts)
    (revive : Bool) :
    g.Does g.Torn (fun _ w' => g.Closed w') (reserveTransaction x caps a cuts revive) w := by
  refine (h.allocate _ _).bind fun al w₁ h₁ => ?_
  split
  · exact (h₁.reviveDebit a al).bind fun _ _ h₂ => .pure h₂
  · exact (h₁.insertDebit caps a cuts).bind fun _ _ h₂ => .pure h₂

theorem Closed.reserve (h : g.Closed w) (caps : Caps) (a : Request) :
    g.Does g.Fallen (fun _ w' => g.Closed w') (reserve x caps a) w := by
  refine Does.rollbackOnError ?_
  unfold Ledger.reserveUnlocked
  split
  · exact .raise h.torn
  refine (h.assertClockSane.mono (fun _ h => h.torn) fun _ _ h => h).bind fun _ w₁ h₁ => ?_
  refine (h₁.now.mono (fun _ h => h.torn) fun _ _ h => h.1).bind fun instant w₂ h₂ => ?_
  refine ((h₂.windowChecks caps a _).mono (fun _ h => h.torn) fun _ _ h => h).bind
    fun checks w₃ h₃ => ?_
  refine ((h₃.runChecks checks).mono (fun _ h => h.torn) fun _ _ h => h ▸ h₃).bind fun _ w₄ h₄ => ?_
  refine ((h₄.checkDistinctChannels caps a _).mono (fun _ h => h.torn) fun _ _ h => h).bind
    fun _ w₅ h₅ => ?_
  refine ((h₅.select _).mono (fun _ h => h.torn) fun _ _ h => h.1).bind fun existing w₆ h₆ => ?_
  refine ((h₆.reviveOf existing _).mono (fun _ h => h.torn) fun _ _ h => h ▸ h₆).bind
    fun revive w₇ h₇ => ?_
  refine (Does.guardTransaction (h₇.reserveTransaction caps a _ revive)).bind fun row w₈ h₈ => ?_
  split
  · exact .pure h₈
  · exact (Closed.committedRow h₈ _).mono (fun _ h => h.torn) fun _ _ h => h

theorem Closed.checkGasOnlyCount (h : g.Closed w) (a : GasOnlyRequest) (cut : Int) :
    g.Does g.Fallen (fun _ w' => g.Closed w') (checkGasOnlyCount a cut) w := by
  unfold Ledger.checkGasOnlyCount
  split
  · exact .pure h
  · refine (h.select _).bind fun _ _ h₁ => ?_
    split
    · exact .raise h₁.1.fallen
    · exact .pure h₁.1

theorem Closed.checkGasOnlyFee (h : g.Closed w) (caps : Caps) (a : GasOnlyRequest) (cut : Int) :
    g.Does g.Fallen (fun _ w' => g.Closed w') (checkGasOnlyFee x caps a cut) w := by
  unfold Ledger.checkGasOnlyFee
  split
  · exact .pure h
  · refine (h.select _).bind fun _ _ h₁ => ?_
    split
    · exact .raise h₁.1.fallen
    · exact .pure h₁.1

theorem Closed.gasOnlyTransaction (h : g.Closed w) (a : GasOnlyRequest) (cut : Int)
    (revive : Bool) :
    g.Does g.Torn (fun _ w' => g.Closed w') (gasOnlyTransaction x a cut revive) w :=
  (h.allocate _ _).bind fun _ _ h₁ => (h₁.placeGasOnly a cut revive).bind fun _ _ h₂ =>
    (h₂.takeNonce _ _ _).bind fun _ _ h₃ => h₃.commit

theorem Closed.reserveGasOnly (h : g.Closed w) (caps : Caps) (a : GasOnlyRequest) :
    g.Does g.Fallen (fun _ w' => g.Closed w') (reserveGasOnly x caps a) w := by
  refine Does.rollbackOnError ?_
  refine (h.assertClockSane.mono (fun _ h => h.torn) fun _ _ h => h).bind fun _ w₁ h₁ => ?_
  refine (h₁.now.mono (fun _ h => h.torn) fun _ _ h => h.1).bind fun instant w₂ h₂ => ?_
  refine ((h₂.checkGasOnlyCount a _).mono (fun _ h => h.torn) fun _ _ h => h).bind
    fun _ w₃ h₃ => ?_
  refine ((h₃.checkGasOnlyFee caps a _).mono (fun _ h => h.torn) fun _ _ h => h).bind
    fun _ w₄ h₄ => ?_
  refine ((h₄.select _).mono (fun _ h => h.torn) fun _ _ h => h.1).bind fun existing w₅ h₅ => ?_
  refine ((h₅.reviveOf existing _).mono (fun _ h => h.torn) fun _ _ h => h ▸ h₅).bind
    fun revive w₆ h₆ => ?_
  refine (Does.guardTransaction (h₆.gasOnlyTransaction a _ revive)).bind fun _ w₇ h₇ => ?_
  refine ((h₇.committedRow _).mono (fun _ h => h.torn) fun _ _ h => h).bind fun row w₈ h₈ => ?_
  exact ((h₈.audit _).mono (fun _ h => h.torn) fun _ _ h => h).bind fun _ _ h₉ => .pure h₉

end Regime

end EscrowSigner.Integrity
