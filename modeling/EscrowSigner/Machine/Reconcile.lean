import EscrowSigner.Machine.Reservation

/-! Reconciliation and boot on the machine: a live row is settled only after the chain was asked
about it, and boot sets the allocator after it has read the pending count. -/

namespace EscrowSigner.Machine

open Policy

variable {σ : Setting} {φ φ₀ : Phase} {w w' w'' : World} {row : SpendRow}

/-! ### What the settlement of a row leaves alone -/

/-- Every row stands for the same request as a row that was there before. -/
def Tuples (w w' : World) : Prop :=
  ∀ r' ∈ w'.tables.spend.rows, ∃ r ∈ w.tables.spend.rows, r.key = r'.key ∧
    r.semanticTuple = r'.semanticTuple

theorem Tuples.of_rows (h : w'.tables.spend.rows = w.tables.spend.rows) : Tuples w w' :=
  fun r' hr' => ⟨r', h ▸ hr', rfl, rfl⟩

theorem Tuples.trans (h : Tuples w w') (h' : Tuples w' w'') : Tuples w w'' := fun r'' hr'' => by
  obtain ⟨r', hr', hk', ht'⟩ := h' r'' hr''
  obtain ⟨r, hr, hk, ht⟩ := h r' hr'
  exact ⟨r, hr, hk.trans hk', ht.trans ht'⟩

/-- The row of a key was settled or left as it is, and every other row stays. -/
structure Settled (k : Key) (w w' : World) : Prop where
  others : ∀ r ∈ w.tables.spend.rows, r.key ≠ k → r ∈ w'.tables.spend.rows
  back : ∀ r' ∈ w'.tables.spend.rows, r' ∈ w.tables.spend.rows ∨ r'.state.live = false
  tuples : Tuples w w'

/-- The row of a key was settled. -/
structure Resolved (k : Key) (w w' : World) : Prop extends Settled k w w' where
  gone : ∀ r' ∈ w'.tables.spend.rows, r'.key = k → r'.state.live = false

theorem Settled.of_rows {k : Key} (h : w'.tables.spend.rows = w.tables.spend.rows) :
    Settled k w w' :=
  ⟨fun _ hr _ => h ▸ hr, fun _ hr => .inl (h ▸ hr), .of_rows h⟩

theorem Settled.after_rows {k : Key} (h : w'.tables.spend.rows = w.tables.spend.rows)
    (h' : Settled k w' w'') : Settled k w w'' :=
  ⟨fun r hr => h'.others r (h ▸ hr), fun r hr => h ▸ h'.back r hr, (Tuples.of_rows h).trans h'.tuples⟩

theorem Resolved.after_rows {k : Key} (h : w'.tables.spend.rows = w.tables.spend.rows)
    (h' : Resolved k w' w'') : Resolved k w w'' :=
  ⟨h'.toSettled.after_rows h, h'.gone⟩

/-- A row that leaves the live states is settled. -/
theorem resolved_of_mapRow {k : Key} {f : SpendRow → SpendRow}
    (hrows : w'.tables.spend.rows = mapRow k f w.tables.spend.rows)
    (hkey : ∀ r, (f r).key = r.key) (hlive : ∀ r, (f r).state.live = false)
    (htuple : ∀ r, (f r).semanticTuple = r.semanticTuple) : Resolved k w w' := by
  refine ⟨⟨fun r hr hne => ?_, fun r' hr' => ?_, fun r' hr' => ?_⟩, fun r' hr' hk => ?_⟩
  · rw [hrows]
    exact mem_mapRow.mpr ⟨r, hr, .inr ⟨hne, rfl⟩⟩
  all_goals
    rw [hrows] at hr'
    obtain ⟨r, hr, ⟨hrk, rfl⟩ | ⟨hne, rfl⟩⟩ := mem_mapRow.mp hr'
  · exact .inr (hlive r)
  · exact .inl hr
  · exact ⟨r, hr, (hkey r).symm, (htuple r).symm⟩
  · exact ⟨_, hr, rfl, rfl⟩
  · exact hlive r
  · exact absurd hk hne

/-! ### Attempts -/

/-- An attempt without the status of its receipt. -/
def bare (a : TxAttempt) : TxAttempt := { a with receiptStatus := "" }

/-- The attempts differ at most in the status of their receipts. -/
def Restamped (as as' : List TxAttempt) : Prop := as'.map bare = as.map bare

theorem Restamped.stamp (txHash status : String) (as : List TxAttempt) :
    Restamped as (stampAttempts txHash status as) := by
  simp only [Restamped, stampAttempts, List.map_map]
  refine List.map_congr_left fun a _ => ?_
  simp only [Function.comp_apply]
  split <;> rfl

theorem Restamped.mem {as as' : List TxAttempt} (h : Restamped as as') {a : TxAttempt}
    (ha : a ∈ as) : ∃ a' ∈ as', bare a' = bare a :=
  List.mem_map.mp (h ▸ List.mem_map_of_mem ha)

theorem mem_attemptsFor {t : Tables} {k : Key} {a : TxAttempt} :
    a ∈ t.attemptsFor k ↔ a ∈ t.txAttempt ∧ a.key = k := by
  simp [Tables.attemptsFor, List.mem_insertionSort]

/-- The attempts of a row that a loop still has to read are in the books. -/
def Booked (w : World) (row : SpendRow) (attempts : List TxAttempt) : Prop :=
  ∀ a ∈ attempts, ∃ a' ∈ w.tables.txAttempt, a'.txHash = a.txHash ∧ a'.key = row.key

theorem Booked.restamped {attempts : List TxAttempt} (h : Booked w row attempts)
    (hr : Restamped w.tables.txAttempt w'.tables.txAttempt) : Booked w' row attempts := by
  intro a ha
  obtain ⟨a₁, ha₁, hh, hk⟩ := h a ha
  obtain ⟨a₂, ha₂, hb⟩ := hr.mem ha₁
  exact ⟨a₂, ha₂, (congrArg TxAttempt.txHash hb).trans hh, (congrArg TxAttempt.key hb).trans hk⟩

/-! ### The receipt of an attempt -/

/-- The phase after the receipt of an attempt was read. -/
def afterReceipt (x : Externals) (row : SpendRow) (txHash : String) (φ₀ : Phase) (receipt : Json) :
    Phase :=
  match receiptField x receipt "status" "" with
  | .ok status =>
    if status = "0x1" then .found row (.mined txHash)
    else if status = "0x0" then .found row (.reverted txHash)
    else φ₀
  | .error _ => φ₀

/-- The phases in which the receipts of a row are read. -/
def Reading (row : SpendRow) (φ₀ : Phase) : Prop := φ₀ = .idle ∨ ∃ f, φ₀ = .found row f

theorem Reading.settled (h : Reading row φ₀) : φ₀.settled = true := by
  rcases h with rfl | ⟨f, rfl⟩ <;> rfl

theorem afterReceipt_settled (x : Externals) (txHash : String) (receipt : Json)
    (h : Reading row φ₀) : (afterReceipt x row txHash φ₀ receipt).settled = true := by
  unfold afterReceipt
  repeat' split
  all_goals first | rfl | exact h.settled

/-- The read of a receipt, in the phase that its answer leads to. -/
theorem At.askReceipt (h : At σ φ₀ w) (hφ₀ : Reading row φ₀) (hrow : row ∈ w.tables.spend.rows)
    (hlive : row.state.live = true) {a : TxAttempt} {rest : List TxAttempt}
    (hb : Booked w row (a :: rest)) :
    Triple σ
      (fun receipt w' => w'.tables = w.tables ∧
        w'.log.head? = some (.rpc (.receipt a.txHash) (.ok receipt)) ∧ At σ φ₀ w' ∧
        (receipt.truthy = true → At σ (afterReceipt σ.i.ext row a.txHash φ₀ receipt) w'))
      (fun _ w' => At σ φ₀ w') (RpcPool.receipt a.txHash) w := by
  refine Triple.mono (h.rpc (q := .receipt a.txHash) rfl) ?_ fun _ _ _ h => h.1
  rintro receipt w' - ⟨hat, hasked⟩
  obtain ⟨a', ha', hh, hk⟩ := hb a List.mem_cons_self
  obtain ⟨c, hc, hans, rfl⟩ := hasked
  refine ⟨rfl, rfl, hat, fun htruthy => ?_⟩
  have found : ∀ {f : Finding}, Shows σ.i (stateOf σ.i w) c row (.receipt a.txHash) f →
      At σ (.found row f) ((w.advance c).record (.rpc (.receipt a.txHash) (.ok receipt))) := by
    intro f hs
    have hstep : Step σ.i σ.env σ.ok _ _ := .find hc hφ₀ hrow hlive hs
    rw [hans] at hstep
    exact h.step h.closed hstep
  unfold afterReceipt
  rw [← hh] at hans ⊢
  split
  · rename_i status hs
    split
    · rename_i h1
      subst h1
      exact hh ▸ found (hh ▸ .mined a' receipt ha' hk hans htruthy hs)
    · split
      · rename_i h0
        subst h0
        exact hh ▸ found (hh ▸ .reverted a' receipt ha' hk hans htruthy hs)
      · exact hh ▸ hat
  · exact hh ▸ hat

theorem At.amount_ok (h : At σ φ w) (hrow : row ∈ w.tables.spend.rows) :
    inInt64 row.amountUnits = true := (h.soundness.own row hrow).2.2.2.1

/-- The row is released. -/
theorem At.release (h : At σ φ w) (hrow : row ∈ w.tables.spend.rows)
    (hfalls : Falls (stateOf σ.i w) row φ) (reason : String) :
    Leads σ (fun _ w' => At σ .idle w' ∧ Resolved row.key w w')
      (Ledger.markDead σ.i.ext row reason) w := by
  refine (h.markDead hrow rfl (h.amount_ok hrow) hfalls reason).mono ?_
  rintro _ w' - ⟨hat, hrows, -⟩
  exact ⟨hat, resolved_of_mapRow hrows (fun _ => rfl) (fun _ => rfl) fun _ => rfl⟩

/-- The row is mined. -/
theorem At.markMined {f : Finding} (h : At σ (.found row f) w) (txHash : String) (fee : Int)
    (hu : Settles σ.i (stateOf σ.i w) f
      ⟨if txHash = "" then none else some txHash, if fee = 0 then none else some fee, none⟩) :
    Leads σ (fun _ w' => At σ .idle w' ∧ Resolved row.key w w')
      (Ledger.markMined σ.i.ext row txHash fee) w := by
  refine (h.mine hu).mono ?_
  rintro _ w' - ⟨hat, hm⟩
  exact ⟨hat, resolved_of_mapRow hm.rows (fun _ => rfl) (fun _ => rfl) fun _ => rfl⟩

/-- What a loop over attempts keeps while it has not settled the row. -/
structure Undecided (w w' : World) : Prop where
  rows : w'.tables.spend.rows = w.tables.spend.rows
  attempts : Restamped w.tables.txAttempt w'.tables.txAttempt

theorem Undecided.refl (w : World) : Undecided w w := ⟨rfl, rfl⟩

theorem Undecided.trans (h : Undecided w w') (h' : Undecided w' w'') : Undecided w w'' :=
  ⟨h'.rows.trans h.rows, Eq.trans h'.attempts h.attempts⟩

/-- The outcome of a loop over attempts. -/
def Decided (σ : Setting) (row : SpendRow) (φ₀ : Phase) (w : World) : Bool → World → Prop
  | true, w' => At σ .idle w' ∧ Resolved row.key w w'
  | false, w' => At σ φ₀ w' ∧ Undecided w w'

theorem At.settleReceipt {txHash : String} {receipt : Json} {reason : String}
    (h : At σ (afterReceipt σ.i.ext row txHash φ₀ receipt) w) (hφ₀ : Reading row φ₀)
    (hread : w.log.head? = some (.rpc (.receipt txHash) (.ok receipt)))
    (hrow : row ∈ w.tables.spend.rows) :
    Leads σ (fun b w' => Decided σ row φ₀ w b w')
      (Policy.settleReceipt σ.i row txHash receipt reason) w := by
  have hsettled := afterReceipt_settled σ.i.ext txHash receipt hφ₀
  unfold Policy.settleReceipt
  refine Leads.bind (P := fun status w' => w' = w ∧
    receiptField σ.i.ext receipt "status" "" = .ok status) ?_ ?_
  · exact Triple.ofExcept (fun a ha => ⟨rfl, ha⟩) fun e _ => h.ends (.inl hsettled)
  · rintro status w₁ - ⟨rfl, hstatus⟩
    simp only [afterReceipt, hstatus] at h
    refine Leads.bind (h.recordAttemptStatus txHash status) ?_
    rintro _ w₂ - ⟨h₂, hrows, hatt, hlog⟩
    have hrow₂ : row ∈ w₂.tables.spend.rows := by
      rw [hrows]
      exact hrow
    by_cases h1 : status = "0x1"
    · simp only [if_pos h1] at h₂ ⊢
      refine Leads.bind (P := fun fee w' => w' = w₂ ∧ receiptFee σ.i.ext receipt = .ok fee)
        (Triple.ofExcept (fun _ hfee => ⟨rfl, hfee⟩) fun e _ => h₂.ends (.inl rfl)) ?_
      rintro fee w₃ - ⟨rfl, hfee⟩
      have hread₃ : w₃.log.head? = some (.rpc (.receipt txHash) (.ok receipt)) := by
        rw [hlog]
        exact hread
      refine Leads.bind (h₂.markMined txHash fee (.mined txHash receipt fee hread₃ hfee)) ?_
      rintro _ w₄ - ⟨h₄, hres⟩
      exact Triple.pure ⟨h₄, hres.after_rows hrows⟩
    · simp only [if_neg h1] at h₂ ⊢
      by_cases h0 : status = "0x0"
      · simp only [if_pos h0] at h₂ ⊢
        refine Leads.bind (h₂.release hrow₂ (.reverted txHash) reason) ?_
        rintro _ w₄ - ⟨h₄, hres⟩
        exact Triple.pure ⟨h₄, hres.after_rows hrows⟩
      · simp only [if_neg h0] at h₂ ⊢
        exact Triple.pure ⟨h₂, hrows, hatt ▸ .stamp txHash status _⟩

/-! ### `_reconcile` -/

theorem At.reconcileAttempts {attempts : List TxAttempt} (h : At σ φ₀ w) (hφ₀ : Reading row φ₀)
    (hrow : row ∈ w.tables.spend.rows) (hlive : row.state.live = true)
    (hb : Booked w row attempts) :
    Leads σ (fun b w' => Decided σ row φ₀ w b w')
      (Policy.reconcileAttempts σ.i row attempts) w := by
  induction attempts generalizing w with
  | nil => exact Triple.pure ⟨h, .refl w⟩
  | cons a rest ih =>
    have onward : ∀ {w₂ : World}, At σ φ₀ w₂ → Undecided w w₂ →
        Leads σ (fun b w' => Decided σ row φ₀ w b w')
          (Policy.reconcileAttempts σ.i row rest) w₂ := by
      intro w₂ h₂ hu
      have hb₂ : Booked w₂ row rest :=
        Booked.restamped (fun a' ha' => hb a' (List.mem_cons_of_mem _ ha')) hu.attempts
      refine (ih h₂ (hu.rows ▸ hrow) hb₂).mono ?_
      rintro b w₃ - hd
      cases b with
      | true => exact ⟨hd.1, hd.2.after_rows hu.rows⟩
      | false => exact ⟨hd.1, hu.trans hd.2⟩
    unfold Policy.reconcileAttempts
    refine Leads.bind (Triple.mono (h.askReceipt hφ₀ hrow hlive hb) (fun _ _ _ h => h)
      fun _ _ _ h => h.ends (.inl hφ₀.settled)) ?_
    rintro receipt w₁ - ⟨ht₁, hread, h₁, hafter⟩
    split
    · rename_i htruthy
      refine Leads.bind ((hafter htruthy).settleReceipt hφ₀ hread (ht₁ ▸ hrow)) ?_
      rintro b w₂ - hd
      cases b with
      | true => exact Triple.pure ⟨hd.1, hd.2.after_rows (by rw [ht₁])⟩
      | false => exact onward hd.1 ⟨by rw [hd.2.rows, ht₁], ht₁ ▸ hd.2.attempts⟩
    · refine Leads.bind (h₁.recordAttemptStatus a.txHash "absent") ?_
      rintro _ w₂ - ⟨h₂, hrows, hatt, -⟩
      exact onward h₂ ⟨by rw [hrows, ht₁], hatt ▸ ht₁ ▸ .stamp _ _ _⟩

theorem At.releaseRow {instant : Nat} (h : At σ (.found row (.unused instant)) w)
    {w₀ : World} (hu : Undecided w₀ w) :
    Leads σ (fun _ w' => At σ .idle w' ∧ Settled row.key w w')
      (Policy.releaseRow σ.i (seconds instant) row (w₀.tables.attemptsFor row.key)) w := by
  have hrow := h.soundness.phase.1
  unfold Policy.releaseRow
  split
  · rename_i hs
    refine (h.release hrow (.neverSigned instant hs.1 fun a ha hk hn => hs.2 ?_) _).mono
      fun _ _ _ h => ⟨h.1, h.2.toSettled⟩
    have hback : Restamped w.tables.txAttempt w₀.tables.txAttempt := Eq.symm hu.attempts
    obtain ⟨a₀, ha₀, hb⟩ := hback.mem ha
    refine List.any_eq_true.mpr ⟨a₀, mem_attemptsFor.mpr ⟨ha₀, ?_⟩, ?_⟩
    · exact (congrArg TxAttempt.key hb).trans hk
    · exact beq_iff_eq.mpr ((congrArg TxAttempt.accountNonce hb).trans hn)
  · split
    · rename_i hlate
      exact (h.release hrow (.lapsed instant hlate) _).mono fun _ _ _ h => ⟨h.1, h.2.toSettled⟩
    · exact Triple.pure ⟨h.settle rfl, .of_rows rfl⟩

/-- The answer about the receipt of a live row. -/
theorem At.askUsed (h : At σ .idle w) (hrow : row ∈ w.tables.spend.rows)
    (hlive : row.state.live = true) {instant : Nat} (ht : .clock instant ∈ w.log)
    {receiptId : Bytes} (hid : fromHex (row.receiptId.toList.drop 2) = .ok receiptId) :
    Leads σ (fun used w' => w'.tables = w.tables ∧
        At σ (.found row (if used then .collected else .unused instant)) w')
      (RpcPool.receiptUsed σ.i.escrow receiptId (channelBytes row.channelId)) w := by
  refine Triple.mono (h.rpc (q := .receiptUsed _ _ _) rfl) ?_ fun _ _ _ h => h.1.endsIdle
  rintro used w' - ⟨-, hasked⟩
  refine ⟨hasked.tables, ?_⟩
  obtain ⟨c, hc, hans, rfl⟩ := hasked
  have found : ∀ {f : Finding}, Shows σ.i (stateOf σ.i w) c row
      (.receiptUsed σ.i.escrow receiptId (channelBytes row.channelId)) f →
      At σ (.found row f) ((w.advance c).record
        (.rpc (.receiptUsed σ.i.escrow receiptId (channelBytes row.channelId)) (.ok used))) := by
    intro f hs
    have hstep : Step σ.i σ.env σ.ok _ _ := .find hc (.inl rfl) hrow hlive hs
    rw [hans] at hstep
    exact h.step h.closed hstep
  cases used with
  | true => exact found (.collected receiptId hid hans)
  | false => exact found (.unused receiptId instant hid hans ht)

theorem At.reconcileRow (h : At σ .idle w) (hrow : row ∈ w.tables.spend.rows)
    (hlive : row.state.live = true) {instant : Nat} (ht : .clock instant ∈ w.log) :
    Leads σ (fun _ w' => At σ .idle w' ∧ Settled row.key w w')
      (Policy.reconcileRow σ.i (seconds instant) row) w := by
  unfold Policy.reconcileRow
  refine Leads.bind (P := fun receiptId w' => w' = w ∧
    fromHex (row.receiptId.toList.drop 2) = .ok receiptId)
    (Triple.ofExcept (fun a ha => ⟨rfl, ha⟩) fun e _ => h.endsIdle) ?_
  rintro receiptId w₁ - ⟨rfl, hid⟩
  refine Leads.bind (h.askUsed hrow hlive ht hid) ?_
  rintro used w₂ - ⟨ht₂, h₂⟩
  cases used with
  | true =>
    refine (h₂.markMined "" 0 .collected).mono ?_
    rintro _ w₃ - ⟨h₃, hres⟩
    exact ⟨h₃, (hres.after_rows (by rw [ht₂])).toSettled⟩
  | false =>
    simp only [Bool.false_eq_true, if_false] at h₂ ⊢
    refine Leads.bind (h₂.select (.inr ⟨_, rfl⟩)) ?_
    rintro attempts w₃ - ⟨h₃, hatt, ht₃, -⟩
    have htab : w₃.tables = w₁.tables := ht₃.trans ht₂
    rw [Except.ok.injEq, ← ht₃] at hatt
    subst hatt
    refine Leads.bind (h₃.reconcileAttempts (.inr ⟨_, rfl⟩) (htab ▸ hrow) hlive
      fun a ha => ⟨a, (mem_attemptsFor.mp ha).1, rfl, (mem_attemptsFor.mp ha).2⟩) ?_
    rintro landed w₄ - hd
    cases landed with
    | true => exact Triple.pure ⟨hd.1, (hd.2.after_rows (by rw [htab])).toSettled⟩
    | false =>
      refine (hd.1.releaseRow hd.2).mono ?_
      rintro _ w₅ - ⟨h₅, hs⟩
      exact ⟨h₅, hs.after_rows (by rw [hd.2.rows, htab])⟩

/-- The loop over the live rows: every row that it still has to look at is as it was read. -/
theorem At.reconcileRows {rows : List SpendRow} (h : At σ .idle w)
    (hkeys : (rows.map SpendRow.key).Nodup)
    (hrows : ∀ r ∈ rows, r ∈ w.tables.spend.rows ∧ r.state.live = true) {instant : Nat}
    (ht : .clock instant ∈ w.log) :
    Leads σ (fun _ w' => At σ .idle w' ∧ Tuples w w')
      (Policy.reconcileRows σ.i (seconds instant) rows) w := by
  induction rows generalizing w with
  | nil => exact Triple.pure ⟨h, .of_rows rfl⟩
  | cons row rest ih =>
    obtain ⟨hrow, hlive⟩ := hrows row List.mem_cons_self
    rw [List.map_cons, List.nodup_cons] at hkeys
    unfold Policy.reconcileRows
    refine Leads.bind (h.reconcileRow hrow hlive ht) ?_
    rintro _ w₁ hl ⟨h₁, hs⟩
    refine (ih h₁ hkeys.2 (fun r hr => ?_) (hl.log _ ht)).mono ?_
    · obtain ⟨hr', hlive'⟩ := hrows r (List.mem_cons_of_mem _ hr)
      exact ⟨hs.others r hr' fun hk => hkeys.1 (hk ▸ List.mem_map_of_mem hr), hlive'⟩
    · rintro _ w₂ - ⟨h₂, htup⟩
      exact ⟨h₂, hs.tuples.trans htup⟩

theorem mem_unresolved {t : Tables} {r : SpendRow} :
    r ∈ t.unresolved ↔ r ∈ t.spend.rows ∧ r.state.live = true := by
  simp [Tables.unresolved, List.mem_insertionSort]

theorem unresolved_perm (t : Tables) :
    t.unresolved.Perm (t.spend.rows.filter (·.state.live)) :=
  List.perm_insertionSort _ _

theorem unresolved_keys (t : Tables) : (t.unresolved.map SpendRow.key).Nodup :=
  ((unresolved_perm t).map _).nodup_iff.mpr
    (t.spend.constraints.1.sublist (List.Sublist.map _ List.filter_sublist))

/-- The live rows, read from the books. -/
theorem At.unresolved (h : At σ .idle w) :
    Leads σ (fun rows w' => At σ .idle w' ∧ w'.tables = w.tables ∧ rows = w'.tables.unresolved)
      Ledger.unresolved w := by
  refine Leads.mono (h.select (.inr ⟨_, rfl⟩)) ?_
  rintro rows w' - ⟨hat, hr, ht, -⟩
  rw [Except.ok.injEq, ← ht] at hr
  exact ⟨hat, ht, hr.symm⟩

theorem At.reconcile (h : At σ .idle w) :
    Leads σ (fun _ w' => At σ .idle w' ∧ Tuples w w') (Policy.reconcile σ.i) w := by
  unfold Policy.reconcile
  refine Leads.bind h.now ?_
  rintro time w₁ - ⟨h₁, ht₁, rfl, hclock⟩
  refine Leads.bind h₁.unresolved ?_
  rintro rows w₂ hl ⟨h₂, ht₂, rfl⟩
  refine Leads.bind (h₂.reconcileRows (unresolved_keys _) (fun r hr => mem_unresolved.mp hr)
    (hl.log _ (mem_of_mem_session hclock))) ?_
  rintro _ w₃ - ⟨h₃, htup⟩
  exact Triple.pure ⟨h₃, (Tuples.of_rows (by rw [ht₂, ht₁])).trans htup⟩

/-! ### The identity of the chain -/

theorem At.identifyChain (h : At σ .idle w) :
    Leads σ (fun _ w' => At σ .idle w' ∧ w'.tables = w.tables) (Policy.identifyChain σ.i) w := by
  unfold Policy.identifyChain
  refine Leads.bind (h.ask (q := .chainId) rfl) ?_
  rintro chainId w₁ - ⟨h₁, ht₁, -⟩
  split
  · exact Triple.raise h₁.endsIdle
  refine Leads.bind (h₁.ask (q := .domainSeparator _) rfl) ?_
  rintro found w₂ - ⟨h₂, ht₂, -⟩
  split
  · exact Triple.raise h₂.endsIdle
  refine Leads.bind (h₂.ask (q := .hubAuthorized _ _) rfl) ?_
  rintro authorized w₃ - ⟨h₃, ht₃, -⟩
  split
  · exact Triple.raise h₃.endsIdle
  refine Leads.bind (h₃.ask (q := .tokenDecimals _) rfl) ?_
  rintro decimals w₄ - ⟨h₄, ht₄, -⟩
  split
  · exact Triple.raise h₄.endsIdle
  refine Leads.bind h₄.readClock ?_
  rintro instant w₅ - ⟨h₅, ht₅, -⟩
  refine (h₅.writeMemory _).mono ?_
  rintro _ w₆ - ⟨h₆, ht₆⟩
  exact ⟨h₆, by rw [ht₆, ht₅, ht₄, ht₃, ht₂, ht₁]⟩

theorem At.verifyChainIdentity (h : At σ .idle w) (force : Bool) :
    Leads σ (fun _ w' => At σ .idle w' ∧ w'.tables = w.tables)
      (Policy.verifyChainIdentity σ.i force) w := by
  unfold Policy.verifyChainIdentity
  split
  · exact h.identifyChain
  unfold Policy.identityCached
  refine Leads.bind (P := fun _ w' => At σ .idle w' ∧ w'.tables = w.tables)
    (Leads.bind h.readClock ?_) ?_
  · rintro instant w₁ - ⟨h₁, ht₁, -⟩
    refine Leads.bind h₁.readMemory ?_
    rintro mem w₂ - ⟨h₂, ht₂⟩
    exact Triple.pure ⟨h₂, ht₂.trans ht₁⟩
  · rintro cached w₃ - ⟨h₃, ht₃⟩
    split
    · exact Triple.pure ⟨h₃, ht₃⟩
    · exact h₃.identifyChain.mono fun _ _ _ ⟨h₄, ht₄⟩ => ⟨h₄, ht₄.trans ht₃⟩

/-! ### Boot -/

theorem Ends.writeMemory (h : Ends σ w) (f : Memory → Memory) :
    Leads σ (fun _ => Ends σ) (EscrowSigner.writeMemory f) w := by
  obtain ⟨φ, hat, hφ⟩ := h
  exact (hat.writeMemory f).mono fun _ _ _ ⟨h', _⟩ => ⟨φ, h', hφ⟩

theorem At.halted (h : At σ .idle w) :
    Leads σ (fun _ w' => At σ .idle w' ∧ w'.tables = w.tables) Ledger.halted w := by
  unfold Ledger.halted
  refine Leads.bind h.guardRow ?_
  rintro row w₁ - ⟨h₁, -, ht₁⟩
  exact Triple.pure ⟨h₁, ht₁⟩

theorem At.verifyChains (h : At σ .idle w) {x : Externals} :
    Leads σ (fun _ w' => At σ .idle w') (Ledger.verifyChains x) w := by
  unfold Ledger.verifyChains
  refine Leads.bind (h.select (.inl (.inl rfl))) ?_
  rintro _ w₁ - ⟨h₁, -⟩
  exact (h₁.select (.inl (.inl rfl))).mono fun _ _ _ h => h.1

theorem At.recordBoot (h : At σ .idle w) {address escrow capsJson : String} {chainId : Int}
    {reconciled : Bool} :
    Leads σ (fun _ w' => At σ .idle w')
      (Ledger.recordBoot address chainId escrow capsJson reconciled) w := by
  unfold Ledger.recordBoot
  refine Leads.bind h.tick ?_
  rintro ⟨seq, ts⟩ w₁ - ⟨h₁, -⟩
  refine Leads.bind (h₁.select (.inr ⟨_, rfl⟩)) ?_
  rintro head w₂ - ⟨h₂, -⟩
  refine Leads.mono (h₂.update .idle (.inl (.inl rfl)) fun c t hc ht => ?_)
    fun _ _ _ h => h.1
  obtain ⟨_, -, ht⟩ := bind_ok_iff.mp ht
  cases ht
  exact .pass hc (.inl rfl) (.inl rfl) le_rfl

theorem At.bootReads (h : At σ .idle w) (hask : request w.log = some .boot) :
    Leads σ (fun r w' => At σ (.counted r.2) w') (Policy.bootReads σ.i) w := by
  unfold Policy.bootReads
  refine Leads.bind (h.verifyChainIdentity true) ?_
  rintro _ w₁ hl₁ ⟨h₁, -⟩
  refine Leads.bind h₁.reconcile ?_
  rintro reconciled w₂ hl₂ ⟨h₂, -⟩
  refine Leads.bind (P := fun n w' => At σ (.counted n) w')
    (Triple.mono (h₂.rpc (q := .transactionCount _ _) rfl) ?_ fun _ _ _ h => h.1.endsIdle) ?_
  · rintro n w₃ - ⟨-, c, hc, hans, rfl⟩
    exact h₂.step h₂.closed (.count hc ((hl₁.trans hl₂).request.trans hask) hans)
  · rintro n w₃ - h₃
    exact Triple.pure h₃

theorem At.finishBoot {n : Int} (h : At σ (.counted n) w) {reconciled : Bool} :
    Leads σ (fun _ w' => At σ .idle w') (Policy.finishBoot σ.i reconciled n) w := by
  unfold Policy.finishBoot
  refine Leads.bind (h.select (.inr ⟨_, rfl⟩)) ?_
  rintro live w₁ - ⟨h₁, hlive, ht₁, -⟩
  rw [Except.ok.injEq] at hlive
  refine Leads.bind (h₁.setNextNonce ?_) ?_
  · rw [← hlive, ht₁]
    exact unresolved_perm _
  · rintro _ w₂ - h₂
    refine Leads.bind h₂.recordBoot ?_
    rintro _ w₃ - h₃
    refine Leads.bind (h₃.audit (.inl (.inl rfl))) ?_
    rintro _ w₄ - ⟨h₄, -⟩
    exact (h₄.writeMemory _).mono fun _ _ _ h => h.1

theorem At.boot (h : At σ .idle w) (hask : request w.log = some .boot) :
    Leads σ (fun _ => Ends σ) (Policy.boot σ.i) w := by
  unfold Policy.boot
  refine Leads.bind (h.writeMemory _) ?_
  rintro _ w₁ hl₁ ⟨h₁, -⟩
  refine Triple.catch h₁.verifyChains ?_ ?_
  · rintro _ w₂ hl₂ h₂
    unfold bootChain
    refine Leads.bind h₂.halted ?_
    rintro reason w₃ hl₃ ⟨h₃, -⟩
    split
    · exact h₃.endsIdle.writeMemory _
    · refine Triple.catch (h₃.bootReads (((hl₁.trans hl₂).trans hl₃).request.trans hask)) ?_ ?_
      · rintro ⟨reconciled, n⟩ w₄ - h₄
        exact h₄.finishBoot.mono fun _ _ _ h => h.endsIdle
      · rintro e w₄ - he
        cases e with
        | rpcUnavailable message => exact he.writeMemory _
        | reverted name => exact he.writeMemory _
        | _ => exact Triple.raise he
  · rintro e w₂ - he
    cases e with
    | ledgerUnavailable message => exact he.writeMemory _
    | _ => exact Triple.raise he

end EscrowSigner.Machine
