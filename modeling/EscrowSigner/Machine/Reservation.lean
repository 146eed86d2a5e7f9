import EscrowSigner.Machine.Transaction

/-! The two reservations grant a row to a plan: the checks before the transaction find what the
caps demand, and the commit is the step that grants. -/

namespace EscrowSigner.Machine

open Policy Ledger

variable {σ : Setting} {φ : Phase} {w w' : World} {t t' : Tables} {p : Plan} {cut : Int}
variable {al : Allocation}

theorem Justified.later (h : Justified σ.i w.log p) (hl : Later σ w w') :
    Justified σ.i w'.log p :=
  h.extend hl.request hl.session

/-! ### The allocation -/

/-- A transaction that has read its sequence number, time and nonce, on tables that so far differ
from the committed ones in the clock guard, the allocator and the rows. -/
structure Pending (σ : Setting) (p : Plan) (cut : Int) (al : Allocation) (w : World) (t : Tables) :
    Prop where
  inside : Inside σ w t
  justified : Justified σ.i w.log p
  fits : Fits σ.i cut w.tables.spend.rows p
  before : Steady σ.env → cut ≤ al.ts
  shown : Shown σ.env w.tables.spend.rows w.log cut
  stamped : Stamped σ.env (stateOf σ.i w) al.ts
  seq : w.tables.clockGuard.maxSeq < al.seq
  nonce : al.accountNonce = nextOf σ.i w.tables
  guard : t.clockGuard.maxTs = al.ts ∧ t.clockGuard.maxSeq = al.seq
  attempts : t.txAttempt = w.tables.txAttempt
  alloc : (t.allocOf Config.chainId σ.i.address).isSome = true

/-- A statement that leaves clock guard and attempts alone keeps the transaction pending. -/
theorem Pending.next (h : Pending σ p cut al w t) (hl : Later σ w w') (hi : Inside σ w' t')
    (ht : w'.tables = w.tables) (hguard : t'.clockGuard = t.clockGuard)
    (hattempts : t'.txAttempt = t.txAttempt)
    (halloc : (t'.allocOf Config.chainId σ.i.address).isSome = true) :
    Pending σ p cut al w' t' where
  inside := hi
  justified := h.justified.later hl
  fits := ht ▸ h.fits
  before := h.before
  shown := by
    rw [ht]
    exact h.shown.later hl
  stamped := by
    obtain ⟨instant, hi, hts⟩ := h.stamped
    exact ⟨instant, fun hs => (hi hs).trans (hl.clock hs), by rw [hts]; simp only [stateOf, ht]; rfl⟩
  seq := ht ▸ h.seq
  nonce := ht ▸ h.nonce
  guard := hguard ▸ h.guard
  attempts := by rw [hattempts, h.attempts, ht]
  alloc := halloc

/-- `tick` inside a transaction. -/
theorem Inside.tick (h : Inside σ w t) :
    Within σ (fun r w' => Inside σ w'
        { t with clockGuard := { t.clockGuard with maxTs := r.2, maxSeq := r.1 } } ∧
        w'.tables = w.tables ∧ r.1 = t.clockGuard.maxSeq + 1 ∧
        ∃ instant : Nat, r.2 = max (seconds instant) t.clockGuard.maxTs ∧
          (Steady σ.env → w.clock ≤ instant ∧ instant ≤ w'.clock)) Ledger.tick w := by
  unfold Ledger.tick
  refine Triple.bind (E := fun _ => Loose σ) (Inside.select h) ?_
  rintro row w₁ hl₁ ⟨hr, h₁, ht₁⟩
  cases hr
  refine Triple.bind (E := fun _ => Loose σ) h₁.now ?_
  rintro wall w₂ hl₂ ⟨h₂, ht₂, rfl⟩
  refine Triple.bind (P := fun _ w' => w' = w₂) (E := fun _ => Loose σ) ?_ ?_
  · unfold refuseRegression
    split
    · refine Triple.bind (E := fun _ => Loose σ) (Inside.update h₂) ?_
      rintro _ w₃ - ⟨t', -, h₃, -⟩
      exact Triple.raise (.inl h₃.run)
    · exact Triple.pure rfl
  · rintro _ w₃ - rfl
    refine Triple.bind (E := fun _ => Loose σ) (Inside.update h₂) ?_
    rintro _ w₄ hl₄ ⟨t', ht', h₄, ht₄⟩
    cases ht'
    refine Triple.pure ⟨h₄, ht₄.trans (ht₂.trans ht₁), rfl, w₃.clock, rfl, fun hs => ?_⟩
    exact ⟨(hl₁.clock hs).trans (hl₂.clock hs), hl₄.clock hs⟩

theorem allocOf_insertAlloc (i : Instance) (t : Tables) (seq : Int) :
    ∃ e, (t.insertAlloc ⟨Config.chainId, i.address, 0, seq⟩).allocOf Config.chainId i.address =
      some e ∧ e.nextNonce = nextOf i t := by
  unfold Tables.insertAlloc nextOf
  cases h : t.allocOf Config.chainId i.address with
  | some e => exact ⟨e, by simp [h], rfl⟩
  | none =>
    have hn : t.nonceAlloc.find? (fun a => a.chainId == Config.chainId && a.fromAddr == i.address) =
        none := h
    exact ⟨_, by simp [Tables.allocOf, List.find?_append, hn]; rfl, rfl⟩

theorem nextOf_of_alloc {i : Instance} {t : Tables} {e : NonceAlloc}
    (h : t.allocOf Config.chainId i.address = some e) : nextOf i t = e.nextNonce := by
  simp [nextOf, h]

/-- The statements that a reservation begins with. -/
theorem At.allocate (h : At σ .idle w) (hj : Justified σ.i w.log p)
    (hfit : Fits σ.i cut w.tables.spend.rows p) (hcut : Steady σ.env → cut ≤ seconds w.clock)
    (hshown : Shown σ.env w.tables.spend.rows w.log cut) :
    Within σ (fun al w' => ∃ t', Pending σ p cut al w' t' ∧ w'.tables = w.tables ∧
        t'.spend = w.tables.spend ∧ nextOf σ.i t' = al.accountNonce)
      (Ledger.allocate Config.chainId σ.i.address) w := by
  unfold Ledger.allocate
  refine Triple.bind h.beginImmediate ?_
  rintro _ w₁ hl₁ ⟨h₁, ht₁⟩
  refine Triple.bind h₁.tick ?_
  rintro ⟨seq, ts⟩ w₂ hl₂ ⟨h₂, ht₂, hseq, instant, hts, hclock⟩
  replace hseq : seq = w.tables.clockGuard.maxSeq + 1 := hseq
  replace hts : ts = max (seconds instant) w.tables.clockGuard.maxTs := hts
  refine Triple.bind (Inside.update h₂) ?_
  rintro _ w₃ hl₃ ⟨t₃, htab₃, h₃, ht₃⟩
  rw [Except.ok.injEq] at htab₃
  obtain ⟨e, he, hnext⟩ := allocOf_insertAlloc σ.i
    { w.tables with clockGuard := { w.tables.clockGuard with maxTs := ts, maxSeq := seq } } seq
  have he₃ : t₃.allocOf Config.chainId σ.i.address = some e := htab₃ ▸ he
  have hdata : t₃.spend = w.tables.spend ∧ t₃.txAttempt = w.tables.txAttempt ∧
      t₃.clockGuard.maxTs = ts ∧ t₃.clockGuard.maxSeq = seq := by
    rw [← htab₃]
    unfold Tables.insertAlloc
    split <;> exact ⟨rfl, rfl, rfl, rfl⟩
  refine Triple.bind (Inside.select h₃) ?_
  rintro accountNonce w₄ hl₄ ⟨hr, h₄, ht₄⟩
  rw [he₃, Except.ok.injEq] at hr
  subst hr
  refine Triple.bind (Inside.select h₄) ?_
  rintro head w₅ hl₅ ⟨-, h₅, ht₅⟩
  have ht : w₅.tables = w.tables := ht₅.trans (ht₄.trans (ht₃.trans (ht₂.trans ht₁)))
  have hl : Later σ w w₅ := ((hl₁.trans hl₂).trans (hl₃.trans hl₄)).trans hl₅
  refine Triple.pure ⟨t₃, ⟨h₅, hj.later hl, ht ▸ hfit, fun hs => ?_, ?_, ⟨instant, fun hs => ?_, ?_⟩,
    ?_, ?_, hdata.2.2, ?_, ?_⟩, ht, hdata.1, nextOf_of_alloc he₃⟩
  · have : seconds w.clock ≤ seconds instant :=
      seconds_mono ((hl₁.clock hs).trans (hclock hs).1)
    exact (hcut hs).trans (this.trans (hts.symm ▸ le_max_left _ _))
  · rw [ht]
    exact hshown.later hl
  · exact (hclock hs).2.trans (((hl₃.trans hl₄).trans hl₅).clock hs)
  · simp only [stateOf, ht]
    exact hts
  · rw [ht]
    exact hseq.symm ▸ Int.lt_succ _
  · rw [ht]
    exact hnext
  · rw [hdata.2.1, ht]
  · rw [he₃]
    rfl

/-- `UPDATE nonce_alloc` moves the allocator past the nonce. -/
theorem Pending.takeNonce (h : Pending σ p cut al w t) :
    Within σ (fun _ w' => ∃ t', Pending σ p cut al w' t' ∧ w'.tables = w.tables ∧
        t'.spend = t.spend ∧ nextOf σ.i t' = nextOf σ.i t + 1)
      (Ledger.takeNonce Config.chainId σ.i.address al.seq) w := by
  refine Triple.mono (Inside.update h.inside) ?_ fun _ _ _ h => h
  rintro _ w' hl ⟨t', ht', hi, ht⟩
  rw [Except.ok.injEq] at ht'
  obtain ⟨e, he⟩ := Option.isSome_iff_exists.mp h.alloc
  have he' := allocOf_updateAlloc t Config.chainId σ.i.address
    (f := fun e => { e with nextNonce := e.nextNonce + 1, updatedSeq := al.seq })
    fun _ hc ha => ⟨hc, ha⟩
  rw [ht', he] at he'
  refine ⟨t', h.next hl hi ht (by rw [← ht']; rfl) (by rw [← ht']; rfl) ?_, ht,
    by rw [← ht']; rfl, ?_⟩
  · rw [he']
    rfl
  · rw [nextOf_of_alloc he', nextOf_of_alloc he]

/-- The commit grants the row. -/
theorem Pending.commit {row : SpendRow} (h : Pending σ p cut al w t)
    (hplace : Places σ.i p al.seq al.ts al.accountNonce w.tables.spend.rows t.spend.rows row)
    (hnext : nextOf σ.i t = al.accountNonce + 1) (hbind : Bindable row) :
    Within σ (fun _ w' => At σ (.working p row .held) w') EscrowSigner.commit w := by
  refine Triple.mono (h.inside.commit (.working p row .held) fun c hc => ?_)
    (fun _ _ _ h => h.1) fun _ _ _ h => h
  have hn : (stateOf σ.i w).next = al.accountNonce := h.nonce.symm
  have hstep : Step σ.i σ.env σ.ok (.idle, stateOf σ.i w) _ :=
    .grant hc h.justified h.fits h.before h.shown h.stamped h.seq (hn ▸ hplace) hbind
  convert hstep using 2
  simp only [stateAt, h.attempts, hnext, h.guard.1, h.guard.2, hn]
  rfl

/-! ### The row -/

theorem Leads.within {α : Type} {P : α → World → Prop} {q : Code α} (h : Leads σ P q w) :
    Within σ P q w :=
  Triple.mono h (fun _ _ _ h => h) fun _ _ _ h => .inr h

/-- `UPDATE spend` on a dead row. -/
theorem Pending.reviveRow {ints : List Int} {k : Key} {amountUnits : Int}
    {f : SpendRow → SpendRow} (h : Pending σ p cut al w t) :
    Within σ (fun b w' => ∃ t', Pending σ p cut al w' t' ∧ w'.tables = w.tables ∧
        nextOf σ.i t' = nextOf σ.i t ∧
        (b = true → (∀ n ∈ ints, inInt64 n = true) ∧
          (∃ r ∈ t.spend.rows, r.key = k ∧ r.state = .dead ∧ r.amountUnits = amountUnits) ∧
          t'.spend.rows = mapRow k f t.spend.rows))
      (Ledger.reviveRow ints k amountUnits f) w := by
  refine Triple.mono (Inside.sql h.inside) ?_ fun _ _ _ h => h
  rintro b w' hl ⟨t', hr, hi, ht⟩
  obtain ⟨_, hb, hr⟩ := bind_ok_iff.mp hr
  split at hr
  · rename_i hany
    obtain ⟨t₁, hu, hr⟩ := bind_ok_iff.mp hr
    obtain ⟨hc, rfl⟩ := setSpend_eq hu
    cases hr
    refine ⟨_, h.next hl hi ht rfl rfl h.alloc, ht, rfl, fun _ => ⟨bindInts_eq_ok.mp hb, ?_, rfl⟩⟩
    simpa [and_assoc] using hany
  · cases hr
    exact ⟨_, h.next hl hi ht rfl rfl h.alloc, ht, rfl, nofun⟩

/-- The guarded `INSERT`. -/
theorem Pending.insertRow {ints : List Int} {guard : Tables → Except Exn Bool} {row : SpendRow}
    (h : Pending σ p cut al w t) :
    Within σ (fun b w' => ∃ t', Pending σ p cut al w' t' ∧ w'.tables = w.tables ∧
        nextOf σ.i t' = nextOf σ.i t ∧
        (b = true → (∀ n ∈ ints, inInt64 n = true) ∧ t'.spend.rows = t.spend.rows ++ [row]))
      (Ledger.insertRow ints guard row) w := by
  refine Triple.mono (Inside.sql h.inside) ?_ fun _ _ _ h => h
  rintro b w' hl ⟨t', hr, hi, ht⟩
  obtain ⟨_, hb, hr⟩ := bind_ok_iff.mp hr
  obtain ⟨g, -, hr⟩ := bind_ok_iff.mp hr
  cases g with
  | true =>
    obtain ⟨t₁, hu, hr⟩ := bind_ok_iff.mp hr
    obtain ⟨hc, rfl⟩ := setSpend_eq hu
    cases hr
    exact ⟨_, h.next hl hi ht rfl rfl h.alloc, ht, rfl, fun _ => ⟨bindInts_eq_ok.mp hb, rfl⟩⟩
  | false =>
    cases hr
    exact ⟨_, h.next hl hi ht rfl rfl h.alloc, ht, rfl, nofun⟩

/-- `UPDATE chain_head`. -/
theorem Pending.setHead (h : Pending σ p cut al w t) (head : String) :
    Within σ (fun _ w' => ∃ t', Pending σ p cut al w' t' ∧ w'.tables = w.tables ∧
        nextOf σ.i t' = nextOf σ.i t ∧ t'.spend = t.spend)
      (update fun t => .ok { t with spendHead := head }) w := by
  refine Triple.mono (Inside.update h.inside) ?_ fun _ _ _ h => h
  rintro _ w' hl ⟨t', ht', hi, ht⟩
  cases ht'
  exact ⟨_, h.next hl hi ht rfl rfl h.alloc, ht, rfl, rfl⟩

/-- The committed row of a plan is read back. -/
theorem At.get_held {row : SpendRow} (h : At σ (.working p row .held) w) :
    Leads σ (fun r w' => At σ (.working p row .held) w' ∧ r = some row ∧ w'.tables = w.tables)
      (Ledger.get row.key) w := by
  refine Leads.mono (h.select (.inr ⟨_, rfl⟩)) ?_
  rintro r w' - ⟨hat, hr, ht, -⟩
  rw [get_eq_some h.soundness.phase.2.2, Except.ok.injEq] at hr
  exact ⟨hat, hr.symm, ht⟩

theorem At.committedRow {row : SpendRow} (h : At σ (.working p row .held) w) :
    Leads σ (fun r w' => At σ (.working p r .held) w') (Ledger.committedRow row.key) w := by
  refine Leads.bind h.get_held ?_
  rintro r w' - ⟨hat, rfl, -⟩
  exact Triple.pure hat

/-- The audit row of a reservation can be bound. -/
theorem At.auditReserved {row : SpendRow} (h : At σ (.working p row .held) w) {x : Externals}
    {f : AuditFields} {n : Int} (hstatus : f.httpStatus = 0)
    (hchain : f.chainId = some Config.chainId) (hamount : f.amountUnits = some n)
    (hn : inInt64 n = true) :
    Leads σ (fun _ w' => At σ (.working p row .held) w') (Ledger.audit x f) w := by
  refine Leads.mono (h.audit (.inr ?_)) fun _ _ _ h => h.1
  simp only [AuditFields.ints, hstatus, hchain, hamount, Option.toList_some, List.cons_append,
    List.nil_append, List.forall_mem_cons]
  exact ⟨rfl, inInt64_chainId, hn, List.forall_mem_nil _⟩

/-- The plan of a reservation may revive only its own request. -/
def Known (i : Instance) (p : Plan) (rows : List SpendRow) : Prop :=
  p.isDebit = true → ∀ r ∈ rows, r.key = (p.request i).key →
    r.semanticTuple = tupleOf (p.request i)

theorem Pending.reviveDebit (h : Pending σ p cut al w t) (hspend : t.spend = w.tables.spend)
    (hn : nextOf σ.i t = al.accountNonce) (hdebit : p.isDebit = true)
    (hknown : Known σ.i p w.tables.spend.rows) :
    Within σ (fun row w' => At σ (.working p row .held) w')
      (Ledger.reviveDebit σ.i.ext (p.request σ.i) al) w := by
  have hrevived : (p.request σ.i).revived al.seq al.ts al.accountNonce =
      p.revived σ.i al.seq al.ts al.accountNonce := by
    cases p with
    | debit => rfl
    | expire | sweep => cases hdebit
  unfold Ledger.reviveDebit
  refine Triple.bind h.reviveRow ?_
  rintro changed w₁ - ⟨t₁, h₁, ht₁, hn₁, hchanged⟩
  cases changed with
  | false => exact h₁.inside.giveUp _
  | true =>
    obtain ⟨hints, ⟨r, hr, hkey, hdead, hamount⟩, hrows⟩ := hchanged rfl
    have hchain : (p.request σ.i).chainId = Config.chainId := request_key_chainId p
    simp only [if_true, hchain, request_fromAddr]
    refine Triple.bind h₁.takeNonce ?_
    rintro _ w₂ - ⟨t₂, h₂, ht₂, hspend₂, hn₂⟩
    have hr' : r ∈ w₂.tables.spend.rows := by
      rw [ht₂, ht₁, ← hspend]
      exact hr
    have hplace : Places σ.i p al.seq al.ts al.accountNonce w₂.tables.spend.rows t₂.spend.rows
        (p.revived σ.i al.seq al.ts al.accountNonce r) := by
      have hp : Places σ.i p al.seq al.ts al.accountNonce _ _ _ :=
        .revived r hr' hkey hdead hamount fun hd => hknown hd r (by rw [← hspend]; exact hr) hkey
      rw [hspend₂, hrows, hspend, hrevived, ← hkey]
      rwa [ht₂, ht₁] at hp ⊢
    have hbind : Bindable (p.revived σ.i al.seq al.ts al.accountNonce r) := by
      simp only [List.forall_mem_cons] at hints
      refine ⟨?_, ?_, ?_⟩
      · simpa [hamount] using hints.2.2.2.2.2.1
      · simpa using hints.1
      · rw [← hrevived]
        exact hints.2.2.2.1
    refine Triple.bind (h₂.commit hplace (by rw [hn₂, hn₁, hn]) hbind) ?_
    rintro _ w₃ - h₃
    have hk : (p.revived σ.i al.seq al.ts al.accountNonce r).key = (p.request σ.i).key := by
      simp [hkey]
    have hget := h₃.get_held
    rw [hk] at hget
    refine Leads.within (Leads.bind hget ?_)
    rintro _ w₄ - ⟨h₄, rfl, -⟩
    exact Leads.bind (h₄.auditReserved rfl rfl rfl (by simpa [hamount] using hbind.1))
      fun _ w₅ _ h₅ => Triple.pure h₅

theorem Pending.insertDebit {caps : Caps} {cuts : Cuts} (h : Pending σ p cut al w t)
    (hspend : t.spend = w.tables.spend) (hn : nextOf σ.i t = al.accountNonce)
    (hfresh : ∀ r ∈ w.tables.spend.rows, r.key ≠ (p.request σ.i).key) :
    Within σ (fun _ w' => ∃ row, At σ (.working p row .held) w' ∧ row.key = (p.request σ.i).key)
      (Ledger.insertDebit σ.i.ext caps (p.request σ.i) cuts al) w := by
  unfold Ledger.insertDebit
  refine Triple.bind h.insertRow ?_
  rintro inserted w₁ - ⟨t₁, h₁, ht₁, hn₁, hinserted⟩
  cases inserted with
  | false => exact h₁.inside.giveUp _
  | true =>
    obtain ⟨hints, hrows⟩ := hinserted rfl
    have hchain : (p.request σ.i).chainId = Config.chainId := request_key_chainId p
    simp only [if_true, hchain, request_fromAddr]
    refine Triple.bind h₁.takeNonce ?_
    rintro _ w₂ - ⟨t₂, h₂, ht₂, hspend₂, hn₂⟩
    refine Triple.bind (h₂.setHead _) ?_
    rintro _ w₃ - ⟨t₃, h₃, ht₃, hn₃, hspend₃⟩
    have ht : w₃.tables = w.tables := ht₃.trans (ht₂.trans ht₁)
    have hplace : Places σ.i p al.seq al.ts al.accountNonce w₃.tables.spend.rows t₃.spend.rows
        ((p.request σ.i).row σ.i.ext al.seq al.ts al.accountNonce al.head) := by
      rw [hspend₃, hspend₂, hrows, hspend, ht]
      exact .fresh al.head hfresh
    have hbind : Bindable ((p.request σ.i).row σ.i.ext al.seq al.ts al.accountNonce al.head) := by
      simp only [Request.ints, List.cons_append, List.forall_mem_cons] at hints
      exact ⟨hints.2.1, hints.2.2.2.2.2.2.2.1, hints.2.2.2.2.2.2.1⟩
    exact Triple.mono (h₃.commit hplace (by rw [hn₃, hn₂, hn₁, hn]) hbind)
      (fun _ _ _ h => ⟨_, h, rfl⟩) fun _ _ _ h => h

/-! ### The checks -/

theorem sumInts_eq {terms : List Int} {n : Int} (h : sumInts terms = .ok n) : n = terms.sum := by
  have aux : ∀ (terms : List Int) (m n : Int),
      terms.foldlM (fun total n => if inInt64 (total + n) then Except.ok (total + n)
        else .error (Exn.sqlite "OperationalError")) m = .ok n → n = m + terms.sum := by
    intro terms
    induction terms with
    | nil =>
      intro m n h
      cases h
      simp
    | cons k terms ih =>
      intro m n h
      obtain ⟨m', hm, h⟩ := bind_ok_iff.mp h
      simp only at hm
      split at hm
      · cases hm
        rw [ih _ _ h, List.sum_cons, Int.add_assoc]
      · cases hm
  simpa using aux terms 0 n h

/-- What the checks of the windows compare. -/
structure Windows (x : Externals) (caps : Caps) (a : Request) (cuts : Cuts) (rows : List SpendRow)
    (checks : List Check) : Prop where
  tenMinutes : ⟨"cap_units_10m", caps.units10m, a.amountUnits, totalUnits
    ((countedSince a.chainId a.escrow cuts.tenMinutes rows).filter (·.token == a.token))⟩ ∈ checks
  hour : ⟨"cap_units_1h", caps.units1h, a.amountUnits, totalUnits
    ((countedSince a.chainId a.escrow cuts.hour rows).filter (·.token == a.token))⟩ ∈ checks
  day : ⟨"cap_units_24h", caps.units24h, a.amountUnits, totalUnits
    ((countedSince a.chainId a.escrow cuts.day rows).filter (·.token == a.token))⟩ ∈ checks
  channel : ⟨"cap_units_channel_24h", caps.unitsChannel24h, a.amountUnits, totalUnits
    ((countedSince a.chainId a.escrow cuts.day rows).filter (·.channelId == a.channelId))⟩ ∈ checks
  fees : ∃ spent, spentSince x a.chainId a.escrow cuts.day rows = .ok spent ∧
    ⟨"cap_fee_wei_24h", caps.feeWei24h, a.maxFeeWei * a.gasLimit, spent⟩ ∈ checks

theorem At.windowChecks (h : At σ .idle w) {x : Externals} {caps : Caps} {a : Request}
    {cuts : Cuts} :
    Leads σ (fun checks w' => At σ .idle w' ∧ w'.tables = w.tables ∧
        Windows x caps a cuts w.tables.spend.rows checks)
      (Ledger.windowChecks x caps a cuts) w := by
  unfold Ledger.windowChecks
  refine Leads.bind (h.select (.inl (.inl rfl))) ?_
  rintro units10m w₁ - ⟨h₁, hu₁, ht₁, -⟩
  refine Leads.bind (h₁.select (.inl (.inl rfl))) ?_
  rintro units1h w₂ - ⟨h₂, hu₂, ht₂, -⟩
  refine Leads.bind (h₂.select (.inl (.inl rfl))) ?_
  rintro units24h w₃ - ⟨h₃, hu₃, ht₃, -⟩
  refine Leads.bind (h₃.select (.inl (.inl rfl))) ?_
  rintro unitsChannel w₄ - ⟨h₄, hu₄, ht₄, -⟩
  refine Leads.bind (h₄.select (.inl (.inl rfl))) ?_
  rintro tx1h w₅ - ⟨h₅, -, ht₅, -⟩
  refine Leads.bind (h₅.select (.inl (.inl rfl))) ?_
  rintro tx24h w₆ - ⟨h₆, -, ht₆, -⟩
  refine Leads.bind (h₆.select (.inl (.inl rfl))) ?_
  rintro txChannel w₇ - ⟨h₇, -, ht₇, -⟩
  refine Leads.bind (h₇.select (.inl (.inl rfl))) ?_
  rintro fees w₈ - ⟨h₈, hu₈, ht₈, -⟩
  rw [ht₁] at hu₂
  rw [ht₂, ht₁] at hu₃
  rw [ht₃, ht₂, ht₁] at hu₄
  rw [ht₇, ht₆, ht₅, ht₄, ht₃, ht₂, ht₁] at hu₈
  refine Triple.pure ⟨h₈, by rw [ht₈, ht₇, ht₆, ht₅, ht₄, ht₃, ht₂, ht₁], ?_⟩
  rw [sumInts_eq hu₁, sumInts_eq hu₂, sumInts_eq hu₃, sumInts_eq hu₄]
  refine ⟨?_, ?_, ?_, ?_, fees, hu₈, ?_⟩ <;> simp [totalUnits, Tables.countedRows]

theorem At.runChecks (h : At σ .idle w) (checks : List Check) :
    Leads σ (fun _ w' => w' = w ∧ ∀ c ∈ checks, c.passes = true) (Ledger.runChecks checks) w := by
  induction checks with
  | nil => exact Triple.pure ⟨rfl, List.forall_mem_nil _⟩
  | cons c checks ih =>
    unfold Ledger.runChecks
    split
    · rename_i hc
      exact Triple.mono ih (fun _ _ _ ⟨hw, hp⟩ => ⟨hw, List.forall_mem_cons.mpr ⟨hc, hp⟩⟩)
        fun _ _ _ h => h
    · exact Triple.raise h.endsIdle

/-- Checks that pass put the reservation within the caps. -/
theorem Windows.withinCaps {x : Externals} {caps : Caps} {a : Request} {rows : List SpendRow}
    {checks : List Check} (h : Windows x caps a (.at cut) rows checks)
    (hp : ∀ c ∈ checks, c.passes = true) : WithinCaps caps a cut rows := by
  have passes : ∀ c ∈ checks, c.limit ≠ -1 → c.existing + c.adding ≤ c.limit := by
    intro c hc hl
    have := hp c hc
    simp only [Check.passes, Bool.or_eq_true, beq_iff_eq, decide_eq_true_eq] at this
    exact this.resolve_left hl
  refine ⟨fun window hw hl => ?_, fun hl => passes _ h.channel hl⟩
  simp only [unitWindows, List.mem_cons, List.not_mem_nil, or_false] at hw
  rcases hw with rfl | rfl | rfl
  · exact passes _ h.tenMinutes hl
  · exact passes _ h.hour hl
  · exact passes _ h.day hl

theorem Windows.withinFeeCap {a : Request} {rows : List SpendRow} {checks : List Check}
    (h : Windows σ.i.ext σ.i.settings.caps a (.at cut) rows checks)
    (hp : ∀ c ∈ checks, c.passes = true) : WithinFeeCap σ.i a cut rows := by
  intro hl
  obtain ⟨spent, hspent, hmem⟩ := h.fees
  have := hp _ hmem
  simp only [Check.passes, Bool.or_eq_true, beq_iff_eq, decide_eq_true_eq] at this
  exact ⟨spent, hspent, this.resolve_left hl⟩

theorem At.checkDistinctChannels (h : At σ .idle w) {caps : Caps} {a : Request} {cuts : Cuts} :
    Leads σ (fun _ w' => At σ .idle w' ∧ w'.tables = w.tables)
      (Ledger.checkDistinctChannels caps a cuts) w := by
  unfold Ledger.checkDistinctChannels
  split
  · exact Triple.pure ⟨h, rfl⟩
  · refine Leads.bind (h.select (.inl (.inl rfl))) ?_
    rintro seen w₁ - ⟨h₁, -, ht₁, -⟩
    refine Leads.bind (h₁.select (.inl (.inl rfl))) ?_
    rintro count w₂ - ⟨h₂, -, ht₂, -⟩
    split
    · exact Triple.raise h₂.endsIdle
    · exact Triple.pure ⟨h₂, ht₂.trans ht₁⟩

theorem At.reviveOf (h : At σ .idle w) (existing : Option SpendRow) (what : String) :
    Leads σ (fun revive w' => w' = w ∧ (revive = false → existing = none))
      (Ledger.reviveOf existing what) w := by
  unfold Ledger.reviveOf
  cases existing with
  | none => exact Triple.pure ⟨rfl, fun _ => rfl⟩
  | some r =>
    simp only
    split
    · exact Triple.pure ⟨rfl, nofun⟩
    · exact Triple.raise h.endsIdle

/-- A key that is not in the books. -/
theorem key_ne_of_get {t : Tables} {k : Key} (h : t.get k = none) : ∀ r ∈ t.spend.rows, r.key ≠ k :=
  fun r hr hk => by
    rw [← hk, get_eq_some hr] at h
    cases h

/-! ### `reserve` -/

theorem At.reserveTransaction (h : At σ .idle w) {caps : Caps} {cuts : Cuts} {revive : Bool}
    (hdebit : p.isDebit = true) (hj : Justified σ.i w.log p)
    (hfit : Fits σ.i cut w.tables.spend.rows p) (hcut : Steady σ.env → cut ≤ seconds w.clock)
    (hshown : Shown σ.env w.tables.spend.rows w.log cut)
    (hknown : Known σ.i p w.tables.spend.rows)
    (hfresh : revive = false → ∀ r ∈ w.tables.spend.rows, r.key ≠ (p.request σ.i).key) :
    Within σ (fun r w' => ∃ row, At σ (.working p row .held) w' ∧
        row.key = (p.request σ.i).key ∧ (r = some row ∨ r = none))
      (Ledger.reserveTransaction σ.i.ext caps (p.request σ.i) cuts revive) w := by
  have hchain : (p.request σ.i).chainId = Config.chainId := request_key_chainId p
  unfold Ledger.reserveTransaction
  simp only [hchain, request_fromAddr]
  refine Triple.bind (h.allocate hj hfit hcut hshown) ?_
  rintro al w₁ - ⟨t, hp, ht₁, hspend, hn⟩
  rw [← ht₁] at hspend
  cases revive with
  | true =>
    refine Triple.bind (hp.reviveDebit hspend hn hdebit (ht₁ ▸ hknown)) ?_
    rintro row w₂ - h₂
    exact Triple.pure ⟨row, h₂, h₂.soundness.phase.1, .inl rfl⟩
  | false =>
    refine Triple.bind (hp.insertDebit hspend hn (ht₁ ▸ hfresh rfl)) ?_
    rintro _ w₂ - ⟨row, h₂, hk⟩
    exact Triple.pure ⟨row, h₂, hk, .inr rfl⟩

/-- A debit reserves its row. -/
theorem At.reserve (h : At σ .idle w) (hdebit : p.isDebit = true) (hj : Justified σ.i w.log p)
    (hknown : Known σ.i p w.tables.spend.rows) :
    Leads σ (fun row w' => At σ (.working p row .held) w')
      (Ledger.reserve σ.i.ext σ.i.settings.caps (p.request σ.i)) w := by
  refine Within.rollbackOnError ?_
  unfold Ledger.reserveUnlocked
  split
  · exact Triple.raise (.inr h.endsIdle)
  · rename_i hpos
    refine Triple.bind h.assertClockSane.within ?_
    rintro _ w₁ hl₁ ⟨h₁, ht₁⟩
    refine Triple.bind h₁.cutNow.within ?_
    rintro instant w₂ hl₂ ⟨h₂, ht₂, rfl, hshown⟩
    refine Triple.bind h₂.windowChecks.within ?_
    rintro checks w₃ hl₃ ⟨h₃, ht₃, hwin⟩
    refine Triple.bind (h₃.runChecks checks).within ?_
    rintro _ w₄ - ⟨rfl, hpass⟩
    refine Triple.bind h₃.checkDistinctChannels.within ?_
    rintro _ w₅ hl₅ ⟨h₅, ht₅⟩
    refine Triple.bind (Leads.within (h₅.select (.inl (.inl rfl)))) ?_
    rintro existing w₆ hl₆ ⟨h₆, hget, ht₆, -⟩
    refine Triple.bind (h₆.reviveOf existing "receipt").within ?_
    rintro revive w₇ - ⟨rfl, hrevive⟩
    have ht : w₇.tables = w.tables := ht₆.trans (ht₅.trans (ht₃.trans (ht₂.trans ht₁)))
    have hl : Later σ w₂ w₇ := hl₃.trans (hl₅.trans hl₆)
    have hfit : Fits σ.i (seconds w₂.clock) w₇.tables.spend.rows p := by
      cases p with
      | debit body env call channel fees =>
        rw [ht₆, ht₅, ht₃]
        exact ⟨not_le.mp hpos, hwin.withinCaps hpass, hwin.withinFeeCap hpass⟩
      | expire | sweep => cases hdebit
    have hfresh : revive = false → ∀ r ∈ w₇.tables.spend.rows, r.key ≠ (p.request σ.i).key := by
      intro hr
      rw [hrevive hr, Except.ok.injEq] at hget
      exact key_ne_of_get (ht₆ ▸ hget)
    have hshown₇ : Shown σ.env w₇.tables.spend.rows w₇.log (seconds w₂.clock) := by
      rw [ht₆, ht₅, ht₃, ht₂]
      exact hshown.later hl
    have hj₇ : Justified σ.i w₇.log p := hj.later ((hl₁.trans hl₂).trans hl)
    refine Triple.bind (Within.guardTransaction (h₆.reserveTransaction hdebit hj₇ hfit
      (fun hs => seconds_mono (hl.clock hs)) hshown₇ (ht ▸ hknown) hfresh)) ?_
    rintro r w₈ - ⟨row, h₈, hk, rfl | rfl⟩
    · exact Triple.pure h₈
    · have := h₈.committedRow
      rw [hk] at this
      exact this.within

/-! ### `reserve_gas_only` -/

theorem At.checkGasOnlyCount (h : At σ .idle w) {a : GasOnlyRequest} {day : Int} :
    Leads σ (fun _ w' => At σ .idle w' ∧ w'.tables = w.tables)
      (Ledger.checkGasOnlyCount a day) w := by
  unfold Ledger.checkGasOnlyCount
  split
  · exact Triple.pure ⟨h, rfl⟩
  · refine Leads.bind (h.select (.inl (.inl rfl))) ?_
    rintro used w₁ - ⟨h₁, -, ht₁, -⟩
    split
    · exact Triple.raise h₁.endsIdle
    · exact Triple.pure ⟨h₁, ht₁⟩

theorem At.checkGasOnlyFee (h : At σ .idle w) {a : GasOnlyRequest} {cut : Int} :
    Leads σ (fun _ w' => At σ .idle w' ∧ w'.tables = w.tables ∧
        WithinFeeCap σ.i a.request cut w.tables.spend.rows)
      (Ledger.checkGasOnlyFee σ.i.ext σ.i.settings.caps a (cut - 86400)) w := by
  unfold Ledger.checkGasOnlyFee
  split
  · rename_i hl
    exact Triple.pure ⟨h, rfl, fun hon => absurd hl hon⟩
  · refine Leads.bind (h.select (.inl (.inl rfl))) ?_
    rintro spent w₁ - ⟨h₁, hspent, ht₁, -⟩
    split
    · exact Triple.raise h₁.endsIdle
    · rename_i hfits
      exact Triple.pure ⟨h₁, ht₁, fun _ => ⟨spent, hspent, not_lt.mp hfits⟩⟩

variable {a : GasOnlyRequest}

theorem Pending.placeGasOnly {day : Int} {revive : Bool} (h : Pending σ p cut al w t)
    (hspend : t.spend = w.tables.spend) (ha : a.request = p.request σ.i)
    (hrevived : a.revived = p.revived σ.i) (hdebit : p.isDebit = false)
    (hfresh : revive = false → ∀ r ∈ w.tables.spend.rows, r.key ≠ (p.request σ.i).key) :
    Within σ (fun _ w' => ∃ t' row, Pending σ p cut al w' t' ∧ w'.tables = w.tables ∧
        nextOf σ.i t' = nextOf σ.i t ∧ Bindable row ∧
        Places σ.i p al.seq al.ts al.accountNonce w.tables.spend.rows t'.spend.rows row)
      (Ledger.placeGasOnly σ.i.ext a day revive al) w := by
  unfold Ledger.placeGasOnly
  cases revive with
  | true =>
    simp only [if_true]
    refine Triple.bind h.reviveRow ?_
    rintro changed w₁ - ⟨t₁, h₁, ht₁, hn₁, hchanged⟩
    cases changed with
    | false => exact h₁.inside.giveUp _
    | true =>
      obtain ⟨hints, ⟨r, hr, hkey, hdead, hamount⟩, hrows⟩ := hchanged rfl
      rw [hspend] at hr
      rw [ha] at hkey
      have hplace : Places σ.i p al.seq al.ts al.accountNonce _ _ _ :=
        .revived r hr hkey hdead (by rw [hamount, ← ha]; rfl) (by rw [hdebit]; exact nofun)
      simp only [List.forall_mem_cons] at hints
      refine Triple.pure ⟨t₁, p.revived σ.i al.seq al.ts al.accountNonce r, h₁, ht₁, hn₁,
        ⟨?_, ?_, ?_⟩, ?_⟩
      · simp [hamount, inInt64]
      · simpa using hints.1
      · rw [← hrevived]
        exact hints.2.2.1
      · rw [hrows, hspend, ha, hrevived, ← hkey]
        exact hplace
  | false =>
    simp only [Bool.false_eq_true, if_false]
    refine Triple.bind h.insertRow ?_
    rintro inserted w₁ - ⟨t₁, h₁, ht₁, hn₁, hinserted⟩
    cases inserted with
    | false => exact h₁.inside.giveUp _
    | true =>
      obtain ⟨hints, hrows⟩ := hinserted rfl
      simp only [if_true]
      refine Triple.mono (h₁.setHead _) ?_ fun _ _ _ h => h
      rintro _ w₂ - ⟨t₂, h₂, ht₂, hn₂, hspend₂⟩
      simp only [Request.ints, List.cons_append, List.forall_mem_cons] at hints
      refine ⟨t₂, (p.request σ.i).row σ.i.ext al.seq al.ts al.accountNonce al.head, h₂,
        ht₂.trans ht₁, hn₂.trans hn₁, ?_, ?_⟩
      · rw [← ha]
        exact ⟨hints.2.1, hints.2.2.2.2.2.2.2.1, hints.2.2.2.2.2.2.1⟩
      · rw [hspend₂, hrows, hspend, ha]
        exact .fresh al.head (hfresh rfl)

theorem At.gasOnlyTransaction (h : At σ .idle w) {day : Int} {revive : Bool}
    (ha : a.request = p.request σ.i) (hrevived : a.revived = p.revived σ.i)
    (hdebit : p.isDebit = false) (hj : Justified σ.i w.log p)
    (hfit : Fits σ.i cut w.tables.spend.rows p) (hcut : Steady σ.env → cut ≤ seconds w.clock)
    (hshown : Shown σ.env w.tables.spend.rows w.log cut)
    (hfresh : revive = false → ∀ r ∈ w.tables.spend.rows, r.key ≠ (p.request σ.i).key) :
    Within σ (fun _ w' => ∃ row, At σ (.working p row .held) w' ∧
        row.key = (p.request σ.i).key)
      (Ledger.gasOnlyTransaction σ.i.ext a day revive) w := by
  have hchain : a.chainId = Config.chainId :=
    (congrArg Request.chainId ha).trans (request_key_chainId p)
  have haddr : a.fromAddr = σ.i.address :=
    (congrArg Request.fromAddr ha).trans (request_fromAddr p)
  unfold Ledger.gasOnlyTransaction
  simp only [hchain, haddr]
  refine Triple.bind (h.allocate hj hfit hcut hshown) ?_
  rintro al w₁ - ⟨t₁, h₁, ht₁, hspend, hn⟩
  rw [← ht₁] at hspend
  refine Triple.bind (h₁.placeGasOnly hspend ha hrevived hdebit (ht₁ ▸ hfresh)) ?_
  rintro _ w₂ - ⟨t₂, row, h₂, ht₂, hn₂, hbind, hplace⟩
  refine Triple.bind h₂.takeNonce ?_
  rintro _ w₃ - ⟨t₃, h₃, ht₃, hspend₃, hn₃⟩
  rw [← hspend₃, ← ht₂, ← ht₃] at hplace
  exact Triple.mono (h₃.commit hplace (by rw [hn₃, hn₂, hn]) hbind)
    (fun _ _ _ h => ⟨row, h, hplace.key_eq⟩) fun _ _ _ h => h

/-- A call that moves no tokens reserves its row. -/
theorem At.reserveGasOnly (h : At σ .idle w) (ha : a.request = p.request σ.i)
    (hrevived : a.revived = p.revived σ.i) (hdebit : p.isDebit = false)
    (hj : Justified σ.i w.log p)
    (hfit : ∀ cut, WithinFeeCap σ.i (p.request σ.i) cut w.tables.spend.rows →
      Fits σ.i cut w.tables.spend.rows p) :
    Leads σ (fun row w' => At σ (.working p row .held) w')
      (Ledger.reserveGasOnly σ.i.ext σ.i.settings.caps a) w := by
  refine Within.rollbackOnError ?_
  unfold Ledger.reserveGasOnlyUnlocked
  refine Triple.bind h.assertClockSane.within ?_
  rintro _ w₁ hl₁ ⟨h₁, ht₁⟩
  refine Triple.bind h₁.cutNow.within ?_
  rintro instant w₂ hl₂ ⟨h₂, ht₂, rfl, hshown⟩
  refine Triple.bind h₂.checkGasOnlyCount.within ?_
  rintro _ w₃ hl₃ ⟨h₃, ht₃⟩
  refine Triple.bind h₃.checkGasOnlyFee.within ?_
  rintro _ w₄ hl₄ ⟨h₄, ht₄, hfee⟩
  rw [ha, ht₃, ht₂, ht₁] at hfee
  refine Triple.bind (Leads.within (h₄.select (.inl (.inl rfl)))) ?_
  rintro existing w₅ hl₅ ⟨h₅, hget, ht₅, -⟩
  refine Triple.bind (h₅.reviveOf existing "key").within ?_
  rintro revive w₆ - ⟨rfl, hrevive⟩
  have ht : w₆.tables = w.tables := ht₅.trans (ht₄.trans (ht₃.trans (ht₂.trans ht₁)))
  have hl : Later σ w₂ w₆ := hl₃.trans (hl₄.trans hl₅)
  have hfresh : revive = false → ∀ r ∈ w₆.tables.spend.rows, r.key ≠ (p.request σ.i).key := by
    intro hr
    rw [hrevive hr, Except.ok.injEq, ha] at hget
    exact key_ne_of_get (ht₅ ▸ hget)
  have hshown₆ : Shown σ.env w₆.tables.spend.rows w₆.log (seconds w₂.clock) := by
    rw [ht₅, ht₄, ht₃, ht₂]
    exact hshown.later hl
  refine Triple.bind (Within.guardTransaction (h₅.gasOnlyTransaction ha hrevived hdebit
    (hj.later ((hl₁.trans hl₂).trans hl)) (ht ▸ hfit (seconds w₂.clock) hfee)
    (fun hs => seconds_mono (hl.clock hs)) hshown₆ hfresh)) ?_
  rintro _ w₇ - ⟨row, h₇, hk⟩
  have hrow := h₇.committedRow
  rw [hk, ← ha] at hrow
  refine Leads.within (Leads.bind hrow ?_)
  rintro row' w₈ - h₈
  have hchain : a.chainId = Config.chainId :=
    (congrArg Request.chainId ha).trans (request_key_chainId p)
  exact Leads.bind (h₈.auditReserved rfl (congrArg some hchain) rfl rfl)
    fun _ w₉ _ h₉ => Triple.pure h₉

end EscrowSigner.Machine
