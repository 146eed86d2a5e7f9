import EscrowSigner.Machine.Primitive

/-! Triples of the operations of the ledger that stay outside a transaction: clock and audit, and
the transitions of a row. -/

namespace EscrowSigner.Machine

variable {σ : Setting} {φ φ' : Phase} {w w' : World} {α : Type}

/-! ### Tables -/

/-- The two worlds hold the same rows, attempts and allocator. -/
structure Same (σ : Setting) (w w' : World) : Prop where
  rows : w'.tables.spend.rows = w.tables.spend.rows
  attempts : w'.tables.txAttempt = w.tables.txAttempt
  next : nextOf σ.i w'.tables = nextOf σ.i w.tables

theorem Same.of_tables (h : w'.tables = w.tables) : Same σ w w' := by
  constructor <;> rw [h]

theorem Same.trans {w'' : World} (h : Same σ w w') (h' : Same σ w' w'') : Same σ w w'' :=
  ⟨h'.rows.trans h.rows, h'.attempts.trans h.attempts, h'.next.trans h.next⟩

/-- A row that is changed without leaving the dead keeps the constraints. -/
theorem constraints_mapRow {k : Key} {f : SpendRow → SpendRow} {rows : List SpendRow}
    (hc : SpendConstraints rows) (hkey : ∀ r, (f r).key = r.key) (hseq : ∀ r, (f r).seq = r.seq)
    (hnonce : ∀ r, (f r).nonceKey = r.nonceKey)
    (hdead : ∀ r ∈ rows, r.key = k → (f r).state = .dead ∨ r.state ≠ .dead) :
    SpendConstraints (mapRow k f rows) := by
  refine ⟨(map_key_mapRow hkey).symm ▸ hc.1, ?_, List.Nodup.sublist ?_ hc.2.2⟩
  · have : (mapRow k f rows).map SpendRow.seq = rows.map SpendRow.seq := by
      simp only [mapRow, List.map_map]
      refine List.map_congr_left fun r _ => ?_
      simp only [Function.comp_apply]
      split
      · exact hseq r
      · rfl
    exact this ▸ hc.2.1
  · clear hc
    induction rows with
    | nil => exact List.Sublist.refl _
    | cons r rows ih =>
      have ih := ih fun r' hr' => hdead r' (List.mem_cons_of_mem _ hr')
      simp only [mapRow, List.map_cons, List.filter_cons] at ih ⊢
      by_cases hk : r.key = k
      · simp only [hk, if_true]
        by_cases hd : (f r).state = .dead
        · simp only [hd, ne_eq, not_true, decide_false, Bool.false_eq_true, if_false]
          split
          · exact ih.cons _
          · exact ih
        · have hr : r.state ≠ .dead := (hdead r List.mem_cons_self hk).resolve_left hd
          simp only [hd, hr, ne_eq, not_false_eq_true, decide_true, if_true, List.map_cons, hnonce]
          exact ih.cons_cons _
      · simp only [hk, if_false]
        split
        · exact ih.cons_cons _
        · exact ih

theorem setSpend_eq {t t' : Tables} {rows : List SpendRow} (h : t.setSpend rows = .ok t') :
    ∃ hc, t' = { t with spend := ⟨rows, hc⟩ } := by
  unfold Tables.setSpend at h
  split at h
  · cases h
    exact ⟨_, rfl⟩
  · cases h

theorem setSpend_ok {t : Tables} {rows : List SpendRow} (h : SpendConstraints rows) :
    t.setSpend rows = .ok { t with spend := ⟨rows, h⟩ } := dif_pos h

theorem bindInts_eq_ok {ns : List Int} : bindInts ns = .ok () ↔ ∀ n ∈ ns, inInt64 n = true := by
  unfold bindInts
  split <;> simp_all

theorem inInt64_chainId : inInt64 Config.chainId = true := by decide

/-! ### Clock -/

/-- `_guard` -/
theorem At.guardRow (h : At σ φ w) :
    Leads σ (fun row w' => At σ φ w' ∧ row = w.tables.clockGuard ∧ w'.tables = w.tables)
      Ledger.guardRow w := by
  refine Leads.mono (h.select (.inr ⟨_, rfl⟩)) ?_
  rintro row w' - ⟨hat, hr, ht, -⟩
  cases hr
  exact ⟨hat, rfl, ht⟩

/-- A clock behind the ledger ends the call, and never happens to a healthy service. -/
theorem At.refuseRegression (h : At σ φ w) {row : ClockGuard} {wall : Int}
    (hrow : row = w.tables.clockGuard) (hwall : wall = seconds w.clock) :
    Leads σ (fun _ w' => w' = w) (Ledger.refuseRegression row wall) w := by
  unfold Ledger.refuseRegression
  split
  · rename_i hlt
    have hh : ¬ σ.Healthy := fun hh => by
      have := h.sane hh
      subst hrow hwall
      unfold Ledger.clockToleranceS at *
      omega
    refine Leads.bind (h.update φ (.inr ⟨_, rfl⟩) fun c t hc ht => ?_) ?_
    · cases ht
      exact .pass hc (.inl rfl) (.inl rfl) le_rfl
    · rintro _ w' - ⟨hat, -, -⟩
      exact Triple.raise (hat.ends (.inr hh))
  · exact Triple.pure rfl

/-- What `tick` does to the tables. -/
def Ticked (t t' : Tables) (seq ts : Int) : Prop :=
  t' = { t with clockGuard := { t.clockGuard with maxTs := ts, maxSeq := seq } } ∧
    seq = t.clockGuard.maxSeq + 1

theorem At.tick (h : At σ φ w) :
    Leads σ (fun r w' => At σ φ w' ∧ Ticked w.tables w'.tables r.1 r.2) Ledger.tick w := by
  unfold Ledger.tick
  refine Leads.bind h.guardRow ?_
  rintro row w₁ - ⟨h₁, rfl, ht₁⟩
  refine Leads.bind h₁.now ?_
  rintro wall w₂ - ⟨h₂, ht₂, hwall, -⟩
  have ht : w₂.tables = w.tables := ht₂.trans ht₁
  refine Leads.bind (h₂.refuseRegression (by rw [ht]) hwall) ?_
  rintro _ w₃ - rfl
  refine Leads.bind (h₂.update φ (.inr ⟨_, rfl⟩) fun c t hc htab => ?_) ?_
  · cases htab
    refine .pass hc (.inl rfl) (.inr ⟨w₃.clock, fun _ => le_rfl, ?_⟩) ?_
    · rw [hwall, ← ht]
      rfl
    · simp only [← ht]
      exact Int.le_add_of_nonneg_right (by decide)
  · rintro _ w' - ⟨hat, htab, -⟩
    rw [ht, Except.ok.injEq] at htab
    exact Triple.pure ⟨hat, htab.symm, rfl⟩

theorem Ticked.same {seq ts : Int} (h : Ticked w.tables w'.tables seq ts) : Same σ w w' :=
  ⟨by rw [h.1], by rw [h.1], by rw [h.1]; rfl⟩

theorem At.assertClockSane (h : At σ φ w) :
    Leads σ (fun _ w' => At σ φ w' ∧ w'.tables = w.tables) Ledger.assertClockSane w := by
  unfold Ledger.assertClockSane
  refine Leads.bind h.guardRow ?_
  rintro row w₁ - ⟨h₁, rfl, ht₁⟩
  refine Leads.bind h₁.now ?_
  rintro wall w₂ - ⟨h₂, ht₂, hwall, -⟩
  have ht : w₂.tables = w.tables := ht₂.trans ht₁
  refine (h₂.refuseRegression (by rw [ht]) hwall).mono ?_
  rintro _ w' - rfl
  exact ⟨h₂, ht⟩

/-! ### Audit -/

/-- The audit log is no part of the machine. -/
theorem At.audit (h : At σ φ w) {x : Externals} {f : Ledger.AuditFields}
    (hok : Free σ φ ∨ ∀ n ∈ f.ints, inInt64 n = true) :
    Leads σ (fun _ w' => At σ φ w' ∧ Same σ w w') (Ledger.audit x f) w := by
  unfold Ledger.audit
  refine Leads.bind h.tick ?_
  rintro ⟨seq, ts⟩ w₁ - ⟨h₁, ht₁⟩
  refine Leads.bind (h₁.select (.inr ⟨_, rfl⟩)) ?_
  rintro head w₂ - ⟨h₂, -, ht₂, -⟩
  refine Leads.bind (p := Ledger.insertAudit x f ts head)
    (h₂.sql φ ?_ fun c t a hc hr => ?_) ?_
  · refine hok.imp_right fun hb => ?_
    rw [bindInts_eq_ok.mpr hb]
    exact ⟨_, rfl⟩
  · obtain ⟨_, -, hr⟩ := bind_ok_iff.mp hr
    cases hr
    exact .pass hc (.inl rfl) (.inl rfl) le_rfl
  · rintro rowHash w₃ - ⟨h₃, hr, -⟩
    obtain ⟨_, -, hr⟩ := bind_ok_iff.mp hr
    refine Leads.mono (h₃.update φ (.inr ⟨_, rfl⟩) fun c t hc ht => ?_) ?_
    · cases ht
      exact .pass hc (.inl rfl) (.inl rfl) le_rfl
    · rintro _ w₄ - ⟨h₄, ht₄, -⟩
      have hs₃ : Same σ w₂ w₃ := by
        simp only [pure, Except.pure, Except.ok.injEq, Prod.mk.injEq] at hr
        exact ⟨by rw [← hr.1], by rw [← hr.1], by rw [← hr.1]; rfl⟩
      have hs₄ : Same σ w₃ w₄ := by
        simp only [Except.ok.injEq] at ht₄
        exact ⟨by rw [← ht₄], by rw [← ht₄], by rw [← ht₄]; rfl⟩
      exact ⟨h₄, ((ht₁.same.trans (.of_tables ht₂)).trans hs₃).trans hs₄⟩

/-! ### Transitions of a row -/

/-- The two worlds differ in one row, and agree on attempts and allocator. -/
structure Remapped (σ : Setting) (k : Key) (f : SpendRow → SpendRow) (w w' : World) : Prop where
  rows : w'.tables.spend.rows = mapRow k f w.tables.spend.rows
  attempts : w'.tables.txAttempt = w.tables.txAttempt
  next : nextOf σ.i w'.tables = nextOf σ.i w.tables

theorem Remapped.same {k : Key} {f : SpendRow → SpendRow} {w'' : World}
    (h : Remapped σ k f w w') (h' : Same σ w' w'') : Remapped σ k f w w'' :=
  ⟨h'.rows.trans h.rows, h'.attempts.trans h.attempts, h'.next.trans h.next⟩

/-- The statement of a transition succeeds, and so does its audit. -/
structure Writable (row : SpendRow) (state : RowState) (u : Ledger.RowUpdates) (t : Tables) :
    Prop where
  chainId : row.chainId = Config.chainId
  amount : inInt64 row.amountUnits = true
  fee : u.feeWeiSpent = none
  constraints : SpendConstraints (mapRow row.key (u.apply state) t.spend.rows)

/-- `_set_state` is one step of the machine, and writes an audit row. -/
theorem At.setState (h : At σ φ w) (φ' : Phase) {x : Externals} {row : SpendRow} {state : RowState}
    {u : Ledger.RowUpdates}
    (hok : (φ.settled = true ∧ φ'.settled = true) ∨ Writable row state u w.tables)
    (hstep : ∀ c, σ.permits w c → Step σ.i σ.env σ.ok (φ, stateOf σ.i w)
      (φ', { (stateOf σ.i w).after c with
        rows := mapRow row.key (u.apply state) (stateOf σ.i w).rows })) :
    Leads σ (fun _ w' => At σ φ' w' ∧ Remapped σ row.key (u.apply state) w w')
      (Ledger.setState x row state u) w := by
  unfold Ledger.setState
  refine Leads.bind (h.update φ' ?_ fun c t hc ht => ?_) ?_
  · refine hok.imp (fun h => .inl h.1) fun hw => ?_
    rw [bindInts_eq_ok.mpr (by simp [hw.fee, hw.chainId, inInt64_chainId])]
    exact ⟨_, setSpend_ok hw.constraints⟩
  · obtain ⟨_, -, ht⟩ := bind_ok_iff.mp ht
    obtain ⟨hc', rfl⟩ := setSpend_eq ht
    exact hstep c hc
  · rintro _ w₁ - ⟨h₁, ht, -⟩
    obtain ⟨_, -, ht⟩ := bind_ok_iff.mp ht
    obtain ⟨hc', ht⟩ := setSpend_eq ht
    refine (h₁.audit (hok.imp (fun h => .inl h.2) fun hw => ?_)).mono ?_
    · simp only [Ledger.AuditFields.ints, Ledger.transition, Option.toList_some,
        List.cons_append, List.nil_append, List.forall_mem_cons]
      exact ⟨rfl, hw.chainId ▸ inInt64_chainId, hw.amount, List.forall_mem_nil _⟩
    · rintro _ w₂ - ⟨h₂, hs⟩
      refine ⟨h₂, Remapped.same ⟨?_, ?_, ?_⟩ hs⟩
      · rw [ht]
      · rw [ht]
      · rw [ht]
        rfl

/-- The row that a phase speaks of is in the books. -/
theorem At.row_mem (h : At σ φ w) {p : Plan} {row : SpendRow} {stage : Stage}
    (hφ : φ = .working p row stage) : ∃ r ∈ w.tables.spend.rows, r.key = row.key ∧
      r.amountUnits = row.amountUnits := by
  subst hφ
  have hrow := h.soundness.phase.2.2
  cases stage with
  | held | signed => exact ⟨row, hrow, rfl, rfl⟩
  | marked | recorded | accepted | rejected | unanswered =>
    exact ⟨signedRow σ.i p row, hrow, rfl, rfl⟩

/-- `mark_signed`: the row is marked, then the attempt is recorded. -/
theorem At.markSigned {p : Plan} {row : SpendRow} (h : At σ (.working p row .signed) w) :
    Leads σ (fun _ w' => At σ (.working p row .recorded) w')
      (Ledger.markSigned σ.i.ext row (p.txHash σ.i row) (p.txHash σ.i row)) w := by
  obtain ⟨hkey, hstate, hmem⟩ := h.soundness.phase
  obtain ⟨hchain, -, -, hamount, hnonce, hfee⟩ := h.soundness.own row hmem
  unfold Ledger.markSigned
  refine Leads.bind (h.setState (.working p row .marked) (.inr ⟨hchain, hamount, rfl, ?_⟩)
    fun c hc => .mark hc) ?_
  · refine constraints_mapRow w.tables.spend.constraints (fun _ => rfl) (fun _ => rfl)
      (fun _ => rfl) fun r hr hk => .inr ?_
    rw [eq_of_key_eq h.soundness.keys hr hmem hk, hstate]
    decide
  · rintro _ w₁ - ⟨h₁, -⟩
    refine Leads.bind h₁.tick ?_
    rintro ⟨seq, ts⟩ w₂ - ⟨h₂, ht⟩
    refine Leads.mono (h₂.update (.working p row .recorded) (.inr ?_)
      fun c t hc hr => ?_) fun _ w₃ _ h₃ => h₃.1
    · rw [bindInts_eq_ok.mpr]
      · exact ⟨_, rfl⟩
      · simp only [List.forall_mem_cons]
        exact ⟨by rw [show row.chainId = Config.chainId from hchain]; exact inInt64_chainId, hnonce,
          hfee, List.forall_mem_nil _⟩
    · obtain ⟨_, -, hr⟩ := bind_ok_iff.mp hr
      cases hr
      refine .record hc (fun a ha => ?_) ?_
      · have ha : a ∈ w₁.tables.txAttempt := (ht.same (σ := σ)).attempts ▸ ha
        refine (h₁.soundness.attempts a ha).2.trans_lt ?_
        have hseq : seq = w₁.tables.clockGuard.maxSeq + 1 := ht.2
        rw [hseq]
        exact Int.lt_succ _
      · exact (congrArg (·.clockGuard.maxSeq) ht.1).ge

/-- The books hold the row of a plan as broadcast. -/
def Sent (i : Instance) (p : Plan) (row : SpendRow) (w : World) : Prop :=
  ∃ r ∈ w.tables.spend.rows, r.key = (p.request i).key ∧ r.state = .broadcast ∧
    r.txHash = p.txHash i row

theorem At.markBroadcast {p : Plan} {row : SpendRow} (h : At σ (.working p row .accepted) w) :
    Leads σ (fun _ w' => At σ .idle w' ∧ Sent σ.i p row w')
      (Ledger.markBroadcast σ.i.ext row (p.txHash σ.i row)) w := by
  have hkey : row.key = (p.request σ.i).key := h.soundness.phase.1
  obtain ⟨r, hr, hrkey, -⟩ := h.row_mem rfl
  refine (h.setState .idle (.inl ⟨rfl, rfl⟩) fun _ hc => .broadcast hc).mono ?_
  rintro _ w' - ⟨hat, hm⟩
  refine ⟨hat, { r with state := .broadcast, txHash := p.txHash σ.i row }, ?_, hrkey.trans hkey,
    rfl, rfl⟩
  rw [hm.rows]
  exact mem_mapRow.mpr ⟨r, hr, .inl ⟨hrkey, rfl⟩⟩

/-- `mark_mined` on a row that the chain said landed. -/
theorem At.mine {row : SpendRow} {f : Finding} {u : Ledger.RowUpdates}
    (h : At σ (.found row f) w) (hu : Settles σ.i (stateOf σ.i w) f u) :
    Leads σ (fun _ w' => At σ .idle w' ∧ Remapped σ row.key (u.apply .mined) w w')
      (Ledger.setState σ.i.ext row .mined u) w :=
  h.setState .idle (.inl ⟨rfl, rfl⟩) fun _ hc => .mine hc hu

theorem At.recordAttemptStatus (h : At σ φ w) (txHash status : String) :
    Leads σ (fun _ w' => At σ φ w' ∧ w'.tables.spend.rows = w.tables.spend.rows ∧
        w'.tables.txAttempt = stampAttempts txHash status w.tables.txAttempt ∧ w'.log = w.log)
      (Ledger.recordAttemptStatus txHash status) w := by
  refine Leads.mono (h.update φ (.inr ⟨_, rfl⟩) fun c t hc ht => ?_) ?_
  · cases ht
    exact .stamp txHash status hc
  · rintro _ w' - ⟨hat, ht, hlog⟩
    rw [Except.ok.injEq] at ht
    exact ⟨hat, by rw [← ht], by rw [← ht], hlog⟩

/-! ### The release of a row -/

theorem Unsigned.congr {r : SpendRow} {s s' : State} (h : s'.attempts = s.attempts) :
    Unsigned s' r ↔ Unsigned s r := by
  unfold Unsigned
  rw [h]

theorem Falls.later {r : SpendRow} {s s' : State} (h : Falls s r φ)
    (ha : s'.attempts = s.attempts) (hl : ∀ e ∈ s.log, e ∈ s'.log) : Falls s' r φ := by
  cases h with
  | held p row hkey => exact .held p row hkey
  | rejected p row hkey => exact .rejected p row hkey
  | reverted txHash => exact .reverted txHash
  | lapsed instant h => exact .lapsed instant h
  | neverSigned instant hs h => exact .neverSigned instant hs (ha ▸ h)
  | unsentSweep hc hs => exact .unsentSweep hc hs
  | lostSweep instant hc hs ht h => exact .lostSweep instant hc hs (hl _ ht) h

/-- The row of a key, read from the books. -/
theorem get_eq_some {t : Tables} {r : SpendRow} (hr : r ∈ t.spend.rows) : t.get r.key = some r := by
  cases hg : t.get r.key with
  | none =>
    have := List.find?_eq_none.mp hg r hr
    simp at this
  | some r' =>
    have hk : r'.key = r.key := by simpa using List.find?_some hg
    rw [eq_of_key_eq t.spend.constraints.1 (List.mem_of_find?_eq_some hg) hr hk]

theorem mem_of_get {t : Tables} {k : Key} {r : SpendRow} (h : t.get k = some r) :
    r ∈ t.spend.rows ∧ r.key = k :=
  ⟨List.mem_of_find?_eq_some h, by simpa using List.find?_some h⟩

/-- `unsigned` in `mark_dead` is read from the books. -/
theorem At.readUnsigned (h : At σ φ w) {r row : SpendRow} (hr : r ∈ w.tables.spend.rows)
    (hkey : row.key = r.key) :
    Leads σ (fun held w' => At σ φ w' ∧ w'.tables = w.tables ∧
        held = if Unsigned (stateOf σ.i w) r then some r else none)
      (Ledger.readUnsigned row) w := by
  have hchain : row.chainId = Config.chainId :=
    (congrArg Key.chainId hkey).trans (h.soundness.own r hr).1
  unfold Ledger.readUnsigned
  refine Leads.bind (h.select (.inr ⟨_, rfl⟩)) ?_
  rintro held w₁ - ⟨h₁, hg, ht₁, -⟩
  rw [hkey, get_eq_some hr, Except.ok.injEq] at hg
  subst hg
  by_cases hs : r.state = .reserved
  · simp only [if_pos hs]
    refine Leads.bind (h₁.select (.inr ⟨_, rfl⟩)) ?_
    rintro attempt w₂ - ⟨h₂, ha, ht₂, -⟩
    rw [Except.ok.injEq] at ha
    refine Triple.pure ⟨h₂, ht₂.trans ht₁, ?_⟩
    refine if_congr ?_ rfl rfl
    rw [← ha, ht₁, List.find?_eq_none]
    refine ⟨fun hn => ⟨hs, fun a ha' he => hn a ha' ?_⟩, fun hn a ha' he => ?_⟩
    · simp [hchain, (h.soundness.attempts a ha').1, he]
    · exact hn.2 a ha' (by simpa using (of_decide_eq_true he).2)
  · simp only [if_neg hs]
    exact Triple.pure ⟨h₁, ht₁, (if_neg fun hn => hs hn.1).symm⟩

theorem allocOf_updateAlloc (t : Tables) (chainId : Int) (addr : String)
    {f : NonceAlloc → NonceAlloc} (hf : ∀ a, a.chainId = chainId → a.fromAddr = addr →
      (f a).chainId = chainId ∧ (f a).fromAddr = addr) :
    (t.updateAlloc chainId addr f).allocOf chainId addr = (t.allocOf chainId addr).map f := by
  simp only [Tables.allocOf, Tables.updateAlloc]
  induction t.nonceAlloc with
  | nil => rfl
  | cons a rest ih =>
    simp only [List.map_cons, List.find?_cons]
    by_cases ha : a.chainId = chainId ∧ a.fromAddr = addr
    · simp [ha, hf a ha.1 ha.2]
    · have : ¬ (a.chainId == chainId && a.fromAddr == addr) = true := by simpa using ha
      simp only [ha, if_false, this]
      exact ih

/-- The allocator after a nonce is given back. -/
theorem nextOf_giveBack (i : Instance) (t : Tables) (seq : Int) {n : Int} (hn : 0 ≤ n) :
    nextOf i (t.updateAlloc Config.chainId i.address fun a =>
        if a.nextNonce = n + 1 then { a with nextNonce := n, updatedSeq := seq } else a) =
      if nextOf i t = n + 1 then n else nextOf i t := by
  unfold nextOf
  rw [allocOf_updateAlloc t Config.chainId i.address fun a hc ha => by split <;> exact ⟨hc, ha⟩]
  cases t.allocOf Config.chainId i.address with
  | none =>
    have : ¬ (0 : Int) = n + 1 := by omega
    simp [this]
  | some a =>
    simp only [Option.map_some, Option.getD_some]
    split <;> rfl

/-- `mark_dead`: the row is released, and its nonce is given back when it was never signed. -/
theorem At.markDead (h : At σ φ w) {r row : SpendRow} (hr : r ∈ w.tables.spend.rows)
    (hkey : row.key = r.key) (hamount : inInt64 row.amountUnits = true)
    (hfalls : Falls (stateOf σ.i w) r φ) (reason : String) :
    Leads σ (fun _ w' => At σ .idle w' ∧
        w'.tables.spend.rows =
          mapRow r.key (fun r => { r with state := .dead, deadReason := reason })
            w.tables.spend.rows ∧
        w'.tables.txAttempt = w.tables.txAttempt)
      (Ledger.markDead σ.i.ext row reason) w := by
  have hown := h.soundness.own r hr
  have hchain : row.chainId = Config.chainId := (congrArg Key.chainId hkey).trans hown.1
  unfold Ledger.markDead
  refine Leads.bind (h.readUnsigned hr hkey) ?_
  rintro held w₁ hl ⟨h₁, ht₁, rfl⟩
  have hsame : (stateOf σ.i w₁).attempts = (stateOf σ.i w).attempts :=
    congrArg (·.txAttempt) ht₁
  refine Leads.bind (h₁.setState (.released (stateOf σ.i w₁) r)
    (.inr ⟨hchain, hamount, rfl, ?_⟩) fun c hc => ?_) ?_
  · exact constraints_mapRow w₁.tables.spend.constraints (fun _ => rfl) (fun _ => rfl)
      (fun _ => rfl) fun _ _ _ => .inl rfl
  · rw [hkey]
    exact .kill reason hc (by rw [← ht₁] at hr; exact hr) (hfalls.later hsame hl.log)
  · rintro _ w₂ - ⟨h₂, hm⟩
    have hrows : w₂.tables.spend.rows =
        mapRow r.key (fun r => { r with state := .dead, deadReason := reason })
          w.tables.spend.rows := by
      rw [hm.rows, ht₁, hkey]
      rfl
    have hattempts : w₂.tables.txAttempt = w.tables.txAttempt := hm.attempts.trans hsame
    unfold Phase.released at h₂
    simp only [Unsigned.congr hsame] at h₂
    by_cases hu : Unsigned (stateOf σ.i w) r
    · simp only [if_pos hu] at h₂ ⊢
      refine Leads.bind h₂.guardRow ?_
      rintro guard w₃ - ⟨h₃, -, ht₃⟩
      refine Leads.mono (h₃.update .idle (.inr ⟨_, rfl⟩) fun c t hc ht => ?_) ?_
      · cases ht
        have hn := nextOf_giveBack σ.i w₃.tables guard.maxSeq
          (h.soundness.nonces r hr)
        rw [← hchain, ← hown.2.2.1] at hn
        have hstep : Step σ.i σ.env σ.ok (.freed r, _) _ := .giveBack hc
        rw [show (stateOf σ.i w₃).next = nextOf σ.i w₃.tables from rfl, ← hn] at hstep
        exact hstep
      · rintro _ w₄ - ⟨h₄, ht, -⟩
        rw [Except.ok.injEq] at ht
        refine ⟨h₄, ?_, ?_⟩
        · rw [← ht, ← hrows, ← ht₃]
          rfl
        · rw [← ht, ← hattempts, ← ht₃]
          rfl
    · simp only [if_neg hu] at h₂ ⊢
      exact Triple.pure ⟨h₂, hrows, hattempts⟩

/-! ### The allocator at boot -/

theorem nextOf_putAlloc {i : Instance} {t : Tables} {n seq : Int} :
    nextOf i (Ledger.putAlloc ⟨Config.chainId, i.address, n, seq⟩ t) = n := by
  unfold nextOf Ledger.putAlloc
  cases h : t.allocOf Config.chainId i.address with
  | some a =>
    simp only [Option.isSome_some, if_true]
    rw [allocOf_updateAlloc t Config.chainId i.address
      (f := fun _ => ⟨Config.chainId, i.address, n, seq⟩) fun _ _ _ => ⟨rfl, rfl⟩, h]
    rfl
  | none =>
    have hn : t.nonceAlloc.find? (fun a => a.chainId == Config.chainId && a.fromAddr == i.address) =
        none := h
    simp [Tables.insertAlloc, Tables.allocOf, List.find?_append, hn]

/-- `set_next_nonce` at boot, after the pending count was read. -/
theorem At.setNextNonce {n : Int} (h : At σ (.counted n) w) {live : List SpendRow}
    (hlive : live.Perm (w.tables.spend.rows.filter (·.state.live))) :
    Leads σ (fun _ w' => At σ .idle w')
      (Ledger.setNextNonce Config.chainId σ.i.address (max n (Policy.highestNonce live + 1))) w := by
  unfold Ledger.setNextNonce
  refine Leads.bind h.tick ?_
  rintro ⟨seq, ts⟩ w₁ - ⟨h₁, ht₁⟩
  refine Leads.mono (h₁.update .idle (.inl (.inl rfl)) fun c t hc ht => ?_) fun _ _ _ h => h.1
  obtain ⟨_, -, ht⟩ := bind_ok_iff.mp ht
  cases ht
  have hstep : Step σ.i σ.env σ.ok (.counted n, stateOf σ.i w₁) _ := .setNext hc
    ((ht₁.same (σ := σ)).rows ▸ hlive)
  convert hstep using 2
  simp only [stateAt, nextOf_putAlloc, stateOf, State.after, State.mk.injEq, and_true, true_and]
  unfold Ledger.putAlloc Tables.insertAlloc Tables.updateAlloc
  split <;> exact ⟨rfl, rfl, rfl, rfl⟩

end EscrowSigner.Machine
