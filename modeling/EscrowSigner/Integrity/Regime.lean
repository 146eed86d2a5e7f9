import EscrowSigner.Integrity.Chains
import EscrowSigner.Ledger.Reserve

/-! Regimes: what the code of the ledger keeps true of its database.  A regime names a property of
the tables between two operations, one after an exception and one wherever the process stops, with
the laws under which each operation of the ledger moves between them. -/

namespace EscrowSigner.Integrity

open Ledger

/-! ### Statements -/

/-- The columns that the chain of `spend` protects. -/
structure SameRow (r r' : SpendRow) : Prop where
  payload : spendPayload r' = spendPayload r
  rowHash : r'.rowHash = r.rowHash
  prevRowHash : r'.prevRowHash = r.prevRowHash

/-- The guard's times, and the audit log with its head. -/
structure SameLog (t t' : Tables) : Prop where
  maxTs : t'.clockGuard.maxTs = t.clockGuard.maxTs
  maxSeq : t'.clockGuard.maxSeq = t.clockGuard.maxSeq
  audit : t'.audit = t.audit
  auditSeq : t'.auditSeq = t.auditSeq
  auditHead : t'.auditHead = t.auditHead

/-- What a statement does that writes to neither chain. -/
structure Plain (t t' : Tables) : Prop extends SameLog t t' where
  rows : ∃ f : SpendRow → SpendRow, t'.spend.rows = t.spend.rows.map f ∧ ∀ r, SameRow r (f r)
  head : t'.spendHead = t.spendHead

theorem SameLog.refl (t : Tables) : SameLog t t := ⟨rfl, rfl, rfl, rfl, rfl⟩

theorem Plain.refl (t : Tables) : Plain t t :=
  ⟨.refl t, ⟨id, (List.map_id _).symm, fun _ => ⟨rfl, rfl, rfl⟩⟩, rfl⟩

/-- A statement that leaves `spend` alone. -/
theorem Plain.of_spend {t t' : Tables} (h : SameLog t t') (hspend : t'.spend = t.spend)
    (hhead : t'.spendHead = t.spendHead) : Plain t t' :=
  ⟨h, ⟨id, by rw [hspend, List.map_id], fun _ => ⟨rfl, rfl, rfl⟩⟩, hhead⟩

theorem setSpend_eq {t t' : Tables} {rows : List SpendRow} (h : t.setSpend rows = .ok t') :
    ∃ hrows, t' = { t with spend := ⟨rows, hrows⟩ } := by
  unfold Tables.setSpend at h
  split at h
  · rename_i hrows
    exact ⟨hrows, (Except.ok.inj h).symm⟩
  · cases h

/-- An `UPDATE spend` of columns that the chain does not protect. -/
theorem Plain.updateRow {t t' : Tables} {k : Key} {f : SpendRow → SpendRow}
    (hf : ∀ r, SameRow r (f r)) (h : t.updateRow k f = .ok t') : Plain t t' := by
  obtain ⟨hrows, rfl⟩ := setSpend_eq h
  refine ⟨⟨rfl, rfl, rfl, rfl, rfl⟩, ⟨fun r => if r.key = k then f r else r, rfl, fun r => ?_⟩, rfl⟩
  dsimp only
  split
  · exact hf r
  · exact ⟨rfl, rfl, rfl⟩

theorem sameRow_apply (u : RowUpdates) (state : RowState) (r : SpendRow) :
    SameRow r (u.apply state r) := ⟨rfl, rfl, rfl⟩

theorem sameRow_revived (a : Request) (seq ts nonce : Int) (r : SpendRow) :
    SameRow r (a.revived seq ts nonce r) := ⟨rfl, rfl, rfl⟩

theorem sameRow_gasOnlyRevived (a : GasOnlyRequest) (seq ts nonce : Int) (r : SpendRow) :
    SameRow r (a.revived seq ts nonce r) := ⟨rfl, rfl, rfl⟩

theorem Plain.alloc {t : Tables} {allocs : List NonceAlloc} :
    Plain t { t with nonceAlloc := allocs } :=
  .of_spend ⟨rfl, rfl, rfl, rfl, rfl⟩ rfl rfl

theorem Plain.attempts {t : Tables} {attempts : List TxAttempt} :
    Plain t { t with txAttempt := attempts } :=
  .of_spend ⟨rfl, rfl, rfl, rfl, rfl⟩ rfl rfl

/-- The tables after a tick at a second of the wall clock. -/
def ticked (t : Tables) (wall : Int) : Tables :=
  { t with clockGuard := { t.clockGuard with
      maxTs := max wall t.clockGuard.maxTs
      maxSeq := t.clockGuard.maxSeq + 1 } }

/-- The row that `audit` appends. -/
def auditRow (x : Externals) (t : Tables) (f : AuditFields) (ts : Int) : AuditRow :=
  f.row x (t.auditSeq + 1) ts t.auditHead

/-- The tables between the two statements of `audit`. -/
def audited (x : Externals) (t : Tables) (f : AuditFields) (ts : Int) : Tables :=
  { t with audit := t.audit ++ [auditRow x t f ts], auditSeq := t.auditSeq + 1 }

/-- The tables after `audit`. -/
def auditedHead (x : Externals) (t : Tables) (f : AuditFields) (ts : Int) : Tables :=
  { audited x t f ts with auditHead := (auditRow x t f ts).rowHash }

/-- A row of `spend` that continues the chain. -/
structure Continues (x : Externals) (t t' : Tables) (row : SpendRow) : Prop extends SameLog t t' where
  prev : row.prevRowHash = t.spendHead
  hash : row.rowHash = spendHash x t.spendHead row
  rows : t'.spend.rows = t.spend.rows ++ [row]
  head : t'.spendHead = row.rowHash

/-- Tables whose guard has ticked to `seq` and `ts` since `t₀`. -/
structure Follows (t₀ t : Tables) (seq ts : Int) : Prop where
  rows : t.spend.rows = t₀.spend.rows
  next : seq = t₀.clockGuard.maxSeq + 1
  newestSeq : seq = t.clockGuard.maxSeq
  newestTs : ts = t.clockGuard.maxTs
  times : t₀.clockGuard.maxTs ≤ ts

/-! ### Regimes -/

/-- What an operation of the ledger keeps, with the laws of its statements.  `env` is what the
environment may choose at a time of the clock. -/
structure Regime (x : Externals) where
  env : Nat → Choice → Prop
  Kept : Tables → Nat → Prop
  Broken : Tables → Nat → Prop
  Safe : Tables → Prop
  safe : ∀ {t n}, Broken t n → Safe t
  broken : ∀ {t n}, Kept t n → Broken t n
  later : ∀ {t n c}, Kept t n → env n c → Kept t c.now
  laterBroken : ∀ {t n c}, Broken t n → env n c → Broken t c.now
  plain : ∀ {t t' n}, Kept t n → Plain t t' → Kept t' n
  tick : ∀ {t n}, Kept t n → Kept (ticked t (seconds n)) n
  half : ∀ {t n} f ts, Kept t n → Safe (audited x t f ts)
  fault : ∀ {t n c} f ts, Kept t n → env n c → c.fault ≠ none → Broken (audited x t f ts) c.now
  audit : ∀ {t n} f ts, Kept t n → Kept (auditedHead x t f ts) n
  place : ∀ {t₀ n₀ t t' n row}, Kept t₀ n₀ → Kept t n → Follows t₀ t row.seq row.ts →
    Continues x t t' row → Kept t' n

namespace Regime

variable {x : Externals} (g : Regime x) {α β : Type} {w : World}

/-- Between two operations. -/
def Closed (w : World) : Prop := w.db.working = none ∧ g.Kept w.tables w.clock

/-- After an exception, between two operations. -/
def Fallen (w : World) : Prop := w.db.working = none ∧ g.Broken w.tables w.clock

/-- After an exception, perhaps inside a transaction. -/
def Torn (w : World) : Prop := g.Broken w.tables w.clock

/-- Inside a transaction whose tables stand in `F` to tables that the regime allows. -/
def Inside (F : Tables → Tables → Prop) (w : World) : Prop :=
  ∃ t₀ t, w.db.working = some t ∧ g.Kept t₀ w.clock ∧ F t₀ t ∧ g.Kept w.tables w.clock

/-- From `w` the code returns into `Q` or raises into `E`, and can be stopped anywhere. -/
def Does (E : World → Prop) (Q : α → World → Prop) (p : Code α) (w : World) : Prop :=
  p.Wp (fun w c => g.env w.clock c) (fun w _ => g.Safe w.tables)
    (fun r w' => match r with
      | .ok a => Q a w'
      | .error _ => E w') w

variable {g} {E E' : World → Prop} {P Q : α → World → Prop} {R : β → World → Prop}
  {F : Tables → Tables → Prop}

theorem Closed.fallen (h : g.Closed w) : g.Fallen w := ⟨h.1, g.broken h.2⟩

theorem Closed.safe (h : g.Closed w) : g.Safe w.tables := g.safe (g.broken h.2)

theorem Fallen.torn (h : g.Fallen w) : g.Torn w := h.2

theorem Closed.torn (h : g.Closed w) : g.Torn w := h.fallen.torn

theorem Inside.torn (h : g.Inside F w) : g.Torn w := by
  obtain ⟨t₀, t, -, -, -, h⟩ := h
  exact g.broken h

/-! ### Rules -/

theorem Does.pure {a : α} (h : Q a w) : g.Does E Q (Pure.pure a) w := h

theorem Does.raise {e : Exn} (h : E w) : g.Does E Q (throwExn e : Code α) w := h

theorem Does.bind {p : Code α} {f : α → Code β} (hp : g.Does E P p w)
    (hf : ∀ a w', P a w' → g.Does E R (f a) w') : g.Does E R (p >>= f) w := by
  refine Process.wp_bind.mpr (Process.Wp.mono hp fun r w' h => ?_)
  cases r with
  | ok a => exact hf a w' h
  | error e => exact h

theorem Does.attempt {p : Code α} (hp : g.Does E P p w) :
    g.Does E' (fun r w' => match r with
      | .ok a => P a w'
      | .error _ => E w') p.attempt w :=
  Process.wp_attempt.mpr (Process.Wp.mono hp fun _ _ h => h)

theorem Does.mono {p : Code α} (hp : g.Does E P p w) (hE : ∀ w', E w' → E' w')
    (hQ : ∀ a w', P a w' → Q a w') : g.Does E' Q p w := by
  refine Process.Wp.mono hp fun r w' h => ?_
  cases r with
  | ok a => exact hQ a w' h
  | error e => exact hE w' h

theorem Does.action {f : Choice → World → World × Except Exn α} (hs : g.Safe w.tables)
    (h : ∀ c, g.env w.clock c → match (f c (w.advance c)).2 with
      | .ok a => Q a (f c (w.advance c)).1
      | .error _ => E (f c (w.advance c)).1) : g.Does E Q (action f) w :=
  Process.wp_atomic.mpr ⟨hs, h⟩

/-! ### Statements between two transactions -/

/-- A statement between two transactions, whatever it writes. -/
theorem Does.sql {f : Tables → Except Exn (Tables × α)} (hclosed : w.db.working = none)
    (hs : g.Safe w.tables)
    (herr : ∀ c, g.env w.clock c → (c.fault ≠ none ∨ ∃ e, f w.tables = .error e) →
      E (w.advance c))
    (hok : ∀ c t a, g.env w.clock c → f w.tables = .ok (t, a) →
      Q a { w.advance c with db := ⟨t, none⟩ }) : g.Does E Q (sql f) w := by
  refine Does.action hs fun c hc => ?_
  rw [statement_eq hclosed]
  cases hfault : c.fault with
  | some fault => exact herr c hc (.inl (by rw [hfault]; exact Option.some_ne_none _))
  | none =>
    cases hf : f w.tables with
    | error e => exact herr c hc (.inr ⟨e, hf⟩)
    | ok r => exact hok c r.1 r.2 hc hf

theorem Closed.advance (h : g.Closed w) {c : Choice} (hc : g.env w.clock c) :
    g.Closed (w.advance c) := ⟨h.1, g.later h.2 hc⟩

/-- A step that leaves the database alone. -/
theorem Closed.step (h : g.Closed w) {c : Choice} (hc : g.env w.clock c) {w' : World}
    (hdb : w'.db = w.db) (hclock : w'.clock = c.now) : g.Closed w' := by
  have htables : w'.tables = w.tables := by rw [World.tables, hdb, World.tables]
  exact ⟨hdb ▸ h.1, htables ▸ hclock ▸ g.later h.2 hc⟩

theorem Closed.plainSql {f : Tables → Except Exn (Tables × α)} (h : g.Closed w)
    (hf : ∀ t a, f w.tables = .ok (t, a) → Plain w.tables t) :
    g.Does g.Fallen (fun a w' => g.Closed w' ∧ f w.tables = .ok (w'.tables, a))
      (EscrowSigner.sql f) w :=
  Does.sql h.1 h.safe (fun _ hc _ => (h.advance hc).fallen) fun _ t a hc ht =>
    ⟨⟨rfl, g.plain (g.later h.2 hc) (hf t a ht)⟩, ht⟩

theorem Closed.update {f : Tables → Except Exn Tables} (h : g.Closed w)
    (hf : ∀ t, f w.tables = .ok t → Plain w.tables t) :
    g.Does g.Fallen (fun _ w' => g.Closed w') (EscrowSigner.update f) w := by
  refine (h.plainSql fun t a ht => ?_).mono (fun _ h => h) fun _ _ h => h.1
  obtain ⟨t', ht', heq⟩ := bind_ok_iff.mp ht
  cases heq
  exact hf t ht'

theorem Closed.select (f : Tables → Except Exn α) (h : g.Closed w) :
    g.Does g.Fallen (fun a w' => g.Closed w' ∧ w'.tables = w.tables ∧ f w.tables = .ok a)
      (EscrowSigner.select f) w := by
  refine (h.plainSql fun t a ht => ?_).mono (fun _ h => h) fun a w' h => ⟨h.1, ?_⟩
  · obtain ⟨t', -, heq⟩ := bind_ok_iff.mp ht
    cases heq
    exact .refl _
  · obtain ⟨a', ha', heq⟩ := bind_ok_iff.mp h.2
    obtain ⟨htables, ha⟩ := Prod.mk.inj (Except.ok.inj heq)
    exact ⟨htables.symm, ha ▸ ha'⟩

theorem Closed.now (h : g.Closed w) :
    g.Does g.Fallen (fun wall w' => g.Closed w' ∧ w'.tables = w.tables ∧ wall = seconds w'.clock)
      now w :=
  Does.bind (P := fun instant w' => g.Closed w' ∧ w'.tables = w.tables ∧ instant = w'.clock)
    (Does.action h.safe fun _ hc => ⟨h.step hc rfl rfl, rfl, rfl⟩)
    fun instant w' hw => Does.pure ⟨hw.1, hw.2.1, by rw [hw.2.2]⟩

/-! ### Statements inside a transaction -/

theorem Inside.safe (h : g.Inside F w) : g.Safe w.tables := g.safe h.torn

theorem World.fail_tables (w : World) (f : Fault) : (w.fail f).tables = w.tables := by
  unfold World.fail
  split <;> rfl

theorem World.fail_clock (w : World) (f : Fault) : (w.fail f).clock = w.clock := by
  unfold World.fail
  split <;> rfl

theorem Inside.fail (h : g.Inside F w) {c : Choice} (hc : g.env w.clock c) (fault : Fault) :
    g.Torn ((w.advance c).fail fault) := by
  obtain ⟨t₀, t, -, -, -, hw⟩ := h
  unfold Torn
  rw [World.fail_tables, World.fail_clock]
  exact g.broken (g.later hw hc)

theorem Inside.advance (h : g.Inside F w) {c : Choice} (hc : g.env w.clock c) :
    g.Inside F (w.advance c) := by
  obtain ⟨t₀, t, hopen, h₀, hF, hw⟩ := h
  exact ⟨t₀, t, hopen, g.later h₀ hc, hF, g.later hw hc⟩

theorem Inside.sql {G : α → Tables → Tables → Prop} {f : Tables → Except Exn (Tables × α)}
    (h : g.Inside F w)
    (hf : ∀ c t₀ t t' a, g.env w.clock c → g.Kept t₀ w.clock → F t₀ t → f t = .ok (t', a) →
      ∃ t₀', g.Kept t₀' c.now ∧ G a t₀' t') :
    g.Does g.Torn (fun a w' => g.Inside (G a) w') (EscrowSigner.sql f) w := by
  refine Does.action h.safe fun c hc => ?_
  obtain ⟨t₀, t, hopen, h₀, hF, hw⟩ := id h
  have hview : (w.advance c).view = t := by
    simp [World.view, World.advance, Db.view, hopen]
  unfold statement
  cases hfault : c.fault with
  | some fault => exact h.fail hc fault
  | none =>
    dsimp only
    rw [hview]
    cases hr : f t with
    | error e => exact (h.advance hc).torn
    | ok r =>
      obtain ⟨t₀', h₀', hF'⟩ := hf c t₀ t r.1 r.2 hc h₀ hF hr
      refine ⟨t₀', r.1, ?_, h₀', hF', ?_⟩
      · simp [World.write, World.advance, Db.write, hopen]
      · have htables : ((w.advance c).write r.1).tables = w.tables := by
          simp [World.write, World.advance, Db.write, hopen, World.tables]
        rw [htables]
        exact g.later hw hc

theorem Inside.mono {G : Tables → Tables → Prop} (h : g.Inside F w)
    (hF : ∀ t₀ t, F t₀ t → G t₀ t) : g.Inside G w := by
  obtain ⟨t₀, t, hopen, h₀, hFt, hw⟩ := h
  exact ⟨t₀, t, hopen, h₀, hF t₀ t hFt, hw⟩

theorem Inside.update {G : Tables → Tables → Prop} {f : Tables → Except Exn Tables}
    (h : g.Inside F w)
    (hf : ∀ c t₀ t t', g.env w.clock c → g.Kept t₀ w.clock → F t₀ t → f t = .ok t' →
      ∃ t₀', g.Kept t₀' c.now ∧ G t₀' t') :
    g.Does g.Torn (fun _ w' => g.Inside G w') (EscrowSigner.update f) w := by
  refine Inside.sql h fun c t₀ t t' a hc h₀ hF ht => ?_
  obtain ⟨t'', ht'', heq⟩ := bind_ok_iff.mp ht
  cases heq
  exact hf c t₀ t t' hc h₀ hF ht''

theorem Inside.select {f : Tables → Except Exn α} (h : g.Inside F w) :
    g.Does g.Torn (fun a w' => g.Inside (fun t₀ t => F t₀ t ∧ f t = .ok a) w')
      (EscrowSigner.select f) w := by
  refine Inside.sql h fun c t₀ t t' a hc h₀ hF ht => ?_
  obtain ⟨a', ha', heq⟩ := bind_ok_iff.mp ht
  cases heq
  exact ⟨t₀, g.later h₀ hc, hF, ha'⟩

/-- An `UPDATE` inside a transaction that writes to neither chain. -/
theorem Inside.plain {f : Tables → Except Exn Tables} (h : g.Inside (fun t₀ t => t₀ = t ∧ F t₀ t) w)
    (hf : ∀ t t', F t t → f t = .ok t' → Plain t t' ∧ F t' t') :
    g.Does g.Torn (fun _ w' => g.Inside (fun t₀ t => t₀ = t ∧ F t₀ t) w')
      (EscrowSigner.update f) w := by
  refine Inside.update h fun c t₀ t t' hc h₀ hF ht => ?_
  obtain ⟨rfl, hF⟩ := hF
  obtain ⟨hplain, hF'⟩ := hf _ t' hF ht
  exact ⟨t', g.plain (g.later h₀ hc) hplain, rfl, hF'⟩

theorem Inside.now (h : g.Inside F w) :
    g.Does g.Torn (fun wall w' => g.Inside F w' ∧ wall = seconds w'.clock) now w :=
  Does.bind (P := fun instant w' => g.Inside F w' ∧ instant = w'.clock)
    (Does.action h.safe fun _ hc => ⟨h.advance hc, rfl⟩)
    fun instant w' hw => Does.pure ⟨hw.1, by rw [hw.2]⟩

theorem Closed.beginImmediate (h : g.Closed w) :
    g.Does g.Torn (fun _ w' => g.Inside (fun t₀ t => t₀ = t) w') beginImmediate w := by
  refine Does.action h.safe fun c hc => ?_
  have hopen : (w.advance c).db.working = none := h.1
  simp only [hopen]
  cases hfault : c.fault with
  | some fault =>
    dsimp only
    rw [World.fail_eq h.1]
    exact (h.advance hc).torn
  | none => exact ⟨w.tables, w.tables, rfl, g.later h.2 hc, rfl, g.later h.2 hc⟩

theorem Inside.commit (h : g.Inside (fun t₀ t => t₀ = t) w) :
    g.Does g.Torn (fun _ w' => g.Closed w') commit w := by
  refine Does.action h.safe fun c hc => ?_
  obtain ⟨t₀, t, hopen, h₀, rfl, hw⟩ := id h
  have hopen' : (w.advance c).db.working = some t₀ := hopen
  simp only [hopen']
  cases hfault : c.fault with
  | some fault => exact h.fail hc fault
  | none => exact ⟨rfl, g.later h₀ hc⟩

/-- A rollback, with or without a transaction to roll back. -/
theorem Torn.rollback (h : g.Torn w) : g.Does g.Fallen (fun _ w' => g.Fallen w') rollback w := by
  refine Does.action (g.safe h) fun c hc => ?_
  have hlater : g.Broken w.tables c.now := g.laterBroken h hc
  cases hopen : w.db.working with
  | some t =>
    have hopen' : (w.advance c).db.working = some t := hopen
    simp only [hopen']
    exact ⟨rfl, hlater⟩
  | none =>
    have hopen' : (w.advance c).db.working = none := hopen
    simp only [hopen']
    exact ⟨hopen, hlater⟩

end Regime

end EscrowSigner.Integrity
