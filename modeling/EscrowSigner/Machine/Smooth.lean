import EscrowSigner.Machine.Reconcile
import EscrowSigner.Integrity.Regime

/-! The ledger when nothing is in its way: no statement fails, and no reading of the clock is behind
the books.  What an operation does is then a function of the tables and of the readings. -/

namespace EscrowSigner.Machine

open Ledger Process
open Integrity (ticked audited auditedHead auditRow)

/-- No statement fails, and the clock does not step back from one step to the next. -/
structure Smooth (E : World → Choice → Prop) : Prop where
  fault : ∀ {w c}, E w c → c.fault = none
  clock : ∀ {w c w' c'}, E w c → E w' c' → w'.clock = c.now → c.now ≤ c'.now

/-- The events other than readings of the clock. -/
def exchanges : List Event → List Event
  | [] => []
  | .clock _ :: log => exchanges log
  | e :: log => e :: exchanges log

/-- The database is `db`, what passed between service and outside is `es`, and no reading of the clock
comes that is behind the guard. -/
structure Stands (E : World → Choice → Prop) (es : List Event) (db : Db) (w : World) : Prop where
  base : w.db = db
  log : exchanges w.log = es
  clock : ∀ c, E w c → db.view.clockGuard.maxTs ≤ seconds c.now

/-- Between two transactions, with the tables `t`. -/
abbrev Resting (E : World → Choice → Prop) (es : List Event) (t : Tables) (w : World) : Prop :=
  Stands E es ⟨t, none⟩ w

variable {E : World → Choice → Prop} {es : List Event} {t t' : Tables} {db : Db} {w w' : World} {α : Type}
  {P : Exn → World → Prop} {x : Externals} {c : Choice} {row : SpendRow}

theorem Stands.advance (hE : Smooth E) (h : Stands E es db w) (hc : E w c) :
    Stands E es db (w.advance c) where
  base := h.base
  log := h.log
  clock _ hc' := (h.clock c hc).trans (seconds_mono (hE.clock hc hc' rfl))

theorem Stands.statement (hE : Smooth E) (h : Stands E es db w) (hc : E w c)
    (f : Tables → Except Exn (Tables × α)) :
    statement f c (w.advance c) =
      match f db.view with
      | .ok (t', a) => ({ w.advance c with db := db.write t' }, .ok a)
      | .error e => (w.advance c, .error e) := by
  have hview : (w.advance c).view = db.view := congrArg Db.view h.base
  unfold EscrowSigner.statement
  rw [hE.fault hc, hview]
  dsimp only
  cases f db.view with
  | error e => rfl
  | ok r =>
    have hdb : (w.advance c).db = db := h.base
    dsimp only
    unfold World.write
    rw [hdb]

/-! ### Statements -/

theorem Stands.select (hE : Smooth E) (h : Stands E es db w) {f : Tables → Except Exn α} {a : α}
    (hf : f db.view = .ok a) :
    (select f).Under E P (fun a' w' => a' = a ∧ Stands E es db w') w := by
  refine .atomic fun c hc => ?_
  rw [h.statement hE hc, hf]
  have hsame : ({ w.advance c with db := db.write db.view } : World) = w.advance c := by
    rw [Db.write_view, ← h.base]
    rfl
  show a = a ∧ Stands E es db { w.advance c with db := db.write db.view }
  exact ⟨rfl, hsame ▸ h.advance hE hc⟩

theorem view_write (db : Db) (t : Tables) : (db.write t).view = t := by
  obtain ⟨committed, working⟩ := db
  cases working <;> rfl

theorem Stands.update (hE : Smooth E) (h : Stands E es db w) {f : Tables → Except Exn Tables}
    (hf : f db.view = .ok t') (hclock : ∀ c, E w c → t'.clockGuard.maxTs ≤ seconds c.now) :
    (update f).Under E P (fun _ w' => Stands E es (db.write t') w') w := by
  refine .atomic fun c hc => ?_
  rw [h.statement hE hc, hf]
  refine ⟨rfl, h.log, fun _ hc' => ?_⟩
  rw [view_write]
  exact (hclock c hc).trans (seconds_mono (hE.clock hc hc' rfl))

/-- An update that leaves the guard's time alone. -/
theorem Stands.updateSame (hE : Smooth E) (h : Stands E es db w) {f : Tables → Except Exn Tables}
    (hf : f db.view = .ok t') (hclock : t'.clockGuard.maxTs = db.view.clockGuard.maxTs) :
    (EscrowSigner.update f).Under E P (fun _ w' => Stands E es (db.write t') w') w :=
  h.update hE hf fun c hc => hclock ▸ h.clock c hc

/-- A reading of the clock is not behind the guard, and no later one is behind it. -/
theorem Stands.now (hE : Smooth E) (h : Stands E es db w) :
    now.Under E P (fun n w' => Stands E es db w' ∧ db.view.clockGuard.maxTs ≤ n ∧
      ∀ c, E w' c → n ≤ seconds c.now) w := by
  refine Under.bind (P := fun instant w' => Stands E es db w' ∧
    db.view.clockGuard.maxTs ≤ seconds instant ∧
      ∀ c, E w' c → seconds instant ≤ seconds c.now) (.atomic fun c hc => ?_)
    fun instant w' h' => .pure h'
  exact ⟨⟨h.base, h.log, fun _ hc' => (h.clock c hc).trans (seconds_mono (hE.clock hc hc' rfl))⟩,
    h.clock c hc, fun _ hc' => seconds_mono (hE.clock hc hc' rfl)⟩

/-! ### Clock and audit -/

theorem refuseRegression_ahead {n : Int} (hn : t.clockGuard.maxTs ≤ n) :
    (refuseRegression t.clockGuard n).Under E P (fun _ w' => w' = w) w := by
  have hcalm : ¬ n < t.clockGuard.maxTs - clockToleranceS := by
    unfold clockToleranceS
    omega
  unfold Ledger.refuseRegression
  rw [if_neg hcalm]
  exact .pure rfl

theorem Stands.tick (hE : Smooth E) (h : Stands E es db w) :
    tick.Under E P (fun stamp w' => stamp.1 = db.view.clockGuard.maxSeq + 1 ∧
      Stands E es (db.write (ticked db.view stamp.2)) w') w := by
  refine Under.bind (h.select hE rfl) fun guard w₁ ⟨hguard, h₁⟩ => ?_
  subst hguard
  refine Under.bind (h₁.now hE) fun n w₂ ⟨h₂, hn, hlater⟩ => ?_
  refine Under.bind (refuseRegression_ahead hn) fun _ w₃ hw₃ => ?_
  subst hw₃
  have hmax : max n db.view.clockGuard.maxTs = n := max_eq_left hn
  refine Under.bind (h₂.update hE rfl fun c hc => ?_) fun _ w₄ h₄ => .pure ⟨rfl, ?_⟩
  · show max n db.view.clockGuard.maxTs ≤ _
    exact hmax.le.trans (hlater c hc)
  · show Stands E es (db.write (ticked db.view (max n db.view.clockGuard.maxTs))) w₄
    unfold ticked
    rw [max_assoc, max_self]
    exact h₄

section Resting

/-! Between two transactions a statement sees and writes the tables themselves. -/

theorem Resting.select (hE : Smooth E) (h : Resting E es t w) {f : Tables → Except Exn α} {a : α}
    (hf : f t = .ok a) :
    (select f).Under E P (fun a' w' => a' = a ∧ Resting E es t w') w := Stands.select hE h hf

theorem Resting.update (hE : Smooth E) (h : Resting E es t w) {f : Tables → Except Exn Tables}
    (hf : f t = .ok t') (hclock : t'.clockGuard.maxTs = t.clockGuard.maxTs) :
    (EscrowSigner.update f).Under E P (fun _ w' => Resting E es t' w') w := Stands.updateSame hE h hf hclock

theorem Resting.now (hE : Smooth E) (h : Resting E es t w) :
    now.Under E P (fun n w' => Resting E es t w' ∧ t.clockGuard.maxTs ≤ n ∧
      ∀ c, E w' c → n ≤ seconds c.now) w := Stands.now hE h

theorem Resting.tick (hE : Smooth E) (h : Resting E es t w) :
    tick.Under E P (fun stamp w' => stamp.1 = t.clockGuard.maxSeq + 1 ∧
      Resting E es (ticked t stamp.2) w') w := Stands.tick hE h

end Resting

/-- The tables after `audit`, whose row was stamped at `ts`. -/
def noted (x : Externals) (f : AuditFields) (ts : Int) (t : Tables) : Tables :=
  auditedHead x (ticked t ts) f ts

section Noted

variable {f : AuditFields} {ts : Int}

@[simp] theorem noted_spend : (noted x f ts t).spend = t.spend := rfl

@[simp] theorem noted_txAttempt : (noted x f ts t).txAttempt = t.txAttempt := rfl

@[simp] theorem noted_nonceAlloc : (noted x f ts t).nonceAlloc = t.nonceAlloc := rfl

@[simp] theorem noted_maxSeq : (noted x f ts t).clockGuard.maxSeq = t.clockGuard.maxSeq + 1 := rfl

end Noted

theorem Resting.audit (hE : Smooth E) (h : Resting E es t w) {f : AuditFields}
    (hf : ∀ n ∈ f.ints, inInt64 n = true) :
    (audit x f).Under E P (fun _ w' => ∃ ts, Resting E es (noted x f ts t) w') w := by
  refine Under.bind (h.tick hE) fun stamp w₁ ⟨_, h₁⟩ => ?_
  refine Under.bind (h₁.select hE rfl) fun head w₂ ⟨hhead, h₂⟩ => ?_
  subst hhead
  refine Under.bind (P := fun r w' => r = (auditRow x (ticked t stamp.2) f stamp.2).rowHash ∧
    Resting E es (audited x (ticked t stamp.2) f stamp.2) w') (.atomic fun c hc => ?_)
    fun hash w₃ ⟨hhash, h₃⟩ => ?_
  · rw [h₂.statement hE hc, bindInts_eq_ok.mpr hf]
    exact ⟨rfl, rfl, h₂.log, fun _ hc' => (h₂.clock c hc).trans (seconds_mono (hE.clock hc hc' rfl))⟩
  · subst hhash
    exact Under.mono (P := fun _ w' => Resting E es (auditedHead x (ticked t stamp.2) f stamp.2) w')
      (h₃.update hE rfl rfl) (fun _ _ h => h) fun _ _ h => ⟨stamp.2, h⟩

/-- The tables with the row of a key changed, where that keeps the constraints. -/
def restated (k : Key) (f : SpendRow → SpendRow) (t : Tables)
    (hrows : SpendConstraints (mapRow k f t.spend.rows)) : Tables :=
  { t with spend := ⟨mapRow k f t.spend.rows, hrows⟩ }

/-- A transition keeps the constraints when it does not bring a dead row back. -/
theorem constraints_apply {k : Key} {u : RowUpdates} {state : RowState}
    (h : state = .dead ∨ ∀ r ∈ t.spend.rows, r.key = k → r.state ≠ .dead) :
    SpendConstraints (mapRow k (u.apply state) t.spend.rows) :=
  constraints_mapRow t.spend.constraints (fun _ => rfl) (fun _ => rfl) (fun _ => rfl) fun r hr hk =>
    h.imp id fun h => h r hr hk

theorem Resting.setState (hE : Smooth E) (h : Resting E es t w) {state : RowState} {u : RowUpdates}
    (hchain : inInt64 row.chainId = true) (hamount : inInt64 row.amountUnits = true)
    (hfee : ∀ n ∈ u.feeWeiSpent, inInt64 n = true)
    (hrows : SpendConstraints (mapRow row.key (u.apply state) t.spend.rows)) :
    (setState x row state u).Under E P (fun _ w' => ∃ ts, Resting E es
      (noted x (transition row state.name (u.deadReason.getD "") (u.txHash.getD row.txHash)) ts
        (restated row.key (u.apply state) t hrows)) w') w := by
  have hints : bindInts (row.chainId :: u.feeWeiSpent.toList) = .ok () := by
    refine bindInts_eq_ok.mpr (List.forall_mem_cons.mpr ⟨hchain, fun n hn => hfee n ?_⟩)
    exact Option.mem_toList.mp hn
  have hupdate : (do
      bindInts (row.chainId :: u.feeWeiSpent.toList)
      t.updateRow row.key (u.apply state)) = .ok (restated row.key (u.apply state) t hrows) := by
    rw [hints]
    exact setSpend_ok hrows
  refine Under.bind (h.update hE hupdate rfl) fun _ w₁ h₁ => h₁.audit hE ?_
  refine List.forall_mem_cons.mpr ⟨(by decide : inInt64 0 = true), ?_⟩
  exact List.forall_mem_cons.mpr ⟨hchain, List.forall_mem_singleton.mpr hamount⟩

/-- What a reconciliation changes: the rows, the allocator and the newest number of the guard. -/
structure Accounts where
  rows : List SpendRow
  alloc : List NonceAlloc
  seq : Int

def accountsOf (t : Tables) : Accounts := ⟨t.spend.rows, t.nonceAlloc, t.clockGuard.maxSeq⟩

/-- The accounts after a row was mined. -/
def Accounts.mine (row : SpendRow) (txHash : String) (fee : Int) (b : Accounts) : Accounts :=
  let u : RowUpdates :=
    ⟨if txHash = "" then none else some txHash, if fee = 0 then none else some fee, none⟩
  ⟨mapRow row.key (u.apply .mined) b.rows, b.alloc, b.seq + 1⟩

/-- A row is reserved, and no attempt on its chain carries its nonce. -/
def Fresh (attempts : List TxAttempt) (row : SpendRow) : Prop :=
  row.state = .reserved ∧
    ∀ a ∈ attempts, ¬ (a.chainId = row.chainId ∧ a.accountNonce = row.accountNonce)

instance (attempts : List TxAttempt) (row : SpendRow) : Decidable (Fresh attempts row) :=
  inferInstanceAs (Decidable (_ ∧ _))

/-- An entry of the allocator when the nonce of a row is given back. -/
def giveBack (row : SpendRow) (seq : Int) (a : NonceAlloc) : NonceAlloc :=
  if a.chainId = row.chainId ∧ a.fromAddr = row.fromAddr then
    if a.nextNonce = row.accountNonce + 1 then
      { a with nextNonce := row.accountNonce, updatedSeq := seq }
    else a
  else a

/-- The accounts after a row was released. -/
def Accounts.release (attempts : List TxAttempt) (row : SpendRow) (reason : String) (b : Accounts) :
    Accounts :=
  let u : RowUpdates := ⟨none, none, some reason⟩
  ⟨mapRow row.key (u.apply .dead) b.rows,
    if Fresh attempts row then b.alloc.map (giveBack row (b.seq + 1)) else b.alloc, b.seq + 1⟩

/-- The books after an operation: the accounts are `b`, and the attempts are as they were. -/
structure Leaves (E : World → Choice → Prop) (es : List Event) (t : Tables) (b : Accounts)
    (w' : World) : Prop where
  intro ::
  rest : ∃ t', Resting E es t' w' ∧ accountsOf t' = b ∧ t'.txAttempt = t.txAttempt

theorem get_of_mem (hrow : row ∈ t.spend.rows) : t.get row.key = some row := by
  cases hfound : t.get row.key with
  | none =>
    have hne := List.find?_eq_none.mp hfound row hrow
    simp at hne
  | some r =>
    have hkey : r.key = row.key := by simpa using List.find?_some hfound
    rw [List.inj_on_of_nodup_map t.spend.constraints.1 (List.mem_of_find?_eq_some hfound) hrow hkey]

/-- A row of the books that is not dead, with integers that SQLite holds. -/
structure Upright (rows : List SpendRow) (row : SpendRow) : Prop where
  mem : row ∈ rows
  alive : row.state ≠ .dead
  chain : inInt64 row.chainId = true
  amount : inInt64 row.amountUnits = true

theorem Upright.constraints (h : Upright t.spend.rows row) (u : RowUpdates) (state : RowState) :
    SpendConstraints (mapRow row.key (u.apply state) t.spend.rows) :=
  constraints_apply (.inr fun r hr hk => by
    rw [List.inj_on_of_nodup_map t.spend.constraints.1 hr h.mem hk]
    exact h.alive)

theorem Resting.markMined (hE : Smooth E) (h : Resting E es t w) (hrow : Upright t.spend.rows row)
    (txHash : String) {fee : Int} (hfee : inInt64 fee = true) :
    (markMined x row txHash fee).Under E P (fun _ w' => Leaves E es t
      ((accountsOf t).mine row txHash fee) w') w := by
  refine Under.mono (h.setState hE hrow.chain hrow.amount (fun n hn => ?_) (hrow.constraints _ _))
    (fun _ _ h => h) fun _ w' ⟨ts, h'⟩ => ⟨_, h', rfl, rfl⟩
  replace hn : n ∈ (if fee = 0 then none else some fee) := hn
  split at hn
  · cases hn
  · exact Option.some.inj hn ▸ hfee

/-- What `mark_dead` reads of a row that is in the books. -/
theorem Resting.readUnsigned (hE : Smooth E) (h : Resting E es t w) (hrow : row ∈ t.spend.rows) :
    (readUnsigned row).Under E P (fun r w' => Resting E es t w' ∧
      r = if Fresh t.txAttempt row then some row else none) w := by
  refine Under.bind (h.select hE rfl) fun held w₁ ⟨hheld, h₁⟩ => ?_
  subst hheld
  rw [get_of_mem hrow]
  dsimp only
  by_cases hreserved : row.state = .reserved
  · rw [if_pos hreserved]
    refine Under.bind (h₁.select hE rfl) fun attempt w₂ ⟨hattempt, h₂⟩ => .pure ⟨h₂, ?_⟩
    subst hattempt
    have hiff : t.txAttempt.find? (fun a => a.chainId = row.chainId ∧ a.accountNonce = row.accountNonce) =
        none ↔ Fresh t.txAttempt row := by
      rw [List.find?_eq_none]
      simp [Fresh, hreserved]
    simp only [hiff]
  · rw [if_neg hreserved]
    exact .pure ⟨h₁, (if_neg fun hu => hreserved hu.1).symm⟩

theorem Resting.markDead (hE : Smooth E) (h : Resting E es t w) (hrow : Upright t.spend.rows row)
    (reason : String) :
    (markDead x row reason).Under E P (fun _ w' => Leaves E es t
      ((accountsOf t).release t.txAttempt row reason) w') w := by
  refine Under.bind (h.readUnsigned hE hrow.mem) fun r w₁ ⟨h₁, hr⟩ => ?_
  subst hr
  refine Under.bind (h₁.setState hE hrow.chain hrow.amount (fun n hn => by cases hn)
    (hrow.constraints _ _)) fun _ w₂ ⟨ts, h₂⟩ => ?_
  by_cases hunsigned : Fresh t.txAttempt row
  · rw [if_pos hunsigned]
    refine Under.bind (h₂.select hE rfl) fun guard w₃ ⟨hguard, h₃⟩ => ?_
    subst hguard
    refine Under.mono (h₃.update hE rfl rfl) (fun _ _ h => h) fun _ _ h₄ => ⟨_, h₄, ?_, rfl⟩
    unfold Accounts.release
    rw [if_pos hunsigned]
    rfl
  · rw [if_neg hunsigned]
    refine .pure ⟨_, h₂, ?_, rfl⟩
    unfold Accounts.release
    rw [if_neg hunsigned]
    rfl

theorem Resting.recordAttemptStatus (hE : Smooth E) (h : Resting E es t w) (txHash status : String) :
    (recordAttemptStatus txHash status).Under E P (fun _ w' => Resting E es
      { t with txAttempt := stampAttempts txHash status t.txAttempt } w') w :=
  h.update hE rfl rfl

end EscrowSigner.Machine
