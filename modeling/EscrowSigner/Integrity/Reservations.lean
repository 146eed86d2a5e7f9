import EscrowSigner.Integrity.Atomicity
import EscrowSigner.Integrity.Rows

/-! The two reservations of the ledger when they fail: what is left of them, and whether the ledger
is halted. -/

namespace EscrowSigner.Integrity

open Ledger Process

variable {x : Externals} {caps : Caps} {a : Request} {b : GasOnlyRequest} {w w' : World}
  {K F : Tables → Prop} {R : Prop} {t₀ : Tables}

/-! ### Checks -/

/-- A sum that fails has overflowed. -/
theorem sumInts_overflow {terms : List Int} {e : Exn} (h : sumInts terms = .error e) :
    e = .sqlite "OperationalError" := by
  unfold sumInts at h
  generalize (0 : Int) = total at h
  induction terms generalizing total with
  | nil => cases h
  | cons n terms ih =>
    rw [List.foldlM_cons] at h
    rcases bind_error_iff.mp h with h | ⟨_, -, h⟩
    · split at h
      · cases h
      · cases h
        rfl
    · exact ih _ h

theorem sumInts_error {terms : List Int} {e : Exn} (h : sumInts terms = .error e) : Ordinary R e := by
  rw [sumInts_overflow h]
  exact .sqlite _

theorem feeWeiWindow_error {t : Tables} {chainId since : Int} {escrow : String} {e : Exn}
    (h : t.feeWeiWindow x chainId escrow since = .error e) : Ordinary R e := by
  unfold Tables.feeWeiWindow at h
  dsimp only at h
  split at h
  · exact sumInts_error h
  · cases h

theorem not_regression_capBreach (name : String) : ¬ Regression (capBreach name) :=
  fun ⟨_, h⟩ => by cases h

theorem not_regression_ledgerUnavailable (message : String) :
    ¬ Regression (.ledgerUnavailable message) :=
  fun ⟨_, h⟩ => by cases h

theorem Idle.runChecks (h : Idle K w) (checks : List Check) :
    (runChecks checks).Ends (Failed K) (fun _ w' => Idle K w') w := by
  induction checks with
  | nil => exact .pure h
  | cons c checks ih =>
    unfold Ledger.runChecks
    split
    · exact ih
    · exact .raise (h.failed (not_regression_capBreach _))

theorem Idle.windowChecks (h : Idle K w) (cuts : Cuts) :
    (windowChecks x caps a cuts).Ends (Failed K) (fun _ w' => Idle K w') w :=
  (h.select fun _ he => (sumInts_error (R := False) he).not_regression).bind fun _ _ h₁ =>
    (h₁.1.select fun _ he => (sumInts_error (R := False) he).not_regression).bind fun _ _ h₂ =>
      (h₂.1.select fun _ he => (sumInts_error (R := False) he).not_regression).bind fun _ _ h₃ =>
        (h₃.1.select fun _ he => (sumInts_error (R := False) he).not_regression).bind fun _ _ h₄ =>
          (h₄.1.read _).bind fun _ _ h₅ => (h₅.1.read _).bind fun _ _ h₆ =>
            (h₆.1.read _).bind fun _ _ h₇ =>
              (h₇.1.select fun _ he => (feeWeiWindow_error (R := False) he).not_regression).bind
                fun _ _ h₈ => .pure h₈.1

theorem Idle.checkDistinctChannels (h : Idle K w) (cuts : Cuts) :
    (checkDistinctChannels caps a cuts).Ends (Failed K) (fun _ w' => Idle K w') w := by
  unfold Ledger.checkDistinctChannels
  split
  · exact .pure h
  · refine (h.read _).bind fun _ _ h₁ => (h₁.1.read _).bind fun _ _ h₂ => ?_
    split
    · exact .raise (h₂.1.failed (not_regression_capBreach _))
    · exact .pure h₂.1

theorem Idle.reviveOf (h : Idle K w) (existing : Option SpendRow) (what : String) :
    (reviveOf existing what).Ends (Failed K) (fun _ w' => Idle K w') w := by
  unfold Ledger.reviveOf
  split
  · exact .pure h
  · split
    · exact .pure h
    · exact .raise (h.failed (not_regression_ledgerUnavailable _))

theorem Idle.debitChecks (h : Idle K w) :
    (debitChecks x caps a).Ends (Failed K) (fun _ w' => Idle K w') w := by
  unfold Integrity.debitChecks
  split
  · exact .raise (h.failed fun ⟨_, he⟩ => by cases he)
  · exact h.assertClockSane.bind fun _ _ h₁ => h₁.now.bind fun _ _ h₂ =>
      (h₂.1.windowChecks _).bind fun _ _ h₃ => (h₃.runChecks _).bind fun _ _ h₄ =>
        (h₄.checkDistinctChannels _).bind fun _ _ h₅ => (h₅.read _).bind fun _ _ h₆ =>
          (h₆.1.reviveOf _ _).bind fun _ _ h₇ => .pure h₇

theorem Idle.checkGasOnlyCount (h : Idle K w) (cut : Int) :
    (checkGasOnlyCount b cut).Ends (Failed K) (fun _ w' => Idle K w') w := by
  unfold Ledger.checkGasOnlyCount
  split
  · exact .pure h
  · refine (h.read _).bind fun _ _ h₁ => ?_
    split
    · exact .raise (h₁.1.failed (not_regression_capBreach _))
    · exact .pure h₁.1

theorem Idle.checkGasOnlyFee (h : Idle K w) (cut : Int) :
    (checkGasOnlyFee x caps b cut).Ends (Failed K) (fun _ w' => Idle K w') w := by
  unfold Ledger.checkGasOnlyFee
  split
  · exact .pure h
  · refine (h.select fun _ he => (feeWeiWindow_error (R := False) he).not_regression).bind fun _ _ h₁ => ?_
    split
    · exact .raise (h₁.1.failed (not_regression_capBreach _))
    · exact .pure h₁.1

theorem Idle.gasOnlyChecks (h : Idle K w) :
    (gasOnlyChecks x caps b).Ends (Failed K) (fun _ w' => Idle K w') w :=
  h.assertClockSane.bind fun _ _ h₁ => h₁.now.bind fun _ _ h₂ =>
    (h₂.1.checkGasOnlyCount _).bind fun _ _ h₃ => (h₃.checkGasOnlyFee _).bind fun _ _ h₄ =>
      (h₄.read _).bind fun _ _ h₅ => (h₅.1.reviveOf _ _).bind fun _ _ h₆ => .pure h₆

/-! ### Transactions -/

/-- What the allocation hands on is the stamp of the tick. -/
theorem Draft.allocateAt_stamp (h : Draft t₀ F w)
    (hF : ∀ t allocs, F t → F { t with nonceAlloc := allocs }) (chainId : Int) (fromAddr : String)
    (stamp : Int × Int) :
    (Integrity.allocateAt chainId fromAddr stamp).Ends (Dropped R t₀)
      (fun al w' => (al.seq = stamp.1 ∧ al.ts = stamp.2) ∧ Draft t₀ F w') w := by
  refine (h.write (G := F) fun t ht => ?_).bind fun _ _ h₁ =>
    (h₁.select fun t e he => ?_).bind fun _ _ h₂ =>
      (h₂.select fun _ _ he => (by cases he)).bind fun _ _ h₃ => .pure ⟨⟨rfl, rfl⟩, h₃⟩
  · unfold Tables.insertAlloc
    split
    · exact ht
    · exact hF t _ ht
  · split at he
    · cases he
    · cases he
      exact .other _

theorem Draft.allocateAt (h : Draft t₀ F w)
    (hF : ∀ t allocs, F t → F { t with nonceAlloc := allocs }) (chainId : Int) (fromAddr : String)
    (stamp : Int × Int) :
    (Integrity.allocateAt chainId fromAddr stamp).Ends (Dropped R t₀) (fun _ w' => Draft t₀ F w') w :=
  (h.allocateAt_stamp hF chainId fromAddr stamp).mono (fun _ _ h => h) fun _ _ h => h.2

theorem Draft.takeNonce (h : Draft t₀ F w) (hF : ∀ t allocs, F t → F { t with nonceAlloc := allocs })
    (chainId : Int) (fromAddr : String) (seq : Int) :
    (takeNonce chainId fromAddr seq).Ends (Dropped R t₀) (fun _ w' => Draft t₀ F w') w :=
  h.write fun t ht => hF t _ ht

theorem setSpend_error {t : Tables} {rows : List SpendRow} {e : Exn}
    (h : t.setSpend rows = .error e) : Ordinary R e := by
  unfold Tables.setSpend at h
  split at h
  · cases h
  · cases h
    exact .sqlite _

/-- A row that is revived moves from one state to another. -/
theorem Draft.reviveRow (h : Draft t₀ (fun t => t.spend = t₀.spend) w) (ints : List Int) (k : Key)
    (amountUnits : Int) {f : SpendRow → SpendRow} (hf : ∀ r, (f r).state = .reserved) :
    (reviveRow ints k amountUnits f).Ends (Dropped R t₀)
      (fun changed w' => Draft t₀ (fun t => t.spend = t₀.spend ↔ changed = false) w') w := by
  refine h.sql (G := fun changed t => t.spend = t₀.spend ↔ changed = false)
    (fun t e ht he => ?_) fun t t' changed ht hok => ?_
  · rcases bind_error_iff.mp he with he | ⟨_, -, he⟩
    · exact bindInts_error he
    · split at he
      · rcases bind_error_iff.mp he with he | ⟨_, -, he⟩
        · exact setSpend_error he
        · cases he
      · cases he
  · obtain ⟨-, -, hok⟩ := bind_ok_iff.mp hok
    split at hok
    · rename_i hany
      obtain ⟨t'', ht'', heq⟩ := bind_ok_iff.mp hok
      cases heq
      obtain ⟨hrows, rfl⟩ := setSpend_eq ht''
      refine ⟨fun hsame => ?_, fun hfalse => by cases hfalse⟩
      -- the dead row of the key would be reserved
      obtain ⟨r, hr, hdead⟩ := List.any_eq_true.mp hany
      simp only [Bool.and_eq_true, decide_eq_true_eq] at hdead
      have hrows' : mapRow k f t.spend.rows = t.spend.rows.map id :=
        (congrArg SpendTable.rows (hsame.trans ht.symm)).trans (List.map_id _).symm
      have hfix := List.map_inj_left.mp hrows' r hr
      rw [if_pos hdead.1.1] at hfix
      have hstate := congrArg SpendRow.state hfix
      rw [hf, id, hdead.1.2] at hstate
      cases hstate
    · cases hok
      exact ⟨fun _ => rfl, fun _ => ht⟩

theorem clause_error {cap adding : Int} {existing : Except Exn Int} {e : Exn}
    (h : clause cap existing adding = .error e) : existing = .error e := by
  unfold clause at h
  split at h
  · cases h
  · rcases bind_error_iff.mp h with h | ⟨_, -, h⟩
    · exact h
    · cases h

theorem conjunction_error {clauses : List (Except Exn Bool)} {e : Exn}
    (h : conjunction clauses = .error e) : .error e ∈ clauses := by
  induction clauses with
  | nil => cases h
  | cons c clauses ih =>
    rcases bind_error_iff.mp h with h | ⟨b, -, h⟩
    · exact h ▸ List.mem_cons_self
    · split at h
      · exact List.mem_cons_of_mem c (ih h)
      · cases h

theorem debitGuard_error {cuts : Cuts} {t : Tables} {e : Exn}
    (h : debitGuard caps a cuts t = .error e) : Ordinary R e := by
  have hmem := conjunction_error h
  simp only [List.mem_cons, List.not_mem_nil, or_false] at hmem
  rcases hmem with h | h | h | h | h | h
  · exact sumInts_error (clause_error h.symm)
  · exact sumInts_error (clause_error h.symm)
  · exact sumInts_error (clause_error h.symm)
  · exact sumInts_error (clause_error h.symm)
  · cases clause_error h.symm
  · cases clause_error h.symm

/-- The clause of an `INSERT` reads nothing but the rows. -/
theorem debitGuard_congr {cuts : Cuts} {t t' : Tables} (h : t'.spend = t.spend) :
    debitGuard caps a cuts t' = debitGuard caps a cuts t := by
  simp only [debitGuard, Tables.windowUnits, Tables.channelUnits, Tables.windowCount,
    Tables.countedRows, h]

theorem gasOnlyGuard_error {cut : Int} {t : Tables} {e : Exn}
    (h : gasOnlyGuard b cut t = .error e) : Ordinary R e := by
  cases clause_error h

theorem Draft.insertRow (h : Draft t₀ (fun t => t.spend = t₀.spend) w) (ints : List Int)
    {guard : Tables → Except Exn Bool} (row : SpendRow)
    (hguard : ∀ t e, guard t = .error e → Ordinary R e) :
    (insertRow ints guard row).Ends (Dropped R t₀)
      (fun inserted w' => Draft t₀ (fun t => t.spend = t₀.spend ↔ inserted = false) w') w := by
  refine h.sql (G := fun inserted t => t.spend = t₀.spend ↔ inserted = false)
    (fun t e ht he => ?_) fun t t' inserted ht hok => ?_
  · rcases bind_error_iff.mp he with he | ⟨_, -, he⟩
    · exact bindInts_error he
    · rcases bind_error_iff.mp he with he | ⟨_, -, he⟩
      · exact hguard t e he
      · split at he
        · rcases bind_error_iff.mp he with he | ⟨_, -, he⟩
          · exact setSpend_error he
          · cases he
        · cases he
  · obtain ⟨-, -, hok⟩ := bind_ok_iff.mp hok
    obtain ⟨passes, -, hok⟩ := bind_ok_iff.mp hok
    split at hok
    · obtain ⟨t'', ht'', heq⟩ := bind_ok_iff.mp hok
      cases heq
      obtain ⟨hrows, rfl⟩ := setSpend_eq ht''
      refine ⟨fun hsame => ?_, fun hfalse => by cases hfalse⟩
      have hlength := congrArg (fun s : SpendTable => s.rows.length) (hsame.trans ht.symm)
      simp at hlength
    · cases hok
      exact ⟨fun _ => rfl, fun _ => ht⟩

/-- The rows have moved, and stay so. -/
theorem Draft.commit_moved (h : Draft t₀ (fun t => t.spend = t₀.spend ↔ true = false) w) :
    EscrowSigner.commit.Ends (Dropped R t₀)
      (fun _ w' => w'.db.working = none ∧ w'.tables.spend ≠ t₀.spend) w :=
  h.commit.mono (fun _ _ h => h) fun _ _ h' => ⟨h'.1, fun hs => by cases h'.2.mp hs⟩

theorem lawful_debit (x : Externals) (caps : Caps) (a : Request) :
    (debitParts x caps a).Lawful x where
  checks h := h.debitChecks
  body plan stamp {t₀ w} h := by
    refine (h.allocateAt (fun _ _ h => h) _ _ _).bind fun al w₁ h₁ => ?_
    split
    · refine (h₁.reviveRow _ _ _ fun _ => rfl).bind fun changed w₂ h₂ => ?_
      cases changed with
      | true => exact (h₂.takeNonce (fun _ _ h => h) _ _ _).bind fun _ _ h₃ => h₃.commit_moved
      | false => exact h₂.giveUp (.ledgerUnavailable _)
    · refine (h₁.insertRow _ _ fun _ _ he => debitGuard_error he).bind fun inserted w₂ h₂ => ?_
      cases inserted with
      | true =>
        exact (h₂.takeNonce (fun _ _ h => h) _ _ _).bind fun _ _ h₃ =>
          (h₃.write fun _ h => h).bind fun _ _ h₄ => h₄.commit_moved
      | false => exact h₂.giveUp (.race trivial)
  inner plan {K w} hK h := by
    dsimp only [debitParts]
    split
    · refine Under.bind (P := fun _ w' => Idle K w') ?_ fun _ _ h' => .pure h'
      refine (h.read _).bind fun row w₁ h₁ => ?_
      split
      · exact .raise (h₁.1.failed (not_regression_ledgerUnavailable _))
      · exact (h₁.1.audit hK _).bind fun _ _ h₂ => .pure h₂
    · exact .pure h
  outer c {K w} hK h := by
    cases c with
    | some row => exact .pure h
    | none =>
      refine (h.read _).bind fun row w₁ h₁ => ?_
      split
      · exact .pure h₁.1
      · exact .raise (h₁.1.failed (not_regression_ledgerUnavailable _))

theorem lawful_gasOnly (x : Externals) (caps : Caps) (b : GasOnlyRequest) :
    (gasOnlyParts x caps b).Lawful x where
  checks h := h.gasOnlyChecks
  body plan stamp {t₀ w} h := by
    refine (h.allocateAt (fun _ _ h => h) _ _ _).bind fun al w₁ h₁ => ?_
    refine Under.bind (P := fun _ w' => Draft t₀ (fun t => t.spend = t₀.spend ↔ true = false) w') ?_
      fun _ _ h₂ => (h₂.takeNonce (fun _ _ h => h) _ _ _).bind fun _ _ h₃ => h₃.commit_moved
    unfold placeGasOnly
    split
    · refine (h₁.reviveRow _ _ _ fun _ => rfl).bind fun changed w₂ h₂ => ?_
      cases changed with
      | true => exact .pure h₂
      | false => exact h₂.giveUp (.ledgerUnavailable _)
    · refine (h₁.insertRow _ _ fun _ _ he => gasOnlyGuard_error he).bind fun inserted w₂ h₂ => ?_
      cases inserted with
      | true => exact h₂.write fun _ h => h
      | false => exact h₂.giveUp (.race trivial)
  inner plan _ _ _ h := .pure h
  outer c {K w} hK h := by
    refine Under.bind (P := fun _ w' => Idle K w') ?_ fun row w₁ h₁ =>
      (h₁.audit hK _).bind fun _ _ h₂ => .pure h₂
    refine (h.read _).bind fun row w₁ h₁ => ?_
    split
    · exact .pure h₁.1
    · exact .raise (h₁.1.failed (not_regression_ledgerUnavailable _))

/-! ### Transitions -/

section Transitions

variable (hK : ∀ t, K t)

include hK

theorem Lasting.of_forall : Lasting x K := ⟨fun _ _ => hK _, fun _ _ _ => hK _, fun _ _ => hK _⟩

theorem Idle.setState (h : Idle K w) (row : SpendRow) (state : RowState) (u : RowUpdates) :
    (setState x row state u).Ends (Failed K) (fun _ w' => Idle K w') w := by
  refine Under.bind (P := fun _ w' => Idle K w') (h.update (fun e he => ?_)
    fun t w' _ hclosed _ => ⟨hclosed, hK _⟩) fun _ _ h₁ => h₁.audit (.of_forall hK) _
  rcases bind_error_iff.mp he with he | ⟨_, -, he⟩
  · exact (bindInts_error (R := False) he).not_regression
  · exact (setSpend_error (R := False) he).not_regression

theorem Idle.markSigned (h : Idle K w) (row : SpendRow) (txHash rawKeccak : String) :
    (markSigned x row txHash rawKeccak).Ends (Failed K) (fun _ w' => Idle K w') w := by
  refine (h.setState hK _ _ _).bind fun _ _ h₁ => (h₁.tick fun _ _ => hK _).bind
    fun _ _ h₂ => h₂.update (fun e he => ?_) fun t w' _ hclosed _ => ⟨hclosed, hK _⟩
  rcases bind_error_iff.mp he with he | ⟨_, -, he⟩
  · exact (bindInts_error (R := False) he).not_regression
  · cases he

omit hK in
theorem Idle.readUnsigned (h : Idle K w) (row : SpendRow) :
    (readUnsigned row).Ends (Failed K) (fun _ w' => Idle K w') w := by
  refine (h.read _).bind fun held w₁ h₁ => ?_
  split
  · split
    · exact (h₁.1.read _).bind fun _ _ h₂ => .pure h₂.1
    · exact .pure h₁.1
  · exact .pure h₁.1

theorem Idle.markDead (h : Idle K w) (row : SpendRow) (reason : String) :
    (markDead x row reason).Ends (Failed K) (fun _ w' => Idle K w') w := by
  refine (h.readUnsigned row).bind fun unsigned w₁ h₁ => (h₁.setState hK _ _ _).bind
    fun _ w₂ h₂ => ?_
  split
  · exact (h₂.read _).bind fun _ _ h₃ => h₃.1.write _ fun w' hclosed _ => ⟨hclosed, hK _⟩
  · exact .pure h₂

theorem Idle.setNextNonce (h : Idle K w) (chainId : Int) (fromAddr : String) (nonce : Int) :
    (setNextNonce chainId fromAddr nonce).Ends (Failed K) (fun _ w' => Idle K w') w := by
  refine (h.tick fun _ _ => hK _).bind fun _ _ h₁ =>
    h₁.update (fun e he => ?_) fun t w' _ hclosed _ => ⟨hclosed, hK _⟩
  rcases bind_error_iff.mp he with he | ⟨_, -, he⟩
  · exact (bindInts_error (R := False) he).not_regression
  · cases he

end Transitions

/-! ### What a failure leaves -/

/-- `reserve` up to and including its `COMMIT`. -/
abbrev debitToCommit (x : Externals) (caps : Caps) (a : Request) : Code Unit :=
  (debitParts x caps a).toCommit

/-- `reserve_gas_only` up to and including its `COMMIT`. -/
abbrev gasOnlyToCommit (x : Externals) (caps : Caps) (b : GasOnlyRequest) : Code Unit :=
  (gasOnlyParts x caps b).toCommit

/-- Nothing that a reservation writes has changed, and no transaction is open. -/
def Unchanged (w w' : World) : Prop := Untouched w.tables w'.tables ∧ w'.db.working = none

theorem Parts.Lawful.unchanged_iff {π γ α : Type} {p : Parts π γ α} {code : Code α}
    (hp : p.Lawful x) (hcode : code = p.whole) (hclosed : w.db.working = none)
    {script : List Choice} {e : Exn} (h : (code.run script w).1 = .raised e) :
    Unchanged w (code.run script w).2 ↔ (p.toCommit.run script w).1 ≠ .returned () := by
  subst hcode
  rw [run_eq_exec] at h ⊢
  have hexec : p.whole.exec script w =
      (.raised e, (p.whole.exec script w).2.1, (p.whole.exec script w).2.2) := Prod.ext h rfl
  obtain ⟨hopen, hiff⟩ := hp.atomic hclosed hexec
  exact ⟨fun hu => hiff.mp hu.1, fun hc => ⟨hiff.mpr hc, hopen⟩⟩

/-- A reservation that raises changes nothing exactly when it raises before its `COMMIT` took
effect. -/
theorem reservations_atomic (hclosed : w.db.working = none) (script : List Choice) (e : Exn) :
    (∀ caps a, ((reserve x caps a).run script w).1 = .raised e →
      (Unchanged w ((reserve x caps a).run script w).2 ↔
        ((debitToCommit x caps a).run script w).1 ≠ .returned ())) ∧
    ∀ caps b, ((reserveGasOnly x caps b).run script w).1 = .raised e →
      (Unchanged w ((reserveGasOnly x caps b).run script w).2 ↔
        ((gasOnlyToCommit x caps b).run script w).1 ≠ .returned ()) :=
  ⟨fun caps a h => (lawful_debit x caps a).unchanged_iff (reserve_eq x caps a) hclosed h,
    fun caps b h => (lawful_gasOnly x caps b).unchanged_iff (reserveGasOnly_eq x caps b) hclosed h⟩

/-- A script with an exception in place of one statement. -/
def failingAt (f : Fault) (n : Nat) : List Choice :=
  List.replicate n quiet ++ { quiet with fault := some f } :: List.replicate 20 quiet

/-- An error of the database. -/
def operationalError : Fault := ⟨"OperationalError", false, false⟩

/-- An exception that the handlers of the transaction do not name. -/
def runtimeError : Fault := ⟨"RuntimeError", false, true⟩

/-- The `INSERT` of a debit fails, or the code before it does. -/
theorem reservations_atomic_on_insert :
    Unchanged .initial
        ((reserve Sample.plain Sample.unlimited cent).run (failingAt operationalError 19) .initial).2 ∧
      Unchanged .initial
        ((reserve Sample.plain Sample.unlimited cent).run (failingAt runtimeError 19) .initial).2 :=
  ⟨((reservations_atomic rfl (failingAt operationalError 19)
      (.ledgerUnavailable "OperationalError")).1 Sample.unlimited cent (by decide +kernel)).mpr
        (by decide +kernel),
    ((reservations_atomic rfl (failingAt runtimeError 19) (.other "RuntimeError")).1
      Sample.unlimited cent (by decide +kernel)).mpr (by decide +kernel)⟩

/-- A ledger with one debit, which was released. -/
def released : World :=
  let w := (reserveCent 60 .initial).2
  (Operation.run Sample.plain (.markDead (cent.row Sample.plain 1 0 0 genesis) "")
    (List.replicate 20 quiet) w).2

/-- The read behind the commit of a revived debit fails, and the debit stays reserved. -/
theorem reservations_not_atomic :
    ∃ w script e, w.db.working = none ∧
      ((reserve Sample.plain Sample.unlimited cent).run script w).1 = .raised e ∧
      ¬ Unchanged w ((reserve Sample.plain Sample.unlimited cent).run script w).2 := by
  have hstates : released.tables.spend.rows.map (·.state) = [.dead] ∧
      ((reserve Sample.plain Sample.unlimited cent).run (failingAt operationalError 22)
        released).2.tables.spend.rows.map (·.state) = [.reserved] := by decide +kernel
  refine ⟨released, failingAt operationalError 22, .ledgerUnavailable "OperationalError", ?_,
    by decide +kernel,
    fun h => ?_⟩
  · have hclosed : released.db.working.isNone = true := by decide +kernel
    exact Option.isNone_iff_eq_none.mp hclosed
  · rw [h.1.spend, hstates.1] at hstates
    cases hstates.2

/-! ### What a clock that stepped back leaves -/

/-- The exception that the caller sees comes from a clock that stepped back. -/
def Regressed {α : Type} (p : Code α) (script : List Choice) (w : World) : Prop :=
  ∃ message, (p.run script w).1 = .raised (.clockRegression message)

/-- The ledger is halted in the committed database. -/
abbrev HaltedAfter {α : Type} (p : Code α) (script : List Choice) (w : World) : Prop :=
  (p.run script w).2.tables.clockGuard.halted = true

theorem halted_of_ends {α : Type} {p : Code α} {Q : α → World → Prop} {script : List Choice}
    (h : p.Ends (Failed K) Q w) (hr : Regressed p script w) : HaltedAfter p script w := by
  obtain ⟨message, hr⟩ := hr
  unfold HaltedAfter
  rw [run_eq_exec] at hr ⊢
  have hexec : p.exec script w =
      (.raised (.clockRegression message), (p.exec script w).2.1, (p.exec script w).2.2) :=
    Prod.ext hr rfl
  exact (h.raised hexec).halted ⟨message, rfl⟩

/-- The tick of the transaction of `reserve` finds the clock behind, after checks that passed. -/
abbrev DebitTripsInside (x : Externals) (caps : Caps) (a : Request) (script : List Choice)
    (w : World) : Prop := (debitParts x caps a).TripsInside script w

/-- The tick of the transaction of `reserve_gas_only` finds the clock behind, after checks that
passed. -/
abbrev GasOnlyTripsInside (x : Externals) (caps : Caps) (b : GasOnlyRequest)
    (script : List Choice) (w : World) : Prop := (gasOnlyParts x caps b).TripsInside script w

theorem Parts.Lawful.halted_iff {π γ α : Type} {p : Parts π γ α} {code : Code α}
    (hp : p.Lawful x) (hcode : code = p.whole) (hclosed : w.db.working = none)
    {script : List Choice} (hr : Regressed code script w) :
    HaltedAfter code script w ↔
      w.tables.clockGuard.halted = true ∨ ¬ p.TripsInside script w := by
  subst hcode
  obtain ⟨message, hr⟩ := hr
  unfold HaltedAfter
  rw [run_eq_exec] at hr ⊢
  have hexec : p.whole.exec script w = (.raised (.clockRegression message),
      (p.whole.exec script w).2.1, (p.whole.exec script w).2.2) := Prod.ext hr rfl
  exact hp.halts hclosed hexec ⟨message, rfl⟩

/-- An operation that finds the clock behind leaves the ledger halted, except for a reservation on a
ledger that was not halted, when the tick of its transaction finds it. -/
theorem regression_halts (hclosed : w.db.working = none) (script : List Choice) :
    (∀ f, Regressed (audit x f) script w → HaltedAfter (audit x f) script w) ∧
    (∀ row txHash rawKeccak, Regressed (markSigned x row txHash rawKeccak) script w →
      HaltedAfter (markSigned x row txHash rawKeccak) script w) ∧
    (∀ row reason, Regressed (markDead x row reason) script w →
      HaltedAfter (markDead x row reason) script w) ∧
    (∀ chainId fromAddr nonce, Regressed (setNextNonce chainId fromAddr nonce) script w →
      HaltedAfter (setNextNonce chainId fromAddr nonce) script w) ∧
    (∀ caps a, Regressed (reserve x caps a) script w →
      (HaltedAfter (reserve x caps a) script w ↔
        w.tables.clockGuard.halted = true ∨ ¬ DebitTripsInside x caps a script w)) ∧
    ∀ caps b, Regressed (reserveGasOnly x caps b) script w →
      (HaltedAfter (reserveGasOnly x caps b) script w ↔
        w.tables.clockGuard.halted = true ∨ ¬ GasOnlyTripsInside x caps b script w) := by
  have hidle : Idle (fun _ => True) w := ⟨hclosed, trivial⟩
  have hK : ∀ _ : Tables, True := fun _ => trivial
  refine ⟨fun f => halted_of_ends (hidle.audit (.of_forall hK) f),
    fun row txHash rawKeccak => halted_of_ends (hidle.markSigned hK row txHash rawKeccak),
    fun row reason => halted_of_ends (hidle.markDead hK row reason),
    fun chainId fromAddr nonce => halted_of_ends (hidle.setNextNonce hK chainId fromAddr nonce),
    fun caps a => ?_, fun caps b => ?_⟩
  · exact (lawful_debit x caps a).halted_iff (reserve_eq x caps a) hclosed
  · exact (lawful_gasOnly x caps b).halted_iff (reserveGasOnly_eq x caps b) hclosed

/-- A choice at a second of the clock. -/
def quietAt (second : Nat) : Choice := { quiet with now := second * 1000000000 }

/-- A ledger whose guard has seen the clock at 100 seconds. -/
def seenHundred : World :=
  (Operation.run Sample.plain .tick (List.replicate 3 (quietAt 100)) .initial).2

theorem regression_halts_audit :
    HaltedAfter (audit Sample.plain ⟨"", "", 0, "", none, none, none, none, none, "", ""⟩)
      (List.replicate 20 (quietAt 50)) seenHundred :=
  (regression_halts (Option.isNone_iff_eq_none.mp (by decide +kernel))
    (List.replicate 20 (quietAt 50))).1 _ ⟨"wall clock is 50s behind the ledger", by decide +kernel⟩

/-- The clock steps back between the checks of a reservation and the tick of its transaction, and the
halt is rolled back. -/
theorem regression_not_halts :
    ∃ w script, w.db.working = none ∧
      Regressed (reserve Sample.plain Sample.unlimited cent) script w ∧
      ¬ HaltedAfter (reserve Sample.plain Sample.unlimited cent) script w := by
  refine ⟨seenHundred, List.replicate 13 (quietAt 100) ++ List.replicate 20 (quietAt 50),
    Option.isNone_iff_eq_none.mp (by decide +kernel),
    ⟨"wall clock is 50s behind the ledger", by decide +kernel⟩, by decide +kernel⟩

end EscrowSigner.Integrity
