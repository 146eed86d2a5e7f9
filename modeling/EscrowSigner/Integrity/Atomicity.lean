import EscrowSigner.Integrity.Failure

/-! When a reservation that raises changes nothing, and when a clock that stepped back halts the
ledger.  Both reservations run checks, a transaction that opens with a tick, and then code behind the
commit, of which some still stands under the handlers of the transaction. -/

namespace EscrowSigner.Integrity

open Ledger Process

/-! ### The parts of a reservation -/

/-- The statements that open the transaction of a reservation. -/
def opening : Code (Int × Int) := do
  beginImmediate
  tick

/-- A reservation in parts: the checks, the transaction behind its tick up to the commit, what
follows the commit under the handlers, and what follows the handlers. -/
structure Parts (π γ α : Type) where
  checks : Code π
  body : π → Int × Int → Code Unit
  inner : π → Code γ
  outer : γ → Code α

namespace Parts

variable {π γ α : Type} (p : Parts π γ α)

/-- The reservation. -/
def whole : Code α :=
  rollbackOnError do
    let a ← p.checks
    let c ← guardTransaction ((opening >>= p.body a) >>= fun _ => p.inner a)
    p.outer c

/-- The reservation up to its `COMMIT`. -/
def toCommit : Code Unit := do
  let a ← p.checks
  opening >>= p.body a

/-- The reservation up to the tick of its transaction. -/
def toTick : Code (Int × Int) := do
  let _ ← p.checks
  opening

end Parts

/-- What `allocate` does behind the tick. -/
def allocateAt (chainId : Int) (fromAddr : String) (stamp : Int × Int) : Code Allocation := do
  update fun t => .ok (t.insertAlloc ⟨chainId, fromAddr, 0, stamp.1⟩)
  let accountNonce ← select fun t =>
    match t.allocOf chainId fromAddr with
    | some entry => .ok entry.nextNonce
    | none => .error (.other "TypeError")
  let head ← select fun t => .ok t.spendHead
  return ⟨stamp.1, stamp.2, accountNonce, head⟩

theorem allocate_eq (chainId : Int) (fromAddr : String) :
    allocate chainId fromAddr = opening >>= allocateAt chainId fromAddr := by
  simp only [allocate, opening, bind_eq, Process.bind_assoc]
  rfl

variable (x : Externals) (caps : Caps) (a : Request) (b : GasOnlyRequest)

/-- `reserve` up to its transaction: the cuts of the windows, and whether a dead row is revived. -/
def debitChecks : Code (Cuts × Bool) :=
  if a.amountUnits ≤ 0 then throwExn .valueError
  else do
    assertClockSane
    let instant ← now
    let checks ← windowChecks x caps a (Cuts.at instant)
    runChecks checks
    checkDistinctChannels caps a (Cuts.at instant)
    let existing ← get a.key
    let revive ← reviveOf existing "receipt"
    return (Cuts.at instant, revive)

/-- The transaction that revives a debit, up to its `COMMIT`. -/
def reviveToCommit (al : Allocation) : Code Unit := do
  let changed ← reviveRow [al.accountNonce, a.gasLimit, a.hubGasHint, a.maxFeeWei, a.chainId,
    a.amountUnits] a.key a.amountUnits (a.revived al.seq al.ts al.accountNonce)
  if changed then
    takeNonce a.chainId a.fromAddr al.seq
    commit
  else giveUp (.ledgerUnavailable "the dead row changed under us, or its amount does not match")

/-- What follows the commit of a revived debit. -/
def reviveAfter : Code SpendRow := do
  match ← get a.key with
  | none => throwExn (.ledgerUnavailable "row vanished after revive")
  | some revived => do
    audit x
      { kind := "transition"
        decision := "reserved"
        httpStatus := 0
        reasonCode := "revived after a released attempt"
        chainId := some a.chainId
        escrow := some a.escrow
        receiptId := some a.receiptId
        channelId := some a.channelId
        amountUnits := some a.amountUnits
        digest16 := ""
        txHash := "" }
    return revived

theorem reviveDebit_eq (al : Allocation) :
    reviveDebit x a al = reviveToCommit a al >>= fun _ => reviveAfter x a := by
  simp only [reviveDebit, reviveToCommit, bind_eq, Process.bind_assoc]
  refine congrArg _ (funext fun changed => ?_)
  cases changed with
  | true =>
    simp only [if_true, Process.bind_assoc]
    rfl
  | false =>
    simp only [Bool.false_eq_true, if_false, giveUp, bind_eq, Process.bind_assoc]
    rfl

/-- `reserve` in parts. -/
def debitParts : Parts (Cuts × Bool) (Option SpendRow) SpendRow where
  checks := debitChecks x caps a
  body plan stamp := do
    let al ← allocateAt a.chainId a.fromAddr stamp
    if plan.2 then reviveToCommit a al else insertDebit x caps a plan.1 al
  inner plan :=
    if plan.2 then do
      let row ← reviveAfter x a
      return some row
    else return none
  outer
    | some row => return row
    | none => committedRow a.key

theorem reserveTransaction_eq (cuts : Cuts) (revive : Bool) :
    reserveTransaction x caps a cuts revive =
      (opening >>= (debitParts x caps a).body (cuts, revive)) >>=
        fun _ => (debitParts x caps a).inner (cuts, revive) := by
  unfold reserveTransaction debitParts
  rw [allocate_eq]
  simp only [bind_eq, Process.bind_assoc]
  refine congrArg _ (funext fun stamp => congrArg _ (funext fun al => ?_))
  cases revive with
  | true =>
    simp only [if_true, reviveDebit_eq, bind_eq, Process.bind_assoc]
  | false => rfl

theorem reserve_eq : reserve x caps a = (debitParts x caps a).whole := by
  refine congrArg rollbackOnError ?_
  show reserveUnlocked x caps a = debitChecks x caps a >>= fun plan =>
    guardTransaction ((opening >>= (debitParts x caps a).body plan) >>=
      fun _ => (debitParts x caps a).inner plan) >>= (debitParts x caps a).outer
  unfold reserveUnlocked debitChecks
  split
  · rfl
  · simp only [bind_eq, Process.bind_assoc, reserveTransaction_eq]
    rfl

/-- `reserve_gas_only` up to its transaction: the cut of the day, and whether a dead row is
revived. -/
def gasOnlyChecks : Code (Int × Bool) := do
  assertClockSane
  let instant ← now
  checkGasOnlyCount b (instant - 86400)
  checkGasOnlyFee x caps b (instant - 86400)
  let existing ← get b.request.key
  let revive ← reviveOf existing "key"
  return (instant - 86400, revive)

/-- `reserve_gas_only` in parts. -/
def gasOnlyParts : Parts (Int × Bool) Unit SpendRow where
  checks := gasOnlyChecks x caps b
  body plan stamp := do
    let al ← allocateAt b.chainId b.fromAddr stamp
    placeGasOnly x b plan.1 plan.2 al
    takeNonce b.chainId b.fromAddr al.seq
    commit
  inner _ := return ()
  outer _ := do
    let row ← committedRow b.request.key
    audit x
      { kind := "transition"
        decision := "reserved"
        httpStatus := 0
        reasonCode := "gas-only call reserved"
        chainId := some b.chainId
        escrow := some b.escrow
        receiptId := some b.receiptId
        channelId := some b.channelId
        amountUnits := some 0
        digest16 := ""
        txHash := "" }
    return row

theorem gasOnlyTransaction_eq (cut : Int) (revive : Bool) :
    gasOnlyTransaction x b cut revive =
      (opening >>= (gasOnlyParts x caps b).body (cut, revive)) >>=
        fun _ => (gasOnlyParts x caps b).inner (cut, revive) := by
  unfold gasOnlyTransaction gasOnlyParts
  rw [allocate_eq]
  simp only [bind_eq, Process.bind_assoc]
  refine congrArg _ (funext fun stamp => congrArg _ (funext fun al => congrArg _ (funext fun _ =>
    congrArg _ (funext fun _ => (Process.bind_ret commit).symm))))

theorem reserveGasOnly_eq : reserveGasOnly x caps b = (gasOnlyParts x caps b).whole := by
  refine congrArg rollbackOnError ?_
  show reserveGasOnlyUnlocked x caps b = gasOnlyChecks x caps b >>= fun plan =>
    guardTransaction ((opening >>= (gasOnlyParts x caps b).body plan) >>=
      fun _ => (gasOnlyParts x caps b).inner plan) >>= (gasOnlyParts x caps b).outer
  unfold reserveGasOnlyUnlocked gasOnlyChecks
  simp only [bind_eq, Process.bind_assoc, gasOnlyTransaction_eq x caps]
  rfl

/-! ### Handlers -/

section Handlers

variable {x : Externals} {α : Type} {K : Tables → Prop} {w w' : World} {e : Exn}

/-- What `guardTransaction` does with the result of its body. -/
def guardHandlers : Except Exn α → Code α
  | .ok a => return a
  | .error (.sqlite name) => do
    let _ ← rollback.attempt
    throwExn (.ledgerUnavailable name)
  | .error (.clockRegression message) => do
    let _ ← rollback.attempt
    throwExn (.clockRegression message)
  | .error e => throwExn e

/-- What `rollbackOnError` does with the result of its body. -/
def rollbackHandlers : Except Exn α → Code α
  | .ok a => return a
  | .error e => do
    if (← inTransaction) then
      let _ ← rollback.attempt
      throwExn e
    else throwExn e

theorem guardTransaction_eq (body : Code α) :
    guardTransaction body = body.attempt >>= guardHandlers := by
  unfold guardTransaction
  refine congrArg _ (funext fun r => ?_)
  cases r with
  | ok a => rfl
  | error e => cases e <;> rfl

theorem rollbackOnError_eq (body : Code α) :
    rollbackOnError body = body.attempt >>= rollbackHandlers := by
  unfold rollbackOnError
  refine congrArg _ (funext fun r => ?_)
  cases r <;> rfl

/-- A rollback leaves no transaction and the committed tables. -/
theorem ends_rollback (w : World) :
    rollback.attempt.Ends (fun (_ : Exn) _ => False)
      (fun _ w' => w'.db.working = none ∧ w'.tables = w.tables) w := by
  refine Under.mono (Under.attempt (E := fun _ w' => w'.db.working = none ∧ w'.tables = w.tables)
    (P := fun _ w' => w'.db.working = none ∧ w'.tables = w.tables) (.atomic fun c _ => ?_))
    (fun _ _ h => h) fun r _ h => ?_
  · cases hopen : w.db.working with
    | some t =>
      have hopen' : (w.advance c).db.working = some t := hopen
      simp only [hopen']
      exact ⟨trivial, rfl⟩
    | none =>
      have hopen' : (w.advance c).db.working = none := hopen
      simp only [hopen']
      exact ⟨trivial, rfl⟩
  · cases r <;> exact h

/-- The handlers of a transaction leave the committed tables, and pass on a clock regression. -/
theorem ends_guardHandlers (w : World) (e : Exn) :
    (guardHandlers (.error e) : Code α).Ends
      (fun e' w' => w'.tables = w.tables ∧ (w.db.working = none → w'.db.working = none) ∧
        (Regression e' → Regression e)) (fun _ _ => False) w := by
  have hthrow : ∀ e', (Regression e' → Regression e) →
      (do let _ ← rollback.attempt; throwExn e' : Code α).Ends
        (fun e' w' => w'.tables = w.tables ∧ (w.db.working = none → w'.db.working = none) ∧
          (Regression e' → Regression e)) (fun _ _ => False) w := fun e' he =>
    ((ends_rollback w).mono (fun _ _ h => h.elim) fun _ _ h => h).bind fun _ _ h =>
      .raise ⟨h.2, fun _ => h.1, he⟩
  cases e with
  | sqlite name => exact hthrow _ fun ⟨_, h⟩ => (by cases h)
  | clockRegression message => exact hthrow _ fun _ => ⟨_, rfl⟩
  | capBreach | ledgerUnavailable | chainUnverified | reverted | rpcUnavailable | calldata | other =>
    exact .raise ⟨rfl, id, id⟩

/-- The last handlers leave no transaction open and the committed tables, and pass the exception
on. -/
theorem ends_rollbackHandlers (w : World) (e : Exn) :
    (rollbackHandlers (.error e) : Code α).Ends
      (fun e' w' => w'.tables = w.tables ∧ w'.db.working = none ∧ e' = e) (fun _ _ => False) w := by
  refine Under.bind (P := fun opened w' => w'.db = w.db ∧ opened = w'.db.working.isSome)
    (.atomic fun _ _ => ⟨rfl, rfl⟩) fun opened w₁ h₁ => ?_
  obtain ⟨hdb, hopened⟩ := h₁
  have htables : w₁.tables = w.tables := congrArg Db.committed hdb
  split
  · exact ((ends_rollback w₁).mono (fun _ _ h => h.elim) fun _ _ h => h).bind fun _ _ h =>
      .raise ⟨h.2.trans htables, h.1, rfl⟩
  · rename_i hclosed
    refine .raise ⟨htables, ?_, rfl⟩
    cases hw : w₁.db.working with
    | none => rfl
    | some t => exact absurd (by rw [hopened, hw]; rfl) hclosed

end Handlers

/-! ### How a reservation raises -/

theorem exec_rollbackOnError {α : Type} (body : Code α) (script : List Choice) (w : World) :
    (rollbackOnError body).exec script w =
      match body.exec script w with
      | (.returned a, w', rest) => (.returned a, w', rest)
      | (.raised e, w', rest) => (rollbackHandlers (.error e) : Code α).exec rest w'
      | (.stopped, w', rest) => (.stopped, w', rest) := by
  rw [rollbackOnError_eq, bind_eq, exec_bind, exec_attempt]
  cases body.exec script w with
  | mk o r => cases o <;> rfl

/-- Inside a transaction that began at the committed tables `t₀`. -/
structure Draft (t₀ : Tables) (F : Tables → Prop) (w : World) : Prop where
  committed : w.tables = t₀
  opened : ∃ t, w.db.working = some t ∧ F t

/-- An exception inside a transaction that is not about the clock. -/
structure Dropped (R : Prop) (t₀ : Tables) (e : Exn) (w : World) : Prop where
  committed : w.tables = t₀
  kind : Ordinary R e

namespace Draft

variable {α : Type} {R : Prop} {t₀ : Tables} {F G : Tables → Prop} {w : World}

theorem sql {G : α → Tables → Prop} {f : Tables → Except Exn (Tables × α)} (h : Draft t₀ F w)
    (herr : ∀ t e, F t → f t = .error e → Ordinary R e)
    (hok : ∀ t t' a, F t → f t = .ok (t', a) → G a t') :
    (sql f).Ends (Dropped R t₀) (fun a w' => Draft t₀ (G a) w') w := by
  obtain ⟨ht₀, t, hopen, hF⟩ := h
  have hview : ∀ c, (w.advance c).view = t := fun c => by
    simp [World.view, World.advance, Db.view, hopen]
  refine .atomic fun c _ => ?_
  unfold statement
  cases c.fault with
  | some fault => exact ⟨(Regime.World.fail_tables _ _).trans ht₀, .fault fault⟩
  | none =>
    dsimp only
    rw [hview]
    cases hf : f t with
    | error e => exact ⟨ht₀, herr t e hF hf⟩
    | ok r =>
      refine ⟨?_, r.1, ?_, hok t r.1 r.2 hF hf⟩
      · simpa [World.write, World.advance, Db.write, hopen, World.tables] using ht₀
      · simp [World.write, World.advance, Db.write, hopen]

theorem select {f : Tables → Except Exn α} (h : Draft t₀ F w)
    (herr : ∀ t e, f t = .error e → Ordinary R e) :
    (select f).Ends (Dropped R t₀) (fun _ w' => Draft t₀ F w') w := by
  refine (h.sql (G := fun _ => F) (fun t e _ he => ?_) fun t t' a hF ha => ?_)
  · rcases bind_error_iff.mp he with he | ⟨a, -, he⟩
    · exact herr t e he
    · cases he
  · obtain ⟨a', -, heq⟩ := bind_ok_iff.mp ha
    cases heq
    exact hF

/-- An update that does not fail by itself. -/
theorem write {g : Tables → Tables} (h : Draft t₀ F w) (hG : ∀ t, F t → G (g t)) :
    (update fun t => .ok (g t)).Ends (Dropped R t₀) (fun _ w' => Draft t₀ G w') w := by
  refine (h.sql (G := fun _ => G) (fun t e _ he => ?_) fun t t' a hF ha => ?_)
  · cases he
  · cases ha
    exact hG t hF

theorem now (h : Draft t₀ F w) : now.Ends (Dropped R t₀) (fun _ w' => Draft t₀ F w') w :=
  Under.bind (P := fun _ w' => Draft t₀ F w') (.atomic fun _ _ => ⟨h.committed, h.opened⟩)
    fun _ _ h' => .pure h'

theorem commit (h : Draft t₀ F w) :
    commit.Ends (Dropped R t₀) (fun _ w' => w'.db.working = none ∧ F w'.tables) w := by
  obtain ⟨ht₀, t, hopen, hF⟩ := h
  refine .atomic fun c _ => ?_
  have hopen' : (w.advance c).db.working = some t := hopen
  simp only [hopen']
  cases c.fault with
  | some fault => exact ⟨(Regime.World.fail_tables _ _).trans ht₀, .fault fault⟩
  | none => exact ⟨rfl, hF⟩

theorem giveUp {Q : α → World → Prop} (h : Draft t₀ F w) {e : Exn} (he : Ordinary R e) :
    (giveUp e).Ends (Dropped R t₀) Q w := by
  obtain ⟨ht₀, t, hopen, hF⟩ := h
  refine Under.bind (P := fun _ w' => w'.tables = t₀) (.atomic fun c _ => ?_) fun _ _ h' =>
    .raise ⟨h', he⟩
  have hopen' : (w.advance c).db.working = some t := hopen
  simp only [hopen']
  exact ht₀

/-- The tick of a transaction leaves the rows; it may find the clock behind. -/
theorem tick (h : Draft t₀ (fun t => t.spend = t₀.spend) w) :
    tick.Ends (fun _ w' => w'.tables = t₀) (fun _ w' => Draft t₀ (fun t => t.spend = t₀.spend) w')
      w := by
  have weaken : ∀ {β : Type} {p : Code β} {Q : β → World → Prop} {w : World},
      p.Ends (Dropped False t₀) Q w → p.Ends (fun _ w' => w'.tables = t₀) Q w := fun hp =>
    hp.mono (fun _ _ h => h.committed) fun _ _ h => h
  refine (weaken (h.select fun t e he => (by cases he))).bind fun row w₁ h₁ => ?_
  refine (weaken h₁.now).bind fun wall w₂ h₂ => ?_
  refine Under.bind (P := fun _ w' => w' = w₂) ?_ fun _ w₃ heq => ?_
  · unfold Ledger.refuseRegression
    split
    · exact (weaken (h₂.write (G := fun _ => True) fun _ _ => trivial)).bind fun _ _ h' =>
        .raise h'.committed
    · exact .pure rfl
  · subst heq
    exact (weaken (h₂.write fun _ ht => ht)).bind fun _ _ h₄ => .pure h₄

end Draft

theorem Idle.opening {K : Tables → Prop} {w : World} (h : Idle K w) :
    opening.Ends (fun _ w' => w'.tables = w.tables)
      (fun _ w' => Draft w.tables (fun t => t.spend = w.tables.spend) w') w := by
  refine Under.bind (P := fun _ w' => Draft w.tables (fun t => t.spend = w.tables.spend) w')
    (.atomic fun c _ => ?_) fun _ _ h₁ => h₁.tick
  have hclosed : (w.advance c).db.working = none := h.closed
  simp only [hclosed]
  cases c.fault with
  | some fault => exact Regime.World.fail_tables _ _
  | none => exact ⟨rfl, w.tables, rfl, rfl⟩

namespace Parts

variable {x : Externals} {π γ α : Type} {p : Parts π γ α} {w w' : World} {e : Exn}
  {script rest : List Choice}

/-- What the parts of a reservation do. -/
structure Lawful (x : Externals) (p : Parts π γ α) : Prop where
  checks : ∀ {K w}, Idle K w → p.checks.Ends (Failed K) (fun _ w' => Idle K w') w
  body : ∀ plan stamp {t₀ w}, Draft t₀ (fun t => t.spend = t₀.spend) w →
    (p.body plan stamp).Ends (Dropped True t₀)
      (fun _ w' => w'.db.working = none ∧ w'.tables.spend ≠ t₀.spend) w
  inner : ∀ plan {K w}, Lasting x K → Idle K w →
    (p.inner plan).Ends (Failed K) (fun _ w' => Idle K w') w
  outer : ∀ c {K w}, Lasting x K → Idle K w →
    (p.outer c).Ends (Failed K) (fun _ w' => Idle K w') w

/-- Where the exception of a reservation comes from: the checks, the transaction up to its commit, or
what follows the commit. -/
inductive Raised (x : Externals) (p : Parts π γ α) (script : List Choice) (w : World) (e : Exn)
    (w' : World) : Prop
  | checks {w₁ : World} {rest : List Choice} (h : p.checks.exec script w = (.raised e, w₁, rest))
      (ht : w'.tables = w₁.tables)
  | transaction {plan : π} {e₂ : Exn} {w₁ w₂ : World} {r₁ r₂ : List Choice}
      (hchecks : p.checks.exec script w = (.returned plan, w₁, r₁))
      (h : (opening >>= p.body plan).exec r₁ w₁ = (.raised e₂, w₂, r₂))
      (ht : w'.tables = w₂.tables) (he : Regression e → Regression e₂)
  | behind {plan : π} {w₁ w₂ : World} {r₁ r₂ : List Choice}
      (hchecks : p.checks.exec script w = (.returned plan, w₁, r₁))
      (h : (opening >>= p.body plan).exec r₁ w₁ = (.returned (), w₂, r₂))
      (hafter : ∀ K, Lasting x K → Idle K w₂ →
        (∃ t, K t ∧ Untouched t w'.tables) ∧ (Regression e → w'.tables.clockGuard.halted = true))

/-- What follows the commit of a reservation, under the handlers and behind them. -/
def after (p : Parts π γ α) (plan : π) : Code α := do
  let r ← (p.inner plan).attempt
  let c ← guardHandlers r
  p.outer c

theorem guardTransaction_bind (plan : π) :
    (guardTransaction ((opening >>= p.body plan) >>= fun _ => p.inner plan) >>= p.outer) =
      (opening >>= p.body plan).attempt >>= fun r => match r with
        | .ok _ => p.after plan
        | .error e => guardHandlers (.error e) >>= p.outer := by
  rw [guardTransaction_eq, bind_eq, bind_eq, bind_eq _ fun _ => p.inner plan, attempt_bind,
    Process.bind_assoc, Process.bind_assoc]
  refine congrArg _ (funext fun r => ?_)
  cases r <;> rfl

theorem Lawful.ends_after (hp : p.Lawful x) {K : Tables → Prop} (hK : Lasting x K) (h : Idle K w)
    (plan : π) : (p.after plan).Ends (Failed K) (fun _ w' => Idle K w') w := by
  refine Under.bind (E := Failed K) (hp.inner plan hK h).attempt fun r w₁ h₁ => ?_
  cases r with
  | ok c => exact hp.outer c hK h₁
  | error e =>
    refine Under.bind ((ends_guardHandlers w₁ e).mono (fun e' w' h' => ?_) fun _ _ h' => h')
      fun _ _ h' => h'.elim
    obtain ⟨htables, hclosed, hr⟩ := h'
    exact ⟨hclosed h₁.closed, htables ▸ h₁.kept, fun he => htables ▸ h₁.halted (hr he)⟩

/-- A reservation is its checks, its transaction up to the `COMMIT`, and what follows either end of
that. -/
theorem exec_whole : p.whole.exec script w =
    match p.checks.exec script w with
    | (.returned plan, w₁, r₁) =>
      match (opening >>= p.body plan).exec r₁ w₁ with
      | (.returned _, w₂, r₂) => (rollbackOnError (p.after plan)).exec r₂ w₂
      | (.raised e, w₂, r₂) => (rollbackOnError (guardHandlers (.error e) >>= p.outer)).exec r₂ w₂
      | (.stopped, w₂, r₂) => (.stopped, w₂, r₂)
    | (.raised e, w₁, r₁) => (rollbackHandlers (.error e) : Code α).exec r₁ w₁
    | (.stopped, w₁, r₁) => (.stopped, w₁, r₁) := by
  unfold whole
  rw [exec_rollbackOnError, bind_eq, exec_bind]
  cases p.checks.exec script w with
  | mk o r =>
    cases o with
    | stopped => rfl
    | raised e => rfl
    | returned plan =>
      dsimp only
      rw [guardTransaction_bind, bind_eq, exec_bind, exec_attempt]
      cases (opening >>= p.body plan).exec r.2 r.1 with
      | mk o r =>
        cases o with
        | stopped => rfl
        | raised e => exact (exec_rollbackOnError _ _ _).symm
        | returned u => exact (exec_rollbackOnError _ _ _).symm

/-- A transaction that raised is rolled back, and the reservation raises. -/
theorem ends_unwinding (w : World) (e : Exn) :
    (rollbackOnError (guardHandlers (.error e) >>= p.outer)).Ends
      (fun e' w' => w'.tables = w.tables ∧ w'.db.working = none ∧ (Regression e' → Regression e))
      (fun _ _ => False) w := by
  rw [rollbackOnError_eq]
  refine Under.bind (Under.attempt ((ends_guardHandlers w e).bind (R := fun _ _ => False)
    fun _ _ h => h.elim)) fun r w₁ h₁ => ?_
  cases r with
  | ok a => exact h₁.elim
  | error e₁ =>
    obtain ⟨ht₁, -, he₁⟩ := h₁
    refine (ends_rollbackHandlers w₁ e₁).mono (fun e' w' h' => ?_) fun _ _ h' => h'
    obtain ⟨ht, hclosed, rfl⟩ := h'
    exact ⟨ht.trans ht₁, hclosed, he₁⟩

theorem Lawful.raised (hp : p.Lawful x) (h : p.whole.exec script w = (.raised e, w', rest)) :
    w'.db.working = none ∧ p.Raised x script w e w' := by
  rw [exec_whole] at h
  cases hc : p.checks.exec script w with
  | mk o r =>
    obtain ⟨w₁, r₁⟩ := r
    rw [hc] at h
    cases o with
    | stopped => cases h
    | raised e₁ =>
      obtain ⟨ht, hclosed, rfl⟩ := (ends_rollbackHandlers w₁ e₁).raised h
      exact ⟨hclosed, .checks hc ht⟩
    | returned plan =>
      dsimp only at h
      cases hb : (opening >>= p.body plan).exec r₁ w₁ with
      | mk o r =>
        obtain ⟨w₂, r₂⟩ := r
        rw [hb] at h
        cases o with
        | stopped => cases h
        | raised e₂ =>
          obtain ⟨ht, hclosed, he⟩ := (ends_unwinding w₂ e₂).raised h
          exact ⟨hclosed, .transaction hc hb ht he⟩
        | returned u =>
          dsimp only at h
          rw [exec_rollbackOnError] at h
          cases ha : (p.after plan).exec r₂ w₂ with
          | mk o r =>
            obtain ⟨w₃, r₃⟩ := r
            rw [ha] at h
            cases o with
            | stopped => cases h
            | returned c => cases h
            | raised e₃ =>
              obtain ⟨ht, hclosed, rfl⟩ := (ends_rollbackHandlers w₃ e₃).raised h
              refine ⟨hclosed, .behind hc hb fun K hK hidle => ?_⟩
              have hfailed := (hp.ends_after hK hidle plan).raised ha
              exact ⟨ht ▸ hfailed.kept, ht ▸ hfailed.halted⟩

/-- A reservation that returns has run to the end of its `COMMIT`. -/
theorem committed_of_returned {r : α} (h : p.whole.exec script w = (.returned r, w', rest)) :
    (p.toCommit.exec script w).1 = .returned () := by
  rw [exec_whole] at h
  rw [toCommit, bind_eq, exec_bind]
  cases hc : p.checks.exec script w with
  | mk o s =>
    obtain ⟨w₁, r₁⟩ := s
    rw [hc] at h
    cases o with
    | stopped => cases h
    | raised e₁ => exact ((ends_rollbackHandlers w₁ e₁).returned h).elim
    | returned plan =>
      dsimp only at h ⊢
      cases hb : (opening >>= p.body plan).exec r₁ w₁ with
      | mk o s =>
        obtain ⟨w₂, r₂⟩ := s
        rw [hb] at h
        cases o with
        | stopped => cases h
        | raised e₂ => exact ((ends_unwinding w₂ e₂).returned h).elim
        | returned u => rfl

/-- A transaction that raises leaves the committed tables; one that ends has moved the rows. -/
theorem Lawful.transaction (hp : p.Lawful x) {K : Tables → Prop} (h : Idle K w) (plan : π) :
    (opening >>= p.body plan).Ends (fun _ w' => w'.tables = w.tables)
      (fun _ w' => w'.db.working = none ∧ w'.tables.spend ≠ w.tables.spend) w :=
  h.opening.bind fun stamp _ h₁ =>
    (hp.body plan stamp h₁).mono (fun _ _ h => h.committed) fun _ _ h => h

/-- A reservation that raises changes nothing exactly when it raises before its `COMMIT` took
effect. -/
theorem Lawful.atomic (hp : p.Lawful x) (hclosed : w.db.working = none)
    (h : p.whole.exec script w = (.raised e, w', rest)) :
    w'.db.working = none ∧
      (Untouched w.tables w'.tables ↔ (p.toCommit.run script w).1 ≠ .returned ()) := by
  have hidle : Idle (Untouched w.tables) w := ⟨hclosed, .refl _⟩
  obtain ⟨hclosed', hraised⟩ := hp.raised h
  refine ⟨hclosed', ?_⟩
  rw [run_eq_exec, toCommit, bind_eq, exec_bind]
  cases hraised with
  | checks h ht =>
    rw [h]
    obtain ⟨t, hk, hu⟩ := ((hp.checks hidle).raised h).kept
    exact ⟨fun _ hr => (by cases hr), fun _ => ht ▸ hk.trans hu⟩
  | transaction hchecks h ht he =>
    rw [hchecks]
    dsimp only
    rw [h]
    have hk := (hp.checks hidle).returned hchecks
    refine ⟨fun _ hr => (by cases hr), fun _ => ?_⟩
    rw [ht, (hp.transaction hk _).raised h]
    exact hk.kept
  | behind hchecks h hafter =>
    rw [hchecks]
    dsimp only
    rw [h]
    have hk := (hp.checks hidle).returned hchecks
    obtain ⟨hclosed₂, hmoved⟩ := (hp.transaction hk _).returned h
    -- what follows the commit leaves the rows that it committed
    obtain ⟨⟨t, hspend, hu⟩, -⟩ := hafter (fun t => t.spend = _)
      ⟨fun _ h => h, fun _ _ h => h, fun _ h => h⟩ ⟨hclosed₂, rfl⟩
    refine ⟨fun hsame => absurd ?_ hmoved, fun hr => absurd rfl hr⟩
    rw [← hspend, ← hu.spend, hsame.spend, hk.kept.spend]

/-- The tick of the transaction finds the clock behind, after checks that passed. -/
def TripsInside (p : Parts π γ α) (script : List Choice) (w : World) : Prop :=
  (∃ plan, (p.checks.run script w).1 = .returned plan) ∧
    ∃ message, (p.toTick.run script w).1 = .raised (.clockRegression message)

/-- A reservation that finds the clock behind leaves the ledger halted exactly when it was before, or
when it was not the tick of its transaction that found it. -/
theorem Lawful.halts (hp : p.Lawful x) (hclosed : w.db.working = none)
    (h : p.whole.exec script w = (.raised e, w', rest)) (he : Regression e) :
    w'.tables.clockGuard.halted = true ↔
      w.tables.clockGuard.halted = true ∨ ¬ p.TripsInside script w := by
  let K : Tables → Prop := fun t => t.clockGuard.halted = w.tables.clockGuard.halted
  have hidle : Idle K w := ⟨hclosed, rfl⟩
  obtain ⟨-, hraised⟩ := hp.raised h
  unfold TripsInside
  rw [run_eq_exec, run_eq_exec, toTick, bind_eq, exec_bind]
  cases hraised with
  | checks h ht =>
    rw [h, ht]
    refine ⟨fun _ => .inr ?_, fun _ => ((hp.checks hidle).raised h).halted he⟩
    rintro ⟨⟨plan, hr⟩, -⟩
    cases hr
  | @transaction plan _ w₁ _ r₁ _ hchecks h ht he₂ =>
    rw [hchecks, ht]
    have hk := (hp.checks hidle).returned hchecks
    rw [(hp.transaction hk _).raised h, hk.kept]
    refine ⟨.inl, fun hor => hor.resolve_right fun hnot => hnot ⟨⟨plan, rfl⟩, ?_⟩⟩
    -- only the tick finds the clock behind, since nothing else in the transaction reads it
    rw [bind_eq, exec_bind] at h
    cases ho : opening.exec r₁ w₁ with
    | mk o r =>
      rw [ho] at h
      cases o with
      | stopped => cases h
      | raised e' =>
        cases h
        obtain ⟨message, rfl⟩ := he₂ he
        refine ⟨message, ?_⟩
        dsimp only
        rw [ho]
      | returned stamp =>
        have hdropped := (hp.body plan stamp (hk.opening.returned ho)).raised h
        exact absurd (he₂ he) hdropped.kind.not_regression
  | @behind plan w₁ _ r₁ _ hchecks h hafter =>
    rw [hchecks]
    have hk := (hp.checks hidle).returned hchecks
    obtain ⟨hclosed₂, -⟩ := (hp.transaction hk _).returned h
    obtain ⟨-, hhalted⟩ := hafter (fun _ => True)
      ⟨fun _ h => h, fun _ _ h => h, fun _ h => h⟩ ⟨hclosed₂, trivial⟩
    refine ⟨fun _ => .inr ?_, fun _ => hhalted he⟩
    rintro ⟨-, message, hr⟩
    rw [bind_eq, exec_bind] at h
    dsimp only at hr
    cases ho : opening.exec r₁ w₁ with
    | mk o r =>
      rw [ho] at h hr
      cases hr
      cases h

end Parts

end EscrowSigner.Integrity
