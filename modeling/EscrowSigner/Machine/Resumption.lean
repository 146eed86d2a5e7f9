import EscrowSigner.Machine.Smooth
import EscrowSigner.Integrity.Rows
import EscrowSigner.Process.Worklist

/-! Reconciliation is safe to break off and to repeat.  While clock and chain stand still, what it does
with a row is a function of the row and its attempts, done after the last read of the row. -/

namespace EscrowSigner.Machine

open Policy Process

/-- The clock stands at `T`, no statement fails, and a read of the chain gives `answer`, or fails with
an exception of `F`. -/
structure Answering (answer : (q : Query) → q.Answer) (T : Nat) (F : Exn → Prop) (_ : World) (c : Choice) :
    Prop where
  now : c.now = T
  fault : c.fault = none
  answers : ∀ q, c.answer q = .ok (answer q) ∨ ∃ e, F e ∧ c.answer q = .error e

/-- How a call on the RPC pool fails. -/
def Failed (e : Exn) : Prop := ∃ message, e = .reverted message ∨ e = .rpcUnavailable message

/-- What a reconciliation does with a row. -/
inductive Verdict
  | mined (txHash : String) (fee : Int)
  | released (reason : String)
  | left
deriving DecidableEq, Repr

section Verdict

variable (i : Instance) (answer : (q : Query) → q.Answer) (T : Nat)

/-- What the receipt of an attempt decides. -/
def receiptVerdict (txHash : String) (receipt : Json) : Option Verdict :=
  match receiptField i.ext receipt "status" "" with
  | .ok status =>
    if status = "0x1" then some (.mined txHash ((receiptFee i.ext receipt).toOption.getD 0))
    else if status = "0x0" then some (.released "transaction reverted on chain")
    else none
  | .error _ => none

def attemptVerdict (attempt : TxAttempt) : Option Verdict :=
  if (answer (.receipt attempt.txHash)).truthy then
    receiptVerdict i attempt.txHash (answer (.receipt attempt.txHash))
  else none

/-- What the first attempt decides that decides anything. -/
def attemptsVerdict (attempts : List TxAttempt) : Option Verdict :=
  attempts.findSome? (attemptVerdict i answer)

/-- The receipts that are read: those up to the first that decides. -/
def receiptsRead : List TxAttempt → List Query
  | [] => []
  | attempt :: rest =>
    .receipt attempt.txHash ::
      if (attemptVerdict i answer attempt).isSome then [] else receiptsRead rest

/-- The read of whether the receipt of a row was used. -/
def usedQuery (row : SpendRow) : Query :=
  .receiptUsed i.escrow ((fromHex (row.receiptId.toList.drop 2)).toOption.getD [])
    (channelBytes row.channelId)

/-- Whether the receipt of a row was used. -/
def isUsed (row : SpendRow) : Bool :=
  answer (.receiptUsed i.escrow ((fromHex (row.receiptId.toList.drop 2)).toOption.getD [])
    (channelBytes row.channelId))

/-- What becomes of a row of which no attempt landed. -/
def releaseVerdict (row : SpendRow) (attempts : List TxAttempt) : Verdict :=
  if row.state = .reserved ∧ ¬ (attempts.any fun a => a.accountNonce == row.accountNonce) then
    .released "never signed"
  else if seconds T > row.deadline then .released "deadline passed before it landed"
  else .left

/-- The attempts of a key, in the order in which they were made. -/
def attemptsOf (attempts : List TxAttempt) (k : Key) : List TxAttempt :=
  (attempts.filter fun a => a.key == k).insertionSort fun a b => a.seq ≤ b.seq

def verdict (attempts : List TxAttempt) (row : SpendRow) : Verdict :=
  if isUsed i answer row then .mined "" 0
  else (attemptsVerdict i answer (attemptsOf attempts row.key)).getD
    (releaseVerdict T row (attemptsOf attempts row.key))

/-- The reads that a verdict rests on. -/
def readsOf (attempts : List TxAttempt) (row : SpendRow) : List Query :=
  usedQuery i row ::
    if isUsed i answer row then [] else receiptsRead i answer (attemptsOf attempts row.key)

/-- The accounts after a verdict. -/
def Verdict.apply (attempts : List TxAttempt) (row : SpendRow) (b : Accounts) : Verdict → Accounts
  | .mined txHash fee => b.mine row txHash fee
  | .released reason => b.release attempts row reason
  | .left => b

/-- The accounts after a row was reconciled. -/
def settle (attempts : List TxAttempt) (b : Accounts) (row : SpendRow) : Accounts :=
  (verdict i answer T attempts row).apply attempts row b

end Verdict

variable {i : Instance} {answer : (q : Query) → q.Answer} {T : Nat} {F : Exn → Prop}
  {es : List Event} {t t' : Tables} {w w' : World} {row : SpendRow} {attempts as as' : List TxAttempt}

theorem smooth_answering : Smooth (Answering answer T F) where
  fault h := h.fault
  clock h h' _ := by rw [h.now, h'.now]

/-! ### The status of an attempt decides nothing -/

theorem Restamped.refl (as : List TxAttempt) : Restamped as as := rfl

theorem Restamped.trans {as'' : List TxAttempt} (h : Restamped as as') (h' : Restamped as' as'') :
    Restamped as as'' := Eq.trans h' h

theorem Restamped.attemptsOf (h : Restamped as as') (k : Key) :
    Restamped (attemptsOf as k) (attemptsOf as' k) := by
  have hfilter : ∀ as : List TxAttempt, (as.filter fun a => a.key == k).map bare =
      (as.map bare).filter fun a => a.key == k := fun as => by
    rw [List.filter_map]
    rfl
  have hsort : ∀ as : List TxAttempt, (as.insertionSort fun a b => a.seq ≤ b.seq).map bare =
      (as.map bare).insertionSort fun a b => a.seq ≤ b.seq := fun as =>
    List.map_insertionSort _ _ _ _ fun _ _ _ _ => Iff.rfl
  unfold Restamped Machine.attemptsOf
  rw [hsort, hsort, hfilter, hfilter, h]

theorem attemptsVerdict_bare (attempts : List TxAttempt) :
    attemptsVerdict i answer (attempts.map bare) = attemptsVerdict i answer attempts := by
  unfold attemptsVerdict
  rw [List.findSome?_map]
  rfl

theorem Restamped.attemptsVerdict (h : Restamped as as') :
    attemptsVerdict i answer as' = attemptsVerdict i answer as := by
  rw [← attemptsVerdict_bare as', h, attemptsVerdict_bare]

theorem receiptsRead_bare (attempts : List TxAttempt) :
    receiptsRead i answer (attempts.map bare) = receiptsRead i answer attempts := by
  induction attempts with
  | nil => rfl
  | cons a attempts ih =>
    rw [List.map_cons]
    unfold receiptsRead
    rw [ih]
    rfl

theorem Restamped.receiptsRead (h : Restamped as as') :
    receiptsRead i answer as' = receiptsRead i answer as := by
  rw [← receiptsRead_bare as', h, receiptsRead_bare]

theorem any_bare (attempts : List TxAttempt) (nonce : Int) :
    (attempts.map bare).any (fun a => a.accountNonce == nonce) =
      attempts.any fun a => a.accountNonce == nonce := by
  rw [List.any_map]
  rfl

theorem Restamped.releaseVerdict (h : Restamped as as') (row : SpendRow) :
    releaseVerdict T row as' = releaseVerdict T row as := by
  unfold Machine.releaseVerdict
  rw [← any_bare as', h, any_bare]

theorem Restamped.fresh_iff (h : Restamped as as') (row : SpendRow) : Fresh as' row ↔ Fresh as row := by
  have hbare : ∀ as : List TxAttempt, Fresh (as.map bare) row ↔ Fresh as row := fun as => by
    unfold Fresh
    rw [List.forall_mem_map]
    rfl
  rw [← hbare as', h, hbare]

theorem Restamped.release (h : Restamped as as') (row : SpendRow) (reason : String) (b : Accounts) :
    b.release as' row reason = b.release as row reason := by
  unfold Accounts.release
  simp only [h.fresh_iff row]

/-! ### The loops -/

/-- The log after reads that succeeded. -/
def heard (answer : (q : Query) → q.Answer) (qs : List Query) (es : List Event) : List Event :=
  qs.foldl (fun es q => .rpc q (.ok (answer q)) :: es) es

theorem heard_append (qs qs' : List Query) :
    heard answer (qs ++ qs') es = heard answer qs' (heard answer qs es) := List.foldl_append

/-- Between two transactions, with the accounts `b` and attempts as they were up to their status. -/
def Holding (answer : (q : Query) → q.Answer) (T : Nat) (F : Exn → Prop) (es : List Event)
    (as : List TxAttempt) (b : Accounts) (w : World) : Prop :=
  ∃ t, Resting (Answering answer T F) es t w ∧ accountsOf t = b ∧ Restamped as t.txAttempt

/-- Of the reads `qs` one failed with `e` after those before it, and the accounts are `b`. -/
def BrokeOff (answer : (q : Query) → q.Answer) (T : Nat) (F : Exn → Prop) (qs : List Query)
    (es : List Event) (as : List TxAttempt) (b : Accounts) (e : Exn) (w : World) : Prop :=
  F e ∧ ∃ read q, read ++ [q] <+: qs ∧
    Holding answer T F (.rpc q (.error e) :: heard answer read es) as b w

/-- The receipts that the chain gives are well formed, with fees that SQLite holds. -/
def WellFormed (i : Instance) (answer : (q : Query) → q.Answer) : Prop :=
  ∀ txHash, (answer (.receipt txHash)).truthy = true →
    ∃ status, receiptField i.ext (answer (.receipt txHash)) "status" "" = .ok status ∧
      (status = "0x1" → ∃ fee, receiptFee i.ext (answer (.receipt txHash)) = .ok fee ∧ inInt64 fee = true)

variable {b : Accounts} {q : Query} {qs : List Query} {e : Exn}

/-- The first read failed. -/
theorem BrokeOff.first (h : BrokeOff answer T F [q] es as b e w) :
    BrokeOff answer T F (q :: qs) es as b e w := by
  obtain ⟨he, read, q', hprefix, h⟩ := h
  exact ⟨he, read, q', hprefix.trans ⟨qs, rfl⟩, h⟩

/-- The first read succeeded, and a later one failed. -/
theorem BrokeOff.later (h : BrokeOff answer T F qs (heard answer [q] es) as b e w) :
    BrokeOff answer T F (q :: qs) es as b e w := by
  obtain ⟨he, read, q', hprefix, h⟩ := h
  exact ⟨he, q :: read, q', (List.prefix_cons_inj q).mpr hprefix, h⟩

/-- A read of the chain. -/
theorem Holding.rpc (h : Holding answer T F es as b w) (q : Query) :
    (rpc q).Under (Answering answer T F) (BrokeOff answer T F [q] es as b)
      (fun a w' => a = answer q ∧ Holding answer T F (heard answer [q] es) as b w') w := by
  obtain ⟨t, h, hb, has⟩ := h
  refine .atomic fun c hc => ?_
  have hclock : ∀ c', Answering answer T F (w.advance c) c' → t.clockGuard.maxTs ≤ seconds c'.now :=
    (h.advance smooth_answering hc).clock
  have hlog : ∀ r, exchanges (.rpc q r :: w.log) = .rpc q r :: es := fun r =>
    congrArg (List.cons _) h.log
  rcases hc.answers q with hok | ⟨e, he, herror⟩
  · dsimp only
    rw [hok]
    exact ⟨rfl, t, ⟨h.base, hlog _, fun _ hc' => hclock _ ⟨hc'.now, hc'.fault, hc'.answers⟩⟩, hb, has⟩
  · dsimp only
    rw [herror]
    exact ⟨he, [], q, List.prefix_rfl, t,
      ⟨h.base, hlog _, fun _ hc' => hclock _ ⟨hc'.now, hc'.fault, hc'.answers⟩⟩, hb, has⟩

theorem Holding.leaves (has : Restamped as t.txAttempt) (h : Leaves (Answering answer T F) es t b w) :
    Holding answer T F es as b w := by
  obtain ⟨t', h, hb, has'⟩ := h
  exact ⟨t', h, hb, has' ▸ has⟩

theorem Holding.recordAttemptStatus {P : Exn → World → Prop} (h : Holding answer T F es as b w)
    (txHash status : String) :
    (Ledger.recordAttemptStatus txHash status).Under (Answering answer T F) P
      (fun _ w' => Holding answer T F es as b w') w := by
  obtain ⟨t, h, hb, has⟩ := h
  exact (h.recordAttemptStatus smooth_answering txHash status).mono (fun _ _ h => h)
    fun _ _ h => ⟨_, h, hb, has.trans (.stamp txHash status t.txAttempt)⟩

theorem Holding.markMined {P : Exn → World → Prop} (h : Holding answer T F es as b w)
    (hrow : Upright b.rows row) (txHash : String) {fee : Int} (hfee : inInt64 fee = true) :
    (Ledger.markMined i.ext row txHash fee).Under (Answering answer T F) P
      (fun _ w' => Holding answer T F es as (b.mine row txHash fee) w') w := by
  obtain ⟨t, h, rfl, has⟩ := h
  exact (h.markMined smooth_answering hrow txHash hfee).mono (fun _ _ h => h)
    fun _ _ h => .leaves has h

theorem Holding.markDead {P : Exn → World → Prop} (h : Holding answer T F es as b w)
    (hrow : Upright b.rows row) (reason : String) :
    (Ledger.markDead i.ext row reason).Under (Answering answer T F) P
      (fun _ w' => Holding answer T F es as (b.release as row reason) w') w := by
  obtain ⟨t, h, rfl, has⟩ := h
  exact (h.markDead smooth_answering hrow reason).mono (fun _ _ h => h)
    fun _ _ h => has.release row reason _ ▸ .leaves has h

/-- The accounts after what the attempts of a row decide. -/
def decided (as : List TxAttempt) (row : SpendRow) (b : Accounts) (v : Option Verdict) : Accounts :=
  v.elim b (·.apply as row b)

/-- The receipt of an attempt. -/
theorem Holding.settleReceipt (hwell : WellFormed i answer) (h : Holding answer T F es as b w)
    (hrow : Upright b.rows row) {txHash : String}
    (htruthy : (answer (.receipt txHash)).truthy = true) {P : Exn → World → Prop} :
    (settleReceipt i row txHash (answer (.receipt txHash)) "transaction reverted on chain").Under
      (Answering answer T F) P
      (fun landed w' => landed = (receiptVerdict i txHash (answer (.receipt txHash))).isSome ∧
        Holding answer T F es as
          (decided as row b (receiptVerdict i txHash (answer (.receipt txHash)))) w') w := by
  obtain ⟨status, hstatus, hfee⟩ := hwell txHash htruthy
  unfold Policy.settleReceipt receiptVerdict
  rw [hstatus]
  dsimp only
  refine Under.bind (P := fun s w' => s = status ∧ w' = w) (.pure ⟨rfl, rfl⟩) fun _ _ ⟨hs, hw⟩ => ?_
  subst hs hw
  refine Under.bind (h.recordAttemptStatus txHash _) fun _ w₁ h₁ => ?_
  split
  · rename_i hone
    obtain ⟨fee, hread, hfits⟩ := hfee hone
    rw [hread]
    refine Under.bind (P := fun n w' => n = fee ∧ w' = w₁) (.pure ⟨rfl, rfl⟩) fun _ _ ⟨hn, hw⟩ => ?_
    subst hn hw
    exact Under.bind (h₁.markMined hrow txHash hfits) fun _ _ h₂ => .pure ⟨rfl, h₂⟩
  · split
    · exact Under.bind (h₁.markDead hrow _) fun _ _ h₂ => .pure ⟨rfl, h₂⟩
    · exact .pure ⟨rfl, h₁⟩

theorem Holding.reconcileAttempts (hwell : WellFormed i answer) (h : Holding answer T F es as b w)
    (hrow : Upright b.rows row) (attempts : List TxAttempt) :
    (reconcileAttempts i row attempts).Under (Answering answer T F)
      (BrokeOff answer T F (receiptsRead i answer attempts) es as b)
      (fun landed w' => landed = (attemptsVerdict i answer attempts).isSome ∧
        Holding answer T F (heard answer (receiptsRead i answer attempts) es) as
          (decided as row b (attemptsVerdict i answer attempts)) w') w := by
  induction attempts generalizing es w with
  | nil => exact .pure ⟨rfl, h⟩
  | cons attempt attempts ih =>
    refine Under.bind ((h.rpc (.receipt attempt.txHash)).mono (fun _ _ h => h.first) fun _ _ h => h)
      fun receipt w₁ ⟨hreceipt, h₁⟩ => ?_
    subst hreceipt
    -- the rest of the attempts, where this one decides nothing
    have hrest : ∀ w₂, Holding answer T F (heard answer [.receipt attempt.txHash] es) as b w₂ →
        attemptVerdict i answer attempt = none →
        (Policy.reconcileAttempts i row attempts).Under (Answering answer T F)
          (BrokeOff answer T F (receiptsRead i answer (attempt :: attempts)) es as b)
          (fun landed w' => landed = (attemptsVerdict i answer (attempt :: attempts)).isSome ∧
            Holding answer T F (heard answer (receiptsRead i answer (attempt :: attempts)) es) as
              (decided as row b (attemptsVerdict i answer (attempt :: attempts))) w') w₂ := by
      intro w₂ h₂ hnone
      unfold attemptsVerdict receiptsRead
      rw [List.findSome?_cons, hnone]
      exact (ih h₂).mono (fun _ _ h => h.later) fun _ _ h => h
    by_cases htruthy : (answer (.receipt attempt.txHash)).truthy = true
    · rw [if_pos htruthy]
      have hverdict : attemptVerdict i answer attempt =
          receiptVerdict i attempt.txHash (answer (.receipt attempt.txHash)) := if_pos htruthy
      refine Under.bind (h₁.settleReceipt hwell hrow htruthy) fun landed w₂ ⟨hlanded, h₂⟩ => ?_
      rw [← hverdict] at hlanded h₂
      subst hlanded
      cases hv : attemptVerdict i answer attempt with
      | some v =>
        rw [hv] at h₂
        refine .pure ⟨?_, ?_⟩
        · unfold attemptsVerdict
          rw [List.findSome?_cons, hv]
          rfl
        · unfold attemptsVerdict receiptsRead
          rw [List.findSome?_cons, hv]
          exact h₂
      | none =>
        rw [hv] at h₂
        exact hrest w₂ h₂ hv
    · rw [if_neg htruthy]
      refine Under.bind (h₁.recordAttemptStatus _ _) fun _ w₂ h₂ => hrest w₂ h₂ (if_neg htruthy)

/-! ### A row -/

/-- The receipt id of a row can be read back. -/
def Legible (row : SpendRow) : Prop := ∃ bytes, fromHex (row.receiptId.toList.drop 2) = .ok bytes

theorem Holding.releaseRow {P : Exn → World → Prop} (h : Holding answer T F es as b w)
    (hrow : Upright b.rows row) (attempts : List TxAttempt) :
    (releaseRow i (seconds T) row attempts).Under (Answering answer T F) P
      (fun _ w' => Holding answer T F es as ((releaseVerdict T row attempts).apply as row b) w') w := by
  unfold Policy.releaseRow releaseVerdict
  split
  · exact h.markDead hrow _
  · split
    · exact h.markDead hrow _
    · exact .pure h

theorem Holding.reconcileRow (hwell : WellFormed i answer) (h : Holding answer T F es as b w)
    (hrow : Upright b.rows row) (hlegible : Legible row) :
    (reconcileRow i (seconds T) row).Under (Answering answer T F)
      (BrokeOff answer T F (readsOf i answer as row) es as b)
      (fun _ w' => Holding answer T F (heard answer (readsOf i answer as row) es) as
        (settle i answer T as b row) w') w := by
  obtain ⟨receiptId, hread⟩ := hlegible
  have hquery : usedQuery i row = .receiptUsed i.escrow receiptId (channelBytes row.channelId) := by
    unfold usedQuery
    rw [hread]
    rfl
  have hused : isUsed i answer row =
      answer (.receiptUsed i.escrow receiptId (channelBytes row.channelId)) := by
    unfold isUsed
    rw [hread]
    rfl
  unfold Policy.reconcileRow
  rw [hread]
  refine Under.bind (P := fun r w' => r = receiptId ∧ w' = w) (.pure ⟨rfl, rfl⟩) fun _ _ ⟨hr, hw⟩ => ?_
  subst hr hw
  refine Under.bind ((h.rpc (.receiptUsed i.escrow _ (channelBytes row.channelId))).mono
    (fun _ _ h => ?_) fun _ _ h => h) fun used w₁ ⟨hu, h₁⟩ => ?_
  · unfold readsOf
    rw [hquery]
    exact h.first
  rw [← hused] at hu
  rw [← hquery] at h₁
  subst hu
  unfold settle verdict readsOf
  cases isUsed i answer row with
  | true => exact h₁.markMined hrow "" (by decide)
  | false =>
    obtain ⟨t, hrest, hb, has⟩ := h₁
    refine Under.bind (hrest.select smooth_answering rfl) fun attempts w₂ ⟨hattempts, h₂⟩ => ?_
    subst hattempts
    have hrestamped : Restamped (attemptsOf as row.key) (t.attemptsFor row.key) := has.attemptsOf row.key
    have h₂ : Holding answer T F (heard answer [usedQuery i row] es) as b w₂ := ⟨t, h₂, hb, has⟩
    refine Under.bind ((h₂.reconcileAttempts hwell hrow _).mono (fun _ _ h => ?_) fun _ _ h => h)
      fun landed w₃ ⟨hlanded, h₃⟩ => ?_
    · rw [hrestamped.receiptsRead] at h
      exact h.later
    rw [hrestamped.attemptsVerdict, hrestamped.receiptsRead] at h₃
    rw [hrestamped.attemptsVerdict] at hlanded
    subst hlanded
    cases hv : attemptsVerdict i answer (attemptsOf as row.key) with
    | some v =>
      rw [hv] at h₃
      exact .pure h₃
    | none =>
      rw [hv] at h₃
      exact hrestamped.releaseVerdict row ▸ h₃.releaseRow hrow _

/-! ### The rows -/

theorem settle_of_left (h : verdict i answer T as row = .left) : settle i answer T as b row = b := by
  unfold settle
  rw [h]
  rfl

/-- A row that is not left as it is leaves the live rows. -/
theorem settle_rows (h : verdict i answer T as row ≠ .left) : ∃ (u : Ledger.RowUpdates) (state : RowState),
    state.live = false ∧ (settle i answer T as b row).rows = mapRow row.key (u.apply state) b.rows := by
  unfold settle
  cases hv : verdict i answer T as row with
  | mined txHash fee => exact ⟨_, .mined, rfl, rfl⟩
  | released reason => exact ⟨_, .dead, rfl, rfl⟩
  | left => exact absurd hv h

theorem mem_settle_of_ne {r : SpendRow} (hr : r ∈ b.rows) (hne : r.key ≠ row.key) :
    r ∈ (settle i answer T as b row).rows := by
  by_cases hleft : verdict i answer T as row = .left
  · rwa [settle_of_left hleft]
  · obtain ⟨u, state, -, hrows⟩ := settle_rows (b := b) hleft
    rw [hrows]
    exact mem_mapRow.mpr ⟨r, hr, .inr ⟨hne, rfl⟩⟩

/-- The loop of a reconciliation over rows that are in the books. -/
theorem Holding.reconcileRows (hwell : WellFormed i answer) (h : Holding answer T F es as b w)
    {rows : List SpendRow} (hrows : ∀ r ∈ rows, Upright b.rows r ∧ Legible r)
    (hkeys : (rows.map SpendRow.key).Nodup) :
    (reconcileRows i (seconds T) rows).Under (Answering answer T F)
      (fun e w' => ∃ done row rest, rows = done ++ row :: rest ∧
        BrokeOff answer T F (readsOf i answer as row)
          (heard answer (done.flatMap (readsOf i answer as)) es) as
          (done.foldl (settle i answer T as) b) e w')
      (fun _ w' => Holding answer T F (heard answer (rows.flatMap (readsOf i answer as)) es) as
        (rows.foldl (settle i answer T as) b) w') w := by
  induction rows generalizing es b w with
  | nil => exact .pure h
  | cons row rows ih =>
    obtain ⟨⟨hrow, hlegible⟩, hrest⟩ := List.forall_mem_cons.mp hrows
    obtain ⟨hfresh, hkeys⟩ := List.nodup_cons.mp hkeys
    refine Under.bind ((h.reconcileRow hwell hrow hlegible).mono (fun e w' hbroke => ?_) fun _ _ h => h)
      fun _ w₁ h₁ => ?_
    · exact ⟨[], row, rows, rfl, hbroke⟩
    · refine (ih h₁ (fun r hr => ⟨?_, (hrest r hr).2⟩) hkeys).mono (fun e w' hbroke => ?_) fun _ w' h' => ?_
      · have hne : r.key ≠ row.key := fun heq => hfresh (heq ▸ List.mem_map_of_mem hr)
        exact ⟨mem_settle_of_ne (hrest r hr).1.mem hne, (hrest r hr).1.alive, (hrest r hr).1.chain,
          (hrest r hr).1.amount⟩
      · obtain ⟨done, next, rest, rfl, hbroke⟩ := hbroke
        refine ⟨row :: done, next, rest, rfl, ?_⟩
        rw [List.flatMap_cons, heard_append]
        exact hbroke
      · rw [List.flatMap_cons, heard_append]
        exact h'

/-! ### The list of live rows -/

/-- The live rows, in the order in which they were first written. -/
def liveRows (rows : List SpendRow) : List SpendRow :=
  (rows.filter fun r => r.state.live).insertionSort fun a b => a.seq ≤ b.seq

theorem liveRows_perm (rows : List SpendRow) : (liveRows rows).Perm (rows.filter fun r => r.state.live) :=
  List.perm_insertionSort _ _

theorem mem_liveRows {rows : List SpendRow} {r : SpendRow} :
    r ∈ liveRows rows ↔ r ∈ rows ∧ r.state.live = true := by
  rw [(liveRows_perm rows).mem_iff, List.mem_filter]

/-- Keys and numbers tell the rows apart. -/
structure Distinct (b : Accounts) : Prop where
  keys : (b.rows.map SpendRow.key).Nodup
  seqs : (b.rows.map SpendRow.seq).Nodup

instance : Std.Total fun a b : SpendRow => a.seq ≤ b.seq := ⟨fun a b => le_total a.seq b.seq⟩

instance : IsTrans SpendRow fun a b => a.seq ≤ b.seq := ⟨fun _ _ _ => le_trans⟩

theorem liveRows_sorted (rows : List SpendRow) : (liveRows rows).Pairwise fun a b => a.seq ≤ b.seq :=
  List.pairwise_insertionSort _ _

theorem filter_mapRow {k : Key} {f : SpendRow → SpendRow} {rows : List SpendRow}
    (hf : ∀ r, (f r).state.live = false) :
    (mapRow k f rows).filter (fun r => r.state.live) =
      (rows.filter fun r => r.state.live).filter fun r => r.key ≠ k := by
  induction rows with
  | nil => rfl
  | cons r rows ih =>
    unfold mapRow at ih ⊢
    rw [List.map_cons, List.filter_cons, List.filter_cons, ih]
    by_cases hk : r.key = k
    · rw [if_pos hk, hf r]
      cases r.state.live <;> simp [hk]
    · rw [if_neg hk]
      cases r.state.live <;> simp [hk]

/-- The live rows when one of them leaves. -/
theorem liveRows_mapRow {k : Key} {f : SpendRow → SpendRow} (hb : Distinct b)
    (hf : ∀ r, (f r).state.live = false) :
    liveRows (mapRow k f b.rows) = (liveRows b.rows).filter fun r => r.key ≠ k := by
  have hperm : (liveRows (mapRow k f b.rows)).Perm ((liveRows b.rows).filter fun r => r.key ≠ k) := by
    refine (liveRows_perm _).trans ?_
    rw [filter_mapRow hf]
    exact ((liveRows_perm b.rows).filter _).symm
  refine hperm.eq_of_pairwise (fun r r' hr hr' hle hge => ?_) (liveRows_sorted _)
    ((liveRows_sorted b.rows).sublist List.filter_sublist)
  have hrows : ∀ r, r ∈ (liveRows b.rows).filter (fun r => r.key ≠ k) → r ∈ b.rows := fun r hr =>
    (mem_liveRows.mp (List.mem_filter.mp hr).1).1
  exact List.inj_on_of_nodup_map hb.seqs (hrows r (hperm.subset hr)) (hrows r' hr') (le_antisymm hle hge)

theorem Distinct.settle (hb : Distinct b) (row : SpendRow) : Distinct (settle i answer T as b row) := by
  by_cases hleft : verdict i answer T as row = .left
  · rwa [settle_of_left hleft]
  · obtain ⟨u, state, -, hrows⟩ := settle_rows (b := b) hleft
    refine ⟨?_, ?_⟩
    · have hsame : (mapRow row.key (u.apply state) b.rows).map SpendRow.key = b.rows.map SpendRow.key :=
        map_key_mapRow fun _ => rfl
      rw [hrows, hsame]
      exact hb.keys
    · rw [hrows]
      have hsame : (mapRow row.key (u.apply state) b.rows).map SpendRow.seq = b.rows.map SpendRow.seq := by
        unfold mapRow
        rw [List.map_map]
        refine List.map_congr_left fun r _ => ?_
        show (if r.key = row.key then u.apply state r else r).seq = r.seq
        split <;> rfl
      exact hsame ▸ hb.seqs

/-- Reconciling the live rows is a worklist: a row that is left stays on it, any other leaves it. -/
theorem settle_lawful : Worklist.Lawful (fun b => liveRows b.rows) (settle i answer T as) Distinct
    (fun row => verdict i answer T as row = .left) where
  skips _ _ h := settle_of_left h
  keeps _ row hb _ := hb.settle row
  removes b before row after hb hleft hwork := by
    obtain ⟨u, state, hdead, hrows⟩ := settle_rows (b := b) hleft
    have hkeys : ((liveRows b.rows).map SpendRow.key).Nodup :=
      ((liveRows_perm b.rows).map _).nodup_iff.mpr
        (hb.keys.sublist (List.Sublist.map _ List.filter_sublist))
    rw [hrows, liveRows_mapRow hb fun _ => hdead, hwork]
    rw [hwork, List.map_append, List.map_cons] at hkeys
    obtain ⟨-, hafter, hbefore⟩ := List.nodup_append.mp hkeys
    have hne : ∀ r ∈ before, r.key ≠ row.key := fun r hr =>
      hbefore r.key (List.mem_map_of_mem hr) row.key List.mem_cons_self
    have hne' : ∀ r ∈ after, r.key ≠ row.key := fun r hr heq =>
      (List.nodup_cons.mp hafter).1 (heq ▸ List.mem_map_of_mem hr)
    rw [List.filter_append, List.filter_cons]
    simp only [ne_eq, not_true_eq_false, decide_false, Bool.false_eq_true, if_false]
    rw [List.filter_eq_self.mpr fun r hr => decide_eq_true (hne r hr),
      List.filter_eq_self.mpr fun r hr => decide_eq_true (hne' r hr)]

/-! ### A reconciliation -/

/-- The live rows have receipt ids that can be read back, and integers that SQLite holds. -/
def Readable (rows : List SpendRow) : Prop :=
  ∀ r ∈ rows, r.state.live = true →
    Legible r ∧ inInt64 r.chainId = true ∧ inInt64 r.amountUnits = true

theorem upright_of_live {rows : List SpendRow} (hread : Readable rows) {r : SpendRow}
    (hr : r ∈ liveRows rows) : Upright rows r ∧ Legible r := by
  obtain ⟨hmem, hlive⟩ := mem_liveRows.mp hr
  obtain ⟨hlegible, hchain, hamount⟩ := hread r hmem hlive
  refine ⟨⟨hmem, fun hdead => ?_, hchain, hamount⟩, hlegible⟩
  rw [hdead] at hlive
  cases hlive

/-- The accounts after an uninterrupted reconciliation. -/
def reconciled (i : Instance) (answer : (q : Query) → q.Answer) (T : Nat) (as : List TxAttempt)
    (b : Accounts) : Accounts :=
  Worklist.complete (fun b => liveRows b.rows) (settle i answer T as) b

theorem Holding.reconcileAll (hwell : WellFormed i answer) (h : Holding answer T F es as b w)
    (hread : Readable b.rows) (hb : Distinct b) :
    (reconcile i).Under (Answering answer T F)
      (fun e w' => ∃ done row rest, liveRows b.rows = done ++ row :: rest ∧
        BrokeOff answer T F (readsOf i answer as row)
          (heard answer (done.flatMap (readsOf i answer as)) es) as
          (done.foldl (settle i answer T as) b) e w')
      (fun r w' => r = true ∧
        Holding answer T F (heard answer ((liveRows b.rows).flatMap (readsOf i answer as)) es) as
          (reconciled i answer T as b) w') w := by
  obtain ⟨t, h, rfl, has⟩ := h
  refine Under.bind (P := fun n w' => n = seconds T ∧ Resting (Answering answer T F) es t w')
    (Under.bind (P := fun n w' => n = T ∧ Resting (Answering answer T F) es t w') (.atomic fun c hc => ?_)
      fun n w' ⟨hn, h'⟩ => .pure ⟨congrArg seconds hn, h'⟩) fun n w₁ ⟨hn, h₁⟩ => ?_
  · have hadvanced := h.advance smooth_answering hc
    exact ⟨hc.now, hadvanced.base, hadvanced.log, fun c' hc' =>
      hadvanced.clock c' ⟨hc'.now, hc'.fault, hc'.answers⟩⟩
  · subst hn
    refine Under.bind (h₁.select smooth_answering rfl) fun rows w₂ ⟨hrows, h₂⟩ => ?_
    subst hrows
    have hkeys : ((liveRows t.spend.rows).map SpendRow.key).Nodup := unresolved_keys t
    have h₂ : Holding answer T F es as (accountsOf t) w₂ := ⟨t, h₂, rfl, has⟩
    exact Under.bind (h₂.reconcileRows hwell (fun r hr => upright_of_live hread hr) hkeys)
      fun _ w₃ h₃ => .pure ⟨rfl, h₃⟩

/-- A choice that answers every read. -/
def answering (answer : (q : Query) → q.Answer) (T : Nat) : Choice where
  now := T
  chain := ⟨[], [], 0, 0⟩
  fault := none
  answer q := .ok (answer q)
  signFault := none

theorem resting_answering : Resting (Answering answer T F) es t w ↔
    w.db = ⟨t, none⟩ ∧ exchanges w.log = es ∧ t.clockGuard.maxTs ≤ seconds T :=
  ⟨fun h => ⟨h.base, h.log, h.clock (answering answer T) ⟨rfl, rfl, fun _ => .inl rfl⟩⟩,
    fun ⟨hdb, hlog, hclock⟩ => ⟨hdb, hlog, fun _ hc => hc.now ▸ hclock⟩⟩

/-- A ledger between two transactions that a clock at `T` is not behind. -/
structure Reconcilable (T : Nat) (w : World) : Prop where
  closed : w.db.working = none
  clock : w.tables.clockGuard.maxTs ≤ seconds T
  readable : Readable w.tables.spend.rows

theorem Reconcilable.holding (h : Reconcilable T w) :
    Holding answer T F (exchanges w.log) w.tables.txAttempt (accountsOf w.tables) w := by
  refine ⟨w.tables, resting_answering.mpr ⟨?_, rfl, h.clock⟩, rfl, .refl _⟩
  rw [← h.closed]
  rfl

theorem distinct_accountsOf (t : Tables) : Distinct (accountsOf t) :=
  ⟨t.spend.constraints.1, t.spend.constraints.2.1⟩

theorem Readable.settle (h : Readable b.rows) (row : SpendRow) :
    Readable (settle i answer T as b row).rows := by
  by_cases hleft : verdict i answer T as row = .left
  · rwa [settle_of_left hleft]
  · obtain ⟨u, state, hdead, hrows⟩ := settle_rows (b := b) hleft
    intro r hr hlive
    rw [hrows] at hr
    obtain ⟨r', hr', ⟨-, rfl⟩ | ⟨-, rfl⟩⟩ := mem_mapRow.mp hr
    · exact absurd hlive (hdead ▸ Bool.false_ne_true)
    · exact h _ hr' hlive

theorem Readable.foldl (h : Readable b.rows) (rows : List SpendRow) :
    Readable (rows.foldl (Machine.settle i answer T as) b).rows := by
  induction rows generalizing b with
  | nil => exact h
  | cons row rows ih => exact ih (h.settle row)

theorem Distinct.foldl (h : Distinct b) (rows : List SpendRow) :
    Distinct (rows.foldl (Machine.settle i answer T as) b) := by
  induction rows generalizing b with
  | nil => exact h
  | cons row rows ih => exact ih (h.settle row)

theorem mem_foldl_of_not_mem {rows : List SpendRow} {r : SpendRow} (hr : r ∈ b.rows)
    (hne : ∀ row ∈ rows, r.key ≠ row.key) : r ∈ (rows.foldl (settle i answer T as) b).rows := by
  induction rows generalizing b with
  | nil => exact hr
  | cons row rows ih =>
    exact ih (mem_settle_of_ne hr (hne row List.mem_cons_self)) fun row' h' =>
      hne row' (List.mem_cons_of_mem row h')

/-- Which reads may fail makes no difference between two transactions. -/
theorem Holding.free {F' : Exn → Prop} (h : Holding answer T F es as b w) :
    Holding answer T F' es as b w := by
  obtain ⟨t, h, hb, has⟩ := h
  exact ⟨t, resting_answering.mpr (resting_answering.mp h), hb, has⟩

theorem Holding.accounts (h : Holding answer T F es as b w) :
    accountsOf w.tables = b ∧ exchanges w.log = es := by
  obtain ⟨t, h, hb, -⟩ := h
  have htables : w.tables = t := congrArg Db.committed h.base
  exact ⟨htables ▸ hb, h.log⟩

/-! ### Breaking off and repeating -/

/-- Either every read of every row succeeded, one row after the other, or the reads of the rows of
`done` did and one of the next row failed: then the exception is that of the reconciliation, and that row
and those after it stand as they were. -/
def KeepsUnread (i : Instance) (answer : (q : Query) → q.Answer) (w : World)
    (r : Outcome Exn Bool × World) : Prop :=
  let reads := readsOf i answer w.tables.txAttempt
  (r.1 = .returned true ∧
    exchanges r.2.log = heard answer (w.tables.unresolved.flatMap reads) (exchanges w.log)) ∨
  ∃ done row rest read q e, w.tables.unresolved = done ++ row :: rest ∧ read ++ [q] <+: reads row ∧
    r.1 = .raised e ∧
    exchanges r.2.log =
      .rpc q (.error e) :: heard answer read (heard answer (done.flatMap reads) (exchanges w.log)) ∧
    ∀ r' ∈ row :: rest, r' ∈ r.2.tables.spend.rows

/-- The two worlds agree on the rows of `spend` and on the allocator. -/
def SameBooks (w w' : World) : Prop :=
  w'.tables.spend.rows = w.tables.spend.rows ∧ w'.tables.nonceAlloc = w.tables.nonceAlloc

/-- What reconciliations leave that are broken off by failing reads. -/
inductive Aborted (i : Instance) (answer : (q : Query) → q.Answer) (T : Nat) (w : World) : World → Prop
  | none : Aborted i answer T w w
  | again {w' : World} (h : Aborted i answer T w w') (script : List Choice)
      (henv : (reconcile i).Admits (Answering answer T Failed) script w') (e : Exn)
      (he : ((reconcile i).run script w').1 = .raised e) :
      Aborted i answer T w ((reconcile i).run script w').2

/-- An execution of a reconciliation that ends. -/
structure Ended (i : Instance) (answer : (q : Query) → q.Answer) (T : Nat) (F : Exn → Prop)
    (script : List Choice) (w : World) : Prop where
  env : (reconcile i).Admits (Answering answer T F) script w
  ended : ((reconcile i).run script w).1 ≠ .stopped

structure Resumable (i : Instance) (answer : (q : Query) → q.Answer) (T : Nat) (w : World) : Prop where
  kept : ∀ script, Ended i answer T Failed script w → KeepsUnread i answer w ((reconcile i).run script w)
  resumed : ∀ script w₁ script', Ended i answer T (fun _ => False) script w → Aborted i answer T w w₁ →
    Ended i answer T (fun _ => False) script' w₁ →
      ((reconcile i).run script w).1 = .returned true ∧ ((reconcile i).run script' w₁).1 = .returned true ∧
        SameBooks ((reconcile i).run script w).2 ((reconcile i).run script' w₁).2
  repeated : ∀ script script', Ended i answer T (fun _ => False) script w →
    Ended i answer T Failed script' ((reconcile i).run script w).2 →
      SameBooks ((reconcile i).run script w).2
        ((reconcile i).run script' ((reconcile i).run script w).2).2

/-- How an execution of a reconciliation ends. -/
theorem Holding.ended (hwell : WellFormed i answer) (h : Holding answer T F es as b w)
    (hread : Readable b.rows) (hb : Distinct b) {script : List Choice}
    (hended : Ended i answer T F script w) :
    (∃ e done row rest, liveRows b.rows = done ++ row :: rest ∧
      ((reconcile i).run script w).1 = .raised e ∧
      BrokeOff answer T F (readsOf i answer as row)
        (heard answer (done.flatMap (readsOf i answer as)) es) as
        (done.foldl (settle i answer T as) b) e ((reconcile i).run script w).2) ∨
    (((reconcile i).run script w).1 = .returned true ∧
      Holding answer T F (heard answer ((liveRows b.rows).flatMap (readsOf i answer as)) es) as
        (reconciled i answer T as b) ((reconcile i).run script w).2) := by
  have hrun := (h.reconcileAll hwell hread hb).run hended.env
  cases ho : ((reconcile i).run script w).1 with
  | returned r =>
    rw [ho] at hrun
    exact .inr ⟨congrArg _ hrun.1, hrun.2⟩
  | raised e =>
    rw [ho] at hrun
    obtain ⟨done, row, rest, hsplit, hbroke⟩ := hrun
    exact .inl ⟨e, done, row, rest, hsplit, rfl, hbroke⟩
  | stopped => exact absurd ho hended.ended

/-- What is left of reconciliations that broke off. -/
theorem Aborted.holding (hwell : WellFormed i answer) {w₁ : World} (h : Aborted i answer T w w₁)
    (hw : Reconcilable T w) : ∃ es b, Holding answer T Failed es w.tables.txAttempt b w₁ ∧
      Readable b.rows ∧ Distinct b ∧ Worklist.Interrupted (fun b => liveRows b.rows)
        (settle i answer T w.tables.txAttempt) (accountsOf w.tables) b := by
  induction h with
  | none => exact ⟨_, _, hw.holding, hw.readable, distinct_accountsOf w.tables, .refl⟩
  | again h script henv e he ih =>
    obtain ⟨es, b, hholding, hread, hb, hpasses⟩ := ih
    have hended : Ended i answer T Failed script _ := ⟨henv, by rw [he]; simp⟩
    rcases hholding.ended hwell hread hb hended with ⟨e', done, row, rest, hsplit, -, hbroke⟩ | ⟨ho, -⟩
    · obtain ⟨-, read, q, -, hleft⟩ := hbroke
      exact ⟨_, _, hleft, hread.foldl done, hb.foldl done, hpasses.pass done (row :: rest) hsplit⟩
    · rw [he] at ho
      cases ho

/-- Reconciliation is safe to break off and to repeat. -/
theorem reconcile_resumable (hwell : WellFormed i answer) (hw : Reconcilable T w) :
    Resumable i answer T w := by
  have hdistinct := distinct_accountsOf w.tables
  refine ⟨fun script hended => ?_, fun script w₁ script' hended haborted hended' => ?_,
    fun script script' hended hended' => ?_⟩
  · rcases hw.holding.ended hwell hw.readable hdistinct hended with
      ⟨e, done, row, rest, hsplit, ho, -, read, q, hprefix, hleft⟩ | ⟨ho, hleft⟩
    · obtain ⟨hrows, hlog⟩ := hleft.accounts
      refine .inr ⟨done, row, rest, read, q, e, hsplit, hprefix, ho, hlog, fun r' hr' => ?_⟩
      have hkeys : ((done ++ row :: rest).map SpendRow.key).Nodup := hsplit ▸ unresolved_keys w.tables
      rw [List.map_append] at hkeys
      have hlive : r' ∈ liveRows w.tables.spend.rows := hsplit ▸ List.mem_append_right done hr'
      have hkept : r' ∈ (done.foldl (settle i answer T w.tables.txAttempt) (accountsOf w.tables)).rows :=
        mem_foldl_of_not_mem (mem_liveRows.mp hlive).1
          fun row' h' heq => (List.nodup_append.mp hkeys).2.2 row'.key (List.mem_map_of_mem h')
            r'.key (List.mem_map_of_mem hr') heq.symm
      rw [← hrows] at hkept
      exact hkept
    · exact .inl ⟨ho, hleft.accounts.2⟩
  · obtain ⟨es, b, hholding, hread, hb, hpasses⟩ := haborted.holding hwell hw
    rcases hw.holding.ended hwell hw.readable hdistinct hended with
      ⟨_, _, _, _, -, -, hfail, -⟩ | ⟨ho, hdone⟩
    · exact hfail.elim
    rcases hholding.free.ended hwell hread hb hended' with ⟨_, _, _, _, -, -, hfail, -⟩ | ⟨ho', hdone'⟩
    · exact hfail.elim
    have hsame : accountsOf ((reconcile i).run script' w₁).2.tables =
        accountsOf ((reconcile i).run script w).2.tables := by
      rw [hdone.accounts.1, hdone'.accounts.1]
      exact (settle_lawful.interrupted hdistinct hpasses).2
    exact ⟨ho, ho', congrArg Accounts.rows hsame, congrArg Accounts.alloc hsame⟩
  · rcases hw.holding.ended hwell hw.readable hdistinct hended with
      ⟨_, _, _, _, -, -, hfail, -⟩ | ⟨-, hdone⟩
    · exact hfail.elim
    have hread : Readable (reconciled i answer T w.tables.txAttempt (accountsOf w.tables)).rows :=
      Readable.foldl hw.readable _
    have hb : Distinct (reconciled i answer T w.tables.txAttempt (accountsOf w.tables)) :=
      hdistinct.foldl _
    have hsame : accountsOf ((reconcile i).run script' ((reconcile i).run script w).2).2.tables =
        accountsOf ((reconcile i).run script w).2.tables := by
      rw [hdone.accounts.1]
      rcases hdone.free.ended hwell hread hb hended' with
        ⟨_, done, row, rest, hsplit, -, -, _, _, -, hleft⟩ | ⟨-, hleft⟩
      · rw [hleft.accounts.1]
        exact settle_lawful.foldl_complete hdistinct hsplit
      · rw [hleft.accounts.1]
        exact settle_lawful.foldl_complete hdistinct (List.append_nil _).symm
    exact ⟨congrArg Accounts.rows hsame, congrArg Accounts.alloc hsame⟩

section Sample

open EscrowSigner.Sample

/-- The rows are readable, as a test. -/
def readableRows (rows : List SpendRow) : Bool :=
  rows.all fun r => (fromHex (r.receiptId.toList.drop 2)).toOption.isSome && inInt64 r.chainId &&
    inInt64 r.amountUnits

theorem readable_of_test {rows : List SpendRow} (h : readableRows rows = true) : Readable rows := by
  intro r hr _
  have htest := List.all_eq_true.mp h r hr
  simp only [Bool.and_eq_true] at htest
  obtain ⟨⟨hread, hchain⟩, hamount⟩ := htest
  obtain ⟨bytes, hbytes⟩ := Option.isSome_iff_exists.mp hread
  exact ⟨⟨bytes, eq_ok_of_toOption hbytes⟩, hchain, hamount⟩

/-- The receipt of a transaction that landed. -/
def minedReceipt : Json :=
  .obj [("status", .str "0x1"), ("gasUsed", .str "0x2"), ("effectiveGasPrice", .str "0x3")]

/-- A chain on which every transaction that is asked for has landed. -/
def landed : (q : Query) → q.Answer
  | .chainId => Config.chainId
  | .domainSeparator _ => []
  | .hubAuthorized .. => true
  | .tokenDecimals _ => Config.tokenDecimals
  | .tokenBalance .. => (0 : Int)
  | .getChannel .. => Outside.channel { time := 0 }
  | .receiptUsed .. => false
  | .estimateGas .. => (0 : Int)
  | .baseFeeWei => (0 : Int)
  | .transactionCount .. => (0 : Int)
  | .simulate .. => ()
  | .sendRaw _ => ""
  | .receipt _ => minedReceipt

theorem wellFormed_landed : WellFormed (signer unlimited "") landed := by
  have hfee : receiptFee (signer unlimited "").ext minedReceipt = .ok 6 :=
    eq_ok_of_toOption (by decide +kernel)
  exact fun _ _ => ⟨"0x1", rfl, fun _ => ⟨6, hfee, by decide⟩⟩

open Integrity in
/-- A debit was signed, and the process stopped after the reservation of another. -/
def signedWorld : World :=
  let w := (reserveCent 60 .initial).2
  let signed := w.tables.spend.rows.foldl (fun w row =>
    (Operation.run plain (.markSigned row "0x0a" "0x0b") (List.replicate 20 quiet) w).2) w
  (Operation.run plain (.reserve unlimited otherCent) (List.replicate 60 quiet) signed).2

theorem reconcile_resumable_signed :
    signedWorld.tables.unresolved.length = 2 ∧ signedWorld.tables.txAttempt.length = 1 ∧
      Resumable (signer unlimited "") landed 2000000000 signedWorld :=
  ⟨by decide +kernel, by decide +kernel, reconcile_resumable wellFormed_landed
    ⟨Option.isNone_iff_eq_none.mp (by decide +kernel), by decide +kernel,
      readable_of_test (by decide +kernel)⟩⟩

end Sample

end EscrowSigner.Machine
