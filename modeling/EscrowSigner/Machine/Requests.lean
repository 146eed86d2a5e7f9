import EscrowSigner.Machine.Reconcile

/-! The road from a reservation to the broadcast, and the two kinds of request that take it. -/

namespace EscrowSigner.Machine

open Policy
open Calldata (DebitCall ExpireCall)

variable {σ : Setting} {φ : Phase} {w w' : World} {p : Plan} {row : SpendRow} {α : Type}

/-! ### Signature and broadcast -/

theorem later_of_event {c : Choice} {e : Event} (hc : σ.permits w c) (hlog : w'.log = e :: w.log)
    (hrequest : request (e :: w.log) = request w.log)
    (hsession : session (e :: w.log) = e :: session w.log) (hclock : w'.clock = c.now)
    (hchain : w'.chain = c.chain) : Later σ w w' :=
  ⟨by rw [hlog, hrequest], fun _ h => by rw [hlog, hsession]; exact List.mem_cons_of_mem _ h,
    fun _ h => by rw [hlog]; exact List.mem_cons_of_mem _ h, fun hs => hclock ▸ hs _ _ hc,
    fun hl => hchain ▸ hl _ _ hc⟩

theorem At.signTransaction (h : At σ (.working p row .held) w) :
    Triple σ (fun raw w' => raw = p.raw σ.i row ∧ At σ (.working p row .signed) w')
      (fun _ w' => At σ (.working p row .held) w')
      (EscrowSigner.signTransaction σ.i.ext row (p.tx σ.i row)) w := by
  refine Triple.action ⟨_, h.run, fun c e hc he => ?_, fun c hc => .inl ?_⟩ fun c hc => ?_
  · dsimp only at he
    split at he <;>
    · cases he
      exact ⟨p, rfl, rfl⟩
  · dsimp only
    split <;> rfl
  cases c.signFault with
  | some name => exact ⟨later_of_event hc rfl rfl rfl rfl rfl, h.step h.closed (.balk _ hc)⟩
  | none => exact ⟨later_of_event hc rfl rfl rfl rfl rfl, rfl, h.step h.closed (.sign hc)⟩

theorem At.sendRaw (h : At σ (.working p row .recorded) w) :
    Triple σ (fun _ w' => At σ (.working p row .accepted) w')
      (fun e w' => At σ (.working p row (.after (.error e))) w')
      (RpcPool.sendRaw (p.raw σ.i row)) w := by
  refine Triple.action (f := fun c w => (w.record (.rpc _ (c.answer _)), c.answer _))
    ⟨_, h.run, fun c e hc he => by cases he; exact ⟨p, row, rfl, rfl⟩, fun _ _ => .inl rfl⟩ fun c hc =>
      ⟨later_of_event hc rfl rfl rfl rfl rfl, ?_⟩
  have hstep : Step σ.i σ.env σ.ok (.working p row .recorded, stateOf σ.i w) _ := .send hc
  have hat : At σ _ ((w.advance c).record
      (.rpc (.sendRaw (p.raw σ.i row)) (c.answer (.sendRaw (p.raw σ.i row))))) :=
    h.step h.closed hstep
  simp only
  generalize c.answer (.sendRaw (p.raw σ.i row)) = r at hat ⊢
  cases r <;> exact hat

/-- Answers that do nothing to the books: what they come to meets `P`. -/
structure Quits (σ : Setting) (p : Plan) (row : SpendRow) (P : α → World → Prop) (k : Answers α) :
    Prop where
  refused : ∀ status reason w, status ≠ 200 → Ends σ w → Leads σ P (k.refused status reason) w
  unavailable : ∀ w, Ends σ w → Leads σ P k.unavailable w
  accepted : ∀ w, At σ .idle w → Sent σ.i p row w → Leads σ P (k.accepted (p.txHash σ.i row)) w

variable {k : Answers α} {P : α → World → Prop}

/-- A rejected broadcast releases the row. -/
theorem At.reject (h : At σ (.working p row .rejected) w) (reason : String) :
    Leads σ (fun _ w' => At σ .idle w') (Ledger.markDead σ.i.ext row reason) w := by
  have hmem : signedRow σ.i p row ∈ w.tables.spend.rows := h.soundness.phase.2.2
  have hamount : inInt64 row.amountUnits = true := (h.soundness.own _ hmem).2.2.2.1
  have hfalls : Falls (stateOf σ.i w) (signedRow σ.i p row) (.working p row .rejected) :=
    .rejected p row rfl
  exact Leads.mono (h.markDead hmem (show row.key = _ from rfl) hamount hfalls reason) fun _ _ _ h => h.1

theorem At.broadcastRow (h : At σ (.working p row .recorded) w) (hk : Quits σ p row P k) :
    Leads σ P
      (Policy.broadcastRow σ.i row (p.raw σ.i row) (p.txHash σ.i row) k) w := by
  refine Triple.catch h.sendRaw ?_ ?_
  · rintro _ w₁ - h₁
    refine Leads.bind h₁.markBroadcast ?_
    rintro _ w₂ - ⟨h₂, hsent⟩
    exact hk.accepted _ h₂ hsent
  · rintro e w₁ - h₁
    cases e with
    | reverted name =>
      refine Leads.bind (h₁.reject _) ?_
      rintro _ w₂ - h₂
      exact hk.refused _ _ _ (by decide) h₂.endsIdle
    | rpcUnavailable message => exact hk.unavailable _ (h₁.ends (.inl rfl))
    | _ => exact Triple.raise (h₁.ends (.inl rfl))

/-- A row that is held is released. -/
theorem At.dropHeld (h : At σ (.working p row .held) w) (reason : String) :
    Leads σ (fun _ w' => At σ .idle w') (Ledger.markDead σ.i.ext row reason) w :=
  (h.release h.soundness.phase.2.2 (.held p row rfl) reason).mono fun _ _ _ h => h.1

theorem At.signRow (h : At σ (.working p row .held) w) (hk : Quits σ p row P k) :
    Leads σ P (Policy.signRow σ.i row (p.tx σ.i row) k) w := by
  refine Triple.catch h.signTransaction ?_ ?_
  · rintro raw w₁ - ⟨rfl, h₁⟩
    refine Leads.bind h₁.markSigned ?_
    rintro _ w₂ - h₂
    exact h₂.broadcastRow hk
  · rintro e w₁ - h₁
    refine Leads.bind (h₁.dropHeld _) ?_
    rintro _ w₂ - h₂
    exact hk.refused _ _ _ (by decide) h₂.endsIdle

theorem At.simulateRow (h : At σ (.working p row .held) w) {data : Bytes} {next : Code α}
    (hk : Quits σ p row P k)
    (hnext : ∀ w', At σ (.working p row .held) w' → Leads σ P next w') :
    Leads σ P (Policy.simulateRow σ.i row data k next) w := by
  refine Triple.catch (h.rpc (q := .simulate _ _ _) rfl) ?_ ?_
  · rintro _ w₁ - ⟨h₁, -⟩
    exact hnext w₁ h₁
  · rintro e w₁ - ⟨h₁, -⟩
    cases e with
    | reverted name =>
      refine Leads.bind (h₁.dropHeld _) ?_
      rintro _ w₂ - h₂
      exact hk.refused _ _ _ (by decide) h₂.endsIdle
    | rpcUnavailable message =>
      refine Leads.bind (h₁.dropHeld _) ?_
      rintro _ w₂ - h₂
      exact hk.refused _ _ _ (by decide) h₂.endsIdle
    | _ =>
      refine Leads.bind (h₁.dropHeld _) ?_
      rintro _ w₂ - h₂
      exact Triple.raise h₂.endsIdle

/-! ### Decisions -/

/-- The books hold a row here. -/
def Seen (σ : Setting) (r : SpendRow) (w : World) : Prop := (∃ φ, At σ φ w) ∧ r ∈ w.tables.spend.rows

theorem At.seen {r : SpendRow} (h : At σ φ w) (hr : r ∈ w.tables.spend.rows) : Seen σ r w :=
  ⟨⟨φ, h⟩, hr⟩

/-- Whose hash a decision answers with: that of the row of a debit or of a collection, as the books
hold it.  A collection may be answered from a row that was signed when the call came in. -/
inductive Quoted (σ : Setting) (body : Bytes) (known : List SpendRow) (txHash : String)
    (w : World) : Prop
  | debit (env : Envelope) (call : DebitCall) (r : SpendRow)
      (henv : parseEnvelope σ.i body = .ok env)
      (hdec : Calldata.decodeDebit σ.i.ext env.data = .ok call) (hseen : Seen σ r w)
      (hkey : r.key = receiptKey σ.i (hexString call.receiptId))
      (hstate : r.state = .broadcast ∨ r.state = .mined ∧ r.txHash ≠ "") (hhash : r.txHash = txHash)
  | expire (env : Envelope) (call : ExpireCall) (r : SpendRow)
      (henv : parseEnvelope σ.i body = .ok env)
      (hdec : Calldata.decodeExpire σ.i.ext env.data = .ok call) (hseen : Seen σ r w)
      (hkey : r.key = receiptKey σ.i (expireReceipt σ.i call.channelId))
      (hstate : r.state = .broadcast ∨ r.state = .mined ∨ r.state = .signed ∧ r ∈ known)
      (hhash : r.txHash = txHash)

/-- A call has come to a decision: where it is 200, it answers with the hash of a row. -/
structure Answered (σ : Setting) (body : Bytes) (known : List SpendRow) (d : Decision) (w : World) :
    Prop where
  ends : Ends σ w
  quoted : d.status = 200 → Quoted σ body known d.txHash w

variable {body : Bytes} {known : List SpendRow}

theorem Ends.refused (h : Ends σ w) {status : Int} {reason : String} {common : Common}
    {retryAfterS : Option Int} (hs : status ≠ 200) :
    Answered σ body known (refuse status reason common retryAfterS) w :=
  ⟨h, fun hd => absurd hd hs⟩

theorem quits_debit {env : Envelope} {call : DebitCall} {channel : Channel} {fees : Fees}
    (henv : parseEnvelope σ.i body = .ok env)
    (hdec : Calldata.decodeDebit σ.i.ext env.data = .ok call) (common : Common)
    (receiptId : String) : Quits σ (.debit body env call channel fees) row
      (Answered σ body known) (requestAnswers common receiptId) where
  refused _ _ _ hs h := Triple.pure (h.refused hs)
  unavailable _ h := Triple.pure (h.refused (by decide))
  accepted w h hsent := by
    obtain ⟨r, hr, hkey, hstate, hhash⟩ := hsent
    exact Triple.pure ⟨h.endsIdle, fun _ => .debit env call r henv hdec (h.seen hr) hkey
      (.inl hstate) hhash⟩

theorem quits_expire {env : Envelope} {call : ExpireCall} {fees : Fees}
    (henv : parseEnvelope σ.i body = .ok env)
    (hdec : Calldata.decodeExpire σ.i.ext env.data = .ok call) (common : Common)
    (receiptId : String) : Quits σ (.expire body env call fees) row
      (Answered σ body known) (requestAnswers common receiptId) where
  refused _ _ _ hs h := Triple.pure (h.refused hs)
  unavailable _ h := Triple.pure (h.refused (by decide))
  accepted w h hsent := by
    obtain ⟨r, hr, hkey, hstate, hhash⟩ := hsent
    exact Triple.pure ⟨h.endsIdle, fun _ => .expire env call r henv hdec (h.seen hr) hkey
      (.inl hstate) hhash⟩

theorem Ends.refuseRead (h : Ends σ w) (common : Common) (e : Exn) :
    Leads σ (Answered σ body known) (Policy.refuseRead common e) w := by
  cases e with
  | reverted name => exact Triple.pure (h.refused (by decide))
  | rpcUnavailable message => exact Triple.pure (h.refused (by decide))
  | _ => exact Triple.raise h

theorem Ends.refuseReservation (h : Ends σ w) (common : Common) (e : Exn) :
    Leads σ (Answered σ body known) (Policy.refuseReservation common e) w := by
  cases e with
  | capBreach name retryAfterS => exact Triple.pure (h.refused (by decide))
  | clockRegression message => exact Triple.pure (h.refused (by decide))
  | ledgerUnavailable message => exact Triple.pure (h.refused (by decide))
  | _ => exact Triple.raise h

/-! ### Fees -/

theorem At.readFees (h : At σ .idle w) {toAddr : String} {data : Bytes} :
    Leads σ (fun r w' => At σ .idle w' ∧ w'.tables = w.tables ∧
        .rpc (.estimateGas toAddr data σ.i.address) (.ok r.1) ∈ session w'.log ∧
        .rpc .baseFeeWei (.ok r.2) ∈ session w'.log)
      (Policy.readFees σ.i toAddr data) w := by
  unfold Policy.readFees
  refine Leads.bind (h.ask (q := .estimateGas _ _ _) rfl) ?_
  rintro estimate w₁ - ⟨h₁, ht₁, he₁⟩
  refine Leads.bind (h₁.ask (q := .baseFeeWei) rfl) ?_
  rintro baseFee w₂ hl₂ ⟨h₂, ht₂, he₂⟩
  exact Triple.pure ⟨h₂, ht₂.trans ht₁, hl₂.session _ he₁, he₂⟩

/-! ### Debits -/

/-- What a debit knows before it reserves: the request and that the books hold no other one under
its receipt. -/
structure Asking (σ : Setting) (body : Bytes) (env : Envelope) (call : DebitCall) (w : World) :
    Prop where
  at_ : At σ .idle w
  asked : request w.log = some (.handle body)
  envelope : parseEnvelope σ.i body = .ok env
  decoded : Calldata.decodeDebit σ.i.ext env.data = .ok call
  known : ∀ r ∈ w.tables.spend.rows, r.key = receiptKey σ.i (hexString call.receiptId) →
    r.semanticTuple = (lower env.toAddr, hexString call.channelId, call.amount,
      hexString call.receiptId, hexString (σ.i.ext.keccak env.data))

variable {env : Envelope} {call : DebitCall} {channel : Channel}

theorem Asking.next (h : Asking σ body env call w) (hl : Later σ w w') (hat : At σ .idle w')
    (ht : w'.tables = w.tables) : Asking σ body env call w' :=
  ⟨hat, hl.request.trans h.asked, h.envelope, h.decoded, ht ▸ h.known⟩

/-- What the call read about a channel that it admits. -/
structure Admitted (σ : Setting) (call : DebitCall) (channel : Channel) (w : World) : Prop where
  read : .rpc (.getChannel σ.i.escrow call.channelId) (.ok channel) ∈ session w.log
  admitted : ∃ instant, .clock instant ∈ session w.log ∧
    channelState σ.i (seconds instant) channel call = .ok none
  unused : .rpc (.receiptUsed σ.i.escrow call.receiptId (some call.channelId)) (.ok false) ∈
    session w.log

theorem At.admitChannel (h : At σ .idle w) :
    Leads σ (fun r w' => At σ .idle w' ∧ w'.tables = w.tables ∧
        ∀ channel, r = .ok channel → Admitted σ call channel w')
      (Policy.admitChannel σ.i call) w := by
  unfold Policy.admitChannel
  refine Leads.bind (h.verifyChainIdentity false) ?_
  rintro _ w₁ - ⟨h₁, ht₁⟩
  refine Leads.bind (h₁.ask (q := .getChannel _ _) rfl) ?_
  rintro channel w₂ - ⟨h₂, ht₂, he₂⟩
  refine Leads.bind h₂.now ?_
  rintro time w₃ hl₃ ⟨h₃, ht₃, rfl, hclock⟩
  refine Leads.bind (P := fun r w' => w' = w₃ ∧
    channelState σ.i (seconds w₃.clock) channel call = .ok r)
    (Triple.ofExcept (fun _ ha => ⟨rfl, ha⟩) fun _ _ => h₃.endsIdle) ?_
  rintro reason w₄ - ⟨rfl, hstate⟩
  have ht : w₄.tables = w.tables := ht₃.trans (ht₂.trans ht₁)
  cases reason with
  | some reason => exact Triple.pure ⟨h₃, ht, nofun⟩
  | none =>
    refine Leads.bind (h₃.ask (q := .receiptUsed _ _ _) rfl) ?_
    rintro used w₅ hl₅ ⟨h₅, ht₅, he₅⟩
    cases used with
    | true => exact Triple.pure ⟨h₅, ht₅.trans ht, nofun⟩
    | false =>
      refine Triple.pure ⟨h₅, ht₅.trans ht, ?_⟩
      rintro _ ⟨⟩
      exact ⟨hl₅.session _ (hl₃.session _ he₂), ⟨_, hl₅.session _ hclock, hstate⟩, he₅⟩

theorem Admitted.next (h : Admitted σ call channel w) (hl : Later σ w w') :
    Admitted σ call channel w' := by
  obtain ⟨instant, hi, hs⟩ := h.admitted
  exact ⟨hl.session _ h.read, ⟨instant, hl.session _ hi, hs⟩, hl.session _ h.unused⟩

theorem priceFees_status {i : Instance} {estimate baseFee status : Int} {reason : String}
    (h : priceFees i estimate baseFee = .error (status, reason)) : status ≠ 200 := by
  simp only [priceFees] at h
  split at h
  · cases h
    decide
  · split at h
    · cases h
      decide
    · cases h

theorem Asking.signDebit (h : Asking σ body env call w) {common : Common} {fees : Fees}
    (ha : Admitted σ call channel w) (hd : checkDepositor σ.i call channel = .ok none)
    (hp : Priced σ.i fees w.log) :
    Leads σ (Answered σ body known) (Policy.signDebit σ.i env call channel common fees) w := by
  have hreserve := h.at_.reserve (p := .debit body env call channel fees) rfl
    ⟨h.asked, h.envelope, h.decoded, ha.read, ha.admitted, ha.unused, hd, hp⟩ fun _ => h.known
  refine Triple.catch hreserve ?_ fun e w₁ _ he => he.refuseReservation common e
  rintro row w₁ - h₁
  exact h₁.simulateRow (quits_debit h.envelope h.decoded _ _) fun w₂ h₂ =>
    h₂.signRow (quits_debit h.envelope h.decoded _ _)

theorem Asking.priceDebit (h : Asking σ body env call w) {common : Common}
    (ha : Admitted σ call channel w) (hd : checkDepositor σ.i call channel = .ok none) :
    Leads σ (Answered σ body known) (Policy.priceDebit σ.i env call channel common) w := by
  refine Triple.catch h.at_.readFees ?_ fun e w₁ _ he => he.refuseRead common e
  rintro ⟨estimate, baseFee⟩ w₁ hl ⟨h₁, ht₁, he, hb⟩
  simp only
  split
  · rename_i status reason hrefused
    exact Triple.pure (h₁.endsIdle.refused (priceFees_status hrefused))
  · rename_i fees hfees
    exact (h.next hl h₁ ht₁).signDebit (ha.next hl) hd ⟨_, _, _, _, he, hb, hfees⟩

theorem Asking.freshDebit (h : Asking σ body env call w) {common : Common} :
    Leads σ (Answered σ body known) (Policy.freshDebit σ.i env call common) w := by
  refine Triple.catch h.at_.admitChannel ?_ ?_
  · rintro r w₁ hl ⟨h₁, ht₁, ha⟩
    cases r with
    | error reason => exact Triple.pure (h₁.endsIdle.refused (by decide))
    | ok channel =>
      refine Leads.bind (P := fun r w' => w' = w₁ ∧ checkDepositor σ.i call channel = .ok r)
        (Triple.ofExcept (fun _ hr => ⟨rfl, hr⟩) fun _ _ => h₁.endsIdle) ?_
      rintro reason w₂ - ⟨rfl, hd⟩
      cases reason with
      | some reason => exact Triple.pure (h₁.endsIdle.refused (by decide))
      | none => exact (h.next hl h₁ ht₁).priceDebit (ha channel rfl) hd
  · rintro e w₁ - he
    cases e with
    | chainUnverified message => exact Triple.pure (he.refused (by decide))
    | _ => exact he.refuseRead common _

/-- The outcome of the look at the books: a decision, or the request as new work. -/
def Replayed (σ : Setting) (body : Bytes) (known : List SpendRow) (w : World) (same : Prop) :
    Option Decision → World → Prop
  | some d, w' => Answered σ body known d w'
  | none, w' => At σ .idle w' ∧ Tuples w w' ∧ same

theorem At.replay (h : At σ .idle w) (known : List SpendRow) (henv : parseEnvelope σ.i body = .ok env)
    (hdec : Calldata.decodeDebit σ.i.ext env.data = .ok call) (hrow : row ∈ w.tables.spend.rows)
    (hkey : row.key = receiptKey σ.i (hexString call.receiptId))
    {toAddr channelId calldataKeccak : String} {common : Common} :
    Leads σ (Replayed σ body known w (row.semanticTuple =
        (lower toAddr, channelId, call.amount, hexString call.receiptId, calldataKeccak)))
      (Policy.replay σ.i row toAddr channelId call calldataKeccak common) w := by
  unfold Policy.replay
  split
  · exact Triple.pure (h.endsIdle.refused (by decide))
  rename_i htuple
  rw [not_not] at htuple
  split
  · exact Triple.pure (h.endsIdle.refused (by decide))
  split
  · rename_i hstate
    exact Triple.pure ⟨h.endsIdle, fun _ => .debit env call row henv hdec (h.seen hrow) hkey
      (hstate.1.imp_right fun hm => ⟨hm, hstate.2⟩) rfl⟩
  split
  · refine Triple.catch h.reconcile ?_ ?_
    · rintro _ w₁ - ⟨h₁, htup⟩
      refine Leads.bind (h₁.select (.inr ⟨_, rfl⟩)) ?_
      rintro fresh w₂ - ⟨h₂, hget, ht₂, -⟩
      rw [Except.ok.injEq, ← ht₂] at hget
      cases fresh with
      | none => exact Triple.pure (h₂.endsIdle.refused (by decide))
      | some fresh =>
        obtain ⟨hfresh, hfkey⟩ := mem_of_get hget
        simp only
        split
        · rename_i hmined
          exact Triple.pure ⟨h₂.endsIdle, fun _ => .debit env call fresh henv hdec (h₂.seen hfresh)
            (hfkey.trans hkey) (.inr hmined) rfl⟩
        split
        · exact Triple.pure ⟨h₂, htup.trans (.of_rows (by rw [ht₂])), htuple⟩
        · exact Triple.pure (h₂.endsIdle.refused (by decide))
    · rintro e w₁ - he
      cases e with
      | rpcUnavailable message => exact Triple.pure (he.refused (by decide))
      | reverted name => exact Triple.pure (he.refused (by decide))
      | _ => exact Triple.raise he
  · exact Triple.pure ⟨h, .of_rows rfl, htuple⟩

theorem At.handleDebit (h : At σ .idle w) (hask : request w.log = some (.handle body))
    (henv : parseEnvelope σ.i body = .ok env)
    (hdec : Calldata.decodeDebit σ.i.ext env.data = .ok call) {digest16 : String} :
    Leads σ (Answered σ body known) (Policy.handleDebit σ.i env call digest16) w := by
  unfold Policy.handleDebit
  refine Leads.bind h.now ?_
  rintro time w₁ hl₁ ⟨h₁, -, -, -⟩
  simp only
  split
  · exact Triple.pure (h₁.endsIdle.refused (by decide))
  split
  · exact Triple.pure (h₁.endsIdle.refused (by decide))
  refine Leads.bind (h₁.select (.inr ⟨_, rfl⟩)) ?_
  rintro existing w₂ hl₂ ⟨h₂, hget, ht₂, -⟩
  rw [Except.ok.injEq, ← ht₂] at hget
  have hask₂ : request w₂.log = some (.handle body) := (hl₁.trans hl₂).request.trans hask
  cases existing with
  | none =>
    exact Asking.freshDebit ⟨h₂, hask₂, henv, hdec, fun r hr hk => absurd hk (key_ne_of_get hget r hr)⟩
  | some existing =>
    obtain ⟨hrow, hkey⟩ := mem_of_get hget
    refine Leads.bind (h₂.replay known henv hdec hrow hkey) ?_
    rintro decision w₃ hl₃ hd
    cases decision with
    | some decision => exact Triple.pure hd
    | none =>
      obtain ⟨h₃, htup, hsame⟩ := hd
      refine Asking.freshDebit ⟨h₃, hl₃.request.trans hask₂, henv, hdec, fun r hr hk => ?_⟩
      obtain ⟨r₀, hr₀, hk₀, ht₀⟩ := htup r hr
      have heq : w₂.tables.get r₀.key = some r₀ := get_eq_some hr₀
      rw [hk₀, hk] at heq
      rw [hget, Option.some.injEq] at heq
      rw [← ht₀, ← heq, hsame]

/-! ### Expired channels -/

theorem At.readExpired (h : At σ .idle w) {call : ExpireCall} :
    Leads σ (fun _ w' => At σ .idle w') (Policy.readExpired σ.i call) w := by
  unfold Policy.readExpired
  refine Leads.bind (h.verifyChainIdentity false) ?_
  rintro _ w₁ - ⟨h₁, -⟩
  exact Leads.mono (h₁.ask (q := .getChannel _ _) rfl) fun _ _ _ h => h.1

/-- What the collection of an expired channel knows before it reserves. -/
structure Collecting (σ : Setting) (body : Bytes) (env : Envelope) (call : ExpireCall) (w : World) :
    Prop where
  at_ : At σ .idle w
  asked : request w.log = some (.handle body)
  envelope : parseEnvelope σ.i body = .ok env
  decoded : Calldata.decodeExpire σ.i.ext env.data = .ok call

theorem Collecting.next {call : ExpireCall} (h : Collecting σ body env call w)
    (hl : Later σ w w') (hat : At σ .idle w') : Collecting σ body env call w' :=
  ⟨hat, hl.request.trans h.asked, h.envelope, h.decoded⟩

theorem Collecting.signExpire {call : ExpireCall} (h : Collecting σ body env call w)
    {common : Common} {fees : Fees} (hp : Priced σ.i fees w.log) :
    Leads σ (Answered σ body known)
      (Policy.signExpire σ.i env (expireReceipt σ.i call.channelId) (hexString call.channelId) common
        fees) w := by
  have hreserve := h.at_.reserveGasOnly (p := .expire body env call fees)
    (a := Plan.expireRequest σ.i env call fees) rfl rfl rfl
    ⟨h.asked, h.envelope, h.decoded, hp⟩ fun _ hfee => hfee
  refine Triple.catch hreserve ?_ fun e w₁ _ he => he.refuseReservation common e
  rintro row w₁ - h₁
  exact h₁.simulateRow (quits_expire h.envelope h.decoded _ _) fun w₂ h₂ =>
    h₂.signRow (quits_expire h.envelope h.decoded _ _)

theorem Collecting.freshExpire {call : ExpireCall} (h : Collecting σ body env call w)
    {common : Common} :
    Leads σ (Answered σ body known)
      (Policy.freshExpire σ.i env call (expireReceipt σ.i call.channelId)
        (hexString call.channelId) common) w := by
  refine Triple.catch h.at_.readExpired ?_ ?_
  · rintro channel w₁ hl₁ h₁
    refine Leads.bind h₁.now ?_
    rintro time w₂ hl₂ ⟨h₂, -, -, -⟩
    split
    · exact Triple.pure (h₂.endsIdle.refused (by decide))
    refine Triple.catch h₂.readFees ?_ fun e w₃ _ he => he.refuseRead common e
    rintro ⟨estimate, baseFee⟩ w₃ hl₃ ⟨h₃, -, he, hb⟩
    simp only
    split
    · rename_i status reason hrefused
      exact Triple.pure (h₃.endsIdle.refused (priceFees_status hrefused))
    · rename_i fees hfees
      exact (h.next ((hl₁.trans hl₂).trans hl₃) h₃).signExpire ⟨_, _, _, _, he, hb, hfees⟩
  · rintro e w₁ - he
    cases e with
    | chainUnverified message => exact Triple.pure (he.refused (by decide))
    | _ => exact he.refuseRead common _

theorem At.handleExpire (h : At σ .idle w) (hknown : w.tables.spend.rows = known)
    (hask : request w.log = some (.handle body))
    (henv : parseEnvelope σ.i body = .ok env) {digest16 : String} :
    Leads σ (Answered σ body known) (Policy.handleExpire σ.i env digest16) w := by
  unfold Policy.handleExpire
  split
  · exact Triple.pure (h.endsIdle.refused (by decide))
  · exact Triple.raise h.endsIdle
  rename_i call hdec
  simp only
  split
  · exact Triple.pure (h.endsIdle.refused (by decide))
  refine Leads.bind (h.select (.inr ⟨_, rfl⟩)) ?_
  rintro existing w₁ hl₁ ⟨h₁, hget, ht₁, -⟩
  rw [Except.ok.injEq, ← ht₁] at hget
  have hc : Collecting σ body env call w₁ := ⟨h₁, hl₁.request.trans hask, henv, hdec⟩
  cases existing with
  | none => exact hc.freshExpire
  | some existing =>
    obtain ⟨hrow, hkey⟩ := mem_of_get hget
    simp only
    split
    · rename_i hstate
      refine Triple.pure ⟨h₁.endsIdle, fun _ =>
        .expire env call existing henv hdec (h₁.seen hrow) hkey ?_ rfl⟩
      rcases hstate with hs | hb | hm
      · exact .inr (.inr ⟨hs, hknown ▸ ht₁ ▸ hrow⟩)
      · exact .inl hb
      · exact .inr (.inl hm)
    · exact hc.freshExpire

/-! ### Requests -/

theorem At.dispatch (h : At σ .idle w) (hknown : w.tables.spend.rows = known)
    (hask : request w.log = some (.handle body))
    (henv : parseEnvelope σ.i body = .ok env) :
    Leads σ (Answered σ body known) (Policy.dispatch σ.i env) w := by
  unfold Policy.dispatch
  simp only
  split
  · exact h.handleExpire hknown hask henv
  split
  · exact Triple.pure (h.endsIdle.refused (by decide))
  unfold decodeRequest
  simp only
  split
  · exact Triple.pure (h.endsIdle.refused (by decide))
  · exact Triple.raise h.endsIdle
  · rename_i call hcall
    obtain ⟨call', hdec, hrest⟩ := bind_ok_iff.mp hcall
    obtain ⟨_, -, hpure⟩ := bind_ok_iff.mp hrest
    cases hpure
    exact h.handleDebit hask henv hdec

/-- A request, from any state in which it can come in. -/
theorem At.handle (h : At σ .idle w) (hask : request w.log = some (.handle body)) :
    Leads σ (Answered σ body w.tables.spend.rows) (Policy.handle σ.i body) w := by
  unfold Policy.handle
  refine Leads.bind h.halted ?_
  rintro reason w₁ hl₁ ⟨h₁, ht₁⟩
  split
  · exact Triple.pure (h₁.endsIdle.refused (by decide))
  refine Leads.bind h₁.readMemory ?_
  rintro mem w₂ hl₂ ⟨h₂, ht₂⟩
  split
  · exact Triple.pure (h₂.endsIdle.refused (by decide))
  split
  · rename_i d hd
    have hstatus := (parseEnvelope_error _ hd).status
    exact Triple.pure ⟨h₂.endsIdle, fun hs => by omega⟩
  · rename_i env henv
    exact h₂.dispatch (by rw [ht₂, ht₁]) ((hl₁.trans hl₂).request.trans hask) henv

end EscrowSigner.Machine
