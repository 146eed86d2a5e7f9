import EscrowSigner.Machine.Frames
import EscrowSigner.Machine.Invariant

/-! Evidence: every signature of every call, from any world whatever its ledger, is for a plan that
the same call justified by what it was asked and by what it read. -/

namespace EscrowSigner.Machine

open Policy Process
open Calldata (DebitCall ExpireCall)

variable {α β : Type} {i : Instance}

/-- A request for a signature is for the transaction of a plan that the call has justified. -/
def Vouched (i : Instance) (log : List Event) : Event → Prop
  | .sign row _ tx _ => ∃ p, Justified i log p ∧ tx = p.tx i row
  | .call _ | .clock _ | .rpc .. => True

/-- Every event of a log is vouched for by the events before it. -/
def AllVouched (i : Instance) : List Event → Prop
  | [] => True
  | e :: log => Vouched i log e ∧ AllVouched i log

theorem Passive.vouched {c : Choice} {e : Event} (h : Passive c e) (log : List Event) :
    Vouched i log e := by
  cases h <;> trivial

/-- The log of the call in progress has only grown. -/
structure Grown (w w' : World) : Prop where
  request : request w'.log = request w.log
  session : ∀ e ∈ session w.log, e ∈ session w'.log

theorem Grown.refl (w : World) : Grown w w := ⟨rfl, fun _ h => h⟩

theorem Grown.trans {w w' w'' : World} (h : Grown w w') (h' : Grown w' w'') : Grown w w'' :=
  ⟨h'.request.trans h.request, fun e he => h'.session e (h.session e he)⟩

theorem Grown.of_log {w w' : World} (h : w'.log = w.log) : Grown w w' :=
  ⟨by rw [h], fun _ he => by rwa [h]⟩

theorem Grown.of_event {w w' : World} {e : Event} (he : ∀ c, e ≠ .call c)
    (h : w'.log = e :: w.log) : Grown w w' := by
  cases e with
  | call c => exact absurd rfl (he c)
  | clock t => exact ⟨by rw [h]; rfl, fun _ he => by rw [h]; exact List.mem_cons_of_mem _ he⟩
  | rpc q a => exact ⟨by rw [h]; rfl, fun _ he => by rw [h]; exact List.mem_cons_of_mem _ he⟩
  | sign row t tx r =>
    exact ⟨by rw [h]; rfl, fun _ he => by rw [h]; exact List.mem_cons_of_mem _ he⟩

theorem Grown.quiet {K : Tables → Tables → Prop} {c : Choice} {w w' : World}
    (h : Quiet K c w w') : Grown w w' := by
  rcases h.log with hlog | ⟨e, hp, hlog⟩
  · exact .of_log hlog
  · exact .of_event (fun _ he => by subst he; cases hp) hlog

theorem AllVouched.quiet {K : Tables → Tables → Prop} {c : Choice} {w w' : World}
    (hv : AllVouched i w.log) (h : Quiet K c w w') : AllVouched i w'.log := by
  rcases h.log with hlog | ⟨e, hp, hlog⟩
  · exact hlog ▸ hv
  · exact hlog ▸ ⟨hp.vouched _, hv⟩

/-- Plans stay justified while the log of the call grows. -/
theorem Justified.grown {p : Plan} {w w' : World} (h : Justified i w.log p) (hg : Grown w w') :
    Justified i w'.log p :=
  h.extend hg.request hg.session

/-! ### Rules -/

/-- From `w` the code asks only for signatures that are vouched for, and what it returns meets
`Q`. -/
def Watches (i : Instance) (Q : α → World → Prop) (p : Code α) (w : World) : Prop :=
  p.Wp (fun _ _ => True) (fun w' _ => AllVouched i w'.log)
    (fun r w' => AllVouched i w'.log ∧ Grown w w' ∧ ∀ a, r = .ok a → Q a w') w

section Rules

variable {P : α → World → Prop} {Q : β → World → Prop} {w : World}

theorem Watches.ret {a : α} (hv : AllVouched i w.log) (h : P a w) :
    Watches i P (Pure.pure a) w :=
  ⟨hv, .refl w, fun _ ha => Except.ok.inj ha ▸ h⟩

theorem Watches.raise {e : Exn} (hv : AllVouched i w.log) : Watches i P (throwExn e) w :=
  ⟨hv, .refl w, fun _ ha => by cases ha⟩

theorem Watches.ofExcept {r : Except Exn α} (hv : AllVouched i w.log) (h : ∀ a, r = .ok a → P a w) :
    Watches i P (.ofExcept r) w := by
  cases r with
  | ok a => exact .ret hv (h a rfl)
  | error e => exact .raise hv

theorem Watches.bind {p : Code α} {f : α → Code β} (hp : Watches i P p w)
    (hf : ∀ a w', AllVouched i w'.log → Grown w w' → P a w' → Watches i Q (f a) w') :
    Watches i Q (p >>= f) w := by
  refine wp_bind.mpr (hp.mono fun r w' => ?_)
  rintro ⟨hv, hg, hP⟩
  cases r with
  | error e => exact ⟨hv, hg, fun _ hb => by cases hb⟩
  | ok a =>
    exact (hf a w' hv hg (hP a rfl)).mono fun _ _ h => ⟨h.1, hg.trans h.2.1, h.2.2⟩

theorem Watches.attempt {p : Code α} (hp : Watches i P p w) :
    Watches i (fun r w' => ∀ a, r = .ok a → P a w') p.attempt w :=
  wp_attempt.mpr (hp.mono fun _ _ h => ⟨h.1, h.2.1, fun _ hr => Except.ok.inj hr ▸ h.2.2⟩)

/-- A function that neither signs nor sends. -/
theorem Watches.quiet {K : Tables → Tables → Prop} {p : Code α} (hv : AllVouched i w.log)
    (hp : p.Steps (Quiet K)) : Watches i (fun _ _ => True) p w :=
  (hp.wp (I := fun w' => AllVouched i w'.log ∧ Grown w w')
    (fun _ _ _ h hq => ⟨h.1.quiet hq, h.2.trans (.quiet hq)⟩) (fun _ _ h _ => h.1)
    ⟨hv, .refl w⟩).mono fun _ _ h => ⟨h.1, h.2, fun _ _ => trivial⟩

/-- A read of the chain. -/
theorem Watches.rpc (hv : AllVouched i w.log) {q : Query} :
    Watches i (fun a w' => .rpc q (.ok a) ∈ session w'.log) (EscrowSigner.rpc q) w := by
  refine wp_atomic.mpr ⟨hv, fun c _ => ⟨⟨trivial, hv⟩, ?_, fun a ha => ?_⟩⟩
  · exact Grown.of_event (fun _ he => by cases he) rfl
  · have ha : c.answer q = .ok a := ha
    show Event.rpc q (.ok a) ∈ Event.rpc q (c.answer q) :: session w.log
    rw [ha]
    exact List.mem_cons_self

/-- A reading of the clock, in whole seconds. -/
theorem Watches.now (hv : AllVouched i w.log) :
    Watches i (fun time w' => ∃ instant, .clock instant ∈ session w'.log ∧ time = seconds instant)
      EscrowSigner.now w := by
  refine Watches.bind (P := fun instant w' => .clock instant ∈ session w'.log) ?_ ?_
  · refine wp_atomic.mpr ⟨hv, fun c _ => ⟨⟨trivial, hv⟩, ?_, fun a ha => ?_⟩⟩
    · exact Grown.of_event (fun _ he => by cases he) rfl
    · rw [← Except.ok.inj ha]
      exact List.mem_cons_self
  · exact fun instant w' hv' _ hclock => .ret hv' ⟨instant, hclock, rfl⟩

end Rules

/-! ### From the reservation to the broadcast -/

variable {w w' : World} {p : Plan} {row : SpendRow}

theorem Watches.signRow {k : Answers α} (hk : AnswerSteps k) (hv : AllVouched i w.log)
    (hj : Justified i w.log p) : Watches i (fun _ _ => True) (signRow i row (p.tx i row) k) w := by
  have hsign : Watches i (fun _ _ => True) (signTransaction i.ext row (p.tx i row)) w := by
    refine wp_atomic.mpr ⟨hv, fun c _ => ?_⟩
    cases hf : c.signFault <;>
    · simp only [hf]
      exact ⟨⟨⟨p, hj, rfl⟩, hv⟩, .of_event (fun _ he => by cases he) rfl, fun _ _ => trivial⟩
  refine hsign.attempt.bind fun r w₁ hv₁ _ _ => ?_
  cases r with
  | error e =>
    exact (Watches.quiet hv₁ (steps_markDead _ _ _)).bind fun _ w₂ hv₂ _ _ =>
      .quiet hv₂ (hk.refused _ _)
  | ok raw =>
    refine (Watches.quiet hv₁ (steps_markSigned _ _ _ _)).bind fun _ w₂ hv₂ _ _ => ?_
    refine (Watches.rpc hv₂).attempt.bind fun r w₃ hv₃ _ _ => ?_
    cases r with
    | ok txHash =>
      exact (Watches.quiet hv₃ (steps_setState _ _ _ _)).bind fun _ w₄ hv₄ _ _ =>
        .quiet hv₄ (hk.accepted _)
    | error e =>
      cases e with
      | reverted name =>
        exact (Watches.quiet hv₃ (steps_markDead _ _ _)).bind fun _ w₄ hv₄ _ _ =>
          .quiet hv₄ (hk.refused _ _)
      | rpcUnavailable message => exact .quiet hv₃ hk.unavailable
      | _ => exact .raise hv₃

theorem Watches.simulateRow {k : Answers α} {next : Code α} {data : Bytes} (hk : AnswerSteps k)
    (hv : AllVouched i w.log)
    (hnext : ∀ w', AllVouched i w'.log → Grown w w' → Watches i (fun _ _ => True) next w') :
    Watches i (fun _ _ => True) (simulateRow i row data k next) w := by
  refine (Watches.rpc hv).attempt.bind fun r w₁ hv₁ hg₁ _ => ?_
  cases r with
  | ok a => exact hnext w₁ hv₁ hg₁
  | error e =>
    cases e with
    | reverted name =>
      exact (Watches.quiet hv₁ (steps_markDead _ _ _)).bind fun _ w₂ hv₂ _ _ =>
        .quiet hv₂ (hk.refused _ _)
    | rpcUnavailable message =>
      exact (Watches.quiet hv₁ (steps_markDead _ _ _)).bind fun _ w₂ hv₂ _ _ =>
        .quiet hv₂ (hk.refused _ _)
    | _ =>
      exact (Watches.quiet hv₁ (steps_markDead _ _ _)).bind fun _ w₂ hv₂ _ _ => .raise hv₂

theorem Watches.readFees (hv : AllVouched i w.log) {toAddr : String} {data : Bytes} :
    Watches i (fun r w' => .rpc (.estimateGas toAddr data i.address) (.ok r.1) ∈ session w'.log ∧
        .rpc .baseFeeWei (.ok r.2) ∈ session w'.log)
      (readFees i toAddr data) w :=
  (Watches.rpc hv).bind fun _ _ hv₁ _ he₁ => (Watches.rpc hv₁).bind fun _ _ hv₂ hg₂ he₂ =>
    .ret hv₂ ⟨hg₂.session _ he₁, he₂⟩

/-! ### Debits -/

variable {body : Bytes} {env : Envelope} {call : DebitCall} {channel : Channel} {fees : Fees}

/-- What a debit has read about a channel that it accepts. -/
structure ChannelRead (i : Instance) (call : DebitCall) (channel : Channel) (w : World) : Prop where
  read : .rpc (.getChannel i.escrow call.channelId) (.ok channel) ∈ session w.log
  admitted : ∃ instant, .clock instant ∈ session w.log ∧
    channelState i (seconds instant) channel call = .ok none
  unused : .rpc (.receiptUsed i.escrow call.receiptId (some call.channelId)) (.ok false) ∈
    session w.log

theorem ChannelRead.grown (h : ChannelRead i call channel w) (hg : Grown w w') :
    ChannelRead i call channel w' := by
  obtain ⟨instant, ht, hs⟩ := h.admitted
  exact ⟨hg.session _ h.read, ⟨instant, hg.session _ ht, hs⟩, hg.session _ h.unused⟩

theorem Watches.admitChannel (hv : AllVouched i w.log) :
    Watches i (fun r w' => ∀ channel, r = .ok channel → ChannelRead i call channel w')
      (admitChannel i call) w := by
  refine (Watches.quiet hv (steps_verifyChainIdentity (K := StaysHalted) i false)).bind
    fun _ w₁ hv₁ _ _ => ?_
  refine (Watches.rpc hv₁).bind fun channel w₂ hv₂ _ he₂ => ?_
  refine (Watches.now hv₂).bind ?_
  rintro _ w₃ hv₃ hg₃ ⟨instant, ht, rfl⟩
  refine (Watches.ofExcept
    (P := fun reason _ => channelState i (seconds instant) channel call = .ok reason)
    hv₃ fun _ hr => hr).bind fun reason w₄ hv₄ hg₄ hstate => ?_
  cases reason with
  | some reason => exact .ret hv₄ fun _ h => by cases h
  | none =>
    refine (Watches.rpc hv₄).bind fun used w₅ hv₅ hg₅ he₅ => ?_
    cases used with
    | true => exact .ret hv₅ fun _ h => by cases h
    | false =>
      refine .ret hv₅ fun _ h => ?_
      cases h
      exact ⟨hg₅.session _ (hg₄.session _ (hg₃.session _ he₂)),
        ⟨instant, hg₅.session _ (hg₄.session _ ht), hstate⟩, he₅⟩

/-- A debit from its channel on. -/
theorem Watches.priceDebit (hv : AllVouched i w.log) (hask : request w.log = some (.handle body))
    (henv : parseEnvelope i body = .ok env) (hdec : Calldata.decodeDebit i.ext env.data = .ok call)
    (hread : ChannelRead i call channel w) (hdep : checkDepositor i call channel = .ok none)
    {common : Common} :
    Watches i (fun _ _ => True) (priceDebit i env call channel common) w := by
  refine (Watches.readFees hv).attempt.bind fun r w₁ hv₁ hg₁ hfees => ?_
  cases r with
  | error e => exact .quiet hv₁ (steps_refuseRead (K := StaysHalted) _ _)
  | ok prices =>
    obtain ⟨he, hb⟩ := hfees prices rfl
    dsimp only
    split
    · exact .ret hv₁ trivial
    rename_i fees hpriced
    have hread₁ := hread.grown hg₁
    have hj : Justified i w₁.log (.debit body env call channel fees) :=
      ⟨hg₁.request.trans hask, henv, hdec, hread₁.read, hread₁.admitted, hread₁.unused, hdep,
        _, _, _, _, he, hb, hpriced⟩
    refine (Watches.quiet hv₁ (steps_reserve _ _ _)).attempt.bind fun r w₂ hv₂ hg₂ _ => ?_
    cases r with
    | error e => exact .quiet hv₂ (steps_refuseReservation (K := StaysHalted) _ _)
    | ok row =>
      exact .simulateRow (answerSteps_request _ _) hv₂ fun w₃ hv₃ hg₃ =>
        Watches.signRow (p := .debit body env call channel fees) (answerSteps_request _ _) hv₃
          ((hj.grown hg₂).grown hg₃)

theorem Watches.freshDebit (hv : AllVouched i w.log) (hask : request w.log = some (.handle body))
    (henv : parseEnvelope i body = .ok env) (hdec : Calldata.decodeDebit i.ext env.data = .ok call)
    {common : Common} : Watches i (fun _ _ => True) (freshDebit i env call common) w := by
  refine (Watches.admitChannel hv).attempt.bind fun r w₁ hv₁ hg₁ hread => ?_
  cases r with
  | error e =>
    cases e with
    | chainUnverified message => exact .ret hv₁ trivial
    | _ => exact .quiet hv₁ (steps_refuseRead (K := StaysHalted) _ _)
  | ok r =>
    cases r with
    | error reason => exact .ret hv₁ trivial
    | ok channel =>
      refine (Watches.ofExcept (P := fun reason _ => checkDepositor i call channel = .ok reason)
        hv₁ fun _ hr => hr).bind fun reason w₂ hv₂ hg₂ hdep => ?_
      cases reason with
      | some reason => exact .ret hv₂ trivial
      | none =>
        exact .priceDebit hv₂ (hg₂.request.trans (hg₁.request.trans hask)) henv hdec
          ((hread _ rfl channel rfl).grown hg₂) hdep

theorem Watches.handleDebit (hv : AllVouched i w.log) (hask : request w.log = some (.handle body))
    (henv : parseEnvelope i body = .ok env) (hdec : Calldata.decodeDebit i.ext env.data = .ok call)
    {digest : String} : Watches i (fun _ _ => True) (handleDebit i env call digest) w := by
  refine (Watches.now hv).bind fun time w₁ hv₁ hg₁ _ => ?_
  have hask₁ := hg₁.request.trans hask
  dsimp only
  split
  · exact .ret hv₁ trivial
  split
  · exact .ret hv₁ trivial
  refine (Watches.quiet hv₁ (steps_get _)).bind fun existing w₂ hv₂ hg₂ _ => ?_
  have hask₂ := hg₂.request.trans hask₁
  cases existing with
  | none => exact .freshDebit hv₂ hask₂ henv hdec
  | some row =>
    refine (Watches.quiet hv₂ (steps_replay i _ _ _ _ _ _)).bind fun decision w₃ hv₃ hg₃ _ => ?_
    cases decision with
    | some decision => exact .ret hv₃ trivial
    | none => exact .freshDebit hv₃ (hg₃.request.trans hask₂) henv hdec

/-! ### Expired channels -/

theorem Watches.freshExpire {call : ExpireCall} (hv : AllVouched i w.log)
    (hask : request w.log = some (.handle body)) (henv : parseEnvelope i body = .ok env)
    (hdec : Calldata.decodeExpire i.ext env.data = .ok call) {common : Common} :
    Watches i (fun _ _ => True)
      (freshExpire i env call (expireReceipt i call.channelId) (hexString call.channelId) common)
      w := by
  refine (Watches.quiet hv (steps_readExpired (K := StaysHalted) i call)).attempt.bind
    fun r w₁ hv₁ hg₁ _ => ?_
  cases r with
  | error e =>
    cases e with
    | chainUnverified message => exact .ret hv₁ trivial
    | _ => exact .quiet hv₁ (steps_refuseRead (K := StaysHalted) _ _)
  | ok channel =>
    refine (Watches.now hv₁).bind fun time w₂ hv₂ hg₂ _ => ?_
    split
    · exact .ret hv₂ trivial
    refine (Watches.readFees hv₂).attempt.bind fun r w₃ hv₃ hg₃ hfees => ?_
    cases r with
    | error e => exact .quiet hv₃ (steps_refuseRead (K := StaysHalted) _ _)
    | ok prices =>
      obtain ⟨he, hb⟩ := hfees prices rfl
      dsimp only
      split
      · exact .ret hv₃ trivial
      rename_i fees hpriced
      have hj : Justified i w₃.log (.expire body env call fees) :=
        ⟨hg₃.request.trans (hg₂.request.trans (hg₁.request.trans hask)), henv, hdec,
          _, _, _, _, he, hb, hpriced⟩
      refine (Watches.quiet hv₃ (steps_reserveGasOnly _ _ _)).attempt.bind
        fun r w₄ hv₄ hg₄ _ => ?_
      cases r with
      | error e => exact .quiet hv₄ (steps_refuseReservation (K := StaysHalted) _ _)
      | ok row =>
        exact .simulateRow (answerSteps_request _ _) hv₄ fun w₅ hv₅ hg₅ =>
          Watches.signRow (p := .expire body env call fees) (answerSteps_request _ _) hv₅
            ((hj.grown hg₄).grown hg₅)

theorem Watches.handleExpire (hv : AllVouched i w.log) (hask : request w.log = some (.handle body))
    (henv : parseEnvelope i body = .ok env) {digest : String} :
    Watches i (fun _ _ => True) (handleExpire i env digest) w := by
  unfold Policy.handleExpire
  split
  · exact .ret hv trivial
  · exact .raise hv
  rename_i call hdec
  dsimp only
  split
  · exact .ret hv trivial
  refine (Watches.quiet hv (steps_get _)).bind fun existing w₁ hv₁ hg₁ _ => ?_
  have hask₁ := hg₁.request.trans hask
  cases existing with
  | none => exact .freshExpire hv₁ hask₁ henv hdec
  | some row =>
    dsimp only
    split
    · exact .ret hv₁ trivial
    · exact .freshExpire hv₁ hask₁ henv hdec

theorem Watches.handle (hv : AllVouched i w.log) (hask : request w.log = some (.handle body)) :
    Watches i (fun _ _ => True) (handle i body) w := by
  refine (Watches.quiet hv steps_halted).bind fun reason w₁ hv₁ hg₁ _ => ?_
  split
  · exact .ret hv₁ trivial
  refine (Watches.quiet hv₁ (steps_readMemory (K := StaysHalted))).bind fun mem w₂ hv₂ hg₂ _ => ?_
  have hask₂ := hg₂.request.trans (hg₁.request.trans hask)
  split
  · exact .ret hv₂ trivial
  split
  · exact .ret hv₂ trivial
  rename_i env henv
  unfold dispatch
  dsimp only
  split
  · exact .handleExpire hv₂ hask₂ henv
  split
  · exact .ret hv₂ trivial
  unfold decodeRequest
  dsimp only
  split
  · exact .ret hv₂ trivial
  · exact .raise hv₂
  · rename_i call hdec
    obtain ⟨call', hcall, hdec⟩ := bind_ok_iff.mp hdec
    obtain ⟨_, -, hdec⟩ := bind_ok_iff.mp hdec
    cases hdec
    exact .handleDebit hv₂ hask₂ henv hcall

/-! ### Sweeps -/

theorem Watches.signSweep {recipient : String} {balance : Int} {data : Bytes}
    (hv : AllVouched i w.log) (hask : request w.log = some .sweep)
    (hchosen : recipient = strip i.settings.sweepTo)
    (hread : .rpc (.tokenBalance Config.token i.address) (.ok balance) ∈ session w.log)
    (henough : i.settings.sweepMinUnits ≤ balance)
    (hdata : Calldata.encodeTransfer i.ext recipient balance = .ok data)
    (hpriced : Priced i fees w.log) {common : Common} :
    Watches i (fun _ _ => True) (signSweep i recipient balance data common fees) w := by
  refine (Watches.now hv).bind ?_
  rintro _ w₁ hv₁ hg₁ ⟨instant, ht, rfl⟩
  refine (Watches.ofExcept
    (P := fun receipt _ => sweepReceipt i recipient (seconds instant) balance = .ok receipt)
    hv₁ fun _ hr => hr).bind fun receipt w₂ hv₂ hg₂ hreceipt => ?_
  have hg := hg₁.trans hg₂
  have hj : Justified i w₂.log (.sweep recipient balance data receipt fees) := by
    obtain ⟨toAddr, bytes, estimate, baseFee, he, hb, hf⟩ := hpriced
    exact ⟨hg.request.trans hask, hchosen, hg.session _ hread, henough, hdata,
      ⟨instant, hg₂.session _ ht, hreceipt⟩,
      toAddr, bytes, estimate, baseFee, hg.session _ he, hg.session _ hb, hf⟩
  refine (Watches.quiet hv₂ (steps_reserveGasOnly _ _ _)).attempt.bind fun r w₃ hv₃ hg₃ _ => ?_
  cases r with
  | error e =>
    cases e with
    | capBreach name retryAfterS => exact .quiet hv₃ (steps_refuseSweep i _ _ _)
    | clockRegression message => exact .quiet hv₃ (steps_refuseSweep i _ _ _)
    | ledgerUnavailable message => exact .quiet hv₃ (steps_refuseSweep i _ _ _)
    | _ => exact .raise hv₃
  | ok row =>
    exact Watches.signRow (p := .sweep recipient balance data receipt fees)
      (answerSteps_sweep i _ _ _) hv₃ (hj.grown hg₃)

theorem Watches.startSweep {recipient : String} (hv : AllVouched i w.log)
    (hask : request w.log = some .sweep) (hchosen : recipient = strip i.settings.sweepTo) :
    Watches i (fun _ _ => True) (startSweep i recipient) w := by
  have hbalance : Watches i (fun balance w' =>
      .rpc (.tokenBalance Config.token i.address) (.ok balance) ∈ session w'.log)
      (readBalance i) w :=
    (Watches.quiet hv (steps_verifyChainIdentity (K := StaysHalted) i false)).bind
      fun _ _ hv' _ _ => .rpc hv'
  refine hbalance.attempt.bind fun r w₁ hv₁ hg₁ hread => ?_
  cases r with
  | error e =>
    cases e with
    | chainUnverified message => exact .quiet hv₁ (steps_refuseSweep i _ _ _)
    | rpcUnavailable message => exact .ret hv₁ trivial
    | reverted name => exact .ret hv₁ trivial
    | _ => exact .raise hv₁
  | ok balance =>
    dsimp only
    split
    · exact .ret hv₁ trivial
    rename_i henough
    refine (Watches.ofExcept
      (P := fun data _ => Calldata.encodeTransfer i.ext recipient balance = .ok data)
      hv₁ fun _ hr => hr).bind fun data w₂ hv₂ hg₂ hdata => ?_
    refine (Watches.readFees hv₂).attempt.bind fun r w₃ hv₃ hg₃ hfees => ?_
    cases r with
    | error e =>
      cases e with
      | reverted name => exact .quiet hv₃ (steps_refuseSweep i _ _ _)
      | rpcUnavailable message => exact .ret hv₃ trivial
      | _ => exact .raise hv₃
    | ok prices =>
      obtain ⟨he, hb⟩ := hfees prices rfl
      dsimp only
      split
      · exact .quiet hv₃ (steps_refuseSweep i _ _ _)
      rename_i fees hpriced
      have hg := hg₂.trans hg₃
      exact .signSweep hv₃ (hg.request.trans (hg₁.request.trans hask)) hchosen
        (hg.session _ (hread balance rfl)) (not_lt.mp henough) hdata
        ⟨_, _, _, _, he, hb, hpriced⟩

theorem Watches.sweepProceeds (hv : AllVouched i w.log) (hask : request w.log = some .sweep) :
    Watches i (fun _ _ => True) (sweepProceeds i) w := by
  unfold Policy.sweepProceeds
  generalize h : strip i.settings.sweepTo = recipient
  refine (Watches.quiet hv (steps_readMemory (K := StaysHalted))).bind fun mem w₁ hv₁ hg₁ _ => ?_
  split
  · exact .ret hv₁ trivial
  split
  · exact .ret hv₁ trivial
  refine (Watches.quiet hv₁ (steps_select _)).bind fun rows w₂ hv₂ hg₂ _ => ?_
  refine (Watches.quiet hv₂ (steps_settleSweeps i rows)).bind fun settled w₃ hv₃ hg₃ _ => ?_
  split
  · exact .startSweep hv₃ (hg₃.request.trans (hg₂.request.trans (hg₁.request.trans hask))) h.symm
  · exact .ret hv₃ trivial

/-! ### Runs -/

/-- Every call asks only for signatures that it has justified. -/
theorem Watches.serve (c : Call) (hv : AllVouched i w.log) (hask : request w.log = some c) :
    Watches i (fun _ _ => True) (serve i c) w := by
  cases c with
  | boot => exact (Watches.quiet hv (steps_boot i)).bind fun _ _ hv' _ _ => .ret hv' trivial
  | handle body => exact (Watches.handle hv hask).bind fun _ _ hv' _ _ => .ret hv' trivial
  | sweep => exact .sweepProceeds hv hask

end EscrowSigner.Machine
