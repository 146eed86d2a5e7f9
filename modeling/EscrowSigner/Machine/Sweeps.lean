import EscrowSigner.Machine.Requests

/-! The sweep of proceeds in the machine, from the sweeps before it to its own broadcast. -/

namespace EscrowSigner.Machine

open Policy

variable {σ : Setting} {φ : Phase} {w w' : World} {row : SpendRow}

/-! ### Audited decisions -/

theorem Ends.decideSweep (h : Ends σ w) (d : Decision) :
    Leads σ (fun _ => Ends σ) (Policy.decideSweep σ.i d) w := by
  obtain ⟨φ, hat, hfree⟩ := h.free
  refine Leads.bind (P := fun _ => Ends σ) (Leads.bind (hat.audit (.inl hfree)) ?_)
    fun _ _ _ h => Triple.pure h
  rintro _ w₁ - ⟨h₁, -⟩
  exact Triple.pure (h₁.ends hfree)

theorem Ends.refuseSweep (h : Ends σ w) (common : Common) (status : Int) (reason : String) :
    Leads σ (fun _ => Ends σ) (Policy.refuseSweep σ.i common status reason) w :=
  h.decideSweep _

theorem quits_sweepAnswers {p : Plan} (recipient : String) (balance : Int) (common : Common) :
    Quits σ p row (fun _ => Ends σ) (sweepAnswers σ.i recipient balance common) :=
  ⟨fun _ _ _ _ h => h.refuseSweep _ _ _, fun _ h => Triple.pure h,
    fun _ h _ => h.endsIdle.decideSweep _⟩

/-! ### The sweeps before -/

/-- The outcome of the loop over the attempts of a sweep. -/
def SweepDecided (σ : Setting) (row : SpendRow) (w : World) : Option Bool → World → Prop
  | some true, w' => At σ .idle w' ∧ Resolved row.key w w'
  | some false, w' => At σ .idle w'
  | none, w' => At σ .idle w' ∧ Undecided w w'

theorem At.settleSweepAttempts {attempts : List TxAttempt} (h : At σ .idle w)
    (hrow : row ∈ w.tables.spend.rows) (hlive : row.state.live = true)
    (hb : Booked w row attempts) :
    Leads σ (SweepDecided σ row w) (Policy.settleSweepAttempts σ.i row attempts) w := by
  induction attempts generalizing w with
  | nil => exact Triple.pure ⟨h, .refl w⟩
  | cons a rest ih =>
    have onward : ∀ {w₂ : World}, At σ .idle w₂ → Undecided w w₂ →
        Leads σ (SweepDecided σ row w) (Policy.settleSweepAttempts σ.i row rest) w₂ := by
      intro w₂ h₂ hu
      have hb₂ : Booked w₂ row rest :=
        Booked.restamped (fun a' ha' => hb a' (List.mem_cons_of_mem _ ha')) hu.attempts
      refine (ih h₂ (hu.rows ▸ hrow) hb₂).mono ?_
      rintro (_ | _ | _) w₃ - hd
      · exact ⟨hd.1, hu.trans hd.2⟩
      · exact hd
      · exact ⟨hd.1, hd.2.after_rows hu.rows⟩
    unfold Policy.settleSweepAttempts
    refine Triple.catch (h.askReceipt (.inl rfl) hrow hlive hb) ?_ ?_
    · rintro receipt w₁ - ⟨ht₁, hread, h₁, hafter⟩
      simp only
      split
      · rename_i htruthy
        refine Leads.bind ((hafter htruthy).settleReceipt (.inl rfl) hread (ht₁ ▸ hrow)) ?_
        rintro b w₂ - hd
        cases b with
        | true => exact Triple.pure ⟨hd.1, hd.2.after_rows (by rw [ht₁])⟩
        | false => exact onward hd.1 ⟨by rw [hd.2.rows, ht₁], ht₁ ▸ hd.2.attempts⟩
      · exact onward h₁ ⟨by rw [ht₁], ht₁ ▸ rfl⟩
    · rintro e w₁ - h₁
      cases e with
      | rpcUnavailable message => exact Triple.pure h₁
      | _ => exact Triple.raise h₁.endsIdle

theorem At.sweepOverdue (h : At σ .idle w) (hlive : row.state.live = true)
    (hc : row.channelId = sweepChannel) :
    Leads σ (fun b w' => At σ .idle w' ∧ w'.tables = w.tables ∧
        (b = true → Falls (stateOf σ.i w') row .idle)) (Policy.sweepOverdue row) w := by
  unfold Policy.sweepOverdue
  split
  · rename_i hs
    exact Triple.pure ⟨h, rfl, fun _ => .unsentSweep hc hs⟩
  · refine Leads.bind h.now ?_
    rintro time w₁ - ⟨h₁, ht₁, rfl, hclock⟩
    exact Triple.pure ⟨h₁, ht₁, fun hlate =>
      .lostSweep w₁.clock hc hlive (mem_of_mem_session hclock) (of_decide_eq_true hlate)⟩

theorem At.settleSweepRow (h : At σ .idle w) (hrow : row ∈ w.tables.spend.rows)
    (hlive : row.state.live = true) (hc : row.channelId = sweepChannel) :
    Leads σ (fun b w' => At σ .idle w' ∧ (b = true → Resolved row.key w w'))
      (Policy.settleSweepRow σ.i row) w := by
  unfold Policy.settleSweepRow
  refine Leads.bind (h.select (.inr ⟨_, rfl⟩)) ?_
  rintro attempts w₁ - ⟨h₁, hatt, ht₁, -⟩
  rw [Except.ok.injEq, ← ht₁] at hatt
  subst hatt
  refine Leads.bind (h₁.settleSweepAttempts (ht₁ ▸ hrow) hlive
    fun a ha => ⟨a, (mem_attemptsFor.mp ha).1, rfl, (mem_attemptsFor.mp ha).2⟩) ?_
  rintro (_ | _ | _) w₂ - hd
  · refine Leads.bind (hd.1.sweepOverdue hlive hc) ?_
    rintro overdue w₃ - ⟨h₃, ht₃, hfalls⟩
    have hrows : w₃.tables.spend.rows = w.tables.spend.rows := by rw [ht₃, hd.2.rows, ht₁]
    cases overdue with
    | false => exact Triple.pure ⟨h₃, nofun⟩
    | true =>
      refine Leads.bind (h₃.release (hrows ▸ hrow) (hfalls rfl) _) ?_
      rintro _ w₄ - ⟨h₄, hres⟩
      exact Triple.pure ⟨h₄, fun _ => hres.after_rows hrows⟩
  · exact Triple.pure ⟨hd, nofun⟩
  · exact Triple.pure ⟨hd.1, fun _ => hd.2.after_rows (by rw [ht₁])⟩

/-- No live sweep is left in the books. -/
def NoSweep (w : World) : Prop :=
  ∀ r ∈ w.tables.spend.rows, r.channelId = sweepChannel → r.state.live = false

/-- The loop over the live rows: a live sweep that is not settled yet is still to come. -/
theorem At.settleSweeps {rows : List SpendRow} (h : At σ .idle w)
    (hkeys : (rows.map SpendRow.key).Nodup)
    (hrows : ∀ r ∈ rows, r ∈ w.tables.spend.rows ∧ r.state.live = true)
    (hall : ∀ r ∈ w.tables.spend.rows, r.channelId = sweepChannel → r.state.live = true →
      r ∈ rows) :
    Leads σ (fun b w' => At σ .idle w' ∧ (b = true → NoSweep w'))
      (Policy.settleSweeps σ.i rows) w := by
  induction rows generalizing w with
  | nil =>
    refine Triple.pure ⟨h, fun _ r hr hc => ?_⟩
    cases hlive : r.state.live with
    | false => rfl
    | true => exact absurd (hall r hr hc hlive) (List.not_mem_nil)
  | cons row rest ih =>
    obtain ⟨hrow, hlive⟩ := hrows row List.mem_cons_self
    rw [List.map_cons, List.nodup_cons] at hkeys
    have hrest := fun r hr => hrows r (List.mem_cons_of_mem row hr)
    unfold Policy.settleSweeps
    split
    · rename_i hc
      refine Leads.bind (h.settleSweepRow hrow hlive hc) ?_
      rintro settled w₁ - ⟨h₁, hres⟩
      cases settled with
      | false => exact Triple.pure ⟨h₁, nofun⟩
      | true =>
        have hres := hres rfl
        refine ih h₁ hkeys.2 (fun r hr => ⟨hres.others r (hrest r hr).1 fun hk =>
          hkeys.1 (hk ▸ List.mem_map_of_mem hr), (hrest r hr).2⟩) fun r hr hc' hlive' => ?_
        rcases hres.back r hr with hr' | hdead
        · refine (List.mem_cons.mp (hall r hr' hc' hlive')).resolve_left fun heq => ?_
          have := hres.gone r hr (by rw [heq])
          rw [this] at hlive'
          cases hlive'
        · rw [hdead] at hlive'
          cases hlive'
    · rename_i hc
      refine ih h hkeys.2 hrest fun r hr hc' hlive' => ?_
      exact (List.mem_cons.mp (hall r hr hc' hlive')).resolve_left fun heq => hc (heq ▸ hc')

/-! ### A new sweep -/

/-- What a sweep knows once it has read the balance. -/
structure Sweeping (σ : Setting) (recipient : String) (balance : Int) (w : World) : Prop where
  at_ : At σ .idle w
  asked : request w.log = some .sweep
  chosen : recipient = strip σ.i.settings.sweepTo
  alone : NoSweep w
  read : .rpc (.tokenBalance Config.token σ.i.address) (.ok balance) ∈ session w.log
  enough : σ.i.settings.sweepMinUnits ≤ balance

variable {recipient : String} {balance : Int}

theorem Sweeping.next (h : Sweeping σ recipient balance w) (hl : Later σ w w')
    (hat : At σ .idle w') (ht : w'.tables = w.tables) : Sweeping σ recipient balance w' :=
  ⟨hat, hl.request.trans h.asked, h.chosen, fun r hr => h.alone r (ht ▸ hr), hl.session _ h.read,
    h.enough⟩

theorem Sweeping.signSweep (h : Sweeping σ recipient balance w) {data : Bytes} {common : Common}
    {fees : Fees} (hdata : Calldata.encodeTransfer σ.i.ext recipient balance = .ok data)
    (hp : Priced σ.i fees w.log) :
    Leads σ (fun _ => Ends σ) (Policy.signSweep σ.i recipient balance data common fees) w := by
  unfold Policy.signSweep
  refine Leads.bind h.at_.now ?_
  rintro time w₁ hl₁ ⟨h₁, ht₁, rfl, hclock⟩
  refine Leads.bind (P := fun receipt w' => w' = w₁ ∧
    sweepReceipt σ.i recipient (seconds w₁.clock) balance = .ok receipt)
    (Triple.ofExcept (fun _ hr => ⟨rfl, hr⟩) fun _ _ => h₁.endsIdle) ?_
  rintro receipt w₂ - ⟨rfl, hreceipt⟩
  have hs := h.next hl₁ h₁ ht₁
  have hj : Justified σ.i w₂.log (.sweep recipient balance data receipt fees) := by
    obtain ⟨toAddr, bytes, estimate, baseFee, he, hb, hf⟩ := hp
    exact ⟨hs.asked, hs.chosen, hs.read, hs.enough, hdata, ⟨_, hclock, hreceipt⟩,
      ⟨toAddr, bytes, estimate, baseFee, hl₁.session _ he, hl₁.session _ hb, hf⟩⟩
  have hreserve := h₁.reserveGasOnly (p := .sweep recipient balance data receipt fees)
    (a := Plan.sweepRequest σ.i data receipt fees) rfl rfl rfl hj
    fun _ hfee => ⟨hs.alone, hfee⟩
  refine Triple.catch hreserve ?_ ?_
  · rintro row w₃ - h₃
    exact h₃.signRow (quits_sweepAnswers _ _ _)
  · rintro e w₃ - he
    cases e with
    | capBreach name retryAfterS => exact he.refuseSweep _ _ _
    | clockRegression message => exact he.refuseSweep _ _ _
    | ledgerUnavailable message => exact he.refuseSweep _ _ _
    | _ => exact Triple.raise he

theorem Sweeping.sweepBalance (h : Sweeping σ recipient balance w) :
    Leads σ (fun _ => Ends σ) (Policy.sweepBalance σ.i recipient balance) w := by
  unfold Policy.sweepBalance
  refine Leads.bind (P := fun data w' => w' = w ∧
    Calldata.encodeTransfer σ.i.ext recipient balance = .ok data)
    (Triple.ofExcept (fun _ hr => ⟨rfl, hr⟩) fun _ _ => h.at_.endsIdle) ?_
  rintro data w₁ - ⟨rfl, hdata⟩
  refine Triple.catch h.at_.readFees ?_ ?_
  · rintro ⟨estimate, baseFee⟩ w₂ hl₂ ⟨h₂, ht₂, he, hb⟩
    simp only
    split
    · exact h₂.endsIdle.refuseSweep _ _ _
    · rename_i fees hfees
      exact (h.next hl₂ h₂ ht₂).signSweep hdata ⟨_, _, _, _, he, hb, hfees⟩
  · rintro e w₂ - he
    cases e with
    | reverted name => exact he.refuseSweep _ _ _
    | rpcUnavailable message => exact Triple.pure he
    | _ => exact Triple.raise he

theorem At.startSweep (h : At σ .idle w) (hask : request w.log = some .sweep) (hn : NoSweep w)
    (hrecipient : recipient = strip σ.i.settings.sweepTo) :
    Leads σ (fun _ => Ends σ) (Policy.startSweep σ.i recipient) w := by
  refine Triple.catch (P := fun balance w' => At σ .idle w' ∧ w'.tables = w.tables ∧
    .rpc (.tokenBalance Config.token σ.i.address) (.ok balance) ∈ session w'.log)
    (Leads.bind (h.verifyChainIdentity false) ?_) ?_ ?_
  · rintro _ w₁ - ⟨h₁, ht₁⟩
    exact Leads.mono (h₁.ask (q := .tokenBalance _ _) rfl) fun _ _ _ ⟨h₂, ht₂, he⟩ =>
      ⟨h₂, ht₂.trans ht₁, he⟩
  · rintro balance w₂ hl₂ ⟨h₂, ht₂, he⟩
    simp only
    split
    · exact Triple.pure h₂.endsIdle
    · rename_i henough
      exact Sweeping.sweepBalance ⟨h₂, hl₂.request.trans hask, hrecipient,
        fun r hr => hn r (ht₂ ▸ hr), he, not_lt.mp henough⟩
  · rintro e w₂ - he
    cases e with
    | chainUnverified message => exact he.refuseSweep _ _ _
    | rpcUnavailable message => exact Triple.pure he
    | reverted name => exact Triple.pure he
    | _ => exact Triple.raise he

/-- A sweep, from any state in which the timer can tick. -/
theorem At.sweepProceeds (h : At σ .idle w) (hask : request w.log = some .sweep) :
    Leads σ (fun _ => Ends σ) (Policy.sweepProceeds σ.i) w := by
  unfold Policy.sweepProceeds
  simp only
  generalize hrecipient : strip σ.i.settings.sweepTo = recipient
  refine Leads.bind h.readMemory ?_
  rintro mem w₁ hl₁ ⟨h₁, -⟩
  split
  · exact Triple.pure h₁.endsIdle
  split
  · exact Triple.pure h₁.endsIdle
  refine Leads.bind h₁.unresolved ?_
  rintro rows w₂ hl₂ ⟨h₂, -, rfl⟩
  refine Leads.bind (h₂.settleSweeps (unresolved_keys _) (fun r hr => mem_unresolved.mp hr)
    fun r hr _ hlive => mem_unresolved.mpr ⟨hr, hlive⟩) ?_
  rintro clear w₃ hl₃ ⟨h₃, hn⟩
  cases clear with
  | false => exact Triple.pure h₃.endsIdle
  | true =>
    exact h₃.startSweep (((hl₁.trans hl₂).trans hl₃).request.trans hask) (hn rfl) hrecipient.symm

end EscrowSigner.Machine
