import EscrowSigner.Machine.Triple

/-! Triples of the single steps of the code: reads of clock and memory, SQL statements outside a
transaction, and calls on the RPC pool. -/

namespace EscrowSigner.Machine

variable {σ : Setting} {φ φ' : Phase} {w w' : World} {α : Type}

theorem World.write_eq {c : Choice} {t : Tables} (h : w.db.working = none) :
    (w.advance c).write t = { w with db := ⟨t, none⟩, clock := c.now, chain := c.chain } := by
  simp [World.write, World.advance, Db.write, h]

theorem Later.of_log {c : Choice} (hc : σ.permits w c) (hlog : w'.log = w.log)
    (hclock : w'.clock = c.now) (hchain : w'.chain = c.chain) : Later σ w w' :=
  ⟨by rw [hlog], fun _ h => hlog ▸ h, fun _ h => hlog ▸ h, fun hs => hclock ▸ hs _ _ hc,
    fun hl => hchain ▸ hl _ _ hc⟩

theorem Later.of_passive {c : Choice} {e : Event} (hc : σ.permits w c) (he : Passive c e)
    (hlog : w'.log = e :: w.log) (hclock : w'.clock = c.now) (hchain : w'.chain = c.chain) :
    Later σ w w' := by
  refine ⟨?_, fun e' h => ?_, fun e' h => hlog ▸ List.mem_cons_of_mem _ h,
    fun hs => hclock ▸ hs _ _ hc, fun hl => hchain ▸ hl _ _ hc⟩
  · rw [hlog]
    cases he <;> rfl
  · rw [hlog]
    cases he <;> exact List.mem_cons_of_mem _ h

theorem World.fail_tables {c : Choice} {fault : Fault} :
    ((w.advance c).fail fault).tables = w.tables := by
  unfold World.fail
  split <;> rfl

/-- A step that leaves the database alone. -/
theorem At.pass {c : Choice} (h : At σ φ w) (hc : σ.permits w c) (hdb : w'.db = w.db)
    (hclock : w'.clock = c.now) (hchain : w'.chain = c.chain)
    (hlog : w'.log = w.log ∨ ∃ e, Passive c e ∧ w'.log = e :: w.log) : At σ φ w' := by
  refine h.step (hdb ▸ h.closed) ?_
  have hs : stateOf σ.i w' = { (stateOf σ.i w).after c with
      log := w'.log, maxTs := (stateOf σ.i w).maxTs, maxSeq := (stateOf σ.i w).maxSeq } := by
    simp only [stateOf, stateAt, State.after, World.tables, hdb, hclock, hchain]
  rw [hs]
  exact .pass hc hlog (.inl rfl) le_rfl

/-- An SQL statement that fails. -/
theorem At.fault {c : Choice} (h : At σ φ w) (hc : σ.permits w c) (fault : Fault)
    (hf : c.fault = some fault) :
    Later σ w ((w.advance c).fail fault) ∧ Ends σ ((w.advance c).fail fault) := by
  rw [World.fail_eq h.closed]
  refine ⟨.of_log hc rfl rfl rfl, At.ends (h.pass hc rfl rfl rfl (.inl rfl)) (.inr fun hh => ?_)⟩
  rw [(hh.1 _ _ hc).1] at hf
  cases hf

/-- The events of a log after one that is no call. -/
theorem mem_session_cons {c : Choice} {e : Event} {log : List Event} (he : Passive c e) :
    e ∈ session (e :: log) := by
  cases he <;> exact List.mem_cons_self

/-! ### SQL statements -/

/-- A statement whose effect on the committed tables is a step of the machine. -/
theorem At.sql {f : Tables → Except Exn (Tables × α)} (h : At σ φ w) (φ' : Phase)
    (hok : Free σ φ ∨ ∃ r, f w.tables = .ok r)
    (hstep : ∀ c t a, σ.permits w c → f w.tables = .ok (t, a) →
      Step σ.i σ.env σ.ok (φ, stateOf σ.i w) (φ', stateAt σ.i t w.log c.now c.chain)) :
    Leads σ (fun a w' => At σ φ' w' ∧ f w.tables = .ok (w'.tables, a) ∧ w'.log = w.log)
      (sql f) w := by
  have hcommits : ∀ c, σ.permits w c → σ.Commits φ w (statement f c (w.advance c)).1 := by
    intro c hc
    simp only [statement]
    cases c.fault with
    | some fault => exact .inl World.fail_tables
    | none =>
      have hv : (w.advance c).view = w.tables := h.view
      simp only [hv]
      cases hr : f w.tables with
      | error e => exact .inl rfl
      | ok r =>
        simp only [World.write_eq h.closed]
        exact .inr ⟨φ', hstep c r.1 r.2 hc hr⟩
  refine Triple.action (h.run.safe (fun c => .inl (statement_log f c _)) hcommits) fun c hc => ?_
  simp only [statement]
  cases hf : c.fault with
  | some fault => exact h.fault hc fault hf
  | none =>
    have hv : (w.advance c).view = w.tables := h.view
    simp only [hv]
    cases hr : f w.tables with
    | error e =>
      refine ⟨.of_log hc rfl rfl rfl, At.ends (h.pass hc rfl rfl rfl (.inl rfl)) ?_⟩
      refine hok.resolve_right ?_
      rintro ⟨r, hr'⟩
      rw [hr] at hr'
      cases hr'
    | ok r =>
      obtain ⟨t, a⟩ := r
      simp only [World.write_eq h.closed]
      exact ⟨.of_log hc rfl rfl rfl, h.step rfl (hstep c t a hc hr), rfl, rfl⟩

/-- A `SELECT` outside a transaction. -/
theorem At.select {f : Tables → Except Exn α} (h : At σ φ w)
    (hok : Free σ φ ∨ ∃ a, f w.tables = .ok a) :
    Leads σ (fun a w' => At σ φ w' ∧ f w.tables = .ok a ∧ w'.tables = w.tables ∧ w'.log = w.log)
      (select f) w := by
  refine (h.sql φ ?_ ?_).mono ?_
  · refine hok.imp_right fun ⟨a, ha⟩ => ⟨(w.tables, a), ?_⟩
    simp only [ha]
    rfl
  · intro c t a hc hr
    obtain ⟨a', ha', hr⟩ := bind_ok_iff.mp hr
    cases hr
    exact .pass hc (.inl rfl) (.inl rfl) le_rfl
  · rintro a w' - ⟨hat, hr, hlog⟩
    obtain ⟨a', ha', hr⟩ := bind_ok_iff.mp hr
    simp only [pure, Except.pure, Except.ok.injEq, Prod.mk.injEq] at hr
    exact ⟨hat, hr.2 ▸ ha', hr.1.symm, hlog⟩

/-- An `INSERT` or `UPDATE` outside a transaction. -/
theorem At.update {f : Tables → Except Exn Tables} (h : At σ φ w) (φ' : Phase)
    (hok : Free σ φ ∨ ∃ t, f w.tables = .ok t)
    (hstep : ∀ c t, σ.permits w c → f w.tables = .ok t →
      Step σ.i σ.env σ.ok (φ, stateOf σ.i w) (φ', stateAt σ.i t w.log c.now c.chain)) :
    Leads σ (fun _ w' => At σ φ' w' ∧ f w.tables = .ok w'.tables ∧ w'.log = w.log)
      (update f) w := by
  refine (h.sql φ' ?_ ?_).mono ?_
  · refine hok.imp_right fun ⟨t, ht⟩ => ⟨(t, ()), ?_⟩
    simp only [ht]
    rfl
  · intro c t a hc hr
    obtain ⟨t', ht', hr⟩ := bind_ok_iff.mp hr
    cases hr
    exact hstep c _ hc ht'
  · rintro a w' - ⟨hat, hr, hlog⟩
    obtain ⟨t', ht', hr⟩ := bind_ok_iff.mp hr
    simp only [pure, Except.pure, Except.ok.injEq, Prod.mk.injEq] at hr
    exact ⟨hat, hr.1 ▸ ht', hlog⟩

/-! ### Clock, memory and chain -/

theorem At.readClock (h : At σ φ w) :
    Leads σ (fun instant w' => At σ φ w' ∧ w'.tables = w.tables ∧ w'.clock = instant ∧
      .clock instant ∈ session w'.log) readClock w := by
  refine Triple.action (h.run.safe (fun c => .inr ⟨_, .clock, rfl⟩) fun _ _ => .inl rfl) fun c hc => ?_
  refine ⟨.of_passive hc .clock rfl rfl rfl, ?_, rfl, rfl, mem_session_cons .clock⟩
  exact h.pass hc rfl rfl rfl (.inr ⟨_, .clock, rfl⟩)

/-- `int(clock())`: the reading of the clock behind it. -/
theorem At.now (h : At σ φ w) :
    Leads σ (fun time w' => At σ φ w' ∧ w'.tables = w.tables ∧
      time = seconds w'.clock ∧ .clock w'.clock ∈ session w'.log) now w := by
  refine Leads.bind h.readClock ?_
  rintro instant w' - ⟨hat, ht, rfl, hs⟩
  exact Triple.pure ⟨hat, ht, rfl, hs⟩

/-- `int(clock())`, with the books and the call at whose side the clock was read. -/
theorem At.cutNow (h : At σ φ w) :
    Leads σ (fun time w' => At σ φ w' ∧ w'.tables = w.tables ∧ time = seconds w'.clock ∧
      Shown σ.env w.tables.spend.rows w'.log time) EscrowSigner.now w := by
  refine Leads.bind (P := fun instant w' => At σ φ w' ∧ w'.tables = w.tables ∧ w'.clock = instant ∧
    Shown σ.env w.tables.spend.rows w'.log (seconds instant)) ?_ ?_
  · refine Triple.action (h.run.safe (fun c => .inr ⟨_, .clock, rfl⟩) fun _ _ => .inl rfl) fun c hc =>
      ⟨.of_passive hc .clock rfl rfl rfl, ?_, rfl, rfl, ?_⟩
    · exact h.pass hc rfl rfl rfl (.inr ⟨_, .clock, rfl⟩)
    · exact ⟨⟨_, mem_session_cons .clock, rfl⟩, stateOf σ.i w, c, hc, rfl, rfl, rfl⟩
  · rintro instant w' - ⟨hat, ht, rfl, hs⟩
    exact Triple.pure ⟨hat, ht, rfl, hs⟩

theorem At.readMemory (h : At σ φ w) :
    Leads σ (fun _ w' => At σ φ w' ∧ w'.tables = w.tables) readMemory w :=
  Triple.action (h.run.safe (fun _ => .inl rfl) fun _ _ => .inl rfl) fun _ hc =>
    ⟨.of_log hc rfl rfl rfl, h.pass hc rfl rfl rfl (.inl rfl), rfl⟩

theorem At.writeMemory (h : At σ φ w) (f : Memory → Memory) :
    Leads σ (fun _ w' => At σ φ w' ∧ w'.tables = w.tables) (writeMemory f) w :=
  Triple.action (h.run.safe (fun _ => .inl rfl) fun _ _ => .inl rfl) fun _ hc =>
    ⟨.of_log hc rfl rfl rfl, h.pass hc rfl rfl rfl (.inl rfl), rfl⟩

/-- What a call on the RPC pool leaves behind. -/
def Asked (σ : Setting) (w : World) (q : Query) (r : Except Exn q.Answer) (w' : World) : Prop :=
  ∃ c, σ.permits w c ∧ c.answer q = r ∧ w' = (w.advance c).record (.rpc q r)

theorem Asked.tables {q : Query} {r : Except Exn q.Answer} (h : Asked σ w q r w') :
    w'.tables = w.tables := by
  obtain ⟨c, -, -, rfl⟩ := h
  rfl

theorem Asked.mem_session {q : Query} {r : Except Exn q.Answer} (h : Asked σ w q r w') :
    .rpc q r ∈ session w'.log := by
  obtain ⟨c, -, -, rfl⟩ := h
  exact List.mem_cons_self

/-- A call on the RPC pool that is no broadcast, in any phase. -/
theorem At.rpc {q : Query} (h : At σ φ w) (hq : sends q = false) :
    Triple σ (fun a w' => At σ φ w' ∧ Asked σ w q (.ok a) w')
      (fun e w' => At σ φ w' ∧ Asked σ w q (.error e) w') (rpc q) w := by
  refine Triple.action (h.run.safe (fun c => .inr ⟨_, .rpc q hq, rfl⟩) fun _ _ => .inl rfl) fun c hc => ?_
  have hp : Passive c (.rpc q (c.answer q)) := .rpc q hq
  refine ⟨.of_passive hc hp rfl rfl rfl, ?_⟩
  have hat : At σ φ ((w.advance c).record (.rpc q (c.answer q))) :=
    h.pass hc rfl rfl rfl (.inr ⟨_, hp, rfl⟩)
  cases hr : c.answer q with
  | ok a => exact ⟨hr ▸ hat, c, hc, hr, rfl⟩
  | error e => exact ⟨hr ▸ hat, c, hc, hr, rfl⟩

/-- A read of the chain between calls on the ledger. -/
theorem At.ask {q : Query} (h : At σ .idle w) (hq : sends q = false) :
    Leads σ (fun a w' => At σ .idle w' ∧ w'.tables = w.tables ∧ .rpc q (.ok a) ∈ session w'.log)
      (EscrowSigner.rpc q) w :=
  Triple.mono (h.rpc hq) (fun _ _ _ ⟨hat, ha⟩ => ⟨hat, ha.tables, ha.mem_session⟩)
    fun _ _ _ ⟨hat, _⟩ => hat.endsIdle

end EscrowSigner.Machine
