import EscrowSigner.Machine.Ledger
import EscrowSigner.Ledger.Reserve

/-! The transaction of a reservation: its statements act on tables that are not committed, so the
machine stays where it is until the `COMMIT` grants the row. -/

namespace EscrowSigner.Machine

variable {σ : Setting} {φ φ' : Phase} {w w' : World} {t t' : Tables} {α : Type}

/-- A transaction is open on the tables `t`, and the machine is idle. -/
structure Inside (σ : Setting) (w : World) (t : Tables) : Prop where
  run : σ.Run .idle w
  opened : w.db.working = some t

/-- An exception on its way to the handlers of a reservation: a transaction may be open. -/
def Loose (σ : Setting) (w : World) : Prop := σ.Run .idle w ∨ Ends σ w

/-- A triple of code inside a transaction. -/
abbrev Within (σ : Setting) (P : α → World → Prop) (p : Code α) (w : World) : Prop :=
  Triple σ P (fun _ => Loose σ) p w

theorem Setting.Run.pass {c : Choice} (h : σ.Run φ w) (hc : σ.permits w c)
    (htables : w'.tables = w.tables) (hclock : w'.clock = c.now) (hchain : w'.chain = c.chain)
    (hlog : w'.log = w.log ∨ ∃ e, Passive c e ∧ w'.log = e :: w.log) : σ.Run φ w' := by
  have hs : stateOf σ.i w' = { (stateOf σ.i w).after c with
      log := w'.log, maxTs := (stateOf σ.i w).maxTs, maxSeq := (stateOf σ.i w).maxSeq } := by
    simp only [stateOf, stateAt, State.after, htables, hclock, hchain]
  refine Relation.ReflTransGen.tail h ?_
  rw [hs]
  exact .pass hc hlog (.inl rfl) le_rfl

theorem Loose.ends (h : Loose σ w) (hc : w.db.working = none) : Ends σ w :=
  h.elim (fun h => At.endsIdle ⟨h, hc⟩) id

theorem Loose.run (h : Loose σ w) : ∃ φ, σ.Run φ w :=
  h.elim (fun h => ⟨_, h⟩) fun ⟨_, h, _⟩ => ⟨_, h.run⟩

/-- A step that records nothing is safe while an exception is on its way. -/
theorem Loose.safe (h : Loose σ w) {next : Choice → World} (hlog : ∀ c, (next c).log = w.log)
    (htables : ∀ c, (next c).tables = w.tables) : σ.Safe w next := by
  obtain ⟨φ, h⟩ := h.run
  exact h.safe (fun c => .inl (hlog c)) fun c _ => .inl (htables c)

/-! ### Statements -/

theorem Inside.view (h : Inside σ w t) : w.view = t := by
  simp [World.view, Db.view, h.opened]

/-- A statement that fails inside a transaction. -/
theorem Setting.Run.fault {c : Choice} (h : σ.Run φ w) (hc : σ.permits w c) (fault : Fault) :
    Later σ w ((w.advance c).fail fault) ∧ σ.Run φ ((w.advance c).fail fault) := by
  have hlog : ((w.advance c).fail fault).log = w.log := by
    unfold World.fail
    split <;> rfl
  have hclock : ((w.advance c).fail fault).clock = c.now := by
    unfold World.fail
    split <;> rfl
  have hchain : ((w.advance c).fail fault).chain = c.chain := by
    unfold World.fail
    split <;> rfl
  exact ⟨.of_log hc hlog hclock hchain, h.pass hc World.fail_tables hclock hchain (.inl hlog)⟩

/-- A statement inside a transaction commits nothing. -/
theorem Inside.statement_tables (h : Inside σ w t) (f : Tables → Except Exn (Tables × α))
    (c : Choice) : (statement f c (w.advance c)).1.tables = w.tables := by
  have hw : (w.advance c).db.working = some t := h.opened
  unfold statement
  cases c.fault with
  | some fault => exact World.fail_tables
  | none =>
    simp only
    cases f (w.advance c).view with
    | error e => rfl
    | ok r =>
      simp only [World.write, Db.write, hw]
      rfl

theorem Inside.sql {f : Tables → Except Exn (Tables × α)} (h : Inside σ w t) :
    Within σ (fun a w' => ∃ t', f t = .ok (t', a) ∧ Inside σ w' t' ∧ w'.tables = w.tables)
      (sql f) w := by
  refine Triple.action (h.run.safe (fun c => .inl (statement_log f c _))
    fun c _ => .inl (h.statement_tables f c)) fun c hc => ?_
  simp only [statement]
  cases hf : c.fault with
  | some fault => exact ⟨(h.run.fault hc fault).1, .inl (h.run.fault hc fault).2⟩
  | none =>
    have hv : (w.advance c).view = t := h.view
    simp only [hv]
    cases hr : f t with
    | error e => exact ⟨.of_log hc rfl rfl rfl, .inl (h.run.pass hc rfl rfl rfl (.inl rfl))⟩
    | ok r =>
      obtain ⟨t', a⟩ := r
      have hw : (w.advance c).write t' =
          { w with db := ⟨w.tables, some t'⟩, clock := c.now, chain := c.chain } := by
        simp [World.write, World.advance, Db.write, h.opened, World.tables]
      simp only [hw]
      exact ⟨.of_log hc rfl rfl rfl, t', rfl, ⟨h.run.pass hc rfl rfl rfl (.inl rfl), rfl⟩, rfl⟩

theorem Inside.select {f : Tables → Except Exn α} (h : Inside σ w t) :
    Within σ (fun a w' => f t = .ok a ∧ Inside σ w' t ∧ w'.tables = w.tables) (select f) w := by
  refine Triple.mono h.sql ?_ fun _ _ _ h => h
  rintro a w' - ⟨t', hr, hi, ht⟩
  obtain ⟨a', ha, hr⟩ := bind_ok_iff.mp hr
  cases hr
  exact ⟨ha, hi, ht⟩

theorem Inside.update {f : Tables → Except Exn Tables} (h : Inside σ w t) :
    Within σ (fun _ w' => ∃ t', f t = .ok t' ∧ Inside σ w' t' ∧ w'.tables = w.tables)
      (update f) w := by
  refine Triple.mono h.sql ?_ fun _ _ _ h => h
  rintro a w' - ⟨t', hr, hi, ht⟩
  obtain ⟨a', ha, hr⟩ := bind_ok_iff.mp hr
  cases hr
  exact ⟨t', ha, hi, ht⟩

theorem Inside.now (h : Inside σ w t) :
    Within σ (fun time w' => Inside σ w' t ∧ w'.tables = w.tables ∧ time = seconds w'.clock)
      now w := by
  refine Triple.bind (P := fun instant w' => Inside σ w' t ∧ w'.tables = w.tables ∧
    w'.clock = instant)
    (Triple.action (h.run.safe (fun _ => .inr ⟨_, .clock, rfl⟩) fun _ _ => .inl rfl)
      fun c hc => ?_) ?_
  · exact ⟨.of_passive hc .clock rfl rfl rfl,
      ⟨h.run.pass hc rfl rfl rfl (.inr ⟨_, .clock, rfl⟩), h.opened⟩, rfl, rfl⟩
  · rintro instant w' - ⟨hi, ht, rfl⟩
    exact Triple.pure ⟨hi, ht, rfl⟩

theorem At.beginImmediate (h : At σ .idle w) :
    Within σ (fun _ w' => Inside σ w' w.tables ∧ w'.tables = w.tables) beginImmediate w := by
  refine Triple.action (h.run.safe (fun c => .inl ?_) fun c _ => .inl ?_) fun c hc => ?_
  · dsimp only
    split
    · exact World.fail_log _ _
    · rfl
    · rfl
  · dsimp only
    split
    · exact World.fail_tables
    · rfl
    · rfl
  have hw : (w.advance c).db.working = none := h.closed
  simp only [hw]
  cases hf : c.fault with
  | some fault => exact ⟨(h.run.fault hc fault).1, .inl (h.run.fault hc fault).2⟩
  | none => exact ⟨.of_log hc rfl rfl rfl, ⟨h.run.pass hc rfl rfl rfl (.inl rfl), rfl⟩, rfl⟩

/-- A `COMMIT` is one step of the machine. -/
theorem Inside.commit (h : Inside σ w t) (φ' : Phase)
    (hstep : ∀ c, σ.permits w c →
      Step σ.i σ.env σ.ok (.idle, stateOf σ.i w) (φ', stateAt σ.i t w.log c.now c.chain)) :
    Within σ (fun _ w' => At σ φ' w' ∧ w'.tables = t) commit w := by
  refine Triple.action (h.run.safe (fun c => .inl ?_) fun c hc => ?_) fun c hc => ?_
  · split
    · exact World.fail_log _ _
    · rfl
    · rfl
  · have hw : (w.advance c).db.working = some t := h.opened
    simp only [hw]
    cases c.fault with
    | some fault => exact .inl World.fail_tables
    | none => exact .inr ⟨φ', hstep c hc⟩
  have hw : (w.advance c).db.working = some t := h.opened
  simp only [hw]
  cases hf : c.fault with
  | some fault => exact ⟨(h.run.fault hc fault).1, .inl (h.run.fault hc fault).2⟩
  | none => exact ⟨.of_log hc rfl rfl rfl, ⟨h.run.tail (hstep c hc), rfl⟩, rfl⟩

/-! ### Rollback and handlers -/

/-- A rollback closes the transaction, or there was none. -/
theorem Loose.rolledBack (h : Loose σ w) :
    Triple σ (fun _ => Ends σ) (fun _ => Ends σ) rollback w := by
  refine Triple.action (h.safe (fun c => ?_) fun c => ?_) fun c hc => ?_
  · split <;> rfl
  · split <;> rfl
  cases hw : w.db.working with
  | some t =>
    have hw' : (w.advance c).db.working = some t := hw
    simp only [hw']
    refine ⟨.of_log hc rfl rfl rfl, ?_⟩
    rcases h with h | ⟨φ, h, -⟩
    · exact At.endsIdle ⟨h.pass hc rfl rfl rfl (.inl rfl), rfl⟩
    · rw [h.closed] at hw
      cases hw
  | none =>
    have hw' : (w.advance c).db.working = none := hw
    simp only [hw']
    refine ⟨.of_log hc rfl rfl rfl, ?_⟩
    rcases h with h | ⟨φ, h, hφ⟩
    · exact At.endsIdle ⟨h.pass hc rfl rfl rfl (.inl rfl), hw⟩
    · exact ⟨φ, h.pass hc rfl rfl rfl (.inl rfl), hφ⟩

/-- A rollback whose own failure is ignored, before an exception goes on. -/
theorem Loose.rollbackThenRaise (h : Loose σ w) {P : α → World → Prop} (e : Exn) :
    Triple σ P (fun _ => Ends σ) (do let _ ← rollback.attempt; throwExn e) w :=
  Triple.catch h.rolledBack (fun _ _ _ h => Triple.raise h) fun _ _ _ h => Triple.raise h

theorem Inside.giveUp (h : Inside σ w t) {P : α → World → Prop} (e : Exn) :
    Within σ P (Ledger.giveUp e) w :=
  Triple.bind (E := fun _ => Loose σ)
    (Triple.mono (Loose.rolledBack (.inl h.run)) (fun _ _ _ h => h) fun _ _ _ h => .inr h)
    fun _ _ _ h => Triple.raise (.inr h)

/-- The handlers around the transaction keep what its code promises. -/
theorem Within.guardTransaction {P : α → World → Prop} {body : Code α} (h : Within σ P body w) :
    Within σ P (Ledger.guardTransaction body) w := by
  have weaken : ∀ (e : Exn) (w' : World), Loose σ w' →
      Within σ P (do let _ ← rollback.attempt; throwExn e) w' := fun e w' h =>
    Triple.mono (h.rollbackThenRaise e) (fun _ _ _ h => h) fun _ _ _ h => .inr h
  refine Triple.catch h (fun a w' _ ha => Triple.pure ha) fun e w' _ he => ?_
  cases e with
  | sqlite name => exact weaken _ w' he
  | clockRegression message => exact weaken _ w' he
  | _ => exact Triple.raise he

/-- `_rollback_on_error`: whatever is raised, no transaction stays open. -/
theorem Within.rollbackOnError {P : α → World → Prop} {body : Code α} (h : Within σ P body w) :
    Leads σ P (Ledger.rollbackOnError body) w := by
  refine Triple.catch h (fun a w' _ ha => Triple.pure ha) fun e w' _ he => ?_
  refine Triple.bind (P := fun b w'' => Loose σ w'' ∧ b = w''.db.working.isSome)
    (E := fun _ => Ends σ) (Triple.action (he.safe (fun _ => rfl) fun _ => rfl) fun c hc => ?_) ?_
  · refine ⟨.of_log hc rfl rfl rfl, ?_, rfl⟩
    rcases he with he | ⟨φ, he, hφ⟩
    · exact .inl (he.pass hc rfl rfl rfl (.inl rfl))
    · exact .inr ⟨φ, he.pass hc rfl rfl rfl (.inl rfl), hφ⟩
  · rintro b w'' - ⟨hl, rfl⟩
    cases hw : w''.db.working with
    | some t => exact hl.rollbackThenRaise e
    | none => exact Triple.raise (hl.ends hw)

end EscrowSigner.Machine
