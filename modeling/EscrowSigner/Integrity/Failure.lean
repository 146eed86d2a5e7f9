import EscrowSigner.Integrity.Regime
import EscrowSigner.Process.Exec

/-! What an operation of the ledger leaves when it fails between two transactions: its own tables as
they were, and a halted ledger when the clock stepped back. -/

namespace EscrowSigner.Integrity

open Ledger Process

variable {x : Externals} {α : Type} {w w' : World} {t t' : Tables} {K : Tables → Prop}

/-- The exception of a clock that stepped back. -/
def Regression (e : Exn) : Prop := ∃ message, e = .clockRegression message

/-- The exceptions of statements and of rows that changed, and if `R` that of a lost race. -/
inductive Ordinary (R : Prop) : Exn → Prop
  | sqlite (name : String) : Ordinary R (.sqlite name)
  | other (name : String) : Ordinary R (.other name)
  | ledgerUnavailable (message : String) : Ordinary R (.ledgerUnavailable message)
  | race (h : R) : Ordinary R (capBreach "cap_race")

theorem Ordinary.fault {R : Prop} (f : Fault) : Ordinary R f.exn := by
  rcases f.exn_eq with h | h
  · exact h ▸ .sqlite _
  · exact h ▸ .other _

theorem Ordinary.not_regression {R : Prop} {e : Exn} (h : Ordinary R e) : ¬ Regression e := by
  rintro ⟨message, rfl⟩
  cases h

/-- `spend`, the allocator and the head of the chain are as they were. -/
structure Untouched (t t' : Tables) : Prop where
  spend : t'.spend = t.spend
  nonceAlloc : t'.nonceAlloc = t.nonceAlloc
  spendHead : t'.spendHead = t.spendHead

theorem Untouched.refl (t : Tables) : Untouched t t := ⟨rfl, rfl, rfl⟩

theorem Untouched.trans {t'' : Tables} (h : Untouched t t') (h' : Untouched t' t'') :
    Untouched t t'' :=
  ⟨h'.spend.trans h.spend, h'.nonceAlloc.trans h.nonceAlloc, h'.spendHead.trans h.spendHead⟩

/-- What the clock guard and the audit log do not decide. -/
structure Lasting (x : Externals) (K : Tables → Prop) : Prop where
  ticked : ∀ {t} wall, K t → K (ticked t wall)
  audited : ∀ {t} f ts, K t → K (audited x t f ts)
  auditHead : ∀ {t} head, K t → K { t with auditHead := head }

/-- Between two operations. -/
structure Idle (K : Tables → Prop) (w : World) : Prop where
  closed : w.db.working = none
  kept : K w.tables

/-- After an exception: only a halt was written, and it was if the clock stepped back. -/
structure Failed (K : Tables → Prop) (e : Exn) (w : World) : Prop where
  closed : w.db.working = none
  kept : ∃ t, K t ∧ Untouched t w.tables
  halted : Regression e → w.tables.clockGuard.halted = true

theorem Idle.failed (h : Idle K w) {e : Exn} (he : ¬ Regression e) : Failed K e w :=
  ⟨h.closed, ⟨_, h.kept, .refl _⟩, fun hr => absurd hr he⟩

/-! ### Statements -/

theorem Idle.sql {f : Tables → Except Exn (Tables × α)} {Q : α → World → Prop} (h : Idle K w)
    (herr : ∀ e, f w.tables = .error e → ¬ Regression e)
    (hok : ∀ t a w', f w.tables = .ok (t, a) → w'.db.working = none → w'.tables = t → Q a w') :
    (sql f).Ends (Failed K) Q w := by
  refine .atomic fun c _ => ?_
  have hidle : Idle K (w.advance c) := ⟨h.closed, h.kept⟩
  rw [statement_eq h.closed]
  cases c.fault with
  | some fault => exact hidle.failed (Ordinary.fault (R := False) fault).not_regression
  | none =>
    cases hf : f w.tables with
    | error e => exact hidle.failed (herr e hf)
    | ok r => exact hok r.1 r.2 _ hf rfl rfl

theorem Idle.select {f : Tables → Except Exn α} (h : Idle K w)
    (herr : ∀ e, f w.tables = .error e → ¬ Regression e) :
    (select f).Ends (Failed K) (fun a w' => Idle K w' ∧ w'.tables = w.tables ∧ f w.tables = .ok a)
      w := by
  refine h.sql (fun e he => ?_) fun t a w' ha hclosed htables => ?_
  · rcases bind_error_iff.mp he with he | ⟨a, -, he⟩
    · exact herr e he
    · cases he
  · obtain ⟨a', ha', heq⟩ := bind_ok_iff.mp ha
    cases heq
    exact ⟨⟨hclosed, htables ▸ h.kept⟩, htables, ha'⟩

/-- A read that does not fail by itself. -/
theorem Idle.read (g : Tables → α) (h : Idle K w) :
    (EscrowSigner.select fun t => .ok (g t)).Ends (Failed K)
      (fun a w' => Idle K w' ∧ w'.tables = w.tables ∧ a = g w.tables) w :=
  (h.select fun _ he => (by cases he)).mono (fun _ _ h => h)
    fun _ _ h => ⟨h.1, h.2.1, (Except.ok.inj h.2.2).symm⟩

theorem Idle.update {f : Tables → Except Exn Tables} {Q : World → Prop} (h : Idle K w)
    (herr : ∀ e, f w.tables = .error e → ¬ Regression e)
    (hok : ∀ t w', f w.tables = .ok t → w'.db.working = none → w'.tables = t → Q w') :
    (update f).Ends (Failed K) (fun _ w' => Q w') w := by
  refine h.sql (fun e he => ?_) fun t a w' ha hclosed htables => ?_
  · rcases bind_error_iff.mp he with he | ⟨a, -, he⟩
    · exact herr e he
    · cases he
  · obtain ⟨t', ht', heq⟩ := bind_ok_iff.mp ha
    cases heq
    exact hok t w' ht' hclosed htables

/-- An update that does not fail by itself. -/
theorem Idle.write (g : Tables → Tables) {Q : World → Prop} (h : Idle K w)
    (hQ : ∀ w', w'.db.working = none → w'.tables = g w.tables → Q w') :
    (EscrowSigner.update fun t => .ok (g t)).Ends (Failed K) (fun _ w' => Q w') w :=
  h.update (fun _ he => (by cases he)) fun t w' ht hclosed htables =>
    hQ w' hclosed (htables.trans (Except.ok.inj ht).symm)

theorem Idle.now (h : Idle K w) :
    now.Ends (Failed K) (fun _ w' => Idle K w' ∧ w'.tables = w.tables) w :=
  Under.bind (P := fun _ w' => Idle K w' ∧ w'.tables = w.tables)
    (.atomic fun _ _ => ⟨⟨h.closed, h.kept⟩, rfl⟩) fun _ _ h' => .pure h'

/-! ### Clock and audit -/

theorem Idle.refuseRegression (h : Idle K w) (row : ClockGuard) (wall : Int) :
    (refuseRegression row wall).Ends (Failed K) (fun _ w' => w' = w) w := by
  unfold Ledger.refuseRegression
  split
  · refine Under.bind (P := fun _ w' => w'.db.working = none ∧ (∃ t, K t ∧ Untouched t w'.tables) ∧
      w'.tables.clockGuard.halted = true) ?_ fun _ _ h' => .raise ⟨h'.1, h'.2.1, fun _ => h'.2.2⟩
    refine h.write _ fun w' hclosed htables => ?_
    rw [htables]
    exact ⟨hclosed, ⟨w.tables, h.kept, rfl, rfl, rfl⟩, rfl⟩
  · exact .pure rfl

theorem Idle.assertClockSane (h : Idle K w) :
    assertClockSane.Ends (Failed K) (fun _ w' => Idle K w') w :=
  (h.read _).bind fun _ _ h₁ => h₁.1.now.bind fun _ _ h₂ =>
    (h₂.1.refuseRegression _ _).mono (fun _ _ h => h) fun _ _ heq => heq ▸ h₂.1

theorem Idle.tick (hK : ∀ {t} wall, K t → K (ticked t wall)) (h : Idle K w) :
    Ledger.tick.Ends (Failed K) (fun _ w' => Idle K w') w := by
  refine (h.read _).bind fun row w₁ h₁ => h₁.1.now.bind fun wall w₂ h₂ => ?_
  refine (h₂.1.refuseRegression row wall).bind fun _ w₃ heq => ?_
  subst heq
  refine Under.bind (P := fun _ w' => Idle K w') ?_ fun _ _ h₄ => .pure h₄
  have hrow : row = w₃.tables.clockGuard := by rw [h₁.2.2, h₂.2, h₁.2.1]
  subst hrow
  refine h₂.1.write _ fun w' hclosed htables => ⟨hclosed, ?_⟩
  rw [htables]
  exact hK wall h₂.1.kept

theorem bindInts_error {R : Prop} {ns : List Int} {e : Exn} (h : bindInts ns = .error e) :
    Ordinary R e := by
  unfold bindInts at h
  split at h
  · cases h
  · cases h
    exact .other _

theorem Idle.audit (hK : Lasting x K) (h : Idle K w) (f : AuditFields) :
    (Ledger.audit x f).Ends (Failed K) (fun _ w' => Idle K w') w := by
  refine (h.tick hK.ticked).bind fun r w₁ h₁ => (h₁.read _).bind fun head w₂ h₂ => ?_
  obtain ⟨h₂, htables, rfl⟩ := h₂
  rw [← htables]
  refine Under.bind (P := fun _ w' => Idle K w') ?_ fun hash w₃ h₃ =>
    h₃.write _ fun w' hclosed htables => ⟨hclosed, ?_⟩
  · refine h₂.sql (fun e he => ?_) fun t hash w' ht hclosed htables => ⟨hclosed, ?_⟩
    · rcases bind_error_iff.mp he with he | ⟨_, -, he⟩
      · exact (bindInts_error (R := False) he).not_regression
      · cases he
    · obtain ⟨-, -, heq⟩ := bind_ok_iff.mp ht
      cases heq
      rw [htables]
      exact hK.audited f r.2 h₂.kept
  · rw [htables]
    exact hK.auditHead hash h₃.kept

end EscrowSigner.Integrity
