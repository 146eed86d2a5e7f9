import EscrowSigner.Integrity.Runs
import EscrowSigner.Machine.Binding

/-! The rows of `spend` over runs of the ledger: what the totals rest on is written once, and a
retry that asks for something else fails. -/

namespace EscrowSigner.Integrity

open Ledger Process
open Machine (Unmoved)

variable {x : Externals} {w w' : World} {status status' : Status}
  {ok : World → Operation → List Choice → Prop}

/-! ### Growth -/

theorem SameRow.trans {r r' r'' : SpendRow} (h : SameRow r r') (h' : SameRow r' r'') :
    SameRow r r'' :=
  ⟨h'.payload.trans h.payload, h'.rowHash.trans h.rowHash, h'.prevRowHash.trans h.prevRowHash⟩

/-- The rows stand where they stood with the same protected columns, before any new ones. -/
def Grown (rows rows' : List SpendRow) : Prop :=
  ∃ f new, rows' = rows.map f ++ new ∧ ∀ r, SameRow r (f r)

theorem Grown.refl (rows : List SpendRow) : Grown rows rows :=
  ⟨id, [], by rw [List.map_id, List.append_nil], fun _ => ⟨rfl, rfl, rfl⟩⟩

theorem Grown.plain {rows : List SpendRow} {t t' : Tables} (h : Grown rows t.spend.rows)
    (hp : Plain t t') : Grown rows t'.spend.rows := by
  obtain ⟨f, new, hrows, hf⟩ := h
  obtain ⟨f', hrows', hf'⟩ := hp.rows
  refine ⟨f' ∘ f, new.map f', ?_, fun r => (hf r).trans (hf' (f r))⟩
  rw [hrows', hrows, List.map_append, List.map_map]

theorem Grown.place {rows : List SpendRow} {t t' : Tables} {row : SpendRow}
    (h : Grown rows t.spend.rows) (hc : Continues x t t' row) : Grown rows t'.spend.rows := by
  obtain ⟨f, new, hrows, hf⟩ := h
  refine ⟨f, new ++ [row], ?_, hf⟩
  rw [hc.rows, hrows, List.append_assoc]

/-- Every statement keeps the rows that stood at some time. -/
def grownRegime (x : Externals) (rows : List SpendRow) : Regime x :=
  .always (fun t => Grown rows t.spend.rows) (fun h hp => h.plain hp) (fun _ h => h)
    (fun _ _ h => h) (fun _ _ h => h) fun _ h _ hc => h.place hc

theorem Ran.grown (h : Ran x ok status w status' w')
    (hclosed : status = .running → w.db.working = none) :
    Grown w.tables.spend.rows w'.tables.spend.rows :=
  (h.always (g := grownRegime x w.tables.spend.rows) (Grown.refl _) hclosed (fun _ _ => Iff.rfl)
    (fun _ h => h) fun _ _ => trivial).1

theorem Ran.trans {status'' : Status} {w'' : World} (h : Ran x ok status w status' w')
    (h' : Ran x ok status' w' status'' w'') : Ran x ok status w status'' w'' := by
  induction h' with
  | start => exact h
  | operation op script _ hok ih => exact ih.operation op script hok
  | reopen _ ih => exact ih.reopen

/-! ### Retries -/

/-- An execution that does not return and leaves the rows as they were. -/
structure Refuses {α : Type} (p : Code α) (script : List Choice) (w : World) : Prop where
  failed : ∀ a, (p.run script w).1 ≠ .returned a
  rows : (p.run script w).2.tables.spend = w.tables.spend

theorem Unmoved.refuses {α : Type} {p : Code α} (h : p.Keeps (Unmoved w) (fun _ _ => False) w)
    (script : List Choice) : Refuses p script w :=
  ⟨fun _ ho => h.returned ho, (h.run script).rows.committed⟩

/-- Whatever sequence of operations led to a state and on from it: the rows of `spend` stay where
they are with what the totals rest on, they stand in the order of `seq` and of `ts`, and a retry with
another amount, or by the other door, changes none of them. -/
theorem rows_append_only (h : Books x ok status w) (h' : Ran x ok status w status' w') :
    Grown w.tables.spend.rows w'.tables.spend.rows ∧
      w'.tables.spend.rows.Pairwise (fun r r' => r.seq < r'.seq ∧ r.ts ≤ r'.ts) ∧
      (status' = .running → ∀ r ∈ w'.tables.spend.rows,
        (∀ caps a script, r.key = Request.key a → r.amountUnits ≠ a.amountUnits →
          Refuses (reserve x caps a) script w') ∧
        ∀ caps a script, r.key = (GasOnlyRequest.request a).key → r.amountUnits ≠ 0 →
          Refuses (reserveGasOnly x caps a) script w') := by
  obtain ⟨hsound, hclosed⟩ := (h.trans h').sound
  refine ⟨h'.grown h.sound.2, hsound.spend.order, fun hr r hmem => ?_⟩
  have hstart : Unmoved w' w' := by
    refine ⟨⟨rfl, fun t ht => ?_⟩, rfl⟩
    rw [hclosed hr] at ht
    cases ht
  exact ⟨fun caps a script hkey hamount => Unmoved.refuses (hstart.reserve hmem hkey hamount) script,
    fun caps a script hkey hamount => Unmoved.refuses (hstart.reserveGasOnly hmem hkey hamount) script⟩

/-- Another debit of one cent on the same channel. -/
def otherCent : Request := { cent with receiptId := "0x07" }

theorem rows_append_only_after_reserve :
    Refuses (reserve Sample.plain Sample.unlimited { cent with amountUnits := 20000 })
      (List.replicate 60 quiet) (reserveCent 60 .initial).2 := by
  have hstatus : Status.after (reserveCent 60 .initial).1 = .running := by decide +kernel
  have hrow : (reserveCent 60 .initial).2.tables.spend.rows.any
      (fun r => r.key = cent.key ∧ r.amountUnits = 10000) = true := by decide +kernel
  obtain ⟨r, hr, hfound⟩ := List.any_eq_true.mp hrow
  obtain ⟨hkey, hamount⟩ := of_decide_eq_true hfound
  have hran : Ran Sample.plain (fun _ _ _ => True) .running .initial _ (reserveCent 60 .initial).2 :=
    Ran.start.operation (.reserve Sample.unlimited cent) (List.replicate 60 quiet) trivial
  refine ((rows_append_only .start hran).2.2 hstatus r hr).1 _ _ _ hkey ?_
  rw [hamount]
  decide

end EscrowSigner.Integrity
