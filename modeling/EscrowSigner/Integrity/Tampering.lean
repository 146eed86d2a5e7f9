import EscrowSigner.CanonicalJson
import EscrowSigner.Integrity.Rows

/-! What `verify_chains` notices: rows that were edited or removed behind the back of the service
while the stored hashes were kept.  It recomputes both chains and compares neither end with
`chain_head`, so rows that are missing at the end of a chain go unnoticed. -/

namespace EscrowSigner.Integrity

open Ledger HashChain

variable {x : Externals} {status : Status} {w w' : World} {t t' : Tables}
  {kept : List (SpendRow × SpendRow)} {log : List (AuditRow × AuditRow)}

/-- The rows that are left, in the order in which they are now read. -/
def inOrder {ρ : Type} (seq : ρ → Int) (kept : List (ρ × ρ)) : List (ρ × ρ) :=
  kept.insertionSort fun e e' => seq e.2 ≤ seq e'.2

theorem inOrder_perm {ρ : Type} (seq : ρ → Int) (kept : List (ρ × ρ)) :
    (inOrder seq kept).Perm kept := List.perm_insertionSort _ kept

theorem map_snd_inOrder {ρ : Type} (seq : ρ → Int) (kept : List (ρ × ρ)) :
    (inOrder seq kept).map Prod.snd =
      (kept.map Prod.snd).insertionSort fun r r' => seq r ≤ seq r' :=
  List.map_insertionSort _ _ _ _ fun _ _ _ _ => Iff.rfl

/-- The rows of both tables were edited and removed. -/
structure Manipulated (t : Tables) (kept : List (SpendRow × SpendRow))
    (log : List (AuditRow × AuditRow)) (t' : Tables) : Prop where
  spend : Tampered (·.rowHash) t.spend.rows kept
  spendRows : t'.spend.rows = kept.map Prod.snd
  audit : Tampered (·.rowHash) t.audit log
  auditRows : t'.audit = log.map Prod.snd

/-- A chained field of `spend` was edited, or the rows that are left are not the first ones. -/
def SpendNoticed (t : Tables) (kept : List (SpendRow × SpendRow)) : Prop :=
  (∃ e ∈ kept, spendPayload e.2 ≠ spendPayload e.1) ∨ ¬ kept.map Prod.fst <+: spendBySeq t

/-- A hashed field of `audit` was edited, or the rows that are left do not follow one another. -/
def AuditNoticed (log : List (AuditRow × AuditRow)) : Prop :=
  (∃ e ∈ log, auditPayload e.2 ≠ auditPayload e.1) ∨
    ¬ Linked (·.prevHash) (·.rowHash) genesis ((inOrder (·.seq) log).map Prod.fst)

/-- Rows whose chained fields are kept are read in the order in which they were. -/
theorem inOrder_of_kept (h : Sound x t) (hm : Tampered (·.rowHash) t.spend.rows kept)
    (hkept : ∀ e ∈ kept, spendPayload e.2 = spendPayload e.1) : inOrder (·.seq) kept = kept := by
  have hseq : ∀ e ∈ kept, e.2.seq = e.1.seq := by
    intro e he
    have hpayload := congrArg (fun p => p[3]?) (hkept e he)
    simpa [spendPayload] using hpayload
  have hsorted : (kept.map Prod.fst).Pairwise (·.seq ≤ ·.seq) :=
    (h.spend.order.imp fun hr => hr.1.le).sublist hm.left
  refine List.Pairwise.insertionSort_eq ?_
  refine (List.pairwise_map.mp hsorted).imp_of_mem fun {e e'} he he' hle => ?_
  show e.2.seq ≤ e'.2.seq
  rw [hseq e he, hseq e' he']
  exact hle

theorem verifySpend_noticed (hx : Canonical x) (h : Sound x t) (hm : Manipulated t kept log t') :
    Chained (spendHash x) (·.rowHash) genesis (spendBySeq t') ↔ ¬ SpendNoticed t kept := by
  have hread : spendBySeq t' = (inOrder (·.seq) kept).map Prod.snd := by
    rw [map_snd_inOrder, ← hm.spendRows]
    rfl
  have hperm := inOrder_perm (·.seq) kept
  rw [hread, hm.spend.chained_iff hx.spend isHead_genesis h.spend.tagged hperm,
    hm.spend.linked_iff hx.spend isHead_genesis (fun head r => hx.fresh head _) h.spend.tagged
      h.spend.chained hperm]
  unfold SpendNoticed
  rw [h.spendBySeq, not_or, not_not, not_exists]
  constructor
  · rintro ⟨hkept, hprefix⟩
    rw [inOrder_of_kept h hm.spend hkept] at hprefix
    exact ⟨fun e he => he.2 (hkept e he.1), hprefix⟩
  · rintro ⟨hedited, hprefix⟩
    have hkept : ∀ e ∈ kept, spendPayload e.2 = spendPayload e.1 := fun e he =>
      not_not.mp fun hne => hedited e ⟨he, hne⟩
    rw [inOrder_of_kept h hm.spend hkept]
    exact ⟨hkept, hprefix⟩

theorem verifyAudit_noticed (hx : Canonical x) (h : Sound x t) (hm : Manipulated t kept log t') :
    Chained (auditHash x) (·.rowHash) genesis (auditBySeq t') ↔ ¬ AuditNoticed log := by
  have hread : auditBySeq t' = (inOrder (·.seq) log).map Prod.snd := by
    rw [map_snd_inOrder, ← hm.auditRows]
    rfl
  rw [hread, hm.audit.chained_iff hx.audit isHead_genesis h.audit.tagged (inOrder_perm (·.seq) log)]
  unfold AuditNoticed
  rw [not_or, not_not, not_exists]
  exact and_congr_left fun _ => ⟨fun hkept e he => he.2 (hkept e he.1), fun hedited e he =>
    not_not.mp fun hne => hedited e ⟨he, hne⟩⟩

/-- On the books of any run, `verify_chains` notices exactly that a chained field was edited or that
the rows that are left do not follow one another from the first on: of `spend`, and of an audit log
that was a chain, that they are not the first ones. -/
theorem tampering_noticed (hx : Canonical x) (h : Books x (fun _ _ _ => True) status w)
    (hm : Manipulated w.tables kept log w'.tables) (hclosed : w'.db.working = none)
    {c c' : Choice} (hc : c.fault = none) (hc' : c'.fault = none) :
    ((∃ message, ((verifyChains x).run [c, c'] w').1 = .raised (.ledgerUnavailable message)) ↔
      SpendNoticed w.tables kept ∨ AuditNoticed log) ∧
    (AuditChained x w.tables →
      (Linked (·.prevHash) (·.rowHash) genesis ((inOrder (·.seq) log).map Prod.fst) ↔
        (inOrder (·.seq) log).map Prod.fst <+: auditBySeq w.tables)) := by
  have hsound := h.sound.1
  constructor
  · have hverifies : Verifies x w'.tables ↔ ¬ SpendNoticed w.tables kept ∧ ¬ AuditNoticed log :=
      and_congr (verifySpend_noticed hx hsound hm) (verifyAudit_noticed hx hsound hm)
    obtain ⟨hpass, hraise⟩ := verifyChains_run (x := x) hclosed hc hc'
    rw [or_iff_not_and_not, ← hverifies]
    refine ⟨fun ⟨message, hraised⟩ hv => ?_, hraise⟩
    rw [hpass hv] at hraised
    cases hraised
  · intro hchained
    rw [hsound.auditBySeq]
    exact hm.audit.linked_iff hx.audit isHead_genesis (fun head r => hx.fresh head _)
      hsound.audit.tagged hchained (inOrder_perm (·.seq) log)

/-! ### Samples -/

theorem tampered_map {ρ : Type} {stored : ρ → String} {f : ρ → ρ}
    (hf : ∀ r, stored (f r) = stored r) (l : List ρ) :
    Tampered stored l (l.map fun r => (r, f r)) where
  left := by
    rw [List.map_map]
    exact (List.map_id l).symm ▸ List.Sublist.refl l
  hashes e he := by
    obtain ⟨r, -, rfl⟩ := List.mem_map.mp he
    exact hf r

/-- The books with another table `spend`. -/
def withSpend (spend : SpendTable) (w : World) : World :=
  { w with db := ⟨{ w.tables with spend := spend }, none⟩ }

theorem manipulated_withSpend {spend : SpendTable} (h : Tampered (·.rowHash) w.tables.spend.rows kept)
    (hrows : spend.rows = kept.map Prod.snd) :
    Manipulated w.tables kept (w.tables.audit.map fun r => (r, r)) (withSpend spend w).tables where
  spend := h
  spendRows := hrows
  audit := tampered_map (fun _ => rfl) _
  auditRows := by
    rw [List.map_map]
    exact (List.map_id _).symm

/-- The books with the debit of one cent. -/
def booked : World :=
  ((Operation.reserve Sample.unlimited cent).run CanonicalJson.externals (List.replicate 60 quiet)
    .initial).2

theorem booked_ran : Books CanonicalJson.externals (fun _ _ _ => True) .running booked := by
  have hdone : ((Operation.reserve Sample.unlimited cent).run CanonicalJson.externals
      (List.replicate 60 quiet) .initial).1 = .returned () := by decide +kernel
  have hran := (Ran.start : Books CanonicalJson.externals (fun _ _ _ => True) _ _).operation
    (.reserve Sample.unlimited cent) (List.replicate 60 quiet) trivial
  rw [hdone] at hran
  exact hran

def inflate (r : SpendRow) : SpendRow := { r with amountUnits := 10 ^ 12 }

/-- The amount of the debit is edited. -/
def inflated : SpendTable :=
  ⟨(booked.tables.spend.rows.map fun r => (r, inflate r)).map Prod.snd, by decide +kernel⟩

/-- An edited amount is noticed. -/
theorem tampering_noticed_amount :
    ∃ message, ((verifyChains CanonicalJson.externals).run [quiet, quiet]
      (withSpend inflated booked)).1 = .raised (.ledgerUnavailable message) := by
  have hrows : inflated.rows = (booked.tables.spend.rows.map fun r => (r, inflate r)).map Prod.snd :=
    rfl
  have hm := manipulated_withSpend (tampered_map (f := inflate) (fun _ => rfl) _) hrows
  have hedited : ∃ e ∈ booked.tables.spend.rows.map fun r => (r, inflate r),
      spendPayload e.2 ≠ spendPayload e.1 := by decide +kernel
  exact (tampering_noticed CanonicalJson.canonical_externals booked_ran hm rfl rfl rfl).1.mpr
    (.inl (.inl hedited))

/-- The only debit is removed, and `verify_chains` passes. -/
theorem tampering_not_noticed : Canonical CanonicalJson.externals ∧
    Books CanonicalJson.externals (fun _ _ _ => True) .running booked ∧
    booked.tables.spend.rows ≠ [] ∧
    Manipulated booked.tables [] (booked.tables.audit.map fun r => (r, r))
      (withSpend ⟨[], by decide⟩ booked).tables ∧
    ((verifyChains CanonicalJson.externals).run [quiet, quiet]
      (withSpend ⟨[], by decide⟩ booked)).1 = .returned () := by
  refine ⟨CanonicalJson.canonical_externals, booked_ran, by decide +kernel,
    manipulated_withSpend ⟨List.nil_sublist _, fun _ he => absurd he List.not_mem_nil⟩ rfl,
    by decide +kernel⟩

end EscrowSigner.Integrity
