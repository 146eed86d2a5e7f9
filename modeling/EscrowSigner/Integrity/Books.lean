import EscrowSigner.Integrity.Operations

/-! The books of the ledger over any sequence of its operations: what always holds of them, and when
they verify. -/

namespace EscrowSigner.Integrity

open Ledger HashChain

variable {x : Externals} {t t' : Tables}

/-! ### What always holds -/

/-- The rows of `spend` stand in the order in which they were inserted, and form a chain. -/
structure SpendSound (x : Externals) (t : Tables) : Prop where
  order : t.spend.rows.Pairwise fun r r' => r.seq < r'.seq ∧ r.ts ≤ r'.ts
  below : ∀ r ∈ t.spend.rows, r.seq ≤ t.clockGuard.maxSeq ∧ r.ts ≤ t.clockGuard.maxTs
  tagged : ∀ r ∈ t.spend.rows, Tagged IsHead (spendHash x) (·.rowHash) (·.prevRowHash) r
  chained : Chained (spendHash x) (·.rowHash) genesis t.spend.rows
  head : t.spendHead = tip (·.rowHash) genesis t.spend.rows

/-- The rows of `audit` stand in the order in which they were inserted, each over some head. -/
structure AuditSound (x : Externals) (t : Tables) : Prop where
  order : t.audit.Pairwise (·.seq < ·.seq)
  below : ∀ r ∈ t.audit, r.seq ≤ t.auditSeq
  tagged : ∀ r ∈ t.audit, Tagged IsHead (auditHash x) (·.rowHash) (·.prevHash) r
  head : IsHead t.auditHead

structure Sound (x : Externals) (t : Tables) : Prop where
  spend : SpendSound x t
  audit : AuditSound x t

theorem SameRow.seq {r r' : SpendRow} (h : SameRow r r') : r'.seq = r.seq := by
  have hseq := congrArg (fun p => p[3]?) h.payload
  simpa [spendPayload] using hseq

theorem SameRow.ts {r r' : SpendRow} (h : SameRow r r') : r'.ts = r.ts := by
  have hts := congrArg (fun p => p[4]?) h.payload
  simpa [spendPayload] using hts

theorem SameRow.hash {r r' : SpendRow} (h : SameRow r r') (head : String) :
    spendHash x head r' = spendHash x head r := congrArg (EscrowSigner.rowHash x head) h.payload

theorem SpendSound.isHead (h : SpendSound x t) : IsHead t.spendHead := by
  rw [h.head]
  have htip : tip (·.rowHash) genesis t.spend.rows ∈ genesis :: t.spend.rows.map (·.rowHash) :=
    tip_mem
  rcases List.mem_cons.mp htip with heq | hmem
  · rw [heq]
    exact isHead_genesis
  · obtain ⟨r, hr, heq⟩ := List.mem_map.mp hmem
    rw [← heq, (h.tagged r hr).hash]
    exact isHead_hexString _

theorem SpendSound.plain (h : SpendSound x t) (hp : Plain t t') : SpendSound x t' := by
  obtain ⟨f, hrows, hf⟩ := hp.rows
  refine ⟨?_, fun r hr => ?_, fun r hr => ?_, ?_, ?_⟩
  · rw [hrows, List.pairwise_map]
    refine h.order.imp fun {r r'} hr => ?_
    rw [(hf r).seq, (hf r').seq, (hf r).ts, (hf r').ts]
    exact hr
  · rw [hrows] at hr
    obtain ⟨r', hr', rfl⟩ := List.mem_map.mp hr
    rw [(hf r').seq, (hf r').ts, hp.maxSeq, hp.maxTs]
    exact h.below r' hr'
  · rw [hrows] at hr
    obtain ⟨r', hr', rfl⟩ := List.mem_map.mp hr
    have htag := h.tagged r' hr'
    refine ⟨?_, ?_⟩
    · rw [(hf r').prevRowHash]
      exact htag.head
    · rw [(hf r').rowHash, (hf r').prevRowHash, (hf r').hash]
      exact htag.hash
  · rw [hrows]
    exact h.chained.map fun r _ => ⟨(hf r).rowHash, fun g => (hf r).hash g⟩
  · rw [hp.head, h.head, hrows]
    exact (tip_map fun r _ => (hf r).rowHash).symm

/-- A step of the guard, and of the audit log. -/
theorem SpendSound.guard (h : SpendSound x t) (hrows : t'.spend = t.spend)
    (hhead : t'.spendHead = t.spendHead) (hseq : t.clockGuard.maxSeq ≤ t'.clockGuard.maxSeq)
    (hts : t.clockGuard.maxTs ≤ t'.clockGuard.maxTs) : SpendSound x t' where
  order := hrows ▸ h.order
  below r hr := ⟨(h.below r (hrows ▸ hr)).1.trans hseq, (h.below r (hrows ▸ hr)).2.trans hts⟩
  tagged r hr := h.tagged r (hrows ▸ hr)
  chained := hrows ▸ h.chained
  head := hhead ▸ hrows ▸ h.head

theorem SpendSound.place {t₀ : Tables} {row : SpendRow} (h₀ : SpendSound x t₀)
    (h : SpendSound x t) (hf : Follows t₀ t row.seq row.ts) (hc : Continues x t t' row) :
    SpendSound x t' := by
  refine ⟨?_, fun r hr => ?_, fun r hr => ?_, ?_, ?_⟩
  · rw [hc.rows]
    refine List.pairwise_append.mpr ⟨h.order, List.pairwise_singleton _ _, fun r hr r' hr' => ?_⟩
    rw [List.mem_singleton.mp hr']
    have hbelow := h₀.below r (hf.rows ▸ hr)
    have hnext := hf.next
    have htimes := hf.times
    omega
  · rw [hc.maxSeq, hc.maxTs]
    rw [hc.rows] at hr
    rcases List.mem_append.mp hr with hr | hr
    · exact h.below r hr
    · rw [List.mem_singleton.mp hr]
      exact ⟨hf.newestSeq.le, hf.newestTs.le⟩
  · rw [hc.rows] at hr
    rcases List.mem_append.mp hr with hr | hr
    · exact h.tagged r hr
    · rw [List.mem_singleton.mp hr]
      exact ⟨hc.prev ▸ h.isHead, hc.prev.symm ▸ hc.hash⟩
  · rw [hc.rows]
    exact chained_concat.mpr ⟨h.chained, h.head ▸ hc.hash⟩
  · rw [hc.head, hc.rows]
    exact tip_concat.symm

theorem AuditSound.same (h : AuditSound x t) (hl : SameLog t t') : AuditSound x t' where
  order := hl.audit ▸ h.order
  below r hr := by
    rw [hl.auditSeq]
    exact h.below r (hl.audit ▸ hr)
  tagged r hr := h.tagged r (hl.audit ▸ hr)
  head := hl.auditHead ▸ h.head

theorem AuditSound.audited (h : AuditSound x t) (f : AuditFields) (ts : Int) :
    AuditSound x (audited x t f ts) where
  order := by
    refine List.pairwise_append.mpr ⟨h.order, List.pairwise_singleton _ _, fun r hr r' hr' => ?_⟩
    rw [List.mem_singleton.mp hr']
    exact Int.lt_add_one_of_le (h.below r hr)
  below r hr := by
    rcases List.mem_append.mp hr with hr | hr
    · exact (h.below r hr).trans (Int.le_add_one le_rfl)
    · rw [List.mem_singleton.mp hr]
      exact le_rfl
  tagged r hr := by
    rcases List.mem_append.mp hr with hr | hr
    · exact h.tagged r hr
    · rw [List.mem_singleton.mp hr]
      exact ⟨h.head, rfl⟩
  head := h.head

theorem AuditSound.auditedHead (h : AuditSound x t) (f : AuditFields) (ts : Int) :
    AuditSound x (auditedHead x t f ts) where
  order := (h.audited f ts).order
  below := (h.audited f ts).below
  tagged := (h.audited f ts).tagged
  head := isHead_hexString _

theorem Sound.plain (h : Sound x t) (hp : Plain t t') : Sound x t' :=
  ⟨h.spend.plain hp, h.audit.same hp.toSameLog⟩

theorem Sound.tick (h : Sound x t) (wall : Int) : Sound x (ticked t wall) :=
  ⟨h.spend.guard rfl rfl (Int.le_add_one le_rfl) (le_max_right _ _),
    h.audit.order, h.audit.below, h.audit.tagged, h.audit.head⟩

theorem Sound.audited (h : Sound x t) (f : AuditFields) (ts : Int) : Sound x (audited x t f ts) :=
  ⟨h.spend.guard rfl rfl le_rfl le_rfl, h.audit.audited f ts⟩

theorem Sound.auditedHead (h : Sound x t) (f : AuditFields) (ts : Int) :
    Sound x (auditedHead x t f ts) :=
  ⟨h.spend.guard rfl rfl le_rfl le_rfl, h.audit.auditedHead f ts⟩

theorem Sound.place {t₀ : Tables} {row : SpendRow} (h₀ : Sound x t₀) (h : Sound x t)
    (hf : Follows t₀ t row.seq row.ts) (hc : Continues x t t' row) : Sound x t' :=
  ⟨h₀.spend.place h.spend hf hc, h.audit.same hc.toSameLog⟩

theorem sound_empty : Sound x .empty where
  spend := ⟨.nil, fun _ hr => absurd hr List.not_mem_nil, fun _ hr => absurd hr List.not_mem_nil,
    trivial, rfl⟩
  audit := ⟨.nil, fun _ hr => absurd hr List.not_mem_nil, fun _ hr => absurd hr List.not_mem_nil,
    isHead_genesis⟩

/-! ### The audit chain -/

/-- The audit log is a chain. -/
def AuditChained (x : Externals) (t : Tables) : Prop :=
  Chained (auditHash x) (·.rowHash) genesis t.audit

/-- The head of the audit chain is the hash of its last row. -/
def Settled (t : Tables) : Prop := t.auditHead = tip (·.rowHash) genesis t.audit

instance (t : Tables) : Decidable (Settled t) := inferInstanceAs (Decidable (_ = _))

theorem AuditChained.same (h : AuditChained x t) (hl : SameLog t t') : AuditChained x t' := by
  unfold AuditChained
  rw [hl.audit]
  exact h

theorem Settled.same (h : Settled t) (hl : SameLog t t') : Settled t' := by
  unfold Settled
  rw [hl.audit, hl.auditHead]
  exact h

theorem AuditChained.audited (h : AuditChained x t) (hs : Settled t) (f : AuditFields) (ts : Int) :
    AuditChained x (audited x t f ts) :=
  chained_concat.mpr ⟨h, congrArg (fun head => auditHash x head (auditRow x t f ts)) hs⟩

theorem settled_auditedHead (f : AuditFields) (ts : Int) : Settled (auditedHead x t f ts) := by
  show (auditRow x t f ts).rowHash = tip (·.rowHash) genesis (t.audit ++ [auditRow x t f ts])
  exact tip_concat.symm

/-! ### Verification -/

theorem Sound.spendBySeq (h : Sound x t) : spendBySeq t = t.spend.rows :=
  List.Pairwise.insertionSort_eq (h.spend.order.imp fun hr => hr.1.le)

theorem Sound.auditBySeq (h : Sound x t) : auditBySeq t = t.audit :=
  List.Pairwise.insertionSort_eq (h.audit.order.imp fun hr => hr.le)

/-- Sound books verify when their audit log is a chain. -/
theorem Sound.verifies_iff (h : Sound x t) : Verifies x t ↔ AuditChained x t := by
  unfold Verifies
  rw [h.spendBySeq, h.auditBySeq]
  exact ⟨fun hv => hv.2, fun hc => ⟨h.spend.chained, hc⟩⟩

/-! ### Regimes -/

/-- The regime of a property that every operation keeps at every statement. -/
def Regime.always (P : Tables → Prop) (plain : ∀ {t t'}, P t → Plain t t' → P t')
    (tick : ∀ {t} wall, P t → P (ticked t wall))
    (half : ∀ {t} f ts, P t → P (audited x t f ts))
    (audit : ∀ {t} f ts, P t → P (auditedHead x t f ts))
    (place : ∀ {t₀ t t' row}, P t₀ → P t → Follows t₀ t row.seq row.ts → Continues x t t' row →
      P t') : Regime x where
  env _ _ := True
  Kept t _ := P t
  Broken t _ := P t
  Safe := P
  safe h := h
  broken h := h
  later h _ := h
  laterBroken h _ := h
  plain h hp := plain h hp
  tick h := tick _ h
  half f ts h := half f ts h
  fault f ts h _ _ := half f ts h
  audit f ts h := audit f ts h
  place h₀ h hf hc := place h₀ h hf hc

/-- Soundness is kept by every statement. -/
def soundRegime (x : Externals) : Regime x :=
  .always (Sound x) (fun h hp => h.plain hp) (fun wall h => h.tick wall)
    (fun f ts h => h.audited f ts) (fun f ts h => h.auditedHead f ts) fun h₀ h hf hc => h₀.place h hf hc

/-- The audit chain is kept by every statement from settled books on. -/
def settledRegime (x : Externals) : Regime x where
  env _ _ := True
  Kept t _ := AuditChained x t ∧ Settled t
  Broken t _ := AuditChained x t
  Safe := AuditChained x
  safe h := h
  broken h := h.1
  later h _ := h
  laterBroken h _ := h
  plain h hp := ⟨h.1.same hp.toSameLog, h.2.same hp.toSameLog⟩
  tick h := ⟨h.1, h.2⟩
  half f ts h := h.1.audited h.2 f ts
  fault f ts h _ _ := h.1.audited h.2 f ts
  audit f ts h := ⟨h.1.audited h.2 f ts, settled_auditedHead f ts⟩
  place _ h _ hc := ⟨h.1.same hc.toSameLog, h.2.same hc.toSameLog⟩

end EscrowSigner.Integrity
