import EscrowSigner.CanonicalJson
import EscrowSigner.Rebaseline.Script

/-! What the migration makes of authentic rows: books that verify, of which nothing but tags and links
is new, and an entry about itself in the audit log. -/

namespace EscrowSigner.Rebaseline

open Ledger HashChain

variable {x : Externals} {t t' : Tables} {head : String}

theorem seq_spendBySeq_nodup (t : Tables) : ((spendBySeq t).map (·.seq)).Nodup :=
  ((List.perm_insertionSort _ t.spend.rows).map SpendRow.seq).nodup_iff.mpr t.spend.constraints.2.1

/-- The rows as they are read after the plan was written. -/
theorem spendBySeq_written {row : AuditRow}
    (h : Written x (retags x genesis (spendBySeq t)) head row t t') :
    spendBySeq t' = rebase x genesis (spendBySeq t) := by
  rw [spendBySeq_map (retagged_onlyTags _) h.rows]
  exact map_retagged (seq_spendBySeq_nodup t)

/-- What a migration leaves: books that verify, of which only tags and links are new, and in the audit
log one entry where some are. -/
structure Migrated (x : Externals) (t t' : Tables) : Prop extends Elsewhere t t' where
  verifies : Verifies x t'
  rows : ∃ f, (∀ r, OnlyTags r (f r)) ∧ t'.spend.rows = t.spend.rows.map f
  relinked : Relinked genesis (spendBySeq t) (spendBySeq t')
  head : t'.spend.rows ≠ t.spend.rows → t'.spendHead = tip (·.rowHash) genesis (spendBySeq t')
  noted : t'.spend.rows ≠ t.spend.rows → ∃ row, row.kind = "migration" ∧ t'.audit = t.audit ++ [row]
  quiet : t'.spend.rows = t.spend.rows → t' = t

/-- The audit log is a chain, the stored head is its last hash, and there is a number for one more
entry. -/
structure Extensible (x : Externals) (t : Tables) : Prop where
  chained : Chained (auditHash x) (·.rowHash) genesis (auditBySeq t)
  head : t.auditHead = tip (·.rowHash) genesis (auditBySeq t)
  room : inInt64 ((auditTail t).2 + 1) = true

theorem migrated_of_chained (h : Chained (spendHash x) (·.rowHash) genesis (spendBySeq t))
    (haudit : Extensible x t) : Migrated x t t where
  txAttempt := rfl
  clockGuard := rfl
  nonceAlloc := rfl
  boot := rfl
  verifies := ⟨h, haudit.chained⟩
  rows := ⟨id, fun r => ⟨r.rowHash, r.prevRowHash, rfl⟩, (List.map_id _).symm⟩
  relinked := by
    have hrelinked := rebase_relinked (x := x) genesis (spendBySeq t)
    rw [rebase_of_chained h] at hrelinked
    exact hrelinked
  head hne := absurd rfl hne
  noted hne := absurd rfl hne
  quiet _ := rfl

theorem Written.migrated {row : AuditRow}
    (h : Written x (retags x genesis (spendBySeq t)) (newHead x t) row t t')
    (hwide : ¬ Chained (spendHash x) (·.rowHash) genesis (spendBySeq t))
    (haudit : Extensible x t) : Migrated x t t' where
  toElsewhere := h.toElsewhere
  verifies := by
    have hread : auditBySeq t' = auditBySeq t ++ [row] := by
      unfold auditBySeq
      rw [h.audit]
      refine insertionSort_concat fun r hr => ?_
      rw [h.seq]
      exact (seq_le_auditTail hr).trans (Int.le_add_one le_rfl)
    refine ⟨?_, ?_⟩
    · rw [spendBySeq_written h]
      exact rebase_chained _ _
    · rw [hread]
      refine chained_concat.mpr ⟨haudit.chained, ?_⟩
      rw [← haudit.head]
      exact h.tagged
  rows := ⟨_, retagged_onlyTags _, h.rows⟩
  relinked := by
    rw [spendBySeq_written h]
    exact rebase_relinked _ _
  head _ := by
    rw [spendBySeq_written h]
    exact h.spendHead
  noted _ := ⟨row, h.kind, h.audit⟩
  quiet hrows := by
    have hread : spendBySeq t' = spendBySeq t := congrArg (List.insertionSort _) hrows
    rw [spendBySeq_written h] at hread
    exact absurd (rebase_eq_iff.mp hread) hwide

/-- Where each row is authentic, the migration makes books that verify and changes nothing else, and a
second run changes nothing; a run that fails or is not to write changes nothing. -/
theorem migration_rebaselines (x : Externals) :
    (∀ t, Authentic x oldLink genesis (spendBySeq t) → Extensible x t →
      ∃ t', main x true none t = (0, t') ∧ Migrated x t t' ∧
        ∀ apply fault, main x apply fault t' = (0, t')) ∧
    ∀ t apply fault, (main x apply fault t).1 ≠ 0 ∨ apply = false →
      (main x apply fault t).2 = t := by
  refine ⟨fun t hauth haudit => ?_, fun t apply fault => main_unchanged x apply fault t⟩
  by_cases hchained : Chained (spendHash x) (·.rowHash) genesis (spendBySeq t)
  · exact ⟨t, main_of_chained hchained true none, migrated_of_chained hchained haudit,
      main_of_chained hchained⟩
  · rcases main_apply hauth hchained none with ⟨-, -, row, t', hmain, hwritten⟩ | ⟨hfails, -⟩
    · have hmigrated := hwritten.migrated hchained haudit
      exact ⟨t', hmain, hmigrated, main_of_chained hmigrated.verifies.1⟩
    · rcases hfails with hfault | hroom
      · exact absurd rfl hfault
      · rw [haudit.room] at hroom
        cases hroom

/-! ### Samples -/

namespace Sample

/-- A debit as the retired rule tagged it over the head `base`, with the link `link`. -/
def debit (base link : String) (seq : Int) (receiptId : String) : SpendRow :=
  let untagged : SpendRow :=
    { chainId := 8453, escrow := "0xe5", receiptId := receiptId, seq := seq, ts := 1756000000
      channelId := "0xc4", depositor := "0xd0", token := "0x70", amountUnits := 10000
      deadline := 1756003600, channelNonce := seq, calldataKeccak := "0xca", toAddr := "0xe5"
      gasLimit := 250000, hubGasHint := 200000, maxFeeWei := 1000000000, accountNonce := seq
      fromAddr := "0xf4", state := .mined, txHash := "0x7a", feeWeiSpent := 0, deadReason := ""
      prevRowHash := link, rowHash := "", reservedSeq := seq, reservedAt := 1756000000 }
  { untagged with rowHash := wideHash CanonicalJson.externals base untagged }

theorem debit_wide (base link : String) (seq : Int) (receiptId : String) :
    (debit base link seq receiptId).rowHash =
      wideHash CanonicalJson.externals base (debit base link seq receiptId) := rfl

def first : SpendRow := debit genesis genesis 1 "0x01"

theorem constraints_singleton (r : SpendRow) : SpendConstraints [r] :=
  ⟨List.nodup_singleton _, List.nodup_singleton _,
    ((List.nodup_singleton r.nonceKey).sublist (List.filter_sublist.map SpendRow.nonceKey))⟩

/-- The books with one debit. -/
def books (r : SpendRow) : Tables :=
  { Tables.empty with spend := ⟨[r], constraints_singleton r⟩, spendHead := r.rowHash }

/-- The books with the first debit. -/
def withFirst : Tables := books first

/-- The books with a debit whose link is an empty text, over which it is tagged. -/
def unlinked : Tables := books (debit "" "" 1 "0x01")

/-- An entry of the audit log over the head `base`. -/
def entry (base : String) (seq : Int) : AuditRow :=
  let untagged : AuditRow :=
    { seq := seq, ts := 1756000000, kind := "debit", decision := "sign", httpStatus := 200
      reasonCode := "", chainId := none, escrow := none, receiptId := none, channelId := none
      amountUnits := none, digest16 := "", txHash := "", prevHash := base, rowHash := "" }
  { untagged with rowHash := auditHash CanonicalJson.externals base untagged }

theorem entry_tagged (base : String) (seq : Int) :
    (entry base seq).rowHash = auditHash CanonicalJson.externals base (entry base seq) := rfl

def lastEntry : AuditRow := entry genesis (2 ^ 63 - 1)

/-- The books with the first debit and a full audit log. -/
def full : Tables :=
  { withFirst with audit := [lastEntry], auditSeq := lastEntry.seq, auditHead := lastEntry.rowHash }

theorem auditBySeq_full : auditBySeq full = [lastEntry] := by
  exact List.Pairwise.insertionSort_eq (List.pairwise_singleton _ _)

theorem full_chained :
    Chained (auditHash CanonicalJson.externals) (·.rowHash) genesis (auditBySeq full) := by
  rw [auditBySeq_full]
  exact ⟨entry_tagged genesis _, trivial⟩

theorem full_head : full.auditHead = tip (·.rowHash) genesis (auditBySeq full) := by
  rw [auditBySeq_full]
  exact Eq.refl lastEntry.rowHash

/-- A row as the rule in force tags it over the head `base`. -/
def narrowed (base : String) (r : SpendRow) : SpendRow :=
  { r with rowHash := spendHash CanonicalJson.externals base r }

theorem narrowed_tagged (base : String) (r : SpendRow) :
    (narrowed base r).rowHash = spendHash CanonicalJson.externals base (narrowed base r) := rfl

theorem isLink_narrowed (base : String) (r : SpendRow) : IsLink (narrowed base r).rowHash :=
  isLink_spendHash base r

def narrowFirst : SpendRow := narrowed genesis first

/-- A debit that the retired rule tagged over it. -/
def wideSecond : SpendRow := debit narrowFirst.rowHash narrowFirst.rowHash 2 "0x02"

/-- The books with both, and with an entry in the audit log. -/
def mixed : Tables :=
  { Tables.empty with
    spend := ⟨[narrowFirst, wideSecond], by decide⟩
    spendHead := wideSecond.rowHash
    audit := [entry genesis 1]
    auditSeq := 1
    auditHead := (entry genesis 1).rowHash }

theorem spendBySeq_mixed : spendBySeq mixed = [narrowFirst, wideSecond] :=
  List.Pairwise.insertionSort_eq (by decide)

theorem auditBySeq_mixed : auditBySeq mixed = [entry genesis 1] :=
  List.Pairwise.insertionSort_eq (List.pairwise_singleton _ _)

theorem mixed_authentic : Authentic CanonicalJson.externals oldLink genesis (spendBySeq mixed) := by
  rw [spendBySeq_mixed]
  refine ⟨.inl (narrowed_tagged genesis first), .inr ?_, trivial⟩
  have hlink : oldLink wideSecond = narrowFirst.rowHash := if_neg (isLink_narrowed genesis first).2
  rw [hlink]
  exact debit_wide narrowFirst.rowHash narrowFirst.rowHash 2 "0x02"

theorem mixed_extensible : Extensible CanonicalJson.externals mixed := by
  refine ⟨?_, ?_, by decide⟩
  · rw [auditBySeq_mixed]
    exact ⟨entry_tagged genesis 1, trivial⟩
  · rw [auditBySeq_mixed]
    exact Eq.refl (entry genesis 1).rowHash

theorem mixed_not_chained :
    ¬ Chained (spendHash CanonicalJson.externals) (·.rowHash) genesis (spendBySeq mixed) := by
  rw [spendBySeq_mixed]
  rintro ⟨-, hsecond, -⟩
  exact wideHash_ne_spendHash CanonicalJson.canonical_externals (isLink_narrowed genesis first).1
    (isLink_narrowed genesis first).1 _ _
    ((debit_wide narrowFirst.rowHash narrowFirst.rowHash 2 "0x02").symm.trans hsecond)

theorem unlinked_authentic :
    Authentic CanonicalJson.externals (·.prevRowHash) genesis (spendBySeq unlinked) :=
  ⟨.inr (debit_wide "" "" 1 "0x01"), trivial⟩

theorem unlinked_extensible : Extensible CanonicalJson.externals unlinked :=
  ⟨trivial, rfl, by decide⟩

/-- A debit of the retired rule has no narrow tag. -/
theorem debit_not_chained {base link : String} (hbase : IsHead base) (seq : Int)
    (receiptId : String) : ¬ Chained (spendHash CanonicalJson.externals) (·.rowHash) genesis
      [debit base link seq receiptId] := fun h =>
  wideHash_ne_spendHash CanonicalJson.canonical_externals hbase isHead_genesis _ _
    ((debit_wide base link seq receiptId).symm.trans h.1)

theorem main_unlinked : (main CanonicalJson.externals true none unlinked).1 = 2 := by
  have hx := CanonicalJson.canonical_externals
  have hempty : IsHead "" := by unfold IsHead; decide
  rw [main_refuses]
  rintro ⟨hnarrow | hwide, -⟩
  · exact debit_not_chained hempty 1 "0x01" ⟨hnarrow, trivial⟩
  · -- the script reads the empty link as the head of an empty chain
    have hheads := (((wide_commits hx).iff hempty isHead_genesis _ _).mp
      ((debit_wide "" "" 1 "0x01").symm.trans hwide)).1
    exact absurd hheads (by decide)

theorem full_authentic :
    Authentic CanonicalJson.externals (·.prevRowHash) genesis (spendBySeq full) :=
  ⟨.inr (debit_wide genesis genesis 1 "0x01"), trivial⟩

theorem main_full : (main CanonicalJson.externals true none full).1 = 1 := by
  have hauth : Authentic CanonicalJson.externals oldLink genesis (spendBySeq full) :=
    ⟨.inr (debit_wide genesis genesis 1 "0x01"), trivial⟩
  rcases main_apply hauth (debit_not_chained isHead_genesis 1 "0x01") none with
    ⟨-, hroom, -⟩ | ⟨-, hmain⟩
  · exact absurd hroom (by decide)
  · rw [hmain]

end Sample

/-- A debit that was migrated already and one that the retired rule tagged over it are migrated, and a
second run changes nothing. -/
theorem migration_rebaselines_mixed :
    ¬ Chained (spendHash CanonicalJson.externals) (·.rowHash) genesis (spendBySeq Sample.mixed) ∧
      ∃ t', main CanonicalJson.externals true none Sample.mixed = (0, t') ∧
        Migrated CanonicalJson.externals Sample.mixed t' ∧
          main CanonicalJson.externals true none t' = (0, t') := by
  obtain ⟨t', hmain, hmigrated, hagain⟩ :=
    (migration_rebaselines _).1 _ Sample.mixed_authentic Sample.mixed_extensible
  exact ⟨Sample.mixed_not_chained, t', hmain, hmigrated, hagain true none⟩

/-- An empty link is not what the script reads, and a full audit log takes no entry. -/
theorem migration_not_rebaselines :
    (Authentic CanonicalJson.externals (·.prevRowHash) genesis (spendBySeq Sample.unlinked) ∧
      Extensible CanonicalJson.externals Sample.unlinked ∧
      (main CanonicalJson.externals true none Sample.unlinked).1 = 2) ∧
    (Authentic CanonicalJson.externals (·.prevRowHash) genesis (spendBySeq Sample.full) ∧
      Chained (auditHash CanonicalJson.externals) (·.rowHash) genesis (auditBySeq Sample.full) ∧
      Sample.full.auditHead = tip (·.rowHash) genesis (auditBySeq Sample.full) ∧
      (main CanonicalJson.externals true none Sample.full).1 = 1) :=
  ⟨⟨Sample.unlinked_authentic, Sample.unlinked_extensible, Sample.main_unlinked⟩,
    Sample.full_authentic, Sample.full_chained, Sample.full_head, Sample.main_full⟩

end EscrowSigner.Rebaseline
