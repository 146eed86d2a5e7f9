import EscrowSigner.Rebaseline.Books

/-! What the migration makes of rows that were edited and removed behind the back of the service.  It
reads each row over the link that the row stores, so it notices an edited row and no missing one. -/

namespace EscrowSigner.Rebaseline

open Ledger HashChain

variable {x : Externals} {t : Tables}

/-- The rows of `t` are what is left of a chain `l` of the retired rule after rows were edited and
removed, while hashes and links were kept. -/
structure Doctored (x : Externals) (l : List SpendRow) (kept : List (SpendRow × SpendRow))
    (t : Tables) : Prop extends Tampered (·.rowHash) l kept where
  chained : Chained (wideHash x) (·.rowHash) genesis l
  linked : Linked (·.prevRowHash) (·.rowHash) genesis l
  links : ∀ e ∈ kept, e.2.prevRowHash = e.1.prevRowHash
  rows : t.spend.rows = kept.map Prod.snd

section Doctored

variable {l : List SpendRow} {kept : List (SpendRow × SpendRow)}

theorem Doctored.mem_iff (h : Doctored x l kept t) {r : SpendRow} :
    r ∈ spendBySeq t ↔ ∃ e ∈ kept, e.2 = r := by
  unfold spendBySeq
  rw [List.mem_insertionSort, h.rows, List.mem_map]

theorem Doctored.tagged (h : Doctored x l kept t) : ∀ e ∈ kept,
    Tagged IsLink (wideHash x) (·.rowHash) (·.prevRowHash) e.1 := fun e he =>
  h.chained.tagged (fun _ _ => isLink_hexString _) isLink_genesis h.linked e.1
    (h.left.subset (List.mem_map_of_mem he))

/-- No row that is left has a narrow tag. -/
theorem Doctored.not_narrow (hx : Canonical x) (h : Doctored x l kept t) :
    ∀ r ∈ spendBySeq t, ∀ head, IsHead head → r.rowHash ≠ spendHash x head r := by
  intro r hr head hhead heq
  obtain ⟨e, he, rfl⟩ := h.mem_iff.mp hr
  have horigin := h.tagged e he
  rw [h.hashes e he, horigin.hash] at heq
  exact wideHash_ne_spendHash hx horigin.head.1 hhead _ _ heq

/-- The rows that are left are authentic exactly when nothing that the retired rule hashed was
edited. -/
theorem Doctored.authentic_iff (hx : Canonical x) (h : Doctored x l kept t) :
    Authentic x oldLink genesis (spendBySeq t) ↔ ∀ e ∈ kept, widePayload e.2 = widePayload e.1 := by
  have hrow : ∀ e ∈ kept, e.2.rowHash = wideHash x (oldLink e.2) e.2 ↔
      widePayload e.2 = widePayload e.1 := by
    intro e he
    have horigin := h.tagged e he
    have hlink : oldLink e.2 = e.1.prevRowHash := by
      unfold oldLink
      rw [h.links e he, if_neg horigin.head.2]
    rw [h.hashes e he, horigin.hash, hlink,
      (wide_commits hx).iff horigin.head.1 horigin.head.1]
    exact ⟨fun heq => heq.2.symm, fun heq => ⟨rfl, heq.symm⟩⟩
  rw [Rebaseline.authentic_iff isHead_genesis (h.not_narrow hx)]
  constructor
  · intro hwide e he
    exact (hrow e he).mp (hwide e.2 (h.mem_iff.mpr ⟨e, he, rfl⟩))
  · intro hedits r hr
    obtain ⟨e, he, rfl⟩ := h.mem_iff.mp hr
    exact (hrow e he).mpr (hedits e he)

/-- They are a chain only when none is left. -/
theorem Doctored.chained_iff (hx : Canonical x) (h : Doctored x l kept t) :
    Chained (spendHash x) (·.rowHash) genesis (spendBySeq t) ↔ kept = [] := by
  cases hrows : spendBySeq t with
  | nil =>
    refine iff_of_true trivial (List.eq_nil_iff_forall_not_mem.mpr fun e he => ?_)
    have hmem := h.mem_iff.mpr ⟨e, he, rfl⟩
    rw [hrows] at hmem
    exact List.not_mem_nil hmem
  | cons r rest =>
    have hr : r ∈ spendBySeq t := hrows ▸ List.mem_cons_self
    refine iff_of_false (fun hc => h.not_narrow hx r hr genesis isHead_genesis hc.1) ?_
    rintro rfl
    obtain ⟨e, he, -⟩ := h.mem_iff.mp hr
    exact List.not_mem_nil he

/-- The migration refuses doctored rows exactly when something that the retired rule hashed of a row
that is left was edited, or the database takes no write.  That rows are missing goes unnoticed: each
row is read over the link that it stores. -/
theorem tampering_refused_iff (hx : Canonical x) (h : Doctored x l kept t) (fault : Option Exn) :
    ((main x true fault t).1 ≠ 0 ∧ (main x true fault t).2 = t) ↔
      (∃ e ∈ kept, widePayload e.2 ≠ widePayload e.1) ∨
        (kept ≠ [] ∧ (fault ≠ none ∨ inInt64 ((auditTail t).2 + 1) = false)) := by
  by_cases hedited : ∃ e ∈ kept, widePayload e.2 ≠ widePayload e.1
  · have hrefused := main_refuses (x := x) (t := t) (fun hauth => ?_) true fault
    · rw [hrefused]
      exact iff_of_true ⟨(by decide : (2 : Int) ≠ 0), rfl⟩ (.inl hedited)
    · obtain ⟨e, he, hne⟩ := hedited
      exact hne ((h.authentic_iff hx).mp hauth e he)
  · have hauth : Authentic x oldLink genesis (spendBySeq t) := (h.authentic_iff hx).mpr fun e he =>
      not_not.mp fun hne => hedited ⟨e, he, hne⟩
    rw [or_iff_right hedited]
    by_cases hempty : kept = []
    · rw [main_of_chained ((h.chained_iff hx).mpr hempty)]
      exact iff_of_false (fun hrun => hrun.1 rfl) fun hkept => hkept.1 hempty
    · rw [and_iff_right hempty]
      rcases main_apply hauth (fun hc => hempty ((h.chained_iff hx).mp hc)) fault with
        ⟨hfault, hroom, row, t', hmain, -⟩ | ⟨hfails, hmain⟩
      · rw [hmain, hfault, hroom]
        refine iff_of_false (fun hrun => hrun.1 rfl) fun hcases => ?_
        rcases hcases with hsome | hfull
        · exact hsome rfl
        · cases hfull
      · rw [hmain]
        exact iff_of_true ⟨(by decide : (1 : Int) ≠ 0), rfl⟩ hfails

end Doctored

/-! ### Samples -/

namespace Sample

def second : SpendRow := debit first.rowHash first.rowHash 2 "0x02"

def third : SpendRow := debit second.rowHash second.rowHash 3 "0x03"

def inflated : SpendRow := { second with amountUnits := 10 ^ 12 }

/-- The books with three debits, of which the second was edited. -/
def inflatedBooks : Tables :=
  { Tables.empty with
    spend := ⟨[first, inflated, third], by decide⟩
    spendHead := third.rowHash }

theorem first_chained :
    Chained (wideHash CanonicalJson.externals) (·.rowHash) genesis [first] :=
  ⟨debit_wide genesis genesis 1 "0x01", trivial⟩

/-- The amount of the second of three debits is edited. -/
theorem doctored_inflated : Doctored CanonicalJson.externals [first, second, third]
    [(first, first), (second, inflated), (third, third)] inflatedBooks where
  left := List.Sublist.refl _
  hashes e he := by
    simp only [List.mem_cons, List.not_mem_nil, or_false] at he
    rcases he with rfl | rfl | rfl <;> rfl
  chained := ⟨first_chained.1, debit_wide first.rowHash first.rowHash 2 "0x02",
    debit_wide second.rowHash second.rowHash 3 "0x03", trivial⟩
  linked := ⟨rfl, rfl, rfl, trivial⟩
  links e he := by
    simp only [List.mem_cons, List.not_mem_nil, or_false] at he
    rcases he with rfl | rfl | rfl <;> rfl
  rows := rfl

/-- The first of two debits is removed. -/
theorem doctored_second : Doctored CanonicalJson.externals [first, second] [(second, second)]
    (books second) where
  left := List.sublist_cons_self _ _
  hashes e he := by
    rw [List.mem_singleton.mp he]
  chained := ⟨first_chained.1, debit_wide first.rowHash first.rowHash 2 "0x02", trivial⟩
  linked := ⟨rfl, rfl, trivial⟩
  links e he := by
    rw [List.mem_singleton.mp he]
  rows := rfl

theorem main_second :
    (main CanonicalJson.externals true none (books second)).1 = 0 := by
  have hx := CanonicalJson.canonical_externals
  have hauth := (doctored_second.authentic_iff hx).mpr fun e he => by rw [List.mem_singleton.mp he]
  have hwide := (doctored_second.chained_iff hx).not.mpr (List.cons_ne_nil _ _)
  rcases main_apply hauth hwide none with ⟨-, -, row, t', hmain, -⟩ | ⟨hfails, -⟩
  · rw [hmain]
  · rcases hfails with hfault | hroom
    · exact absurd rfl hfault
    · cases hroom

end Sample

/-- An edited amount is refused, and the books are left as they are. -/
theorem tampering_refused_amount :
    (main CanonicalJson.externals true none Sample.inflatedBooks).1 ≠ 0 ∧
      (main CanonicalJson.externals true none Sample.inflatedBooks).2 = Sample.inflatedBooks := by
  have hedited : ∃ e ∈ [(Sample.first, Sample.first), (Sample.second, Sample.inflated),
      (Sample.third, Sample.third)], widePayload e.2 ≠ widePayload e.1 :=
    ⟨_, List.mem_cons_of_mem _ List.mem_cons_self, by decide +kernel⟩
  exact (tampering_refused_iff CanonicalJson.canonical_externals Sample.doctored_inflated none).mpr
    (.inl hedited)

/-- The first of two debits is removed, and the migration passes over it. -/
theorem tampering_not_refused : Canonical CanonicalJson.externals ∧
    Doctored CanonicalJson.externals [Sample.first, Sample.second]
      [(Sample.second, Sample.second)] (Sample.books Sample.second) ∧
    (main CanonicalJson.externals true none
      (Sample.books Sample.second)).1 = 0 :=
  ⟨CanonicalJson.canonical_externals, Sample.doctored_second, Sample.main_second⟩

end EscrowSigner.Rebaseline
