import EscrowSigner.Integrity.Chains

/-! `migrations/001_narrow_chain_rebaseline.py`: rows of `spend` that were written under the wide rule
are tagged again under the narrow one. -/

namespace EscrowSigner.Rebaseline

open Ledger HashChain

/-! ### The script -/

/-- `wide_payload`: what the retired rule hashed, with the state of the time of the insert. -/
def widePayload (r : SpendRow) : List (String × Scalar) :=
  spendPayload r ++
    [("gas_limit", .int r.gasLimit), ("hub_gas_hint", .int r.hubGasHint),
      ("max_fee_wei", .int r.maxFeeWei), ("account_nonce", .int r.accountNonce),
      ("state", .text "reserved")]

/-- `narrow_payload`. -/
def narrowPayload (r : SpendRow) : List (String × Scalar) := spendPayload r

/-- An entry of `plan`: the row with a `seq`, and the link and the tag that it gets. -/
structure Retag where
  seq : Int
  prev : String
  new : String
deriving DecidableEq, Repr

/-- `audit_tail`. -/
def auditTail (t : Tables) : String × Int := (t.auditHead, (t.audit.map (·.seq)).max?.getD 0)

/-- `row["prev_row_hash"] or "0x00"`. -/
def oldLink (r : SpendRow) : String := if r.prevRowHash = "" then genesis else r.prevRowHash

/-- The loop over the rows: the plan and the head that it ends with, or the row that fails under both
rules. -/
def verify (x : Externals) : String → List SpendRow → Except SpendRow (List Retag × String)
  | head, [] => .ok ([], head)
  | head, row :: rest =>
    let narrow := rowHash x head (narrowPayload row)
    if row.rowHash = narrow then verify x narrow rest
    else
      let wide := rowHash x (oldLink row) (widePayload row)
      if row.rowHash ≠ wide then .error row
      else do
        let (plan, last) ← verify x narrow rest
        return (⟨row.seq, head, narrow⟩ :: plan, last)

/-- `UPDATE spend SET row_hash = ?, prev_row_hash = ? WHERE seq = ?`, as it changes a row. -/
def Retag.on (p : Retag) (r : SpendRow) : SpendRow :=
  if r.seq = p.seq then { r with rowHash := p.new, prevRowHash := p.prev } else r

def writeTags : List Retag → Tables → Except Exn Tables
  | [], t => .ok t
  | p :: plan, t => do writeTags plan (← t.setSpend (t.spend.rows.map p.on))

/-- The row with which the migration writes itself into the audit log. -/
def entry (x : Externals) (last : SpendRow) (count : Nat) (head : String) (seq : Int) : AuditRow :=
  let unhashed : AuditRow :=
    { seq := seq
      ts := last.ts
      kind := "migration"
      decision := "rebaseline"
      httpStatus := 0
      reasonCode :=
        s!"001_narrow_chain_rebaseline: re-tagged {count} row(s) verified under the wide rule"
      chainId := some last.chainId
      escrow := some last.escrow
      receiptId := some ""
      channelId := some ""
      amountUnits := some 0
      digest16 := ""
      txHash := ""
      prevHash := head
      rowHash := "" }
  { unhashed with rowHash := auditHash x head unhashed }

/-- The statements between `BEGIN IMMEDIATE` and `COMMIT`.  What is bound comes from columns, and
fits, but for the new `seq`. -/
def write (x : Externals) (rows : List SpendRow) (plan : List Retag) (head : String) (t : Tables) :
    Except Exn Tables := do
  let t ← writeTags plan t
  let tail := auditTail t
  match rows.getLast? with
  | none => .error (.other "IndexError")
  | some last =>
    bindInts [tail.2 + 1]
    let row := entry x last plan.length tail.1 (tail.2 + 1)
    return { t with
      spendHead := head
      audit := t.audit ++ [row]
      auditSeq := max t.auditSeq (tail.2 + 1)
      auditHead := row.rowHash }

/-- `main`: its exit code, and the database that it leaves.  `fault` is what a statement of the
transaction raises where the database fails. -/
def main (x : Externals) (apply : Bool) (fault : Option Exn) (t : Tables) : Int × Tables :=
  let rows := spendBySeq t
  match verify x genesis rows with
  | .error _ => (2, t)
  | .ok (plan, head) =>
    if plan = [] then (0, t)
    else if apply = false then (0, t)
    else
      match fault with
      | some _ => (1, t)
      | none =>
        match write x rows plan head t with
        | .ok t' => (0, t')
        | .error _ => (1, t)

/-! ### The rows after the migration -/

variable {x : Externals} {t t' : Tables} {head last : String} {rows : List SpendRow}
  {plan : List Retag} {link : SpendRow → String}

/-- The hash of the retired rule. -/
def wideHash (x : Externals) (head : String) (r : SpendRow) : String := rowHash x head (widePayload r)

/-- Each row is authentic: under the narrow rule at the running narrow head, or under the wide rule at
its link. -/
def Authentic (x : Externals) (link : SpendRow → String) : String → List SpendRow → Prop
  | _, [] => True
  | head, r :: rest =>
    (r.rowHash = spendHash x head r ∨ r.rowHash = wideHash x (link r) r) ∧
      Authentic x link (spendHash x head r) rest

/-- The entries for the rows whose tag is not narrow. -/
def retags (x : Externals) : String → List SpendRow → List Retag
  | _, [] => []
  | head, r :: rest =>
    let narrow := spendHash x head r
    if r.rowHash = narrow then retags x narrow rest
    else ⟨r.seq, head, narrow⟩ :: retags x narrow rest

/-- The row with a narrow tag. -/
def retag (x : Externals) (head : String) (r : SpendRow) : SpendRow :=
  if r.rowHash = spendHash x head r then r
  else { r with rowHash := spendHash x head r, prevRowHash := head }

/-- The rows with a narrow tag each. -/
def rebase (x : Externals) : String → List SpendRow → List SpendRow
  | _, [] => []
  | head, r :: rest => retag x head r :: rebase x (spendHash x head r) rest

/-- Each row is as it was, or names the new tag of the one before it; its other columns are as they
were. -/
def Relinked : String → List SpendRow → List SpendRow → Prop
  | _, [], [] => True
  | head, r :: rest, r' :: rest' =>
    (r' = r ∨ r' = { r with rowHash := r'.rowHash, prevRowHash := head }) ∧
      Relinked r'.rowHash rest rest'
  | _, _, _ => False

theorem retag_rowHash (r : SpendRow) : (retag x head r).rowHash = spendHash x head r := by
  unfold retag
  split
  · assumption
  · rfl

theorem retag_spendHash (g : String) (r : SpendRow) :
    spendHash x g (retag x head r) = spendHash x g r := by
  unfold retag
  split <;> rfl

theorem rebase_chained (head : String) (rows : List SpendRow) :
    Chained (spendHash x) (·.rowHash) head (rebase x head rows) := by
  induction rows generalizing head with
  | nil => trivial
  | cons r rows ih =>
    refine ⟨(retag_rowHash r).trans (retag_spendHash head r).symm, ?_⟩
    show Chained _ _ (retag x head r).rowHash _
    rw [retag_rowHash]
    exact ih _

theorem rebase_relinked (head : String) (rows : List SpendRow) :
    Relinked head rows (rebase x head rows) := by
  induction rows generalizing head with
  | nil => trivial
  | cons r rows ih =>
    refine ⟨?_, ?_⟩
    · unfold retag
      split
      · exact .inl rfl
      · exact .inr rfl
    · rw [retag_rowHash]
      exact ih _

/-- A chain needs no new tags. -/
theorem retags_eq_nil_iff :
    retags x head rows = [] ↔ Chained (spendHash x) (·.rowHash) head rows := by
  induction rows generalizing head with
  | nil => exact iff_of_true rfl trivial
  | cons r rows ih =>
    unfold retags
    dsimp only [Chained]
    split
    · rename_i hnarrow
      rw [ih, hnarrow]
      exact (and_iff_right rfl).symm
    · rename_i hwide
      exact iff_of_false (List.cons_ne_nil _ _) fun h => hwide h.1

theorem rebase_of_chained (h : Chained (spendHash x) (·.rowHash) head rows) :
    rebase x head rows = rows := by
  induction rows generalizing head with
  | nil => rfl
  | cons r rows ih =>
    have hrest := h.2
    rw [h.1] at hrest
    unfold rebase
    rw [ih hrest, retag, if_pos h.1]

theorem rebase_eq_iff :
    rebase x head rows = rows ↔ Chained (spendHash x) (·.rowHash) head rows :=
  ⟨fun h => h ▸ rebase_chained head rows, rebase_of_chained⟩

/-- The loop accepts exactly the authentic rows. -/
theorem verify_iff : verify x head rows = .ok (plan, last) ↔
    Authentic x oldLink head rows ∧ plan = retags x head rows ∧
      last = tip (·.rowHash) head (rebase x head rows) := by
  induction rows generalizing head plan with
  | nil =>
    refine ⟨fun h => ?_, fun ⟨_, hplan, hlast⟩ => ?_⟩
    · cases h
      exact ⟨trivial, rfl, rfl⟩
    · rw [hplan, hlast]
      rfl
  | cons r rows ih =>
    have htip : tip (·.rowHash) head (rebase x head (r :: rows)) =
        tip (·.rowHash) (spendHash x head r) (rebase x (spendHash x head r) rows) := by
      show tip SpendRow.rowHash (retag x head r).rowHash _ = _
      rw [retag_rowHash]
    rw [htip]
    by_cases hnarrow : r.rowHash = spendHash x head r
    · have hverify : verify x head (r :: rows) = verify x (spendHash x head r) rows := if_pos hnarrow
      have hretags : retags x head (r :: rows) = retags x (spendHash x head r) rows := if_pos hnarrow
      rw [hverify, hretags, ih]
      exact and_congr_left fun _ => (and_iff_right (.inl hnarrow)).symm
    · have hretags : retags x head (r :: rows) =
          ⟨r.seq, head, spendHash x head r⟩ :: retags x (spendHash x head r) rows := if_neg hnarrow
      have hverify : verify x head (r :: rows) =
          if r.rowHash ≠ wideHash x (oldLink r) r then .error r
          else do
            let (plan, last) ← verify x (spendHash x head r) rows
            return (⟨r.seq, head, spendHash x head r⟩ :: plan, last) := if_neg hnarrow
      rw [hverify, hretags]
      by_cases hwide : r.rowHash = wideHash x (oldLink r) r
      · rw [if_neg (not_not.mpr hwide)]
        constructor
        · intro h
          cases hrest : verify x (spendHash x head r) rows with
          | error row =>
            rw [hrest] at h
            cases h
          | ok found =>
            rw [hrest] at h
            cases h
            obtain ⟨hauth, hplan, hlast⟩ := ih.mp hrest
            exact ⟨⟨.inr hwide, hauth⟩, congrArg _ hplan, hlast⟩
        · rintro ⟨⟨_, hauth⟩, rfl, hlast⟩
          rw [ih.mpr ⟨hauth, rfl, hlast⟩]
          rfl
      · rw [if_pos hwide]
        refine ⟨fun h => (by cases h), fun h => ?_⟩
        rcases h.1.1 with h | h
        · exact absurd h hnarrow
        · exact absurd h hwide

/-! ### The updates -/

/-- What a plan makes of a row. -/
def retagged (plan : List Retag) (r : SpendRow) : SpendRow := plan.foldl (fun r p => p.on r) r

/-- The rows differ in their tags and links at most. -/
def OnlyTags (r r' : SpendRow) : Prop :=
  ∃ tag link, r' = { r with rowHash := tag, prevRowHash := link }

theorem Retag.on_onlyTags (p : Retag) (r : SpendRow) : OnlyTags r (p.on r) := by
  unfold Retag.on
  split
  · exact ⟨_, _, rfl⟩
  · exact ⟨r.rowHash, r.prevRowHash, rfl⟩

theorem retagged_onlyTags (plan : List Retag) (r : SpendRow) : OnlyTags r (retagged plan r) := by
  induction plan generalizing r with
  | nil => exact ⟨r.rowHash, r.prevRowHash, rfl⟩
  | cons p plan ih =>
    obtain ⟨tag, link, hplan⟩ := ih (p.on r)
    obtain ⟨tag', link', hp⟩ := p.on_onlyTags r
    refine ⟨tag, link, ?_⟩
    show retagged plan (p.on r) = _
    rw [hplan, hp]

theorem retagged_of_ne (r : SpendRow) (h : ∀ p ∈ plan, r.seq ≠ p.seq) : retagged plan r = r := by
  induction plan with
  | nil => rfl
  | cons p plan ih =>
    have hp : p.on r = r := if_neg (h p List.mem_cons_self)
    show retagged plan (p.on r) = r
    rw [hp]
    exact ih fun p' hp' => h p' (List.mem_cons_of_mem p hp')

theorem seq_retags {p : Retag} (h : p ∈ retags x head rows) : p.seq ∈ rows.map (·.seq) := by
  induction rows generalizing head with
  | nil => exact absurd h List.not_mem_nil
  | cons r rows ih =>
    unfold retags at h
    dsimp only at h
    split at h
    · exact List.mem_cons_of_mem _ (ih h)
    · rcases List.mem_cons.mp h with rfl | h
      · exact List.mem_cons_self
      · exact List.mem_cons_of_mem _ (ih h)

/-- The plan of rows with distinct `seq`s gives each its narrow tag. -/
theorem map_retagged (hn : (rows.map (·.seq)).Nodup) :
    rows.map (retagged (retags x head rows)) = rebase x head rows := by
  induction rows generalizing head with
  | nil => rfl
  | cons r rows ih =>
    obtain ⟨hr, hrows⟩ := List.nodup_cons.mp hn
    have hafter : ∀ r' : SpendRow, r'.seq = r.seq →
        retagged (retags x (spendHash x head r) rows) r' = r' := by
      intro r' hseq
      refine retagged_of_ne r' fun p hp heq => hr ?_
      have hmem := seq_retags hp
      rw [← heq, hseq] at hmem
      exact hmem
    by_cases hnarrow : r.rowHash = spendHash x head r
    · have hretags : retags x head (r :: rows) = retags x (spendHash x head r) rows := if_pos hnarrow
      rw [hretags, List.map_cons, ih hrows, hafter r rfl, rebase, retag, if_pos hnarrow]
    · have hretags : retags x head (r :: rows) =
          ⟨r.seq, head, spendHash x head r⟩ :: retags x (spendHash x head r) rows := if_neg hnarrow
      have hhead : retagged (retags x head (r :: rows)) r = retag x head r := by
        rw [hretags, retag, if_neg hnarrow]
        show retagged (retags x (spendHash x head r) rows) (Retag.on _ r) = _
        rw [Retag.on, if_pos rfl]
        exact hafter _ rfl
      have hrest : rows.map (retagged (retags x head (r :: rows))) =
          rows.map (retagged (retags x (spendHash x head r) rows)) := by
        refine List.map_congr_left fun r' hr' => ?_
        have hne : r'.seq ≠ r.seq := fun heq => hr (List.mem_map.mpr ⟨r', hr', heq⟩)
        rw [hretags]
        show retagged _ (Retag.on _ r') = _
        rw [Retag.on, if_neg hne]
      rw [List.map_cons, hhead, hrest, ih hrows, rebase]

/-- The constraints look at no tag. -/
theorem constraints_map {f : SpendRow → SpendRow} (hf : ∀ r, OnlyTags r (f r))
    (h : SpendConstraints rows) : SpendConstraints (rows.map f) := by
  have hmap : ∀ {β : Type} (g : SpendRow → β), (∀ r, g (f r) = g r) →
      (rows.map f).map g = rows.map g := fun g hg => by
    rw [List.map_map]
    exact List.map_congr_left fun r _ => hg r
  obtain ⟨hkeys, hseqs, hnonces⟩ := h
  refine ⟨?_, ?_, ?_⟩
  · rw [hmap SpendRow.key fun r => by obtain ⟨_, _, h⟩ := hf r; rw [h]; rfl]
    exact hkeys
  · rw [hmap SpendRow.seq fun r => by obtain ⟨_, _, h⟩ := hf r; rw [h]]
    exact hseqs
  · rw [List.filter_map, List.map_map]
    have hstate : ((fun r : SpendRow => decide (r.state ≠ .dead)) ∘ f) =
        fun r => decide (r.state ≠ .dead) := by
      funext r
      obtain ⟨_, _, h⟩ := hf r
      rw [Function.comp_apply, h]
    have hnonce : SpendRow.nonceKey ∘ f = SpendRow.nonceKey := by
      funext r
      obtain ⟨_, _, h⟩ := hf r
      rw [Function.comp_apply, h]
      rfl
    rw [hstate, hnonce]
    exact hnonces

theorem writeTags_eq (plan : List Retag) (t : Tables) :
    ∃ h, writeTags plan t = .ok { t with spend := ⟨t.spend.rows.map (retagged plan), h⟩ } := by
  induction plan generalizing t with
  | nil =>
    have hmap : t.spend.rows.map (retagged []) = t.spend.rows := List.map_id _
    refine ⟨hmap.symm ▸ t.spend.constraints, ?_⟩
    show Except.ok t = _
    simp only [hmap]
  | cons p plan ih =>
    have hp : SpendConstraints (t.spend.rows.map p.on) :=
      constraints_map (fun r => p.on_onlyTags r) t.spend.constraints
    have hset : t.setSpend (t.spend.rows.map p.on) =
        .ok { t with spend := ⟨t.spend.rows.map p.on, hp⟩ } := dif_pos hp
    obtain ⟨h, hwrite⟩ := ih { t with spend := ⟨t.spend.rows.map p.on, hp⟩ }
    have hmap : (t.spend.rows.map p.on).map (retagged plan) =
        t.spend.rows.map (retagged (p :: plan)) := List.map_map
    refine ⟨hmap ▸ h, ?_⟩
    show ((t.setSpend (t.spend.rows.map p.on)).bind fun t => writeTags plan t) = _
    rw [hset]
    show writeTags plan _ = _
    rw [hwrite]
    simp only [hmap]

theorem spendBySeq_map {f : SpendRow → SpendRow} (hf : ∀ r, OnlyTags r (f r))
    (hrows : t'.spend.rows = t.spend.rows.map f) : spendBySeq t' = (spendBySeq t).map f := by
  unfold spendBySeq
  rw [hrows]
  refine (List.map_insertionSort _ _ _ _ fun r _ r' _ => ?_).symm
  obtain ⟨_, _, h⟩ := hf r
  obtain ⟨_, _, h'⟩ := hf r'
  rw [h, h']

/-! ### What the migration does -/

/-- No row of the audit log has the `seq` of the migration's entry, or a larger one. -/
theorem seq_le_auditTail {r : AuditRow} (hr : r ∈ t.audit) : r.seq ≤ (auditTail t).2 := by
  have hmem : r.seq ∈ t.audit.map (·.seq) := List.mem_map_of_mem hr
  unfold auditTail
  cases hmax : (t.audit.map (·.seq)).max? with
  | none =>
    rw [List.max?_eq_none_iff.mp hmax] at hmem
    exact absurd hmem List.not_mem_nil
  | some n => exact (List.max?_eq_some_iff.mp hmax).2 _ hmem

/-- The tables that a database did not touch. -/
structure Elsewhere (t t' : Tables) : Prop where
  txAttempt : t'.txAttempt = t.txAttempt
  clockGuard : t'.clockGuard = t.clockGuard
  nonceAlloc : t'.nonceAlloc = t.nonceAlloc
  boot : t'.boot = t.boot

/-- What the transaction writes: the tags of the plan, the head of the chain and the entry `row`. -/
structure Written (x : Externals) (plan : List Retag) (head : String) (row : AuditRow)
    (t t' : Tables) : Prop extends Elsewhere t t' where
  rows : t'.spend.rows = t.spend.rows.map (retagged plan)
  spendHead : t'.spendHead = head
  audit : t'.audit = t.audit ++ [row]
  auditHead : t'.auditHead = row.rowHash
  seq : row.seq = (auditTail t).2 + 1
  tagged : row.rowHash = auditHash x t.auditHead row
  kind : row.kind = "migration"

theorem write_ok (hrows : rows ≠ []) (hroom : inInt64 ((auditTail t).2 + 1) = true) :
    ∃ row t', write x rows plan head t = .ok t' ∧ Written x plan head row t t' := by
  obtain ⟨h, hwrite⟩ := writeTags_eq plan t
  have hbind : bindInts [(auditTail t).2 + 1] = .ok () := by
    unfold bindInts
    rw [List.all_cons, hroom]
    rfl
  unfold write
  rw [hwrite, List.getLast?_eq_some_getLast hrows]
  dsimp only [bind, Except.bind, auditTail] at hbind ⊢
  rw [hbind]
  exact ⟨_, _, rfl, ⟨rfl, rfl, rfl, rfl⟩, rfl, rfl, rfl, rfl, rfl, rfl, rfl⟩

theorem write_error (hrows : rows ≠ []) (hroom : inInt64 ((auditTail t).2 + 1) = false) :
    ∃ e, write x rows plan head t = .error e := by
  obtain ⟨h, hwrite⟩ := writeTags_eq plan t
  have hbind : bindInts [(auditTail t).2 + 1] = .error .overflowError := by
    unfold bindInts
    rw [List.all_cons, hroom]
    rfl
  unfold write
  rw [hwrite, List.getLast?_eq_some_getLast hrows]
  dsimp only [bind, Except.bind, auditTail] at hbind ⊢
  rw [hbind]
  exact ⟨_, rfl⟩

/-- A run that fails, or that was not to write, leaves the database as it was. -/
theorem main_unchanged (x : Externals) (apply : Bool) (fault : Option Exn) (t : Tables)
    (h : (main x apply fault t).1 ≠ 0 ∨ apply = false) : (main x apply fault t).2 = t := by
  unfold main at h ⊢
  dsimp only at h ⊢
  cases hverify : verify x genesis (spendBySeq t) with
  | error row => rfl
  | ok found =>
    rw [hverify] at h
    dsimp only at h ⊢
    split
    · rfl
    · rename_i hplan
      rw [if_neg hplan] at h
      split
      · rfl
      · rename_i happly
        rw [if_neg happly] at h
        cases fault with
        | some e => rfl
        | none =>
          dsimp only at h ⊢
          cases hwrite : write x (spendBySeq t) found.1 found.2 t with
          | error e => rfl
          | ok t' =>
            rw [hwrite] at h
            rcases h with h | h
            · exact absurd rfl h
            · exact absurd h happly

theorem authentic_of_chained (h : Chained (spendHash x) (·.rowHash) head rows) :
    Authentic x link head rows := by
  induction rows generalizing head with
  | nil => trivial
  | cons r rows ih =>
    refine ⟨.inl h.1, ih ?_⟩
    rw [← h.1]
    exact h.2

/-- Books that are a chain are left alone. -/
theorem main_of_chained (h : Chained (spendHash x) (·.rowHash) genesis (spendBySeq t))
    (apply : Bool) (fault : Option Exn) : main x apply fault t = (0, t) := by
  have hverify := verify_iff.mpr ⟨authentic_of_chained h, rfl, rfl⟩
  rw [retags_eq_nil_iff.mpr h] at hverify
  unfold main
  dsimp only
  rw [hverify]
  exact if_pos rfl

theorem main_refuses (h : ¬ Authentic x oldLink genesis (spendBySeq t)) (apply : Bool)
    (fault : Option Exn) : main x apply fault t = (2, t) := by
  unfold main
  dsimp only
  cases hverify : verify x genesis (spendBySeq t) with
  | error row => rfl
  | ok found => exact absurd (verify_iff.mp hverify).1 h

/-- The head of the chain that the migration makes. -/
def newHead (x : Externals) (t : Tables) : String :=
  tip (·.rowHash) genesis (rebase x genesis (spendBySeq t))

/-- What `--apply` does with authentic rows that are no chain. -/
theorem main_apply (hauth : Authentic x oldLink genesis (spendBySeq t))
    (hwide : ¬ Chained (spendHash x) (·.rowHash) genesis (spendBySeq t)) (fault : Option Exn) :
    (fault = none ∧ inInt64 ((auditTail t).2 + 1) = true ∧
      ∃ row t', main x true fault t = (0, t') ∧
        Written x (retags x genesis (spendBySeq t)) (newHead x t) row t t') ∨
    ((fault ≠ none ∨ inInt64 ((auditTail t).2 + 1) = false) ∧ main x true fault t = (1, t)) := by
  have hplan : retags x genesis (spendBySeq t) ≠ [] := fun h => hwide (retags_eq_nil_iff.mp h)
  have hrows : spendBySeq t ≠ [] := by
    intro h
    rw [h] at hwide
    exact hwide trivial
  unfold main
  dsimp only
  rw [verify_iff.mpr ⟨hauth, rfl, rfl⟩]
  dsimp only
  rw [if_neg hplan, if_neg Bool.noConfusion]
  cases fault with
  | some e => exact .inr ⟨.inl (Option.some_ne_none e), rfl⟩
  | none =>
    cases hroom : inInt64 ((auditTail t).2 + 1) with
    | true =>
      obtain ⟨row, t', hwrite, hwritten⟩ : ∃ row t',
          write x (spendBySeq t) (retags x genesis (spendBySeq t)) (newHead x t) t = .ok t' ∧
            Written x (retags x genesis (spendBySeq t)) (newHead x t) row t t' :=
        write_ok hrows hroom
      refine .inl ⟨rfl, rfl, row, t', ?_, hwritten⟩
      dsimp only
      rw [show tip (·.rowHash) genesis (rebase x genesis (spendBySeq t)) = newHead x t from rfl,
        hwrite]
    | false =>
      obtain ⟨e, hwrite⟩ : ∃ e,
          write x (spendBySeq t) (retags x genesis (spendBySeq t)) (newHead x t) t = .error e :=
        write_error hrows hroom
      refine .inr ⟨.inr rfl, ?_⟩
      dsimp only
      rw [show tip (·.rowHash) genesis (rebase x genesis (spendBySeq t)) = newHead x t from rfl,
        hwrite]

/-! ### The two rules -/

theorem keys_widePayload (r : SpendRow) : (widePayload r).map Prod.fst =
    chainedFields ++ ["gas_limit", "hub_gas_hint", "max_fee_wei", "account_nonce", "state"] := rfl

theorem wide_commits (hx : Canonical x) : Commits IsHead (wideHash x) widePayload :=
  hx.commits keys_widePayload (by decide)

/-- No row has one hash under both rules. -/
theorem wideHash_ne_spendHash (hx : Canonical x) {head head' : String} (hh : IsHead head)
    (hh' : IsHead head') (r r' : SpendRow) : wideHash x head r ≠ spendHash x head' r' := by
  intro h
  have hperm := (hx.rowHash_inj hh hh' (keys_widePayload r ▸ (by decide))
    (keys_spendPayload r' ▸ (by decide)) h).2
  exact absurd hperm.length_eq (by decide : ¬ 19 = 14)

theorem hexString_ne_empty (data : Bytes) : hexString data ≠ "" := by
  intro h
  have hchars : (hexString data).toList = [] := congrArg String.toList h
  unfold hexString at hchars
  rw [String.toList_ofList] at hchars
  cases hchars

/-- Rows with a tag of the retired rule each are authentic exactly when each verifies under it. -/
theorem authentic_iff (hhead : IsHead head)
    (hnarrow : ∀ r ∈ rows, ∀ h, IsHead h → r.rowHash ≠ spendHash x h r) :
    Authentic x link head rows ↔ ∀ r ∈ rows, r.rowHash = wideHash x (link r) r := by
  induction rows generalizing head with
  | nil => exact iff_of_true trivial fun r hr => absurd hr List.not_mem_nil
  | cons r rows ih =>
    obtain ⟨hr, hrows⟩ := List.forall_mem_cons.mp hnarrow
    rw [List.forall_mem_cons, ← ih (isHead_hexString _) hrows]
    exact and_congr_left fun _ => or_iff_right (hr head hhead)

/-- The links of a chain of the retired rule: heads, and no empty texts. -/
def IsLink (head : String) : Prop := IsHead head ∧ head ≠ ""

theorem isLink_hexString (data : Bytes) : IsLink (hexString data) :=
  ⟨isHead_hexString data, hexString_ne_empty data⟩

theorem isLink_spendHash (head : String) (r : SpendRow) : IsLink (spendHash x head r) :=
  isLink_hexString _

theorem isLink_genesis : IsLink genesis := ⟨isHead_genesis, by decide⟩

end EscrowSigner.Rebaseline
