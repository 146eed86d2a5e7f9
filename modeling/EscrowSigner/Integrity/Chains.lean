import EscrowSigner.HashChain
import EscrowSigner.Ledger.Operations

/-! The two hash chains of the ledger: what `verify_chains` accepts, and what a hash of a row commits
to. -/

namespace EscrowSigner

open Ledger HashChain

/-! ### Heads and payloads -/

theorem encode_ofList (cs : List Char) :
    encode (String.ofList cs) = cs.flatMap String.utf8EncodeChar := by
  unfold encode
  simp [String.toByteArray_ofList, List.utf8Encode]

theorem encode_injective : Function.Injective encode := by
  intro a b h
  refine String.toByteArray_inj.1 ?_
  have hdata : a.toByteArray.data = b.toByteArray.data := Array.toList_inj.mp h
  cases ha : a.toByteArray
  cases hb : b.toByteArray
  simp_all

/-- The byte with which the JSON text of a dictionary begins. -/
def brace : UInt8 := 123

/-- What a row can be written over: a text without the byte that begins a payload. -/
def IsHead (head : String) : Prop := brace ∉ encode head

theorem isHead_genesis : IsHead genesis := by
  unfold IsHead genesis
  decide

theorem brace_not_mem_hexDigit {n : Nat} (h : n < 16) :
    brace ∉ String.utf8EncodeChar (hexDigit n) := by
  revert n
  decide

theorem isHead_hexString (data : Bytes) : IsHead (hexString data) := by
  unfold IsHead hexString
  rw [encode_ofList, List.flatMap_cons, List.flatMap_cons]
  simp only [List.mem_append, not_or]
  refine ⟨by decide, by decide, fun hmem => ?_⟩
  obtain ⟨c, hc, hbrace⟩ := List.mem_flatMap.mp hmem
  obtain ⟨b, -, hdigit⟩ := List.mem_flatMap.mp hc
  have hb : b.toNat < 256 := b.toNat_lt
  rcases List.mem_pair.mp hdigit with rfl | rfl
  · exact brace_not_mem_hexDigit (by omega) hbrace
  · exact brace_not_mem_hexDigit (by omega) hbrace

/-- The code outside the repository as the chains rely on it: the hash has no collisions and is never
the head of an empty chain, the JSON text of a dictionary begins with a brace and determines it. -/
structure Canonical (x : Externals) : Prop where
  keccak : Function.Injective x.keccak
  fresh : ∀ head payload, rowHash x head payload ≠ genesis
  opens : ∀ payload, ∃ rest, x.dumps payload = brace :: rest
  dumps : ∀ payload payload', (payload.map Prod.fst).Nodup → (payload'.map Prod.fst).Nodup →
    x.dumps payload = x.dumps payload' → payload.Perm payload'

theorem append_brace_inj {s s' t t' : Bytes} (hs : brace ∉ s) (hs' : brace ∉ s')
    (h : s ++ brace :: t = s' ++ brace :: t') : s = s' ∧ brace :: t = brace :: t' := by
  induction s generalizing s' with
  | nil =>
    cases s' with
    | nil => exact ⟨rfl, h⟩
    | cons b s' => exact absurd (List.cons.inj h).1 fun hb => hs' (hb ▸ List.mem_cons_self)
  | cons a s ih =>
    cases s' with
    | nil => exact absurd (List.cons.inj h).1 fun ha => hs (ha ▸ List.mem_cons_self)
    | cons b s' =>
      obtain ⟨rfl, hrest⟩ := List.cons.inj h
      obtain ⟨rfl, ht⟩ := ih (fun hm => hs (List.mem_cons_of_mem a hm))
        (fun hm => hs' (List.mem_cons_of_mem a hm)) hrest
      exact ⟨rfl, ht⟩

/-- Two dictionaries with the same keys in the same order and the same entries are written alike. -/
theorem eq_of_perm_of_keys {ι α : Type} {p p' : List (ι × α)} (h : p.Perm p')
    (hkeys : p.map Prod.fst = p'.map Prod.fst) (hn : (p.map Prod.fst).Nodup) : p = p' := by
  induction p generalizing p' with
  | nil => exact h.nil_eq
  | cons e p ih =>
    cases p' with
    | nil => cases hkeys
    | cons e' p' =>
      simp only [List.map_cons, List.cons.injEq] at hkeys
      obtain ⟨hfst, hrest⟩ := hkeys
      have hne : e.1 ∉ p'.map Prod.fst := hrest ▸ (List.nodup_cons.mp hn).1
      have heq : e = e' := by
        rcases List.mem_cons.mp (h.subset List.mem_cons_self) with heq | hmem
        · exact heq
        · exact absurd (List.mem_map_of_mem hmem) hne
      subst heq
      rw [ih (List.Perm.cons_inv h) hrest (List.nodup_cons.mp hn).2]

variable {x : Externals}

/-- Over heads, the hash of a row commits to the head and to the dictionary. -/
theorem Canonical.rowHash_inj (hx : Canonical x) {head head' : String}
    {payload payload' : List (String × Scalar)} (hh : IsHead head) (hh' : IsHead head')
    (hn : (payload.map Prod.fst).Nodup) (hn' : (payload'.map Prod.fst).Nodup)
    (h : rowHash x head payload = rowHash x head' payload') :
    head = head' ∧ payload.Perm payload' := by
  have hbytes := hx.keccak (hexString_injective h)
  obtain ⟨rest, hrest⟩ := hx.opens payload
  obtain ⟨rest', hrest'⟩ := hx.opens payload'
  rw [hrest, hrest'] at hbytes
  obtain ⟨hheads, htexts⟩ := append_brace_inj hh hh' hbytes
  exact ⟨encode_injective hheads, hx.dumps _ _ hn hn' (hrest.trans (htexts.trans hrest'.symm))⟩

theorem Canonical.commits (hx : Canonical x) {ρ : Type} {payload : ρ → List (String × Scalar)}
    {keys : List String} (hkeys : ∀ r, (payload r).map Prod.fst = keys) (hn : keys.Nodup) :
    Commits IsHead (fun head r => rowHash x head (payload r)) payload where
  closed _ _ := isHead_hexString _
  iff hh hh' r r' := by
    constructor
    · intro h
      have hr : ((payload r).map Prod.fst).Nodup := (hkeys r).symm ▸ hn
      have hr' : ((payload r').map Prod.fst).Nodup := (hkeys r').symm ▸ hn
      obtain ⟨hheads, hperm⟩ := hx.rowHash_inj hh hh' hr hr' h
      exact ⟨hheads, eq_of_perm_of_keys hperm ((hkeys r).trans (hkeys r').symm) hr⟩
    · rintro ⟨rfl, h⟩
      exact congrArg (rowHash x _) h

/-- `_CHAINED_FIELDS`. -/
def chainedFields : List String :=
  ["chain_id", "escrow", "receipt_id", "seq", "ts", "channel_id", "depositor", "token",
    "amount_units", "deadline", "channel_nonce", "calldata_keccak", "to_addr", "from_addr"]

theorem keys_spendPayload (r : SpendRow) : (spendPayload r).map Prod.fst = chainedFields := rfl

/-- The keys of the record that `audit` hashes. -/
def auditFields : List String :=
  ["ts", "kind", "decision", "http_status", "reason_code", "chain_id", "escrow", "receipt_id",
    "channel_id", "amount_units", "digest16", "tx_hash"]

theorem keys_auditPayload (r : AuditRow) : (auditPayload r).map Prod.fst = auditFields := rfl

theorem Canonical.spend (hx : Canonical x) : Commits IsHead (spendHash x) spendPayload :=
  hx.commits keys_spendPayload (by decide)

theorem Canonical.audit (hx : Canonical x) : Commits IsHead (auditHash x) auditPayload :=
  hx.commits keys_auditPayload (by decide)

/-! ### What `verify_chains` accepts -/

theorem orderedInsert_concat {ρ : Type} {le : ρ → ρ → Prop} [DecidableRel le] {a b : ρ}
    (h : le a b) (l : List ρ) :
    (l ++ [b]).orderedInsert le a = l.orderedInsert le a ++ [b] := by
  induction l with
  | nil => exact if_pos h
  | cons c l ih =>
    rw [List.cons_append, List.orderedInsert_cons, List.orderedInsert_cons]
    split
    · rfl
    · rw [ih, List.cons_append]

theorem insertionSort_concat {ρ : Type} {le : ρ → ρ → Prop} [DecidableRel le] {b : ρ} {l : List ρ}
    (h : ∀ a ∈ l, le a b) : (l ++ [b]).insertionSort le = l.insertionSort le ++ [b] := by
  induction l with
  | nil => rfl
  | cons a l ih =>
    obtain ⟨ha, hl⟩ := List.forall_mem_cons.mp h
    rw [List.cons_append, List.insertionSort_cons, ih hl, orderedInsert_concat ha,
      List.insertionSort_cons]

theorem recompute_eq_ok_iff {ρ : Type} {hash : String → ρ → String} {stored : ρ → String}
    {head head' : String} {rows : List ρ} :
    recompute hash stored head rows = .ok head' ↔
      Chained hash stored head rows ∧ tip stored head rows = head' := by
  induction rows generalizing head with
  | nil => exact ⟨fun h => ⟨trivial, Except.ok.inj h⟩, fun h => congrArg _ h.2⟩
  | cons r rows ih =>
    unfold recompute
    split
    · rename_i heq
      rw [ih, heq]
      exact ⟨fun h => ⟨⟨heq.symm, h.1⟩, h.2⟩, fun h => ⟨h.1.2, h.2⟩⟩
    · rename_i hne
      exact ⟨fun h => (by cases h), fun h => absurd h.1.1.symm hne⟩

variable {t : Tables}

theorem verifySpend_iff :
    verifySpend x t = .ok () ↔ Chained (spendHash x) (·.rowHash) genesis (spendBySeq t) := by
  unfold verifySpend
  split
  · rename_i head h
    exact ⟨fun _ => (recompute_eq_ok_iff.mp h).1, fun _ => rfl⟩
  · rename_i row h
    refine ⟨fun h' => (by cases h'), fun h' => ?_⟩
    have hok := recompute_eq_ok_iff.mpr ⟨h', rfl⟩
    rw [h] at hok
    cases hok

theorem verifyAudit_iff :
    verifyAudit x t = .ok () ↔ Chained (auditHash x) (·.rowHash) genesis (auditBySeq t) := by
  unfold verifyAudit
  split
  · rename_i head h
    exact ⟨fun _ => (recompute_eq_ok_iff.mp h).1, fun _ => rfl⟩
  · rename_i row h
    refine ⟨fun h' => (by cases h'), fun h' => ?_⟩
    have hok := recompute_eq_ok_iff.mpr ⟨h', rfl⟩
    rw [h] at hok
    cases hok

theorem verifySpend_error {e : Exn} (h : verifySpend x t = .error e) :
    ∃ message, e = .ledgerUnavailable message := by
  unfold verifySpend at h
  split at h
  · cases h
  · exact ⟨_, (Except.error.inj h).symm⟩

theorem verifyAudit_error {e : Exn} (h : verifyAudit x t = .error e) :
    ∃ message, e = .ledgerUnavailable message := by
  unfold verifyAudit at h
  split at h
  · cases h
  · exact ⟨_, (Except.error.inj h).symm⟩

/-- The books verify. -/
def Verifies (x : Externals) (t : Tables) : Prop :=
  Chained (spendHash x) (·.rowHash) genesis (spendBySeq t) ∧
    Chained (auditHash x) (·.rowHash) genesis (auditBySeq t)

/-- What `verify_chains` says of a database between two operations. -/
theorem verifyChains_run {w : World} (hclosed : w.db.working = none) {c c' : Choice}
    (hc : c.fault = none) (hc' : c'.fault = none) :
    (Verifies x w.tables → ((verifyChains x).run [c, c'] w).1 = .returned ()) ∧
      (¬ Verifies x w.tables →
        ∃ message, ((verifyChains x).run [c, c'] w).1 = .raised (.ledgerUnavailable message)) := by
  have hrun : ((select (verifySpend x)).bind fun _ => select (verifyAudit x)).run [c, c'] w = _ :=
    run_select_bind hclosed hc
  have hrun' : ((select (verifyAudit x)).bind .ret).run [c'] (w.advance c) = _ :=
    run_select_bind hclosed hc'
  rw [Process.bind_ret] at hrun'
  have hcode : (verifyChains x).run [c, c'] w =
    ((select (verifySpend x)).bind fun _ => select (verifyAudit x)).run [c, c'] w := rfl
  rw [hcode, hrun]
  constructor
  · rintro ⟨hspend, haudit⟩
    rw [verifySpend_iff.mpr hspend]
    dsimp only
    rw [hrun', show verifyAudit x (w.advance c).tables = .ok () from verifyAudit_iff.mpr haudit]
    rfl
  · intro hfails
    cases hspend : verifySpend x w.tables with
    | error e =>
      obtain ⟨message, rfl⟩ := verifySpend_error hspend
      exact ⟨message, rfl⟩
    | ok u =>
      dsimp only
      rw [hrun']
      cases haudit : verifyAudit x (w.advance c).tables with
      | error e =>
        obtain ⟨message, rfl⟩ := verifyAudit_error haudit
        exact ⟨message, rfl⟩
      | ok u => exact absurd ⟨verifySpend_iff.mp hspend, verifyAudit_iff.mp haudit⟩ hfails

end EscrowSigner
