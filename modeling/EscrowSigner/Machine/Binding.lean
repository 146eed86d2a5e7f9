import EscrowSigner.Machine.Halt
import EscrowSigner.Machine.Signatures

/-! Keys: a key of the ledger is bound to one calldata for good.  Whatever is signed under it carries
the same data, and a request that brings other data changes no row and uses the key for nothing. -/

namespace EscrowSigner.Machine

open Policy Process
open Calldata (DebitCall ExpireCall)

variable {i : Instance} {env : State → Choice → Prop} {ok : State → Call → List Choice → Prop}

/-! ### The data of a plan -/

/-- The calldata that a plan signs. -/
def Plan.data : Plan → Bytes
  | .debit _ env _ _ _ => env.data
  | .expire _ env _ _ => env.data
  | .sweep _ _ data _ _ => data

theorem tx_data (p : Plan) (row : SpendRow) : (p.tx i row).data = hexString p.data := by
  cases p <;> rfl

theorem request_calldataKeccak (p : Plan) :
    (p.request i).calldataKeccak = hexString (i.ext.keccak p.data) := by
  cases p <;> rfl

theorem request_amountUnits_gasOnly {p : Plan} (h : p.isDebit = false) :
    (p.request i).amountUnits = 0 := by
  cases p with
  | debit body env call channel fees => cases h
  | expire body env call fees => rfl
  | sweep recipient balance data receipt fees => rfl

/-- What is hashed for the key of a collection is not what is hashed for that of a sweep. -/
theorem expire_preimage_ne_sweep (data data' : Bytes) :
    encode "expireChannel|" ++ data ≠ encode "sweepProceeds|" ++ data' := by
  have hexpire : encode "expireChannel|" = 101 :: (encode "expireChannel|").tail := by
    decide +kernel
  have hsweep : encode "sweepProceeds|" = 115 :: (encode "sweepProceeds|").tail := by
    decide +kernel
  rw [hexpire, hsweep]
  intro h
  exact absurd (List.cons.inj h).1 (by decide)

/-- Two sweeps with one key move one balance to one recipient. -/
theorem sweep_data_eq (hk : Function.Injective i.ext.keccak) {recipient recipient' receipt : String}
    {balance balance' time time' : Int} {data data' : Bytes}
    (hdata : Calldata.encodeTransfer i.ext recipient balance = .ok data)
    (hdata' : Calldata.encodeTransfer i.ext recipient' balance' = .ok data')
    (h : sweepReceipt i recipient time balance = .ok receipt)
    (h' : sweepReceipt i recipient' time' balance' = .ok receipt) : data = data' := by
  obtain ⟨raw, hraw, h⟩ := bind_ok_iff.mp h
  obtain ⟨timeBytes, htime, h⟩ := bind_ok_iff.mp h
  obtain ⟨balanceBytes, hbalance, h⟩ := bind_ok_iff.mp h
  obtain ⟨raw', hraw', h'⟩ := bind_ok_iff.mp h'
  obtain ⟨timeBytes', htime', h'⟩ := bind_ok_iff.mp h'
  obtain ⟨balanceBytes', hbalance', h'⟩ := bind_ok_iff.mp h'
  cases h
  have hpre := hk (hexString_injective (Except.ok.inj h'))
  obtain ⟨hfront, hbytes⟩ := List.append_inj' hpre
    ((length_of_toBytes hbalance').trans (length_of_toBytes hbalance).symm)
  obtain ⟨hfront, -⟩ := List.append_inj' hfront
    ((length_of_toBytes htime').trans (length_of_toBytes htime).symm)
  have hsame := List.append_cancel_left hfront
  subst hsame hbytes
  have heq : balance = balance' := toBytes_injective hbalance hbalance'
  subst heq
  exact Except.ok.inj ((Calldata.encodeTransfer_eq _ hraw hdata).symm.trans
    (Calldata.encodeTransfer_eq _ hraw' hdata'))

/-- The key of a channel is not the key of a sweep. -/
theorem expireReceipt_ne_sweep (hk : Function.Injective i.ext.keccak) {recipient receipt : String}
    {balance time : Int} (channelId : Bytes)
    (h : sweepReceipt i recipient time balance = .ok receipt) :
    expireReceipt i channelId ≠ receipt := by
  obtain ⟨raw, -, h⟩ := bind_ok_iff.mp h
  obtain ⟨timeBytes, -, h⟩ := bind_ok_iff.mp h
  obtain ⟨balanceBytes, -, h⟩ := bind_ok_iff.mp h
  intro heq
  have hpre := hk (hexString_injective (heq.trans (Except.ok.inj h).symm))
  rw [List.append_assoc, List.append_assoc] at hpre
  exact expire_preimage_ne_sweep _ _ hpre

/-- Two gas-only plans with one key sign one calldata. -/
theorem Sincere.data_eq_of_receipt {p p' : Plan} (hk : Function.Injective i.ext.keccak)
    (h : Sincere i p) (h' : Sincere i p') (hgas : p.isDebit = false) (hgas' : p'.isDebit = false)
    (hreceipt : (p.request i).receiptId = (p'.request i).receiptId) : p.data = p'.data := by
  cases p with
  | debit body env call channel fees => cases hgas
  | expire body env call fees =>
    cases p' with
    | debit body' env' call' channel' fees' => cases hgas'
    | expire body' env' call' fees' =>
      have hpre := hk (hexString_injective hreceipt)
      have hid : call.channelId = call'.channelId := List.append_cancel_left hpre
      show env.data = env'.data
      rw [← Calldata.decodeExpire_encode _ h.2, ← Calldata.decodeExpire_encode _ h'.2,
        Calldata.encodeExpire, Calldata.encodeExpire, hid]
    | sweep recipient' balance' data' receipt' fees' =>
      obtain ⟨time, hr⟩ := h'.2
      exact absurd hreceipt (expireReceipt_ne_sweep hk _ hr)
  | sweep recipient balance data receipt fees =>
    obtain ⟨time, hr⟩ := h.2
    cases p' with
    | debit body' env' call' channel' fees' => cases hgas'
    | expire body' env' call' fees' => exact absurd hreceipt.symm (expireReceipt_ne_sweep hk _ hr)
    | sweep recipient' balance' data' receipt' fees' =>
      obtain ⟨time', hr'⟩ := h'.2
      have hsame : receipt = receipt' := hreceipt
      exact sweep_data_eq hk h.1 h'.1 hr (hsame ▸ hr')

/-- A row that serves a plan holds the hash of the plan's data, whichever plan wrote it. -/
theorem Serves.calldataKeccak {p : Plan} {r : SpendRow} (hk : Function.Injective i.ext.keccak)
    (h : Serves i p r) : r.calldataKeccak = hexString (i.ext.keccak p.data) := by
  obtain ⟨p', ho⟩ := h.origin
  cases hd : p.isDebit with
  | true =>
    have htuple := congrArg (fun t => t.2.2.2.2) (h.same hd)
    exact htuple.trans (request_calldataKeccak p)
  | false =>
    have hwritten : r.amountUnits = (p'.request i).amountUnits :=
      congrArg (fun t => t.2.2.1) ho.tuple
    have hamount : (p'.request i).amountUnits = 0 :=
      hwritten.symm.trans (h.amount.trans (request_amountUnits_gasOnly hd))
    have hd' : p'.isDebit = false := by
      cases p' with
      | debit body env call channel fees =>
        exact absurd hamount ho.sincere.2.2.ne'
      | expire | sweep => rfl
    have hreceipt : (p.request i).receiptId = (p'.request i).receiptId :=
      congrArg Key.receiptId (h.key.symm.trans ho.key)
    rw [Sincere.data_eq_of_receipt hk h.sincere ho.sincere hd hd' hreceipt]
    have htuple := congrArg (fun t => t.2.2.2.2) ho.tuple
    exact htuple.trans (request_calldataKeccak p')

/-! ### Signatures under one key -/

/-- For every signature the books hold a row with its key and with what its row was written for. -/
def Kept (s : State) : Prop :=
  ∀ g ∈ signatures s.log, ∃ r ∈ s.rows, r.key = g.row.key ∧ r.semanticTuple = g.row.semanticTuple

theorem Kept.same {s s' : State} (h : Kept s) (hl : signatures s'.log = signatures s.log)
    (hr : ∀ r ∈ s.rows, ∃ r' ∈ s'.rows, r'.key = r.key ∧ r'.semanticTuple = r.semanticTuple) :
    Kept s' := by
  intro g hg
  obtain ⟨r, hmem, hkey, htuple⟩ := h g (hl ▸ hg)
  obtain ⟨r', hmem', hkey', htuple'⟩ := hr r hmem
  exact ⟨r', hmem', hkey'.trans hkey, htuple'.trans htuple⟩

theorem exists_mapRow {rows : List SpendRow} {k : Key} {f : SpendRow → SpendRow}
    (hf : KeepsOrigin f) : ∀ r ∈ rows, ∃ r' ∈ mapRow k f rows,
      r'.key = r.key ∧ r'.semanticTuple = r.semanticTuple := by
  intro r hr
  by_cases hkey : r.key = k
  · exact ⟨f r, mem_mapRow.mpr ⟨r, hr, .inl ⟨hkey, rfl⟩⟩, hf.key r, hf.tuple r⟩
  · exact ⟨r, mem_mapRow.mpr ⟨r, hr, .inr ⟨hkey, rfl⟩⟩, rfl, rfl⟩

theorem Places.exists_row {p : Plan} {seq ts nonce : Int} {rows rows' : List SpendRow}
    {row : SpendRow} (h : Places i p seq ts nonce rows rows' row) : ∀ r ∈ rows, ∃ r' ∈ rows',
      r'.key = r.key ∧ r'.semanticTuple = r.semanticTuple := by
  cases h with
  | fresh head hkey => exact fun r hr => ⟨r, List.mem_append_left _ hr, rfl, rfl⟩
  | revived r hr hkey hdead hamount hsame =>
    exact exists_mapRow (keepsOrigin_revived p seq ts nonce)

/-- What a row was written for stays in the books for good. -/
theorem exists_row_step {φ φ' : Phase} {s s' : State} (hstep : Step i env ok (φ, s) (φ', s')) :
    ∀ r ∈ s.rows, ∃ r' ∈ s'.rows, r'.key = r.key ∧ r'.semanticTuple = r.semanticTuple := by
  cases hstep with
  | receive | finish | settle | pass | stamp | find | count | setNext | sign | balk | record | send
  | giveBack => exact fun r hr => ⟨r, hr, rfl, rfl⟩
  | grant he hj hfit hcut hshown hts hseq hplace hbind => exact hplace.exists_row
  | mark | broadcast | kill => exact exists_mapRow ⟨fun _ => rfl, fun _ => rfl, fun _ => rfl⟩
  | mine he hu => exact exists_mapRow ⟨fun _ => rfl, fun _ => rfl, fun _ => rfl⟩

theorem kept_step {φ φ' : Phase} {s s' : State} (hsound : Sound i φ s) (h : Kept s)
    (hstep : Step i env ok (φ, s) (φ', s')) : Kept s' := by
  have hrows := exists_row_step hstep
  cases hstep with
  | receive | finish | settle | stamp | find | count | setNext | grant | balk | mark | record | send
  | broadcast | mine | kill | giveBack => exact h.same rfl hrows
  | pass he hlog hts hseq =>
    refine h.same ?_ hrows
    rcases hlog with rfl | ⟨e, hp, rfl⟩
    · rfl
    · exact hp.signatures s.log
  | @sign _ c p row he =>
    intro g hg
    rcases List.mem_cons.mp hg with rfl | hg
    · exact ⟨row, hsound.phase.2.2, rfl, rfl⟩
    · exact h g hg

/-- What was signed under one key carries one calldata. -/
theorem Kept.data_eq {φ : Phase} {s : State} (hk : Function.Injective i.ext.keccak)
    (hsound : Sound i φ s) (hsigned : Signed i φ s) (h : Kept s) {g g' : Signature}
    (hg : g ∈ signatures s.log) (hg' : g' ∈ signatures s.log) (hkey : g.row.key = g'.row.key) :
    g.tx.data = g'.tx.data := by
  obtain ⟨p, hp, htx⟩ := hsigned.signatures g hg
  obtain ⟨p', hp', htx'⟩ := hsigned.signatures g' hg'
  obtain ⟨r, hr, hrkey, htuple⟩ := h g hg
  obtain ⟨r', hr', hrkey', htuple'⟩ := h g' hg'
  have hrow : r = r' := eq_of_key_eq hsound.keys hr hr' (hrkey.trans (hkey.trans hrkey'.symm))
  subst hrow
  have hhash : g.row.calldataKeccak = g'.row.calldataKeccak :=
    congrArg (fun t => t.2.2.2.2) (htuple.symm.trans htuple')
  rw [hp.calldataKeccak hk, hp'.calldataKeccak hk] at hhash
  rw [htx, htx', tx_data, tx_data, hk (hexString_injective hhash)]

/-! ### Requests that bring other data -/

/-- The rows are those of `w₀`, and nothing was signed or sent since. -/
structure Unmoved (w₀ w : World) : Prop where
  rows : Holds (fun t => t.spend = w₀.tables.spend) w.db
  unused : keyUses w.log = keyUses w₀.log

theorem Unmoved.quiet {w₀ : World} (c : Choice) (w w' : World) (h : Unmoved w₀ w)
    (hq : Quiet KeepsSpend c w w') : Unmoved w₀ w' := by
  refine ⟨hq.db.holds h.rows fun _ _ ht hK => hK.spend.trans ht, ?_⟩
  rcases hq.log with hlog | ⟨e, hp, hlog⟩
  · rw [hlog, h.unused]
  · rw [hlog, keyUses, List.filter_cons, hp.usesKey]
    exact h.unused

theorem Unmoved.steps {α : Type} {w₀ w : World} {p : Code α} (h : Unmoved w₀ w)
    (hp : p.Steps (Quiet KeepsSpend)) : p.Keeps (Unmoved w₀) (fun _ _ => True) w :=
  hp.keeps Unmoved.quiet h

/-- What is read of the rows is what `w₀` holds. -/
theorem Unmoved.get {w₀ w : World} (h : Unmoved w₀ w) (k : Key) :
    (Ledger.get k).Keeps (Unmoved w₀) (fun r _ => r = w₀.tables.get k) w := by
  refine wp_select h fun c r w' _ hq hr => ⟨h.quiet c w w' hq, fun a ha => ?_⟩
  have hview : w.view.spend = w₀.tables.spend := h.rows.view
  rw [← Except.ok.inj (hr a ha)]
  exact congrArg (fun t : SpendTable => t.rows.find? fun r => r.key == k) hview

/-! #### Debits -/

/-- A row was written by the other door, or for a debit that is not this one. -/
def Foreign (i : Instance) (call : DebitCall) (r : SpendRow) : Prop :=
  r.amountUnits = 0 ∨ ∃ data call', r.calldataKeccak = hexString (i.ext.keccak data) ∧
    Calldata.decodeDebit i.ext data = .ok call' ∧
    (call'.channelId ≠ call.channelId ∨ call'.amount ≠ call.amount ∨
      call'.deadline ≠ call.deadline ∨ call'.signature ≠ call.signature)

/-- The replay of a debit compares the amount, which is never zero, and the hash of the data. -/
theorem Foreign.conflict {call : DebitCall} {r : SpendRow} {envelope : Envelope} {time : Int}
    (h : Foreign i call r) (hk : Function.Injective i.ext.keccak)
    (hdec : Calldata.decodeDebit i.ext envelope.data = .ok call)
    (hsane : fieldSanity time call = none) : r.semanticTuple ≠
      (lower envelope.toAddr, hexString call.channelId, call.amount, hexString call.receiptId,
        hexString (i.ext.keccak envelope.data)) := by
  intro heq
  rcases h with hzero | ⟨data, call', hhash, hdec', hne⟩
  · have hamount : r.amountUnits = call.amount := congrArg (fun t => t.2.2.1) heq
    unfold fieldSanity at hsane
    split at hsane
    · cases hsane
    · rename_i hband
      have hmin : Config.minAmountUnits ≤ call.amount := by omega
      rw [← hamount, hzero] at hmin
      exact absurd hmin (by decide)
  · have hkeccak : r.calldataKeccak = hexString (i.ext.keccak envelope.data) :=
      congrArg (fun t => t.2.2.2.2) heq
    have hdata := hk (hexString_injective (hhash.symm.trans hkeccak))
    cases Except.ok.inj (hdec'.symm.trans (hdata ▸ hdec))
    simp at hne

theorem Unmoved.handleDebit {w₀ w : World} {envelope : Envelope} {call : DebitCall}
    {digest : String} {r : SpendRow} (h : Unmoved w₀ w) (hk : Function.Injective i.ext.keccak)
    (hdec : Calldata.decodeDebit i.ext envelope.data = .ok call)
    (hr : r ∈ w₀.tables.spend.rows) (hkey : r.key = receiptKey i (hexString call.receiptId))
    (hforeign : Foreign i call r) :
    (handleDebit i envelope call digest).Keeps (Unmoved w₀) (fun _ _ => True) w := by
  refine (h.steps steps_now).bind fun time w₁ h₁ _ => ?_
  dsimp only
  split
  · exact .ret h₁ trivial
  rename_i hsane
  split
  · exact .ret h₁ trivial
  refine (h₁.get _).bind fun existing w₂ h₂ hexisting => ?_
  rw [← hkey, get_eq_some hr] at hexisting
  subst hexisting
  have hreplay : replay i r envelope.toAddr (hexString call.channelId) call
      (hexString (i.ext.keccak envelope.data))
      ⟨hexString call.receiptId, hexString call.channelId, call.amount, digest⟩ =
        return some (refuse 422 "receipt_id_tuple_conflict"
          ⟨hexString call.receiptId, hexString call.channelId, call.amount, digest⟩) :=
    if_pos (hforeign.conflict hk hdec hsane)
  dsimp only
  rw [hreplay]
  exact .ret h₂ trivial

/-- A debit under the key of a row that was written for something else. -/
theorem Unmoved.dispatchDebit {w₀ w : World} {envelope : Envelope} {call : DebitCall} {r : SpendRow}
    (h : Unmoved w₀ w) (hk : Function.Injective i.ext.keccak)
    (hdec : Calldata.decodeDebit i.ext envelope.data = .ok call)
    (hr : r ∈ w₀.tables.spend.rows) (hkey : r.key = receiptKey i (hexString call.receiptId))
    (hforeign : Foreign i call r) :
    (dispatch i envelope).Keeps (Unmoved w₀) (fun _ _ => True) w := by
  unfold dispatch
  dsimp only
  split
  · unfold handleExpire
    split
    · exact .ret h trivial
    · exact .raise h
    · rename_i hexpire
      exact absurd hexpire (Calldata.decodeExpire_ne_debit _ hdec)
  split
  · exact .ret h trivial
  unfold decodeRequest
  dsimp only
  split
  · exact .ret h trivial
  · exact .raise h
  · rename_i call' hdec'
    obtain ⟨call'', hcall, hdec'⟩ := bind_ok_iff.mp hdec'
    obtain ⟨_, -, hdec'⟩ := bind_ok_iff.mp hdec'
    cases hdec'
    cases Except.ok.inj (hcall.symm.trans hdec)
    exact h.handleDebit hk hdec hr hkey hforeign

/-! #### Expired channels -/

/-- A dead row is not revived for another amount. -/
theorem Unmoved.reviveRow {w₀ w : World} {r : SpendRow} {ints : List Int} {amount : Int}
    {f : SpendRow → SpendRow} (h : Unmoved w₀ w) (hr : r ∈ w₀.tables.spend.rows)
    (hamount : r.amountUnits ≠ amount) :
    (Ledger.reviveRow ints r.key amount f).Keeps (Unmoved w₀) (fun changed _ => changed = false)
      w := by
  have hany : ∀ t : Tables, t.spend = w₀.tables.spend →
      (t.spend.rows.any fun r' => r'.key = r.key && r'.state = .dead && r'.amountUnits = amount) =
        false := by
    intro t ht
    refine List.any_eq_false.mpr fun r' hr' => ?_
    rw [ht] at hr'
    by_cases hkey : r'.key = r.key
    · rw [eq_of_key_eq w₀.tables.spend.constraints.1 hr' hr hkey]
      simp [hamount]
    · simp [hkey]
  refine .atomic h fun c => ?_
  unfold statement
  split
  · exact ⟨h.quiet c w _ (quiet_fail c w _), fun _ ha => by cases ha⟩
  · have hview : (w.advance c).view.spend = w₀.tables.spend := h.rows.view
    cases hb : bindInts ints with
    | error e => exact ⟨⟨h.rows, h.unused⟩, fun _ ha => by cases ha⟩
    | ok u =>
      simp only [hany _ hview, Bool.false_eq_true, if_false]
      refine ⟨h.quiet c w _ ⟨.write w.view (.refl _), .inl rfl⟩, fun a ha => ?_⟩
      cases ha
      rfl

theorem Unmoved.giveUp {α : Type} {w₀ w : World} {Q : α → World → Prop} (h : Unmoved w₀ w)
    (e : Exn) : (Ledger.giveUp e : Code α).Keeps (Unmoved w₀) Q w :=
  (h.steps steps_rollback).bind fun _ _ h' _ => .raise h'

/-- A transaction that never ends well. -/
theorem Unmoved.guardTransaction {α : Type} {w₀ w : World} {body : Code α}
    (hb : body.Keeps (Unmoved w₀) (fun _ _ => False) w) :
    (Ledger.guardTransaction body).Keeps (Unmoved w₀) (fun _ _ => False) w := by
  refine hb.attempt.bind fun r w₁ h₁ hr => ?_
  split
  · exact (hr _ rfl).elim
  · exact (h₁.steps steps_rollback.attempt).bind fun _ _ h₂ _ => .raise h₂
  · exact (h₁.steps steps_rollback.attempt).bind fun _ _ h₂ _ => .raise h₂
  · exact .raise h₁

theorem Unmoved.rollbackOnError {α : Type} {w₀ w : World} {body : Code α}
    (hb : body.Keeps (Unmoved w₀) (fun _ _ => False) w) :
    (Ledger.rollbackOnError body).Keeps (Unmoved w₀) (fun _ _ => False) w := by
  refine hb.attempt.bind fun r w₁ h₁ hr => ?_
  split
  · exact (hr _ rfl).elim
  · refine (h₁.steps steps_inTransaction).bind fun _ w₂ h₂ _ => ?_
    split
    · exact (h₂.steps steps_rollback.attempt).bind fun _ _ h₃ _ => .raise h₃
    · exact .raise h₂

/-- A row stands in the way of a reservation under its key, unless it is dead. -/
theorem Unmoved.reviveOf {w₀ w : World} (h : Unmoved w₀ w) (r : SpendRow) (what : String) :
    (Ledger.reviveOf (some r) what).Keeps (Unmoved w₀) (fun revive _ => revive = true) w := by
  unfold Ledger.reviveOf
  dsimp only
  split
  · exact .ret h rfl
  · exact .raise h

/-- A gas-only reservation under the key of a debit fails. -/
theorem Unmoved.reserveGasOnly {x : Externals} {w₀ w : World} {r : SpendRow} {caps : Caps}
    {a : Ledger.GasOnlyRequest} (h : Unmoved w₀ w) (hr : r ∈ w₀.tables.spend.rows)
    (hkey : r.key = a.request.key) (hamount : r.amountUnits ≠ 0) :
    (Ledger.reserveGasOnly x caps a).Keeps (Unmoved w₀) (fun _ _ => False) w := by
  refine Unmoved.rollbackOnError ?_
  refine (h.steps steps_assertClockSane).bind fun _ w₁ h₁ _ => ?_
  refine (h₁.steps steps_now).bind fun instant w₂ h₂ _ => ?_
  refine (h₂.steps (steps_checkGasOnlyCount _ _)).bind fun _ w₃ h₃ _ => ?_
  refine (h₃.steps (steps_checkGasOnlyFee _ _ _ _)).bind fun _ w₄ h₄ _ => ?_
  refine (h₄.get _).bind fun existing w₅ h₅ hexisting => ?_
  rw [← hkey, get_eq_some hr] at hexisting
  subst hexisting
  refine (h₅.reviveOf r "key").bind fun revive w₆ h₆ hrevive => ?_
  subst hrevive
  refine Keeps.bind (Unmoved.guardTransaction ?_) fun _ _ _ h' => h'.elim
  refine (h₆.steps (steps_allocate _ _)).bind fun al w₇ h₇ _ => ?_
  refine Keeps.bind (P := fun _ _ => False) ?_ fun _ _ _ h' => h'.elim
  unfold Ledger.placeGasOnly
  rw [if_pos rfl, ← hkey]
  refine (h₇.reviveRow hr hamount).bind fun changed w₈ h₈ hchanged => ?_
  subst hchanged
  exact h₈.giveUp _

/-- A reservation under the key of a row that holds another amount fails. -/
theorem Unmoved.reserve {x : Externals} {w₀ w : World} {r : SpendRow} {caps : Caps}
    {a : Ledger.Request} (h : Unmoved w₀ w) (hr : r ∈ w₀.tables.spend.rows)
    (hkey : r.key = a.key) (hamount : r.amountUnits ≠ a.amountUnits) :
    (Ledger.reserve x caps a).Keeps (Unmoved w₀) (fun _ _ => False) w := by
  refine Unmoved.rollbackOnError ?_
  unfold Ledger.reserveUnlocked
  split
  · exact .raise h
  refine (h.steps steps_assertClockSane).bind fun _ w₁ h₁ _ => ?_
  refine (h₁.steps steps_now).bind fun instant w₂ h₂ _ => ?_
  refine (h₂.steps (steps_windowChecks _ _ _ _)).bind fun checks w₃ h₃ _ => ?_
  refine (h₃.steps (steps_runChecks _)).bind fun _ w₄ h₄ _ => ?_
  refine (h₄.steps (steps_checkDistinctChannels _ _ _)).bind fun _ w₅ h₅ _ => ?_
  refine (h₅.get _).bind fun existing w₆ h₆ hexisting => ?_
  rw [← hkey, get_eq_some hr] at hexisting
  subst hexisting
  refine (h₆.reviveOf r "receipt").bind fun revive w₇ h₇ hrevive => ?_
  subst hrevive
  refine Keeps.bind (Unmoved.guardTransaction ?_) fun _ _ _ h' => h'.elim
  refine (h₇.steps (steps_allocate _ _)).bind fun al w₈ h₈ _ => ?_
  refine Keeps.bind (P := fun _ _ => False) ?_ fun _ _ _ h' => h'.elim
  unfold Ledger.reviveDebit
  rw [← hkey]
  refine (h₈.reviveRow hr hamount).bind fun changed w₉ h₉ hchanged => ?_
  subst hchanged
  exact h₉.giveUp _

/-- The collection of a channel under the key of a debit. -/
theorem Unmoved.freshExpire {w₀ w : World} {envelope : Envelope} {call : ExpireCall}
    {common : Common} {r : SpendRow} {channelId receiptId : String} (h : Unmoved w₀ w)
    (hr : r ∈ w₀.tables.spend.rows) (hkey : r.key = receiptKey i receiptId)
    (hamount : r.amountUnits ≠ 0) :
    (freshExpire i envelope call receiptId channelId common).Keeps (Unmoved w₀)
      (fun _ _ => True) w := by
  refine (h.steps (steps_readExpired i call).attempt).bind fun channel w₁ h₁ _ => ?_
  split
  · exact .ret h₁ trivial
  · exact h₁.steps (steps_refuseRead _ _)
  refine (h₁.steps steps_now).bind fun time w₂ h₂ _ => ?_
  split
  · exact .ret h₂ trivial
  refine (h₂.steps (steps_readFees i _ _).attempt).bind fun prices w₃ h₃ _ => ?_
  split
  · exact h₃.steps (steps_refuseRead _ _)
  split
  · exact .ret h₃ trivial
  rename_i fees _
  have hreserve : (Ledger.reserveGasOnly i.ext i.settings.caps (gasOnlyRequest i receiptId channelId
      envelope.data (lower envelope.toAddr) fees)).Keeps (Unmoved w₀) (fun _ _ => False) w₃ :=
    h₃.reserveGasOnly hr hkey hamount
  refine hreserve.attempt.bind fun row w₄ h₄ hrow => ?_
  split
  · exact h₄.steps (steps_refuseReservation _ _)
  · exact (hrow _ rfl).elim

theorem Unmoved.handleExpire {w₀ w : World} {envelope : Envelope} {call : ExpireCall}
    {digest : String} {r : SpendRow} (h : Unmoved w₀ w)
    (hdec : Calldata.decodeExpire i.ext envelope.data = .ok call)
    (hr : r ∈ w₀.tables.spend.rows)
    (hkey : r.key = receiptKey i (expireReceipt i call.channelId)) (hamount : r.amountUnits ≠ 0) :
    (handleExpire i envelope digest).Keeps (Unmoved w₀) (fun _ _ => True) w := by
  unfold Policy.handleExpire
  rw [hdec]
  dsimp only
  split
  · exact .ret h trivial
  refine (h.get _).bind fun existing w₁ h₁ hexisting => ?_
  rw [← hkey, get_eq_some hr] at hexisting
  subst hexisting
  dsimp only
  split
  · exact .ret h₁ trivial
  · exact h₁.freshExpire hr hkey hamount

/-- A collection under the key of a debit. -/
theorem Unmoved.dispatchExpire {w₀ w : World} {envelope : Envelope} {call : ExpireCall}
    {r : SpendRow} (h : Unmoved w₀ w) (hdec : Calldata.decodeExpire i.ext envelope.data = .ok call)
    (hr : r ∈ w₀.tables.spend.rows)
    (hkey : r.key = receiptKey i (expireReceipt i call.channelId)) (hamount : r.amountUnits ≠ 0) :
    (dispatch i envelope).Keeps (Unmoved w₀) (fun _ _ => True) w := by
  unfold dispatch
  dsimp only
  split
  · exact h.handleExpire hdec hr hkey hamount
  split
  · exact .ret h trivial
  unfold decodeRequest
  dsimp only
  split
  · exact .ret h trivial
  · exact .raise h
  · rename_i call' hdec'
    obtain ⟨call'', hcall, -⟩ := bind_ok_iff.mp hdec'
    exact absurd hdec (Calldata.decodeExpire_ne_debit _ hcall)

/-! ### Runs -/

/-- A request, from its dispatch on. -/
theorem Unmoved.execute {w : World} {body : Bytes} {envelope : Envelope}
    (hclosed : w.db.working = none) (henv : parseEnvelope i body = .ok envelope)
    (hdispatch : ∀ w', Unmoved w w' →
      (dispatch i envelope).Keeps (Unmoved w) (fun _ _ => True) w') (script : List Choice) :
    Unmoved w (execute i (.handle body) script w).2 := by
  have hcall : Unmoved w (w.record (.call (.handle body))) :=
    ⟨⟨rfl, fun t ht => by cases hclosed.symm.trans ht⟩, rfl⟩
  refine Keeps.run (p := serve i (.handle body)) (Q := fun _ _ => True)
    (Keeps.bind (P := fun _ _ => True) ?_ fun _ _ h _ => .ret h trivial) script
  refine (hcall.steps steps_halted).bind fun reason w₁ h₁ _ => ?_
  split
  · exact .ret h₁ trivial
  refine (h₁.steps steps_readMemory).bind fun mem w₂ h₂ _ => ?_
  split
  · exact .ret h₂ trivial
  rw [henv]
  exact hdispatch w₂ h₂

/-- A key is bound to one calldata for good: all that is ever signed under it carries the same data,
and a request that brings other data under the key of a row, or through the other door, leaves all
rows as they are and uses the key for nothing. -/
theorem key_bound (hk : Function.Injective i.ext.keccak) :
    (∀ status w, Reaches i (fun _ _ => True) (fun _ _ _ => True) status w →
      ∀ g ∈ signatures w.log, ∀ g' ∈ signatures w.log, g.row.key = g'.row.key →
        g.tx.data = g'.tx.data) ∧
    (∀ (w : World) (body : Bytes) (envelope : Envelope) (r : SpendRow), w.db.working = none →
      r ∈ w.tables.spend.rows → parseEnvelope i body = .ok envelope →
      (∃ call, Calldata.decodeDebit i.ext envelope.data = .ok call ∧
        r.key = receiptKey i (hexString call.receiptId) ∧ Foreign i call r) ∨
      (∃ call, Calldata.decodeExpire i.ext envelope.data = .ok call ∧
        r.key = receiptKey i (expireReceipt i call.channelId) ∧ r.amountUnits ≠ 0) →
      ∀ script, Unmoved w (execute i (.handle body) script w).2) := by
  constructor
  · intro status w h g hg g' hg' hkey
    obtain ⟨φ, hsound, hsigned, hkept⟩ := Reaches.invariant
      (I := fun φ s => Signed i φ s ∧ Kept s) h
      ⟨signed_initial, fun _ hg => absurd hg List.not_mem_nil⟩ fun _ _ _ _ hsound hI hstep =>
        ⟨signed_step hsound hI.1 hstep, kept_step hsound hI.2 hstep⟩
    exact hkept.data_eq hk hsound hsigned hg hg' hkey
  · intro w body envelope r hclosed hr henv hother script
    refine Unmoved.execute hclosed henv (fun w' h => ?_) script
    rcases hother with ⟨call, hdec, hkey, hforeign⟩ | ⟨call, hdec, hkey, hamount⟩
    · exact h.dispatchDebit hk hdec hr hkey hforeign
    · exact h.dispatchExpire hdec hr hkey hamount

section Sample

open EscrowSigner.Sample

/-- A channel of this hub that has expired. -/
def expired : Channel where
  depositor := depositor
  hub := address
  token := Config.token
  depositAmount := 1
  balance := 0
  usedAmount := 1
  expiresAt := 1
  nonce := 0
  status := 0
  closableAt := 0
  v2 := false

/-- A debit of `cents` with the first receipt. -/
def centsCall (cents : UInt8) : DebitCall := { debitCall 1 with amount := 10000 * cents.toNat }

/-- The dead row of the debit of one cent. -/
def deadRow : SpendRow :=
  { (debitRequest injective escrow (debitDataOf (centsCall 1)) 100000 (centsCall 1)
      expired ⟨100000, 2⟩).row injective.ext 1 0 0 genesis with state := .dead }

/-- The broadcast of a collection is rejected, and the collection is requested again. -/
def retried : List (Turn injective) :=
  [.call .boot _ rfl { time := 2 : Outside }.injectiveScript,
    injectiveExpire 1 { time := 2, channel := expired, sendRaw := .error (.reverted "nonce") },
    injectiveExpire 1 { time := 2, channel := expired }]

/-- Two signatures for a collection that is retried carry the same data, and a debit of two cents in the
place of one, under the key of a dead row, changes nothing. -/
theorem key_bound_of_retry :
    (∃ w : World, (signatures w.log).length = 2 ∧
      ∀ g ∈ signatures w.log, ∀ g' ∈ signatures w.log, g.tx.data = g'.tx.data) ∧
    ∃ w : World, w.tables.spend.rows = [deadRow] ∧
      ∀ script, Unmoved w (execute injective (.handle [1, 2]) script w).2 := by
  have hk : Function.Injective injective.ext.keccak := Function.injective_id
  constructor
  · obtain ⟨status, w, hw, hlength, hkeys⟩ := Reach.exists_of_play (Q := fun _ => True)
      (E := fun _ _ => True) (K := fun _ _ _ => True)
      (P := fun _ w => (signatures w.log).length = 2 ∧
        ∀ g ∈ signatures w.log, ∀ g' ∈ signatures w.log, g.row.key = g'.row.key)
      retried (fun _ _ _ _ => trivial) (by decide +kernel)
    exact ⟨w, hlength, fun g hg g' hg' => (key_bound hk).1 status w
      (hw.mono (fun _ _ _ => trivial) fun _ _ _ h => h) g hg g' hg' (hkeys g hg g' hg')⟩
  · have hdec : ∀ cents : UInt8, cents = 1 ∨ cents = 2 → Calldata.decodeDebit injective.ext
        (debitDataOf (centsCall cents)) = .ok (centsCall cents) := by
      rintro cents (rfl | rfl) <;> exact eq_ok_of_toOption (by decide +kernel)
    have hrow : SpendConstraints [deadRow] :=
      ⟨List.nodup_singleton _, List.nodup_singleton _, List.nodup_nil⟩
    have henv : parseEnvelope injective [1, 2] =
        .ok ⟨escrow, debitDataOf (centsCall 2), Config.chainId, 100000, 0⟩ := parse_payload rfl rfl
    let w : World :=
      { World.initial with db := ⟨{ Tables.empty with spend := ⟨[deadRow], hrow⟩ }, none⟩ }
    refine ⟨w, rfl, (key_bound hk).2 w [1, 2] _ deadRow rfl List.mem_cons_self henv (.inl ?_)⟩
    exact ⟨centsCall 2, hdec 2 (.inr rfl), rfl, .inr ⟨debitDataOf (centsCall 1), centsCall 1, rfl,
      hdec 1 (.inl rfl), .inr (.inl (by decide))⟩⟩

end Sample

end EscrowSigner.Machine
