import Mathlib.Algebra.Order.Group.Nat
import EscrowSigner.Load
import EscrowSigner.Machine.Budget
import EscrowSigner.Machine.LifeCycle

/-! The totals of the windows as SQLite computes them, in integers of 64 bits. Over every run whose
reservations and receipts leave room for it, each total is the exact sum over the rows that it
counts. -/

namespace EscrowSigner.Machine

open Policy

/-! ### Sums that fit -/

/-- A sum whose terms are small enough together is never out of range on the way. -/
theorem sumInts_eq_sum {terms : List Int} (h : (terms.map Int.natAbs).sum < 2 ^ 63) :
    sumInts terms = .ok terms.sum := by
  have hfold : ∀ (terms : List Int) (total : Int),
      total.natAbs + (terms.map Int.natAbs).sum < 2 ^ 63 →
        terms.foldlM (fun total n => if inInt64 (total + n) then Except.ok (total + n)
          else .error (Exn.sqlite "OperationalError")) total = .ok (total + terms.sum) := by
    intro terms
    induction terms with
    | nil => exact fun total _ => by simp; rfl
    | cons n terms ih =>
      intro total hsmall
      rw [List.map_cons, List.sum_cons] at hsmall
      have hin : inInt64 (total + n) = true := by
        simp only [inInt64, Bool.and_eq_true, decide_eq_true_eq]
        omega
      rw [List.foldlM_cons, if_pos hin]
      show terms.foldlM _ (total + n) = _
      rw [ih (total + n) (by omega), List.sum_cons, Int.add_assoc]
  have := hfold terms 0 (by simpa using h)
  rwa [Int.zero_add] at this

/-- Whether a row counts in a window from `since` on. -/
def heldSince (since : Int) (r : SpendRow) : Bool := r.state.counted && since < r.ts

/-- The sizes of what the rows of a window weigh, together. -/
def sizeSince (weight : SpendRow → Int) (since : Int) (rows : List SpendRow) : Int :=
  Window.load (heldSince since) (fun r => (weight r).natAbs) rows

section Size

variable {weight : SpendRow → Int} {since t : Int} {rows : List SpendRow}

theorem size_nonneg (weight : SpendRow → Int) (rows : List SpendRow) :
    ∀ r ∈ rows, 0 ≤ (((weight r).natAbs : Nat) : Int) := fun _ _ => Int.natCast_nonneg _

/-- What a read selects of a window weighs no more than the window. -/
theorem natAbs_sum_le (weight : SpendRow → Int) (rows : List SpendRow) (hle : since ≤ t)
    (chainId : Int) (escrow : String) (q : SpendRow → Bool) :
    ((((countedSince chainId escrow t rows).filter q).map weight).map Int.natAbs).sum ≤
      sizeSince weight since rows := by
  have hload : ((((((countedSince chainId escrow t rows).filter q).map weight).map Int.natAbs).sum
      : Nat) : Int) = Window.load (fun r => q r && (r.chainId == chainId && r.escrow == escrow &&
        t < r.ts && r.state.counted)) (fun r => ((weight r).natAbs : Int)) rows := by
    simp only [countedSince, Window.load, List.filter_filter, List.map_map]
    induction rows.filter _ with
    | nil => rfl
    | cons r rows ih =>
      simp only [List.map_cons, List.sum_cons, Function.comp_apply, Int.natCast_add, ih]
  rw [hload]
  refine Window.load_mono (size_nonneg weight rows) fun r _ hr => .inl ?_
  simp only [heldSince, Bool.and_eq_true, decide_eq_true_eq] at hr ⊢
  exact ⟨hr.2.2, by omega⟩

/-- A window that is small enough is summed exactly, whatever a read selects of it. -/
theorem sumInts_window (hle : since ≤ t) (hsize : sizeSince weight since rows < 2 ^ 63)
    (chainId : Int) (escrow : String) (q : SpendRow → Bool) :
    sumInts (((countedSince chainId escrow t rows).filter q).map weight) =
      .ok (((countedSince chainId escrow t rows).filter q).map weight).sum := by
  refine sumInts_eq_sum ?_
  have := natAbs_sum_le weight rows hle chainId escrow q
  omega

end Size

/-- Every total of a window from `since` on is returned, and is the sum over the rows that it counts. -/
structure ExactTotals (x : Externals) (since : Int) (t : Tables) : Prop where
  fees : ∀ chainId escrow, t.feeWeiWindow x chainId escrow since =
    .ok ((t.countedRows chainId escrow since).map Tables.feeOf).sum
  units : ∀ chainId escrow token, t.windowUnits chainId escrow token since =
    .ok (totalUnits ((t.countedRows chainId escrow since).filter (·.token == token)))
  channel : ∀ chainId escrow channelId, t.channelUnits chainId escrow channelId since =
    .ok (totalUnits ((t.countedRows chainId escrow since).filter (·.channelId == channelId)))

/-! ### Room -/

variable {i : Instance} {env : State → Choice → Prop} {ok : State → Call → List Choice → Prop}
  {φ φ' : Phase} {s s' : State} {since t : Int} {rows rows' : List SpendRow} {row : SpendRow}

/-- The rows of other keys leave room for a weight in every window from `since` on. -/
def RoomFor (weight : SpendRow → Int) (since : Int) (k : Key) (rows : List SpendRow) (n : Int) :
    Prop :=
  n.natAbs + sizeSince weight since (othersOf k rows) < 2 ^ 63

/-- What a call may reserve has room in the books, and so has the fee of a live row's transaction by the
receipt that was read last. -/
structure Roomy (i : Instance) (since : Int) (s : State) : Prop where
  reservation : ∀ p instant, Justified i s.log p → .clock instant ∈ session s.log →
    Fits i (seconds instant) s.rows p →
      RoomFor Tables.feeOf since (p.request i).key s.rows
        ((p.request i).maxFeeWei * (p.request i).gasLimit) ∧
      RoomFor (·.amountUnits) since (p.request i).key s.rows (p.request i).amountUnits
  receipt : ∀ txHash receipt fee,
    s.log.head? = some (.rpc (.receipt txHash) (.ok receipt)) →
      receiptFee i.ext receipt = .ok fee → 0 < fee → ∀ a ∈ s.attempts, a.txHash = txHash →
        ∀ r ∈ s.rows, a.key = r.key → r.state.live = true →
          RoomFor Tables.feeOf since r.key s.rows fee

/-! ### The invariant -/

/-- The windows from `since` on are small, and only a mined row has spent a fee. -/
structure Small (since : Int) (rows : List SpendRow) : Prop where
  fees : sizeSince Tables.feeOf since rows < 2 ^ 63
  units : sizeSince (·.amountUnits) since rows < 2 ^ 63
  unspent : ∀ r ∈ rows, r.state ≠ .mined → r.feeWeiSpent ≤ 0

/-- What was found mined is an attempt of the row. -/
def Attributed (s : State) : Phase → Prop
  | .found row (.mined txHash) => ∃ a ∈ s.attempts, a.txHash = txHash ∧ a.key = row.key
  | _ => True

theorem feeOf_eq (h : row.feeWeiSpent ≤ 0) : Tables.feeOf row = row.maxFeeWei * row.gasLimit := by
  unfold Tables.feeOf
  rw [if_neg (by omega)]

/-- One row in front of the others of its key. -/
theorem size_le_of_perm {weight : SpendRow → Int} (hperm : rows'.Perm (row :: othersOf row.key rows))
    (hroom : RoomFor weight since row.key rows (weight row)) :
    sizeSince weight since rows' < 2 ^ 63 := by
  have hnonneg : 0 ≤ sizeSince weight since (othersOf row.key rows) :=
    Window.load_nonneg (size_nonneg weight _)
  unfold RoomFor at hroom
  unfold sizeSince at *
  rw [Window.load_perm hperm, Window.load_cons]
  split <;> omega

theorem Small.totals (h : Small since rows) (x : Externals) (hle : since ≤ t) {tables : Tables}
    (hrows : tables.spend.rows = rows) : ExactTotals x t tables := by
  subst hrows
  refine ⟨fun chainId escrow => ?_, fun chainId escrow token => ?_, fun chainId escrow channelId => ?_⟩
  · have hsum := sumInts_window hle h.fees chainId escrow fun _ => true
    have hsize := natAbs_sum_le Tables.feeOf tables.spend.rows hle chainId escrow
      fun _ => true
    rw [List.filter_true] at hsum hsize
    have hall : ((tables.countedRows chainId escrow t).map Tables.feeOf).all inInt64 = true := by
      refine List.all_eq_true.mpr fun n hn => ?_
      have hn' : n.natAbs ≤ (((tables.countedRows chainId escrow t).map Tables.feeOf).map
          Int.natAbs).sum := List.le_sum_of_mem (List.mem_map_of_mem hn)
      have hfees := h.fees
      unfold Tables.countedRows at hn'
      simp only [inInt64, Bool.and_eq_true, decide_eq_true_eq]
      omega
    unfold Tables.feeWeiWindow
    rw [if_pos hall]
    exact hsum
  · exact sumInts_window hle h.units chainId escrow _
  · exact sumInts_window hle h.units chainId escrow _

/-- A change of the row of a key that keeps what it weighs and brings it back into no window. -/
theorem Small.mapRow {k : Key} {f : SpendRow → SpendRow} (h : Small since rows)
    (hts : ∀ r, (f r).ts = r.ts) (hamount : ∀ r, (f r).amountUnits = r.amountUnits)
    (hfee : ∀ r ∈ rows, r.key = k → Tables.feeOf (f r) = Tables.feeOf r)
    (hback : ∀ r ∈ rows, r.key = k → (f r).state.counted = true → r.state.counted = true)
    (hspent : ∀ r ∈ rows, r.key = k → (f r).state ≠ .mined → (f r).feeWeiSpent ≤ 0) :
    Small since (EscrowSigner.mapRow k f rows) := by
  have size : ∀ weight : SpendRow → Int, (∀ r ∈ rows, r.key = k → weight (f r) = weight r) →
      sizeSince weight since (EscrowSigner.mapRow k f rows) ≤ sizeSince weight since rows := by
    intro weight hweight
    refine Window.load_map_le (size_nonneg weight rows) fun r hr hp => ?_
    split at hp
    · rename_i hk
      rw [if_pos hk, hweight r hr hk]
      simp only [heldSince, Bool.and_eq_true, hts] at hp
      refine ⟨?_, rfl⟩
      simp only [heldSince, Bool.and_eq_true]
      exact ⟨hback r hr hk hp.1, hp.2⟩
    · rename_i hk
      rw [if_neg hk]
      exact ⟨hp, rfl⟩
  refine ⟨(size _ hfee).trans_lt h.fees, (size _ fun r _ _ => hamount r).trans_lt h.units, ?_⟩
  intro r hr
  obtain ⟨r', hr', ⟨hk, rfl⟩ | ⟨-, rfl⟩⟩ := mem_mapRow.mp hr
  · exact hspent r' hr' hk
  · exact h.unspent _ hr'

/-- A grant that has room keeps the windows small. -/
theorem Small.grant {p : Plan} {seq ts nonce : Int} (h : Small since rows)
    (hk : (rows.map SpendRow.key).Nodup) (hplace : Places i p seq ts nonce rows rows' row)
    (hfee : RoomFor Tables.feeOf since (p.request i).key rows
      ((p.request i).maxFeeWei * (p.request i).gasLimit))
    (hunits : RoomFor (·.amountUnits) since (p.request i).key rows (p.request i).amountUnits) :
    Small since rows' := by
  have hrow : row.feeWeiSpent ≤ 0 ∧
      row.maxFeeWei * row.gasLimit = (p.request i).maxFeeWei * (p.request i).gasLimit := by
    cases hplace with
    | fresh head hkey => exact ⟨le_rfl, rfl⟩
    | revived r hr hkey hdead hamount hsame =>
      have hspent := h.unspent r hr (by rw [hdead]; decide)
      cases p <;> exact ⟨hspent, rfl⟩
  have hperm := hplace.perm hk
  refine ⟨size_le_of_perm hperm ?_, size_le_of_perm hperm ?_, fun r hr hstate => ?_⟩
  · rw [hplace.key_eq, feeOf_eq hrow.1, hrow.2]
    exact hfee
  · rw [hplace.key_eq, hplace.amount_eq]
    exact hunits
  · rcases (hplace.mem hk).mp hr with rfl | ⟨hr, -⟩
    · exact hrow.1
    · exact h.unspent r hr hstate

/-- A row that is mined weighs what it weighed, or the fee of its receipt. -/
theorem Small.mine {u : Ledger.RowUpdates} (h : Small since rows) (hk : (rows.map SpendRow.key).Nodup)
    (hrow : row ∈ rows) (hlive : row.state.live = true)
    (hfee : ∀ fee ∈ u.feeWeiSpent, 0 < fee → RoomFor Tables.feeOf since row.key rows fee) :
    Small since (EscrowSigner.mapRow row.key (u.apply .mined) rows) := by
  have hone : ∀ r ∈ rows, r.key = row.key → r = row := fun r hr => eq_of_key_eq hk hr hrow
  have hunspent : row.feeWeiSpent ≤ 0 :=
    h.unspent row hrow (by rintro hm; rw [hm] at hlive; cases hlive)
  have keeps (hsame : Tables.feeOf (u.apply .mined row) = Tables.feeOf row) :
      Small since (EscrowSigner.mapRow row.key (u.apply .mined) rows) := by
    refine h.mapRow (fun _ => rfl) (fun _ => rfl) (fun r hr hkey => ?_) (fun r hr hkey _ => ?_)
      fun _ _ _ hm => absurd rfl hm
    · rw [hone r hr hkey]
      exact hsame
    · rw [hone r hr hkey]
      exact RowState.counted_of_live hlive
  cases hu : u.feeWeiSpent with
  | none =>
    refine keeps ?_
    simp [Tables.feeOf, Ledger.RowUpdates.apply, hu]
  | some fee =>
    by_cases hpos : 0 < fee
    · have hweight : Tables.feeOf (u.apply .mined row) = fee := by
        simp [Tables.feeOf, Ledger.RowUpdates.apply, hu, hpos]
      have hperm := perm_mapRow (f := u.apply .mined) hk hrow
      refine ⟨size_le_of_perm hperm ?_, ?_, fun r hr hm => ?_⟩
      · rw [hweight]
        exact hfee fee (by rw [hu]; rfl) hpos
      · refine lt_of_le_of_lt (Window.load_map_le (size_nonneg _ rows) fun r hr hp => ?_) h.units
        split at hp
        · rename_i hkey
          rw [if_pos hkey, hone r hr hkey]
          rw [hone r hr hkey] at hp
          simp only [heldSince, Bool.and_eq_true] at hp
          refine ⟨?_, rfl⟩
          simp only [heldSince, Bool.and_eq_true]
          exact ⟨RowState.counted_of_live hlive, hp.2⟩
        · rename_i hkey
          rw [if_neg hkey]
          exact ⟨hp, rfl⟩
      · obtain ⟨r', hr', ⟨-, rfl⟩ | ⟨-, rfl⟩⟩ := mem_mapRow.mp hr
        · exact absurd rfl hm
        · exact h.unspent _ hr' hm
    · refine keeps ?_
      rw [feeOf_eq hunspent]
      simp [Tables.feeOf, Ledger.RowUpdates.apply, hu, hpos]

/-- Steps with room keep the windows small. -/
theorem small_step (hroom : ∀ s c, env s c → Roomy i since s) (hsound : Sound i φ s)
    (h : Small since s.rows ∧ Attributed s φ) (hstep : Step i env ok (φ, s) (φ', s')) :
    Small since s'.rows ∧ Attributed s' φ' := by
  obtain ⟨h, hattr⟩ := h
  cases hstep with
  | receive | finish | settle | count | setNext | sign | balk | record | send | giveBack =>
    exact ⟨h, trivial⟩
  | pass he hlog hts hseq => exact ⟨h, hattr⟩
  | stamp txHash status he =>
    refine ⟨h, ?_⟩
    unfold Attributed at hattr ⊢
    split at hattr
    · obtain ⟨a, ha, hhash, hkey⟩ := hattr
      obtain ⟨a', ha', hb⟩ := (Restamped.stamp txHash status s.attempts).mem ha
      exact ⟨a', ha', (congrArg TxAttempt.txHash hb).trans hhash, (congrArg TxAttempt.key hb).trans hkey⟩
    · trivial
  | @find _ _ c row q f he hφ hrow hlive hs =>
    refine ⟨h, ?_⟩
    cases hs with
    | unused | collected | reverted => trivial
    | mined a receipt ha hkey hr ht hs => exact ⟨a, ha, rfl, hkey⟩
  | grant he hj hfit hcut hshown hts hseq hplace hbind =>
    have hroom := hroom _ _ he
    obtain ⟨instant, hread, rfl⟩ := hshown.read
    obtain ⟨hfee, hunits⟩ := hroom.reservation _ instant hj hread hfit
    exact ⟨h.grant hsound.keys hplace hfee hunits, trivial⟩
  | @mark _ c p row he =>
    refine ⟨h.mapRow (fun _ => rfl) (fun _ => rfl) (fun _ _ _ => rfl) (fun r hr hk _ => ?_)
      fun r hr hk _ => ?_, trivial⟩
    all_goals
      rw [eq_of_key_eq hsound.keys hr hsound.phase.2.2 hk]
    · rw [hsound.phase.2.1]
      rfl
    · exact h.unspent row hsound.phase.2.2 (by rw [hsound.phase.2.1]; decide)
  | @broadcast _ c p row he =>
    refine ⟨h.mapRow (fun _ => rfl) (fun _ => rfl) (fun _ _ _ => rfl) (fun r hr hk _ => ?_)
      fun r hr hk _ => ?_, trivial⟩
    all_goals
      rw [eq_of_key_eq hsound.keys hr hsound.phase.2.2 hk]
    · rfl
    · exact h.unspent (signedRow i p row) hsound.phase.2.2 (by simp [signedRow])
  | @mine _ c row f u he hu =>
    refine ⟨h.mine hsound.keys hsound.phase.1 hsound.phase.2 fun fee hfee hpos => ?_, trivial⟩
    cases hu with
    | collected => cases hfee
    | mined txHash receipt n hread hn =>
      obtain ⟨a, ha, hhash, hkey⟩ := hattr
      have heq : n = fee := by
        simp only at hfee
        split at hfee
        · cases hfee
        · exact Option.some.inj hfee
      exact (hroom _ _ he).receipt txHash receipt fee hread (heq ▸ hn) hpos a ha hhash row
        hsound.phase.1 hkey hsound.phase.2
  | @kill _ _ c r reason he hr hfalls =>
    refine ⟨h.mapRow (fun _ => rfl) (fun _ => rfl) (fun _ _ _ => rfl) (fun _ _ _ hc => nomatch hc)
      fun r' hr' hk _ => ?_, ?_⟩
    · refine h.unspent r' hr' fun hm => ?_
      have hlive := hfalls.live hsound hr
      rw [← eq_of_key_eq hsound.keys hr' hr hk, hm] at hlive
      cases hlive
    · unfold Phase.released
      split <;> trivial

/-- In every run in which what is reserved and what is paid leaves room for it, the totals of every
window from `since` on are the exact sums. -/
theorem totals_exact {status : Status} {w : World} (hle : since ≤ t)
    (h : Reaches i (fun s _ => Roomy i since s) (fun _ _ _ => True) status w) :
    ExactTotals i.ext t w.tables := by
  have hempty : ∀ weight, sizeSince weight since [] < 2 ^ 63 := fun weight => by
    rw [sizeSince, Window.load_nil]
    decide
  have hinitial : Small since [] := ⟨hempty _, hempty _, List.forall_mem_nil _⟩
  obtain ⟨φ, -, hsmall, -⟩ := Reaches.invariant (I := fun φ s => Small since s.rows ∧ Attributed s φ) h
    ⟨hinitial, trivial⟩ fun _ _ _ _ hsound hb hstep => small_step (fun _ _ he => he) hsound hb hstep
  exact hsmall.totals i.ext hle rfl

section Sample

open EscrowSigner.Sample

/-- What the sample's outside answers while a call prices its fees. -/
def priced : Event → Bool
  | .rpc (.estimateGas ..) (.ok (estimate : Int)) => estimate = 100000
  | .rpc .baseFeeWei (.ok (baseFee : Int)) => baseFee = 1
  | .rpc (.getChannel ..) (.ok channel) => channel.balance ≤ 1000000
  | .rpc (.receipt _) _ => false
  | _ => true

theorem roomFor_of_small {weight : SpendRow → Int} {k : Key} {n : Int}
    (hsize : sizeSince weight since rows ≤ 1000000000) (hn : n.natAbs ≤ 1000000) :
    RoomFor weight since k rows n := by
  have hothers : sizeSince weight since (othersOf k rows) ≤ sizeSince weight since rows :=
    Window.load_filter_le (size_nonneg weight rows) _
  unfold RoomFor
  omega

/-- Small books have room for whatever the sample prices. -/
theorem roomy_of_priced {caps : Caps} {s : State} (hlog : ∀ e ∈ s.log, priced e = true)
    (hfees : sizeSince Tables.feeOf since s.rows ≤ 1000000000)
    (hunits : sizeSince (·.amountUnits) since s.rows ≤ 1000000000) :
    Roomy (signer caps "") since s where
  reservation p instant hj _ hfit := by
    have hcost : ∀ fees, Priced (signer caps "") fees s.log → fees = ⟨125000, 2⟩ := by
      rintro fees ⟨toAddr, data, estimate, baseFee, he, hb, hf⟩
      have hestimate := of_decide_eq_true (hlog _ (mem_of_mem_session he))
      have hbase := of_decide_eq_true (hlog _ (mem_of_mem_session hb))
      subst hestimate hbase
      have hprice : priceFees (signer caps "") 100000 1 = .ok ⟨125000, 2⟩ := rfl
      exact (Except.ok.inj (hprice.symm.trans hf)).symm
    have hfee : ((p.request (signer caps "")).maxFeeWei *
        (p.request (signer caps "")).gasLimit).natAbs ≤ 1000000 := by
      have hsmall : ((2 : Int) * 125000).natAbs ≤ 1000000 := by decide
      cases p with
      | debit body e call channel fees =>
        obtain rfl := hcost fees hj.priced
        exact hsmall
      | expire body e call fees =>
        obtain rfl := hcost fees hj.priced
        exact hsmall
      | sweep recipient balance data receipt fees =>
        obtain rfl := hcost fees hj.priced
        exact hsmall
    refine ⟨roomFor_of_small hfees hfee, roomFor_of_small hunits ?_⟩
    cases p with
    | debit body e call channel fees =>
      obtain ⟨now, -, hadmitted⟩ := hj.admitted
      have hamount : call.amount ≤ channel.balance := (channelState_eq_none _ hadmitted).balance
      have hbalance : channel.balance ≤ 1000000 :=
        of_decide_eq_true (hlog _ (mem_of_mem_session hj.read))
      have hpos : 0 < call.amount := hfit.1
      show call.amount.natAbs ≤ 1000000
      omega
    | expire | sweep => exact Nat.zero_le _
  receipt txHash receipt fee hread _ _ _ _ _ _ _ _ _ := by
    have hreceipt : priced (.rpc (.receipt txHash) (.ok receipt)) = true :=
      hlog _ (List.mem_of_head? hread)
    exact absurd hreceipt Bool.false_ne_true

theorem totals_exact_of_debits : ∃ w : World, w.tables.spend.rows.length = 2 ∧
    ExactTotals (signer unlimited "").ext 0 w.tables := by
  obtain ⟨status, w, hw, hlen⟩ := Reach.exists_of_play
    (i := signer unlimited "") (K := fun _ _ _ => True)
    (E := fun w _ => (∀ e ∈ w.log, priced e = true) ∧
      sizeSince Tables.feeOf 0 w.tables.spend.rows ≤ 1000000000 ∧
      sizeSince (·.amountUnits) 0 w.tables.spend.rows ≤ 1000000000)
    (P := fun _ w => w.tables.spend.rows.length = 2)
    [boot { time := 2 : Outside }.script, debit 1 { time := 2 : Outside }.script,
      debit 2 { time := 3 : Outside }.script]
    (Q := fun _ => True) (fun _ _ _ _ => trivial) (by decide +kernel)
  exact ⟨w, hlen, totals_exact le_rfl
    (hw.mono (fun _ _ h => roomy_of_priced h.1.1 h.1.2.1 h.1.2.2) fun _ _ _ h => h)⟩

/-- What is loaded where no cap is set, the tip is one wei and the ceiling is 100000 gwei. -/
def dear : Settings := ⟨unlimited, 1, 100000000000000, -1, "", 1⟩

def dearSigner : Instance := { signer unlimited "" with settings := dear }

/-- How that is spelled in the environment. -/
def dearEnviron (name : String) : Option String :=
  if name = "SIGNER_PRIORITY_FEE_WEI" then some "1"
  else if name = "SIGNER_MAX_FEE_WEI_CEILING" then some "100000000000000"
  else some "unlimited"

/-- What `int` makes of a text of decimal digits. -/
def decimal (text : String) : Option Int :=
  if text.toList.all Char.isDigit then
    some (text.toList.foldl (fun n c => 10 * n + (c.toNat - 48 : Nat)) 0)
  else none

theorem dear_loaded : Config.loadLimits decimal dearEnviron dear = .ok dear := by
  have hspelled : lower (strip "unlimited") = "unlimited" := by decide +kernel
  have hoff : ∀ name, dearEnviron name = some "unlimited" →
      Config.cap decimal dearEnviron name = .ok (-1) := by
    intro name hname
    refine Config.cap_unlimited ?_
    rw [Config.env, hname]
    exact hspelled
  have hpriority : Config.cap decimal dearEnviron "SIGNER_PRIORITY_FEE_WEI" = .ok 1 := by decide +kernel
  have hceiling : Config.cap decimal dearEnviron "SIGNER_MAX_FEE_WEI_CEILING" =
      .ok 100000000000000 := by decide +kernel
  unfold Config.loadLimits Config.loadCaps
  rw [hpriority, hceiling]
  repeat rw [hoff _ rfl]
  rfl

def dearDebit (receipt : UInt8) (script : List Choice) : Turn dearSigner :=
  .call (.handle [receipt]) _ (serve_handle (parse_payload rfl rfl)) script

/-- Two debits, each with a fee of less than `2^63` wei that the ceiling admits, and the fees of the day
cannot be totalled any more. -/
theorem totals_overflow : Config.loadLimits decimal dearEnviron dear = .ok dear ∧
    ∃ status w, Reaches dearSigner (fun s c => s.clock ≤ c.now) (fun _ _ _ => True) status w ∧
      w.tables.feeWeiWindow dearSigner.ext Config.chainId dearSigner.escrow 0 =
        .error (.sqlite "OperationalError") ∧
      ¬ ExactTotals dearSigner.ext 0 w.tables := by
  let outside : Outside := { time := 2, baseFee := 24999999999999 }
  obtain ⟨status, w, hw, hfees⟩ := Reach.exists_of_play
    (i := dearSigner) (K := fun _ _ _ => True)
    (E := fun w c => (stateOf dearSigner w).clock ≤ c.now)
    (P := fun _ w => w.tables.feeWeiWindow dearSigner.ext Config.chainId dearSigner.escrow 0 =
      .error (.sqlite "OperationalError"))
    [.call .boot _ rfl outside.script, dearDebit 1 outside.script, dearDebit 2 outside.script]
    (Q := fun _ => True) (fun _ _ _ _ => trivial) (by decide +kernel)
  refine ⟨dear_loaded, status, w, hw.mono (fun _ _ h => h.1) fun _ _ _ h => h, hfees, fun hexact => ?_⟩
  have := hexact.fees Config.chainId dearSigner.escrow
  rw [hfees] at this
  cases this

end Sample

end EscrowSigner.Machine
