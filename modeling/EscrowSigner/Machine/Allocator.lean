import EscrowSigner.History
import EscrowSigner.Machine.Refinement

/-! The allocator over runs: it stands past the nonce of every row that is not dead, as long as a
row is only taken for mined when the chain has used up its nonce. -/

namespace EscrowSigner.Machine

open Policy

variable {i : Instance} {env : State → Choice → Prop} {ok : State → Call → List Choice → Prop}

/-! ### The chain's count -/

/-- The chain never unlearns a nonce, and the pending count is no less than the nonces used. -/
def CountsTruly (i : Instance) (s : State) (c : Choice) : Prop :=
  s.chain.nonce ≤ c.chain.nonce ∧
    ∀ n, c.answer (.transactionCount i.address "pending") = .ok n → c.chain.nonce ≤ n

/-- Whether a finding says that a row landed. -/
def Finding.landed : Finding → Bool
  | .collected | .mined _ => true
  | .unused _ | .reverted _ => false

/-- The chain shows a live row as landed only when it has used up the nonce of the row. -/
def LandsOnItsNonce (i : Instance) (s : State) (c : Choice) : Prop :=
  ∀ r ∈ s.rows, r.state.live = true → ∀ q f, Shows i s c r q f → f.landed = true →
    r.accountNonce < c.chain.nonce

/-! ### The invariant -/

/-- What a phase adds to the invariant of the allocator. -/
def AllocatedIn (s : State) : Phase → Prop
  | .counted n => ∀ r ∈ s.rows, r.state = .mined → r.accountNonce < n
  | .found row f => f.landed = true → row.accountNonce < s.chain.nonce
  | .freed r => ∀ r' ∈ s.rows, r'.state ≠ .dead → r'.accountNonce ≠ r.accountNonce
  | .idle | .working .. | .ended => True

structure Allocated (φ : Phase) (s : State) : Prop where
  below : ∀ r ∈ s.rows, r.state ≠ .dead → r.accountNonce < s.next
  distinct : ∀ r ∈ s.rows, ∀ r' ∈ s.rows, r.state ≠ .dead → r'.state ≠ .dead →
    r.accountNonce = r'.accountNonce → r.key = r'.key
  mined : ∀ r ∈ s.rows, r.state = .mined → r.accountNonce < s.chain.nonce
  kept : ∀ r ∈ s.rows, r.state ≠ .superseded
  phase : AllocatedIn s φ

theorem le_highestNonce {rows : List SpendRow} {r : SpendRow} (h : r ∈ rows) :
    r.accountNonce ≤ highestNonce rows := by
  have key : ∀ (ns : List Int) (m : Int), m ≤ ns.foldl max m ∧ ∀ n ∈ ns, n ≤ ns.foldl max m := by
    intro ns
    induction ns with
    | nil => exact fun m => ⟨le_rfl, fun _ h => absurd h List.not_mem_nil⟩
    | cons k ns ih =>
      intro m
      refine ⟨(le_max_left m k).trans (ih _).1, fun n hn => ?_⟩
      rcases List.mem_cons.mp hn with rfl | hn
      · exact (le_max_right m n).trans (ih _).1
      · exact (ih _).2 n hn
  cases rows with
  | nil => cases h
  | cons r' rows =>
    rcases List.mem_cons.mp h with rfl | h
    · exact (key _ _).1
    · exact (key _ _).2 _ (List.mem_map_of_mem h)

/-- A step that leaves rows and allocator alone, while the chain moves on. -/
theorem Allocated.same {φ φ' : Phase} {s s' : State} (h : Allocated φ s) (hr : s'.rows = s.rows)
    (hn : s'.next = s.next) (hc : s.chain.nonce ≤ s'.chain.nonce) (hφ : AllocatedIn s' φ') :
    Allocated φ' s' where
  below r hr' hd := hn ▸ h.below r (hr ▸ hr') hd
  distinct r hr' r' hr'' := h.distinct r (hr ▸ hr') r' (hr ▸ hr'')
  mined r hr' hm := (h.mined r (hr ▸ hr') hm).trans_le hc
  kept r hr' := h.kept r (hr ▸ hr')
  phase := hφ

theorem AllocatedIn.same {φ : Phase} {s s' : State} (h : AllocatedIn s φ) (hr : s'.rows = s.rows)
    (hc : s.chain.nonce ≤ s'.chain.nonce) : AllocatedIn s' φ := by
  cases φ with
  | found row f => exact fun hl => (h hl).trans_le hc
  | counted n => exact fun r hr' => h r (hr ▸ hr')
  | freed r => exact fun r' hr' => h r' (hr ▸ hr')
  | idle | working | ended => trivial

/-- A change of one row that brings no dead row back and keeps its nonce. -/
theorem Allocated.mapRow {φ φ' : Phase} {s : State} {c : Choice} {k : Key}
    {f : SpendRow → SpendRow} (h : Allocated φ s) (hf : Restates f)
    (hchain : s.chain.nonce ≤ c.chain.nonce)
    (hback : ∀ r ∈ s.rows, r.key = k → (f r).state ≠ .dead → r.state ≠ .dead)
    (hmined : ∀ r ∈ s.rows, r.key = k → (f r).state = .mined → r.accountNonce < c.chain.nonce)
    (hkept : ∀ r, (f r).state ≠ .superseded)
    (hφ : AllocatedIn { s.after c with rows := EscrowSigner.mapRow k f s.rows } φ') :
    Allocated φ' { s.after c with rows := EscrowSigner.mapRow k f s.rows } := by
  have origin : ∀ r' ∈ EscrowSigner.mapRow k f s.rows, ∃ r ∈ s.rows, r'.key = r.key ∧
      r'.accountNonce = r.accountNonce ∧ (r'.state ≠ .dead → r.state ≠ .dead) ∧
      (r'.state = .mined → r.accountNonce < c.chain.nonce) ∧ r'.state ≠ .superseded := by
    intro r' hr'
    obtain ⟨r, hr, ⟨hk, rfl⟩ | ⟨hk, rfl⟩⟩ := mem_mapRow.mp hr'
    · exact ⟨r, hr, hf.key r, hf.accountNonce r, hback r hr hk, hmined r hr hk, hkept r⟩
    · exact ⟨r', hr, rfl, rfl, id, fun hm => (h.mined r' hr hm).trans_le hchain, h.kept r' hr⟩
  refine ⟨fun r' hr' hd => ?_, fun r' hr' r'' hr'' hd' hd'' heq => ?_, fun r' hr' hm => ?_,
    fun r' hr' => ?_, hφ⟩
  · obtain ⟨r, hr, -, hn, hdead, -⟩ := origin r' hr'
    rw [hn]
    exact h.below r hr (hdead hd)
  · obtain ⟨r₁, hr₁, hk₁, hn₁, hdead₁, -⟩ := origin r' hr'
    obtain ⟨r₂, hr₂, hk₂, hn₂, hdead₂, -⟩ := origin r'' hr''
    rw [hk₁, hk₂]
    exact h.distinct r₁ hr₁ r₂ hr₂ (hdead₁ hd') (hdead₂ hd'') (by rw [← hn₁, ← hn₂, heq])
  · obtain ⟨r, hr, -, hn, -, hmined, -⟩ := origin r' hr'
    rw [hn]
    exact hmined hm
  · obtain ⟨r, hr, -, -, -, -, hs⟩ := origin r' hr'
    exact hs

/-- A reservation at the allocator's nonce. -/
theorem Allocated.grant {p : Plan} {seq ts : Int} {s : State} {rows : List SpendRow}
    {row : SpendRow} (h : Allocated .idle s) (hk : (s.rows.map SpendRow.key).Nodup)
    (hplace : Places i p seq ts s.next s.rows rows row) :
    (∀ r ∈ rows, r.state ≠ .dead → r.accountNonce < s.next + 1) ∧
    ∀ r ∈ rows, ∀ r' ∈ rows, r.state ≠ .dead → r'.state ≠ .dead →
      r.accountNonce = r'.accountNonce → r.key = r'.key := by
  have hnew := hplace.nonce_eq
  constructor
  · intro r hr hd
    rcases (hplace.mem hk).mp hr with rfl | ⟨hr, -⟩
    · omega
    · have := h.below r hr hd
      omega
  · intro r hr r' hr' hd hd' heq
    rcases (hplace.mem hk).mp hr with rfl | ⟨hr, -⟩ <;>
      rcases (hplace.mem hk).mp hr' with rfl | ⟨hr', -⟩
    · rfl
    · have := h.below r' hr' hd'
      omega
    · have := h.below r hr hd
      omega
    · exact h.distinct r hr r' hr' hd hd' heq

theorem allocated_step (hcount : ∀ s c, env s c → CountsTruly i s c)
    (hland : ∀ s c, env s c → LandsOnItsNonce i s c) {φ φ' : Phase} {s s' : State}
    (hsound : Sound i φ s) (h : Allocated φ s) (hstep : Step i env ok (φ, s) (φ', s')) :
    Allocated φ' s' := by
  cases hstep with
  | receive call script hφ hok => exact h.same rfl rfl le_rfl trivial
  | finish => exact h.same rfl rfl le_rfl trivial
  | settle hφ => exact h.same rfl rfl le_rfl trivial
  | pass he hlog hts hseq =>
    exact h.same rfl rfl (hcount _ _ he).1 (h.phase.same rfl (hcount _ _ he).1)
  | stamp txHash status he =>
    exact h.same rfl rfl (hcount _ _ he).1 (h.phase.same rfl (hcount _ _ he).1)
  | find he hφ hrow hlive hs =>
    exact h.same rfl rfl (hcount _ _ he).1 (hland _ _ he _ hrow hlive _ _ hs)
  | count he hboot ha =>
    refine h.same rfl rfl (hcount _ _ he).1 fun r hr hm => ?_
    exact (h.mined r hr hm).trans_le ((hcount _ _ he).1.trans ((hcount _ _ he).2 _ ha))
  | @setNext _ c n live he hlive =>
    refine ⟨fun r hr hd => ?_, h.distinct, fun r hr hm => ?_, h.kept, trivial⟩
    · -- The rows that are not dead are live or mined: nothing supersedes a row.
      cases hs : r.state with
      | reserved | signed | broadcast =>
        have hl : r ∈ live := hlive.mem_iff.mpr (List.mem_filter.mpr ⟨hr, by simp [hs, RowState.live]⟩)
        exact (Int.lt_add_one_of_le (le_highestNonce hl)).trans_le (le_max_right _ _)
      | mined => exact (h.phase r hr hs).trans_le (le_max_left _ _)
      | dead => exact absurd hs hd
      | superseded => exact absurd hs (h.kept r hr)
    · exact (h.mined r hr hm).trans_le (hcount _ _ he).1
  | @grant _ c p row rows ts seq cut he hj hfit hcut hshown hts hseq hplace hbind =>
    obtain ⟨hbelow, hdistinct⟩ := h.grant hsound.keys hplace
    refine ⟨hbelow, hdistinct, fun r hr hm => ?_, fun r hr => ?_, trivial⟩
    · rcases (hplace.mem hsound.keys).mp hr with rfl | ⟨hr, -⟩
      · rw [hplace.state_eq] at hm
        cases hm
      · exact (h.mined r hr hm).trans_le (hcount _ _ he).1
    · rcases (hplace.mem hsound.keys).mp hr with rfl | ⟨hr, -⟩
      · rw [hplace.state_eq]
        exact nofun
      · exact h.kept r hr
  | sign he => exact h.same rfl rfl (hcount _ _ he).1 trivial
  | balk e he => exact h.same rfl rfl (hcount _ _ he).1 trivial
  | record he hnew hseq => exact h.same rfl rfl (hcount _ _ he).1 trivial
  | send he => exact h.same rfl rfl (hcount _ _ he).1 trivial
  | @mark _ c p row he =>
    refine h.mapRow ⟨fun _ => rfl, fun _ => rfl, fun _ => rfl, fun _ h => h⟩ (hcount _ _ he).1
      (fun r hr hk _ => ?_) (fun _ _ _ hm => nomatch hm) (fun _ => nofun) trivial
    rw [eq_of_key_eq hsound.keys hr hsound.phase.2.2 hk, hsound.phase.2.1]
    exact nofun
  | @broadcast _ c p row he =>
    refine h.mapRow ⟨fun _ => rfl, fun _ => rfl, fun _ => rfl, fun _ h => h⟩ (hcount _ _ he).1
      (fun r hr hk _ => ?_) (fun _ _ _ hm => nomatch hm) (fun _ => nofun) trivial
    rw [eq_of_key_eq hsound.keys hr hsound.phase.2.2 hk]
    exact nofun
  | @mine _ c row f u he hu =>
    have hlanded : f.landed = true := by cases hu <;> rfl
    refine h.mapRow (restates_apply _ _) (hcount _ _ he).1 (fun r hr hk _ => ?_)
      (fun r hr hk _ => ?_) (fun _ => nofun) trivial
    · rw [eq_of_key_eq hsound.keys hr hsound.phase.1 hk]
      intro hd
      have := hsound.phase.2
      rw [hd] at this
      cases this
    · rw [eq_of_key_eq hsound.keys hr hsound.phase.1 hk]
      exact (h.phase hlanded).trans_le (hcount _ _ he).1
  | @kill _ _ c r reason he hr hfalls =>
    refine h.mapRow ⟨fun _ => rfl, fun _ => rfl, fun _ => rfl, fun _ h => h⟩ (hcount _ _ he).1
      (fun _ _ _ hd => absurd rfl hd) (fun _ _ _ hm => nomatch hm) (fun _ => nofun) ?_
    unfold Phase.released
    split
    · rename_i hunsigned
      intro r' hr' hd heq
      obtain ⟨r'', hr'', ⟨-, rfl⟩ | ⟨hne, rfl⟩⟩ := mem_mapRow.mp hr'
      · exact hd rfl
      · exact hne (h.distinct r' hr'' r hr hd (by rw [hunsigned.1]; exact nofun) heq)
    · trivial
  | @giveBack _ c r he =>
    refine ⟨fun r' hr' hd => ?_, h.distinct, fun r' hr' hm => ?_, h.kept, trivial⟩
    · have hlt := h.below r' hr' hd
      have hne := h.phase r' hr' hd
      simp only
      split <;> omega
    · exact (h.mined r' hr' hm).trans_le (hcount _ _ he).1

theorem allocated_initial : Allocated .ended (stateOf i .initial) where
  below _ h := absurd h List.not_mem_nil
  distinct _ h := absurd h List.not_mem_nil
  mined _ h := absurd h List.not_mem_nil
  kept _ h := absurd h List.not_mem_nil
  phase := trivial

/-! ### Runs -/

/-- The unique index over the nonces of the rows that are not dead. -/
def NoncesUnique (rows : List SpendRow) : Prop :=
  ((rows.filter fun r => r.state ≠ .dead).map SpendRow.nonceKey).Nodup

instance (rows : List SpendRow) : Decidable (NoncesUnique rows) :=
  inferInstanceAs (Decidable (List.Nodup _))

theorem noncesUnique_of_distinct {rows : List SpendRow} (hk : (rows.map SpendRow.key).Nodup)
    (h : ∀ r ∈ rows, ∀ r' ∈ rows, r.state ≠ .dead → r'.state ≠ .dead →
      r.accountNonce = r'.accountNonce → r.key = r'.key) : NoncesUnique rows := by
  refine List.Nodup.map_on (fun r hr r' hr' heq => ?_) (hk.of_map.filter _)
  simp only [List.mem_filter, decide_eq_true_eq] at hr hr'
  refine eq_of_key_eq hk hr.1 hr'.1 (h r hr.1 r' hr'.1 hr.2 hr'.2 ?_)
  exact congrArg (fun k => k.2.2) heq

/-- The allocator points at a nonce that no row which is not dead holds, and a reservation at it
passes the unique index. -/
def AllocatorFree (i : Instance) (w : World) : Prop :=
  (∀ r ∈ w.tables.spend.rows, r.state ≠ .dead →
    r.nonceKey ≠ (Config.chainId, i.address, nextOf i w.tables)) ∧
  ∀ p seq ts rows row, Places i p seq ts (nextOf i w.tables) w.tables.spend.rows rows row →
    NoncesUnique rows

/-- In every run in which a row is only taken for mined when its nonce is used up, the books never
hold the nonce that the allocator points at. -/
theorem allocator_free {status : Status} {w : World}
    (h : Reaches i (fun s c => CountsTruly i s c ∧ LandsOnItsNonce i s c) (fun _ _ _ => True)
      status w) : AllocatorFree i w := by
  obtain ⟨φ, hsound, ha⟩ := Reaches.invariant (I := Allocated) h allocated_initial
    fun _ _ _ _ hsound ha hstep =>
      allocated_step (fun _ _ he => he.1) (fun _ _ he => he.2) hsound ha hstep
  have hidle : Allocated .idle (stateOf i w) := ha.same rfl rfl le_rfl trivial
  refine ⟨fun r hr hd heq => ?_, fun p seq ts rows row hplace => ?_⟩
  · have hlt : r.accountNonce < nextOf i w.tables := ha.below r hr hd
    have : r.accountNonce = nextOf i w.tables := congrArg (fun k => k.2.2) heq
    omega
  · exact noncesUnique_of_distinct (hplace.keys hsound.keys) (hidle.grant hsound.keys hplace).2

section Sample

open EscrowSigner.Sample

theorem Outside.unlanded {o : Outside} (hused : o.used = false) (hreceipt : ∀ h, o.receipt h = .null)
    {s : State} {r : SpendRow} {q : Query} {f : Finding} (h : Shows i s o.choice r q f) :
    f.landed = false := by
  cases h with
  | unused | reverted => rfl
  | collected receiptId hid ha => cases hused.symm.trans (Except.ok.inj ha)
  | mined a receipt ha hkey hr ht hs =>
    have : receipt = .null := (Except.ok.inj hr).symm.trans (hreceipt a.txHash)
    subst this
    cases ht

theorem Outside.countsTruly {o : Outside} {sweepTo : String} {caps : Caps}
    (h : o.chain.nonce ≤ o.count) {s : State} (hs : s.chain.nonce ≤ o.chain.nonce) :
    CountsTruly (signer caps sweepTo) s o.choice :=
  ⟨hs, fun _ hn => h.trans (le_of_eq (Except.ok.inj hn))⟩

/-- A debit lands with its nonce. -/
def landing : List (Turn (signer unlimited "")) :=
  [boot { time := 0 : Outside }.script, debit 1 { time := 0 : Outside }.script, .restart,
    boot { time := 9, used := true, count := 1, chain := ⟨[], [], 1, 0⟩ : Outside }.script]

/-- A debit whose broadcast got no answer is collected under another transaction. -/
def landingElsewhere : List (Turn (signer unlimited "")) :=
  [boot { time := 0 : Outside }.script,
    debit 1 { time := 0, sendRaw := .error (.rpcUnavailable "timeout") : Outside }.script, .restart,
    boot { time := 9, used := true : Outside }.script]

/-- A debit lands with its nonce, the service restarts, and its boot counts one nonce. -/
theorem allocator_free_after_landing : ∃ w : World,
    (w.tables.spend.rows.map (·.state) = [.mined] ∧ nextOf (signer unlimited "") w.tables = 1) ∧
      AllocatorFree (signer unlimited "") w := by
  have hQ : ∀ turn ∈ landing, ∀ c ∈ turn.choices, ∃ o : Outside, c = o.choice ∧
      o.chain.nonce ≤ o.count ∧
      (o.chain.nonce = 0 → o.used = false ∧ ∀ h, o.receipt h = .null) := by
    simp only [landing, List.forall_mem_cons, Turn.choices, Sample.boot, debit]
    exact ⟨Outside.forall_script ⟨_, rfl, le_rfl, fun _ => ⟨rfl, fun _ => rfl⟩⟩,
      Outside.forall_script ⟨_, rfl, le_rfl, fun _ => ⟨rfl, fun _ => rfl⟩⟩, List.forall_mem_nil _,
      Outside.forall_script ⟨_, rfl, le_rfl, fun h => absurd h (by decide)⟩, List.forall_mem_nil _⟩
  obtain ⟨status, w, hw, hmined⟩ := Reach.exists_of_play (K := fun _ _ _ => True)
    (E := fun w c => w.chain.nonce ≤ c.chain.nonce ∧
      (c.chain.nonce = 0 ∨ ∀ r ∈ w.tables.spend.rows, r.accountNonce < c.chain.nonce))
    (P := fun _ w => w.tables.spend.rows.map (·.state) = [.mined] ∧
      nextOf (signer unlimited "") w.tables = 1) landing hQ (by decide +kernel)
  refine ⟨w, hmined, allocator_free (hw.mono ?_ fun _ _ _ h => h)⟩
  rintro w₁ c ⟨⟨hmono, hspent⟩, o, rfl, hcount, hquiet⟩
  refine ⟨Outside.countsTruly hcount hmono, fun r hr _ q f hshows hlanded => ?_⟩
  refine hspent.resolve_left (fun hzero => ?_) r hr
  obtain ⟨hused, hreceipt⟩ := hquiet hzero
  rw [Outside.unlanded hused hreceipt hshows] at hlanded
  cases hlanded

/-- A debit that is collected under another transaction leaves a mined row with a nonce that the
chain never used up, and boot hands that nonce out again. -/
theorem allocator_jammed : ∃ status w, Reaches (signer unlimited "")
    (CountsTruly (signer unlimited "")) (fun _ _ _ => True) status w ∧
      ¬ AllocatorFree (signer unlimited "") w := by
  have hQ : ∀ turn ∈ landingElsewhere, ∀ c ∈ turn.choices, ∃ o : Outside, c = o.choice ∧
      o.chain.nonce ≤ o.count := by
    simp only [landingElsewhere, List.forall_mem_cons, Turn.choices, Sample.boot, debit]
    exact ⟨Outside.forall_script ⟨_, rfl, le_rfl⟩, Outside.forall_script ⟨_, rfl, le_rfl⟩,
      List.forall_mem_nil _,
      Outside.forall_script ⟨_, rfl, le_rfl⟩, List.forall_mem_nil _⟩
  obtain ⟨status, w, hw, r, hr, hd, hnonce⟩ := Reach.exists_of_play (K := fun _ _ _ => True)
    (E := fun w c => w.chain.nonce ≤ c.chain.nonce)
    (P := fun _ w => ∃ r ∈ w.tables.spend.rows, r.state ≠ .dead ∧
      r.nonceKey = (Config.chainId, address, nextOf (signer unlimited "") w.tables))
    landingElsewhere hQ (by decide +kernel)
  refine ⟨status, w, hw.mono ?_ fun _ _ _ h => h, fun hfree => hfree.1 r hr hd hnonce⟩
  rintro w₁ c ⟨hmono, o, rfl, hcount⟩
  exact Outside.countsTruly hcount hmono

end Sample

end EscrowSigner.Machine
