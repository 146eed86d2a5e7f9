import EscrowSigner.Machine.Answers

/-! Testimony: what the books say of a transaction, the log of the service bears out.  Nothing is
assumed of the chain here: an answer of the node counts as what the node said. -/

namespace EscrowSigner.Machine

open Policy

variable {i : Instance} {env : State → Choice → Prop} {ok : State → Call → List Choice → Prop}
  {log log' : List Event} {k : Key} {r : SpendRow} {txHash : String}

/-! ### What the node said -/

/-- The node answered whether the receipt of a row is used. -/
def UsedRead (i : Instance) (log : List Event) (r : SpendRow) (used : Bool) : Prop :=
  ∃ receiptId, fromHex (r.receiptId.toList.drop 2) = .ok receiptId ∧
    .rpc (.receiptUsed i.escrow receiptId (channelBytes r.channelId)) (.ok used) ∈ log

/-- The node showed the receipt of a transaction, with a status. -/
def StatusRead (i : Instance) (log : List Event) (txHash status : String) : Prop :=
  ∃ receipt, .rpc (.receipt txHash) (.ok receipt) ∈ log ∧ receipt.truthy = true ∧
    receiptField i.ext receipt "status" "" = .ok status

/-- The node rejected a transaction. -/
def Rejected (i : Instance) (log : List Event) (txHash : String) : Prop :=
  ∃ raw name, .rpc (.sendRaw raw) (.error (.reverted name)) ∈ log ∧
    hexString (i.ext.keccak raw) = txHash

/-- Why a row that was signed is released. -/
inductive Spent (i : Instance) (log : List Event) (r : SpendRow) : Prop
  | rejected (h : Rejected i log r.txHash)
  | reverted (txHash : String) (hsigned : SignedUnder i log r.key txHash)
      (h : StatusRead i log txHash "0x0")
  | lapsed (instant : Nat) (hread : .clock instant ∈ log) (hunused : UsedRead i log r false)
      (h : r.deadline < seconds instant)
  | givenUp (instant : Nat) (hread : .clock instant ∈ log) (hsweep : r.channelId = sweepChannel)
      (h : sweepGiveUpS < seconds instant - r.ts)

/-- What the log shows of a row in its state. -/
def Testified (i : Instance) (log : List Event) (r : SpendRow) : Prop :=
  match r.state with
  | .reserved => r.txHash = ""
  | .signed => SignedUnder i log r.key r.txHash
  | .broadcast => SignedUnder i log r.key r.txHash ∧ Accepted i log r.txHash
  | .mined => (UsedRead i log r true ∧ (r.txHash = "" ∨ SignedUnder i log r.key r.txHash)) ∨
      (SignedUnder i log r.key r.txHash ∧ StatusRead i log r.txHash "0x1")
  | .dead => r.txHash = "" ∨ (SignedUnder i log r.key r.txHash ∧ Spent i log r)
  | .superseded => False

section Growth

variable (hl : ∀ e ∈ log, e ∈ log')

include hl

theorem UsedRead.mono {used : Bool} (h : UsedRead i log r used) : UsedRead i log' r used := by
  obtain ⟨receiptId, hid, hmem⟩ := h
  exact ⟨receiptId, hid, hl _ hmem⟩

theorem StatusRead.mono {status : String} (h : StatusRead i log txHash status) :
    StatusRead i log' txHash status := by
  obtain ⟨receipt, hmem, hrest⟩ := h
  exact ⟨receipt, hl _ hmem, hrest⟩

theorem Accepted.mono (h : Accepted i log txHash) : Accepted i log' txHash := by
  obtain ⟨raw, answer, hmem, hhash⟩ := h
  exact ⟨raw, answer, hl _ hmem, hhash⟩

theorem Rejected.mono (h : Rejected i log txHash) : Rejected i log' txHash := by
  obtain ⟨raw, name, hmem, hhash⟩ := h
  exact ⟨raw, name, hl _ hmem, hhash⟩

theorem Spent.mono (h : Spent i log r) : Spent i log' r := by
  cases h with
  | rejected h => exact .rejected (h.mono hl)
  | reverted txHash hsigned h => exact .reverted txHash (hsigned.mono hl) (h.mono hl)
  | lapsed instant hread hunused h => exact .lapsed instant (hl _ hread) (hunused.mono hl) h
  | givenUp instant hread hsweep h => exact .givenUp instant (hl _ hread) hsweep h

theorem Testified.mono (h : Testified i log r) : Testified i log' r := by
  unfold Testified at h ⊢
  cases hstate : r.state with
  | reserved =>
    simp only [hstate] at h
    exact h
  | signed =>
    simp only [hstate] at h ⊢
    exact h.mono hl
  | broadcast =>
    simp only [hstate] at h ⊢
    exact ⟨h.1.mono hl, h.2.mono hl⟩
  | mined =>
    simp only [hstate] at h ⊢
    exact h.imp (fun h => ⟨h.1.mono hl, h.2.imp_right fun h => h.mono hl⟩)
      fun h => ⟨h.1.mono hl, h.2.mono hl⟩
  | dead =>
    simp only [hstate] at h ⊢
    exact h.imp_right fun h => ⟨h.1.mono hl, h.2.mono hl⟩
  | superseded => simp only [hstate] at h

end Growth

/-- The hash of a row is empty, or that of a transaction that was signed for it. -/
theorem Testified.hash (h : Testified i log r) :
    r.txHash = "" ∨ SignedUnder i log r.key r.txHash := by
  unfold Testified at h
  cases hstate : r.state with
  | reserved =>
    simp only [hstate] at h
    exact .inl h
  | signed =>
    simp only [hstate] at h
    exact .inr h
  | broadcast =>
    simp only [hstate] at h
    exact .inr h.1
  | mined =>
    simp only [hstate] at h
    rcases h with h | h
    · exact h.2
    · exact .inr h.1
  | dead =>
    simp only [hstate] at h
    exact h.imp_right And.left
  | superseded => simp only [hstate] at h

/-! ### What the machine knows -/

/-- What the phase adds: the answer that the call in progress acts on. -/
def PhaseTestified (i : Instance) (log : List Event) : Phase → Prop
  | .working p row .accepted => Accepted i log (p.txHash i row)
  | .working p row .rejected => Rejected i log (p.txHash i row)
  | .found row .collected => UsedRead i log row true
  | .found row (.unused instant) => UsedRead i log row false ∧ .clock instant ∈ log
  | .found row (.mined txHash) => SignedUnder i log row.key txHash ∧ StatusRead i log txHash "0x1"
  | .found row (.reverted txHash) => SignedUnder i log row.key txHash ∧ StatusRead i log txHash "0x0"
  | _ => True

/-- Every row is borne out by the log, and so is the phase. -/
structure Borne (i : Instance) (φ : Phase) (s : State) : Prop where
  rows : ∀ r ∈ s.rows, Testified i s.log r
  phase : PhaseTestified i s.log φ

theorem PhaseTestified.mono {φ : Phase} (h : PhaseTestified i log φ) (hl : ∀ e ∈ log, e ∈ log') :
    PhaseTestified i log' φ := by
  cases φ with
  | idle | counted | freed | ended => trivial
  | found row f =>
    cases f with
    | unused instant => exact ⟨h.1.mono hl, hl _ h.2⟩
    | collected => exact UsedRead.mono hl h
    | mined txHash => exact ⟨h.1.mono hl, h.2.mono hl⟩
    | reverted txHash => exact ⟨h.1.mono hl, h.2.mono hl⟩
  | working p row stage =>
    cases stage with
    | held | signed | marked | recorded | unanswered => trivial
    | accepted => exact Accepted.mono hl h
    | rejected => exact Rejected.mono hl h

section Steps

variable {s s' : State} {φ φ' : Phase} {c : Choice}

/-- A step that leaves the rows alone. -/
theorem Borne.same (h : Borne i φ s) (hr : s'.rows = s.rows) (hl : ∀ e ∈ s.log, e ∈ s'.log)
    (hφ : PhaseTestified i s'.log φ') : Borne i φ' s' :=
  ⟨fun r hmem => (h.rows r (hr ▸ hmem)).mono hl, hφ⟩

/-- A step that changes one row. -/
theorem Borne.mapRow {f : SpendRow → SpendRow} (h : Borne i φ s)
    (hf : ∀ r ∈ s.rows, r.key = k → Testified i s.log (f r)) (hφ : PhaseTestified i s.log φ') :
    Borne i φ' { s.after c with rows := EscrowSigner.mapRow k f s.rows } where
  rows r hr := by
    obtain ⟨r', hr', ⟨hk, rfl⟩ | ⟨-, rfl⟩⟩ := mem_mapRow.mp hr
    · exact hf r' hr' hk
    · exact h.rows _ hr'
  phase := hφ

/-- What the answer to a query shows about a row. -/
theorem Shows.testified {row : SpendRow} {q : Query} {f : Finding} (h : Shows i s c row q f)
    (hsigned : Signed i φ s) :
    PhaseTestified i (.rpc q (c.answer q) :: s.log) (.found row f) := by
  have attempted : ∀ a ∈ s.attempts, a.key = row.key →
      SignedUnder i (.rpc q (c.answer q) :: s.log) row.key a.txHash := by
    intro a ha hkey
    obtain ⟨g, hg, hhash, hgkey, -⟩ := hsigned.attempts a ha
    exact (SignedUnder.of_mem hg (hgkey.symm.trans hkey) hhash.symm).mono fun _ he =>
      List.mem_cons_of_mem _ he
  cases h with
  | unused receiptId instant hid ha ht =>
    exact ⟨⟨receiptId, hid, ha ▸ List.mem_cons_self⟩, List.mem_cons_of_mem _ ht⟩
  | collected receiptId hid ha => exact ⟨receiptId, hid, ha ▸ List.mem_cons_self⟩
  | mined a receipt ha hkey hr ht hs =>
    exact ⟨attempted a ha hkey, receipt, hr ▸ List.mem_cons_self, ht, hs⟩
  | reverted a receipt ha hkey hr ht hs =>
    exact ⟨attempted a ha hkey, receipt, hr ▸ List.mem_cons_self, ht, hs⟩

/-- A live row of which the node said that it landed. -/
theorem Settles.testified {f : Finding} {u : Ledger.RowUpdates} (hu : Settles i s f u)
    (hrow : Testified i s.log r) (h : PhaseTestified i s.log (.found r f)) :
    Testified i s.log (u.apply .mined r) := by
  cases hu with
  | collected => exact .inl ⟨h, hrow.hash⟩
  | mined txHash receipt fee hread hfee =>
    refine .inr ?_
    rw [if_neg h.1.ne]
    exact h

/-- A row that is released was never signed, or has ended. -/
theorem Falls.testified (hf : Falls s r φ) (hsound : Sound i φ s) (hsigned : Signed i φ s)
    (h : Borne i φ s) (hr : r ∈ s.rows) :
    r.txHash = "" ∨ (SignedUnder i s.log r.key r.txHash ∧ Spent i s.log r) := by
  have hrow : Testified i s.log r := h.rows r hr
  have unsigned : r.state = .reserved → r.txHash = "" := fun hs => by
    unfold Testified at hrow
    simpa only [hs] using hrow
  have ended : Spent i s.log r →
      r.txHash = "" ∨ (SignedUnder i s.log r.key r.txHash ∧ Spent i s.log r) :=
    fun hspent => hrow.hash.imp_right fun hsigned => ⟨hsigned, hspent⟩
  cases hf with
  | held p row hkey =>
    obtain ⟨-, hstate, hmem⟩ := hsound.phase
    have heq : r = row := eq_of_key_eq hsound.keys hr hmem hkey
    exact .inl (unsigned (heq ▸ hstate))
  | rejected p row hkey =>
    have heq : r = signedRow i p row := eq_of_key_eq hsound.keys hr hsound.phase.2.2 hkey
    refine ended (.rejected ?_)
    rw [heq]
    exact h.phase
  | reverted txHash => exact ended (.reverted txHash h.phase.1 h.phase.2)
  | lapsed instant hlate => exact ended (.lapsed instant h.phase.2 h.phase.1 hlate)
  | neverSigned instant hs hattempts => exact .inl (unsigned hs)
  | unsentSweep hc hs => exact .inl (unsigned hs)
  | lostSweep instant hc hs ht hlate => exact ended (.givenUp instant ht hc hlate)

/-- Every step keeps the books borne out. -/
theorem borne_step (hsound : Sound i φ s) (hsigned : Signed i φ s) (h : Borne i φ s)
    (hstep : Step i env ok (φ, s) (φ', s')) : Borne i φ' s' := by
  have grown : ∀ {e : Event}, ∀ e' ∈ s.log, e' ∈ e :: s.log := fun _ he => List.mem_cons_of_mem _ he
  have signed_of_phase : ∀ {p : Plan} {row : SpendRow},
      (∃ t, ⟨row, t, p.tx i row⟩ ∈ signatures s.log) →
        SignedUnder i s.log row.key (p.txHash i row) := fun ⟨t, ht⟩ => .of_mem ht rfl rfl
  cases hstep with
  | receive call script hφ hok => exact h.same rfl grown trivial
  | finish | settle => exact ⟨h.rows, trivial⟩
  | setNext | giveBack => exact ⟨h.rows, trivial⟩
  | pass he hlog hts hseq =>
    rcases hlog with rfl | ⟨e, -, rfl⟩
    · exact ⟨h.rows, h.phase⟩
    · exact h.same rfl grown (h.phase.mono grown)
  | stamp txHash status he => exact ⟨h.rows, h.phase⟩
  | find he hφ hrow hlive hs => exact h.same rfl grown (hs.testified hsigned)
  | count he hboot ha => exact h.same rfl grown trivial
  | @grant _ c p row rows ts seq cut he hj hfit hcut hshown hts hseq hplace hbind =>
    refine ⟨fun r hr => ?_, trivial⟩
    cases hplace with
    | fresh head hkey =>
      rcases List.mem_append.mp hr with hr | hr
      · exact h.rows r hr
      · rw [List.mem_singleton.mp hr]
        rfl
    | revived r₀ hr₀ hkey hdead hamount hsame =>
      obtain ⟨r', hr', ⟨-, rfl⟩ | ⟨-, rfl⟩⟩ := mem_mapRow.mp hr
      · unfold Testified
        rw [revived_state]
        exact revived_txHash p _ _ _ _
      · exact h.rows _ hr'
  | sign he => exact h.same rfl grown trivial
  | balk e he => exact h.same rfl grown trivial
  | @mark _ c p row he =>
    refine h.mapRow (fun r hr hkey => ?_) trivial
    show SignedUnder i s.log r.key (p.txHash i row)
    rw [hkey]
    exact signed_of_phase (hsigned.phase.2 (by decide))
  | record he hnew hseq => exact ⟨h.rows, trivial⟩
  | @send _ c p row he =>
    refine h.same rfl grown ?_
    cases ha : c.answer (.sendRaw (p.raw i row)) with
    | ok answer => exact ⟨_, answer, List.mem_cons_self, rfl⟩
    | error e =>
      cases e with
      | reverted name => exact ⟨_, name, List.mem_cons_self, rfl⟩
      | _ => trivial
  | @broadcast _ c p row he =>
    refine h.mapRow (fun r hr hkey => ?_) trivial
    show SignedUnder i s.log r.key (p.txHash i row) ∧ Accepted i s.log (p.txHash i row)
    rw [hkey]
    exact ⟨signed_of_phase (hsigned.phase.2 (by decide)), h.phase⟩
  | @mine _ c row f u he hu =>
    refine h.mapRow (fun r hr hkey => ?_) trivial
    have heq : r = row := eq_of_key_eq hsound.keys hr hsound.phase.1 hkey
    subst heq
    exact hu.testified (h.rows r hr) h.phase
  | @kill _ _ c r reason he hr hfalls =>
    refine h.mapRow (fun r' hr' hkey => ?_) ?_
    · have heq : r' = r := eq_of_key_eq hsound.keys hr' hr hkey
      subst heq
      have hend := hfalls.testified hsound hsigned h hr
      refine hend.imp_right fun hend => ⟨hend.1, ?_⟩
      cases hend.2 with
      | rejected h => exact .rejected h
      | reverted txHash hsigned h => exact .reverted txHash hsigned h
      | lapsed instant hread hunused h => exact .lapsed instant hread hunused h
      | givenUp instant hread hsweep h => exact .givenUp instant hread hsweep h
    · unfold Phase.released
      split <;> trivial

end Steps

theorem borne_initial : Borne i .ended (stateOf i .initial) :=
  ⟨fun _ hr => absurd hr List.not_mem_nil, trivial⟩

end EscrowSigner.Machine
