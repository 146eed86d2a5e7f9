import EscrowSigner.Machine.Allocator
import EscrowSigner.Machine.Signatures

/-! Account nonces over runs: no two signed transactions carry one nonce, as long as every signed
nonce is in the books when a call comes in, and boot counts past the signed nonces that no live row
holds. -/

namespace EscrowSigner.Machine

open Policy

variable {i : Instance} {env : State → Choice → Prop} {ok : State → Call → List Choice → Prop}

/-- An attempt in the books carries the nonce of a signature. -/
def Recorded (s : State) (g : Signature) : Prop := ∃ a ∈ s.attempts, a.accountNonce = g.tx.nonce

instance (s : State) (g : Signature) : Decidable (Recorded s g) :=
  inferInstanceAs (Decidable (∃ a ∈ _, _))

/-- The books know the nonce of every signature. -/
def AllRecorded (s : State) : Prop := ∀ g ∈ signatures s.log, Recorded s g

instance (s : State) : Decidable (AllRecorded s) :=
  inferInstanceAs (Decidable (∀ g ∈ _, _))

/-- A nonce that is lower than the count, or not above the nonce of some live row. -/
def Passed (s : State) (n nonce : Int) : Prop :=
  nonce < n ∨ ∃ r ∈ s.rows, r.state.live = true ∧ nonce ≤ r.accountNonce

instance (s : State) (n nonce : Int) : Decidable (Passed s n nonce) :=
  inferInstanceAs (Decidable (_ ∨ ∃ r ∈ _, _))

/-- During a boot, the pending count passes every signed nonce that no live row holds back. -/
def CountsPastSignatures (i : Instance) (s : State) (c : Choice) : Prop :=
  request s.log = some .boot →
    ∀ n, c.answer (.transactionCount i.address "pending") = .ok n →
      ∀ g ∈ signatures s.log, Passed s n g.tx.nonce

/-- No two transactions that were signed carry one nonce. -/
def NoncesOnce (log : List Event) : Prop :=
  ∀ g ∈ signatures log, ∀ g' ∈ signatures log, g.tx.nonce = g'.tx.nonce → g.tx = g'.tx

/-! ### The invariant -/

/-- What a phase knows of the nonces. -/
def NoncesIn (s : State) : Phase → Prop
  | .idle | .found .. => AllRecorded s
  | .counted n => AllRecorded s ∧ ∀ g ∈ signatures s.log, Passed s n g.tx.nonce
  | .freed r => AllRecorded s ∧ ∀ g ∈ signatures s.log, g.tx.nonce ≠ r.accountNonce
  | .working _ row stage =>
    match stage with
    | .held => AllRecorded s ∧ row.accountNonce < s.next ∧
        ∀ g ∈ signatures s.log, g.tx.nonce < row.accountNonce
    | .signed | .marked => ∀ g ∈ signatures s.log, g.tx.nonce = row.accountNonce ∨ Recorded s g
    | .recorded | .accepted | .rejected | .unanswered => AllRecorded s
  | .ended => True

structure NoncesKept (φ : Phase) (s : State) : Prop where
  once : NoncesOnce s.log
  below : ∀ g ∈ signatures s.log, g.tx.nonce < s.next
  phase : NoncesIn s φ

/-- The log only grows, so its signatures stay. -/
theorem signatures_step {φ φ' : Phase} {s s' : State} (hstep : Step i env ok (φ, s) (φ', s'))
    {g : Signature} (hg : g ∈ signatures s.log) : g ∈ signatures s'.log := by
  cases hstep with
  | pass he hlog hts hseq =>
    rcases hlog with rfl | ⟨e, hp, rfl⟩
    · exact hg
    · exact hp.signatures s.log ▸ hg
  | sign => exact List.mem_cons_of_mem _ hg
  | receive | finish | settle | stamp | find | count | setNext | grant | balk | mark | record | send
  | broadcast | mine | kill | giveBack => exact hg

theorem CollisionFree.before {φ φ' : Phase} {s s' : State} (h : CollisionFree i s'.log)
    (hstep : Step i env ok (φ, s) (φ', s')) : CollisionFree i s.log :=
  fun g hg g' hg' => h g (signatures_step hstep hg) g' (signatures_step hstep hg')

/-- A step that leaves signatures, attempts and allocator alone. -/
theorem NoncesKept.same {φ φ' : Phase} {s s' : State} (h : NoncesKept φ s)
    (hl : signatures s'.log = signatures s.log) (hn : s'.next = s.next) (hφ : NoncesIn s' φ') :
    NoncesKept φ' s' where
  once g hg g' hg' := h.once g (hl ▸ hg) g' (hl ▸ hg')
  below g hg := hn ▸ h.below g (hl ▸ hg)
  phase := hφ

theorem AllRecorded.same {s s' : State} (h : AllRecorded s)
    (hl : signatures s'.log = signatures s.log)
    (ha : s'.attempts.map (·.accountNonce) = s.attempts.map (·.accountNonce)) : AllRecorded s' := by
  intro g hg
  obtain ⟨a, hmem, hn⟩ := h g (hl ▸ hg)
  have : g.tx.nonce ∈ s'.attempts.map (·.accountNonce) :=
    ha ▸ List.mem_map.mpr ⟨a, hmem, hn⟩
  exact List.mem_map.mp this

theorem NoncesIn.same {φ : Phase} {s s' : State} (h : NoncesIn s φ)
    (hl : signatures s'.log = signatures s.log)
    (ha : s'.attempts.map (·.accountNonce) = s.attempts.map (·.accountNonce))
    (hr : s'.rows = s.rows) (hn : s'.next = s.next) : NoncesIn s' φ := by
  have recorded : ∀ g, Recorded s g → Recorded s' g := fun g ⟨a, hmem, hg⟩ =>
    List.mem_map.mp (ha ▸ List.mem_map.mpr ⟨a, hmem, hg⟩ :
      g.tx.nonce ∈ s'.attempts.map (·.accountNonce))
  have all : AllRecorded s → AllRecorded s' := fun h => h.same hl ha
  cases φ with
  | idle => exact all h
  | found row f => exact all h
  | ended => trivial
  | counted n => exact ⟨all h.1, fun g hg => (h.2 g (hl ▸ hg)).imp id (hr.symm ▸ id)⟩
  | freed r => exact ⟨all h.1, fun g hg => h.2 g (hl ▸ hg)⟩
  | working p row stage =>
    cases stage with
    | held => exact ⟨all h.1, hn ▸ h.2.1, fun g hg => h.2.2 g (hl ▸ hg)⟩
    | signed | marked => exact fun g hg => (h g (hl ▸ hg)).imp id (recorded g)
    | recorded | accepted | rejected | unanswered => exact all h

theorem map_nonce_stampAttempts (txHash status : String) (attempts : List TxAttempt) :
    (stampAttempts txHash status attempts).map (·.accountNonce) =
      attempts.map (·.accountNonce) := by
  simp only [stampAttempts, List.map_map]
  refine List.map_congr_left fun a _ => ?_
  simp only [Function.comp_apply]
  split <;> rfl

/-- A settled phase has every signature in the books. -/
theorem NoncesIn.all {φ : Phase} {s : State} (h : NoncesIn s φ) (hφ : φ.settled = true) :
    AllRecorded s := by
  cases φ with
  | idle => exact h
  | counted n => exact h.1
  | found row f => exact h
  | freed r => cases hφ
  | ended => cases hφ
  | working p row stage =>
    cases stage with
    | held | signed | marked => cases hφ
    | recorded | accepted | rejected | unanswered => exact h

/-- A row is released only when every signature is in the books. -/
theorem Falls.all {φ : Phase} {s : State} {r : SpendRow} (h : Falls s r φ) (hn : NoncesIn s φ) :
    AllRecorded s := by
  cases h with
  | held => exact hn.1
  | rejected => exact hn
  | reverted | lapsed | neverSigned => exact hn
  | unsentSweep | lostSweep => exact hn

theorem nonces_step (hcount : ∀ s c, env s c → CountsPastSignatures i s c)
    (hok : ∀ s call script, ok s call script → AllRecorded s) {φ φ' : Phase} {s s' : State}
    (hsigned : Signed i φ s) (hfree : CollisionFree i s'.log) (h : NoncesKept φ s)
    (hstep : Step i env ok (φ, s) (φ', s')) : NoncesKept φ' s' := by
  cases hstep with
  | receive call script hφ hcall => exact h.same rfl rfl fun g hg => hok s call script hcall g hg
  | finish => exact h.same rfl rfl trivial
  | settle hφ => exact h.same rfl rfl (h.phase.all hφ)
  | @pass _ _ c log ts seq he hlog hts hseq =>
    have hl : signatures log = signatures s.log := by
      rcases hlog with rfl | ⟨e, hp, rfl⟩
      · rfl
      · exact hp.signatures s.log
    exact h.same hl rfl (h.phase.same hl rfl rfl rfl)
  | stamp txHash status he =>
    exact h.same rfl rfl (h.phase.same rfl (map_nonce_stampAttempts _ _ _) rfl rfl)
  | find he hφ hrow hlive hs =>
    refine h.same rfl rfl (AllRecorded.same (h.phase.all ?_) rfl rfl)
    rcases hφ with rfl | ⟨f', rfl⟩ <;> rfl
  | count he hboot ha =>
    exact h.same rfl rfl ⟨h.phase, hcount _ _ he hboot _ ha⟩
  | @setNext _ c n live he hlive =>
    refine ⟨h.once, fun g hg => ?_, h.phase.1⟩
    rcases h.phase.2 g hg with hlt | ⟨r, hr, hl, hle⟩
    · exact hlt.trans_le (le_max_left _ _)
    · have hmem : r ∈ live := hlive.mem_iff.mpr (List.mem_filter.mpr ⟨hr, hl⟩)
      have := le_highestNonce hmem
      exact (Int.lt_add_one_of_le (hle.trans this)).trans_le (le_max_right _ _)
  | @grant _ c p row rows ts seq cut he hj hfit hcut hshown hts hseq hplace hbind =>
    have hn := hplace.nonce_eq
    refine ⟨h.once, fun g hg => ?_, h.phase, ?_, fun g hg => hn.symm ▸ h.below g hg⟩
    · have := h.below g hg
      show g.tx.nonce < s.next + 1
      omega
    · show row.accountNonce < s.next + 1
      omega
  | @sign _ c p row he =>
    obtain ⟨hall, hnext, hbelow⟩ := h.phase
    have hnew : (p.tx i row).nonce = row.accountNonce := tx_nonce p row
    refine ⟨fun g hg g' hg' heq => ?_, fun g hg => ?_, fun g hg => ?_⟩
    · rcases List.mem_cons.mp hg with rfl | hg <;> rcases List.mem_cons.mp hg' with rfl | hg'
      · rfl
      · have := hbelow g' hg'
        simp only [hnew] at heq
        omega
      · have := hbelow g hg
        simp only [hnew] at heq
        omega
      · exact h.once g hg g' hg' heq
    · rcases List.mem_cons.mp hg with rfl | hg
      · exact hnew.symm ▸ hnext
      · exact h.below g hg
    · rcases List.mem_cons.mp hg with rfl | hg
      · exact .inl hnew
      · exact .inr (hall g hg)
  | balk e he => exact h.same rfl rfl ⟨h.phase.1.same rfl rfl, h.phase.2⟩
  | mark he => exact h.same rfl rfl h.phase
  | @record _ c p row sentAt seq he hnew hseq =>
    refine h.same rfl rfl fun g hg => ?_
    rcases h.phase g hg with heq | ⟨a, ha, hna⟩
    · exact ⟨_, mem_putAttempt.mpr (.inr rfl), heq.symm⟩
    · by_cases hhash : a.txHash = p.txHash i row
      · -- An attempt under the new hash is for the same transaction, so it carries the same nonce.
        obtain ⟨g₀, hg₀, hh₀, -, hn₀⟩ := hsigned.attempts a ha
        obtain ⟨t, ht⟩ := hsigned.phase.2 (by decide)
        have htx : g₀.tx = p.tx i row := hfree g₀ hg₀ _ ht (by rw [← hh₀, hhash, txHash_eq])
        refine ⟨_, mem_putAttempt.mpr (.inr rfl), ?_⟩
        rw [← hna, hn₀, htx, tx_nonce]
      · exact ⟨a, mem_putAttempt.mpr (.inl ⟨ha, hhash, (hnew a ha).ne⟩), hna⟩
  | @send _ c p row he =>
    refine h.same rfl rfl ?_
    have : AllRecorded { s.after c with
        log := .rpc (.sendRaw (p.raw i row)) (c.answer (.sendRaw (p.raw i row))) :: s.log } :=
      AllRecorded.same h.phase rfl rfl
    unfold Stage.after
    split <;> exact this
  | broadcast he => exact h.same rfl rfl (AllRecorded.same h.phase rfl rfl)
  | mine he hu => exact h.same rfl rfl (AllRecorded.same h.phase rfl rfl)
  | @kill _ _ c r reason he hr hfalls =>
    have hall := hfalls.all h.phase
    refine h.same rfl rfl ?_
    unfold Phase.released
    split
    · rename_i hunsigned
      refine ⟨hall.same rfl rfl, fun g hg heq => ?_⟩
      obtain ⟨a, ha, hna⟩ := hall g hg
      exact hunsigned.2 a ha (hna.trans heq)
    · exact hall.same rfl rfl
  | @giveBack _ c r he =>
    refine ⟨h.once, fun g hg => ?_, h.phase.1⟩
    have hlt := h.below g hg
    have hne := h.phase.2 g hg
    simp only
    split <;> omega

theorem nonces_initial : NoncesKept .ended (stateOf i .initial) where
  once _ h := absurd h List.not_mem_nil
  below _ h := absurd h List.not_mem_nil
  phase := trivial

/-! ### Runs -/

/-- In every run in which a call only comes in when the books hold every signed nonce, and boot
counts past the signed nonces, no nonce is handed out to a second transaction. -/
theorem nonces_once {status : Status} {w : World} (hfree : CollisionFree i w.log)
    (h : Reaches i (CountsPastSignatures i) (fun s _ _ => AllRecorded s) status w) :
    NoncesOnce w.log := by
  obtain ⟨φ, -, -, hkept⟩ := Reaches.invariant
    (I := fun φ s => Signed i φ s ∧ (CollisionFree i s.log → NoncesKept φ s)) h
    ⟨signed_initial, fun _ => nonces_initial⟩ fun _ _ _ _ hsound hI hstep =>
      ⟨signed_step hsound hI.1 hstep, fun hc =>
        nonces_step (fun _ _ he => he) (fun _ _ _ hok => hok) hI.1 hc (hI.2 (hc.before hstep)) hstep⟩
  exact (hkept hfree).once

section Sample

open EscrowSigner.Sample

/-- A debit is signed, the service restarts and counts one nonce, and another debit is signed. -/
def counted : List (Turn (signer unlimited "")) :=
  [boot { time := 0 : Outside }.script, debit 1 { time := 0 : Outside }.script, .restart,
    boot { time := 9, count := 1 : Outside }.script, debit 2 { time := 9, count := 1 : Outside }.script]

/-- The broadcast of the first debit is rejected, and boot counts no nonce. -/
def rejected : List (Turn (signer unlimited "")) :=
  [boot { time := 0 : Outside }.script,
    debit 1 { time := 0, sendRaw := .error (.reverted "") : Outside }.script, .restart,
    boot { time := 9 : Outside }.script, debit 2 { time := 9, baseFee := 2 : Outside }.script]

/-- The pending count that a choice answers. -/
def pendingCount (c : Choice) : Option Int := (c.answer (.transactionCount address "pending")).toOption

theorem countsPastSignatures_of_pendingCount {caps : Caps} {sweepTo : String} {s : State} {c : Choice}
    (h : request s.log = some .boot →
      ∀ n ∈ pendingCount c, ∀ g ∈ signatures s.log, Passed s n g.tx.nonce) :
    CountsPastSignatures (signer caps sweepTo) s c :=
  fun hboot n hn => h hboot n (congrArg Except.toOption hn)

/-- Two debits, with a restart and a truthful count between them, carry two nonces. -/
theorem nonces_once_after_restart : ∃ w : World,
    (signatures w.log).map (·.tx.nonce) = [1, 0] ∧ NoncesOnce w.log := by
  obtain ⟨status, w, hw, hnonces, hfree⟩ := Reach.exists_of_play (Q := fun _ => True)
    (E := fun w c => request w.log = some .boot → ∀ n ∈ pendingCount c,
      ∀ g ∈ signatures w.log, Passed (stateOf (signer unlimited "") w) n g.tx.nonce)
    (K := fun w _ _ => AllRecorded (stateOf (signer unlimited "") w))
    (P := fun _ w => (signatures w.log).map (·.tx.nonce) = [1, 0] ∧
      ((signatures w.log).map fun g => txHashOf (signer unlimited "") g.tx).Nodup)
    counted (fun _ _ _ _ => trivial) (by decide +kernel)
  refine ⟨w, hnonces, nonces_once (collisionFree_of_nodup hfree) (hw.mono ?_ fun _ _ _ h => h)⟩
  exact fun _ _ h => countsPastSignatures_of_pendingCount h.1

/-- After a rejected broadcast boot hands the signed nonce out again, although its count is
truthful. -/
theorem nonces_not_once : ∃ status w, Reaches (signer unlimited "")
    (CountsTruly (signer unlimited "")) (fun s _ _ => AllRecorded s) status w ∧
      ¬ NoncesOnce w.log := by
  have hQ : ∀ turn ∈ rejected, ∀ c ∈ turn.choices, ∃ o : Outside, c = o.choice ∧
      o.chain.nonce ≤ o.count := by
    simp only [rejected, List.forall_mem_cons, Turn.choices, Sample.boot, debit]
    exact ⟨Outside.forall_script ⟨_, rfl, le_rfl⟩, Outside.forall_script ⟨_, rfl, le_rfl⟩,
      List.forall_mem_nil _, Outside.forall_script ⟨_, rfl, le_rfl⟩,
      Outside.forall_script ⟨_, rfl, le_rfl⟩, List.forall_mem_nil _⟩
  obtain ⟨status, w, hw, g, hg, g', hg', hnonce, hfee⟩ := Reach.exists_of_play
    (E := fun w c => w.chain.nonce ≤ c.chain.nonce)
    (K := fun w _ _ => AllRecorded (stateOf (signer unlimited "") w))
    (P := fun _ w => ∃ g ∈ signatures w.log, ∃ g' ∈ signatures w.log,
      g.tx.nonce = g'.tx.nonce ∧ g.tx.maxFeePerGas ≠ g'.tx.maxFeePerGas)
    rejected hQ (by decide +kernel)
  refine ⟨status, w, hw.mono ?_ fun _ _ _ h => h, fun honce => hfee ?_⟩
  · rintro w₁ c ⟨hmono, o, rfl, hcount⟩
    exact Outside.countsTruly hcount hmono
  · rw [honce g hg g' hg' hnonce]

end Sample

end EscrowSigner.Machine
