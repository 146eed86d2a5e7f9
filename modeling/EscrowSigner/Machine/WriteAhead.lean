import EscrowSigner.Machine.Nonces

/-! Write-ahead: what the key signs is reserved in the committed books, what is sent is signed there
with its attempt, and so the books know every transaction that may have left the process. -/

namespace EscrowSigner.Machine

open Policy

variable {i : Instance} {env : State → Choice → Prop} {ok : State → Call → List Choice → Prop}

/-! ### Attempts of what was sent -/

/-- The raw transactions that a log sends. -/
def sent : List Event → List Bytes
  | [] => []
  | .rpc (.sendRaw raw) _ :: log => raw :: sent log
  | _ :: log => sent log

theorem Passive.sent {c : Choice} {e : Event} (h : Passive c e) (log : List Event) :
    sent (e :: log) = sent log := by
  cases h with
  | clock => rfl
  | rpc q hq =>
    cases q with
    | sendRaw raw => cases hq
    | _ => rfl

/-- The hash under which a raw transaction is booked. -/
def rawHash (i : Instance) (raw : Bytes) : String := hexString (i.ext.keccak raw)

/-- An attempt for the row of a plan, at its nonce. -/
def Attempted (i : Instance) (s : State) (p : Plan) (row : SpendRow) : Prop :=
  ∃ a ∈ s.attempts, a.txHash = p.txHash i row ∧ a.key = row.key ∧ a.accountNonce = row.accountNonce

/-- What a phase knows of the attempts. -/
def AttemptedIn (i : Instance) (s : State) : Phase → Prop
  | .working p row stage =>
    match stage with
    | .held | .signed | .marked => True
    | .recorded | .accepted | .rejected | .unanswered => Attempted i s p row
  | .idle | .counted _ | .found .. | .freed _ | .ended => True

/-- The books hold an attempt for everything that was sent. -/
structure SentKnown (i : Instance) (φ : Phase) (s : State) : Prop where
  sent : ∀ raw ∈ sent s.log, ∃ a ∈ s.attempts, a.txHash = rawHash i raw
  phase : AttemptedIn i s φ

/-- Attempts that keep hash, key and nonce. -/
theorem AttemptedIn.keep {φ : Phase} {s s' : State} (h : AttemptedIn i s φ)
    (ha : ∀ a ∈ s.attempts, ∃ b ∈ s'.attempts,
      b.txHash = a.txHash ∧ b.key = a.key ∧ b.accountNonce = a.accountNonce) :
    AttemptedIn i s' φ := by
  have keep : ∀ p row, Attempted i s p row → Attempted i s' p row := by
    rintro p row ⟨a, hmem, hhash, hkey, hnonce⟩
    obtain ⟨b, hb, hbhash, hbkey, hbnonce⟩ := ha a hmem
    exact ⟨b, hb, hbhash.trans hhash, hbkey.trans hkey, hbnonce.trans hnonce⟩
  cases φ with
  | idle | counted | found | freed | ended => trivial
  | working p row stage =>
    cases stage with
    | held | signed | marked => trivial
    | recorded | accepted | rejected | unanswered => exact keep p row h

theorem SentKnown.same {φ φ' : Phase} {s s' : State} (h : SentKnown i φ s)
    (hl : Machine.sent s'.log = Machine.sent s.log) (ha : s'.attempts = s.attempts)
    (hφ : AttemptedIn i s' φ') : SentKnown i φ' s' :=
  ⟨fun raw hraw => ha ▸ h.sent raw (hl ▸ hraw), hφ⟩

theorem sentKnown_step {φ φ' : Phase} {s s' : State} (hsound : Sound i φ s)
    (h : SentKnown i φ s) (hstep : Step i env ok (φ, s) (φ', s')) : SentKnown i φ' s' := by
  have own : ∀ a ∈ s.attempts, ∃ b ∈ s.attempts,
      b.txHash = a.txHash ∧ b.key = a.key ∧ b.accountNonce = a.accountNonce :=
    fun a ha => ⟨a, ha, rfl, rfl, rfl⟩
  cases hstep with
  | receive | finish | settle => exact h.same rfl rfl trivial
  | pass he hlog hts hseq =>
    refine h.same ?_ rfl (h.phase.keep own)
    rcases hlog with rfl | ⟨e, hp, rfl⟩
    · rfl
    · exact hp.sent s.log
  | stamp txHash status he =>
    have stamped : ∀ a ∈ s.attempts, ∃ b ∈ stampAttempts txHash status s.attempts,
        b.txHash = a.txHash ∧ b.key = a.key ∧ b.accountNonce = a.accountNonce := by
      intro a ha
      refine ⟨_, List.mem_map_of_mem ha, ?_⟩
      split <;> exact ⟨rfl, rfl, rfl⟩
    refine ⟨fun raw hraw => ?_, h.phase.keep stamped⟩
    obtain ⟨a, ha, hhash⟩ := h.sent raw hraw
    obtain ⟨b, hb, hbhash, -⟩ := stamped a ha
    exact ⟨b, hb, hbhash.trans hhash⟩
  | find he hφ hrow hlive hs =>
    refine h.same ?_ rfl trivial
    cases hs <;> rfl
  | count | setNext | grant | balk | broadcast | mine | giveBack => exact h.same rfl rfl trivial
  | sign he => exact h.same rfl rfl trivial
  | mark he => exact h.same rfl rfl trivial
  | @record _ c p row sentAt seq he hnew hseq =>
    refine ⟨fun raw hraw => ?_, _, mem_putAttempt.mpr (.inr rfl), rfl, rfl, rfl⟩
    obtain ⟨a, ha, hhash⟩ := h.sent raw hraw
    by_cases heq : a.txHash = p.txHash i row
    · exact ⟨_, mem_putAttempt.mpr (.inr rfl), heq.symm.trans hhash⟩
    · exact ⟨a, mem_putAttempt.mpr (.inl ⟨ha, heq, (hnew a ha).ne⟩), hhash⟩
  | @send _ c p row he =>
    refine ⟨fun raw hraw => ?_, ?_⟩
    · rcases List.mem_cons.mp hraw with rfl | hraw
      · obtain ⟨a, ha, hhash, -⟩ := h.phase
        exact ⟨a, ha, hhash⟩
      · exact h.sent raw hraw
    · have hφ : Attempted i s p row := h.phase
      unfold Stage.after
      split <;> exact hφ
  | kill reason he hr hfalls =>
    refine h.same rfl rfl ?_
    unfold Phase.released
    split <;> trivial

theorem sentKnown_initial : SentKnown i .ended (stateOf i .initial) where
  sent _ h := absurd h List.not_mem_nil
  phase := trivial

/-! ### The books before an event -/

/-- The books hold the row of a signature: reserved, with the numbers of the transaction. -/
structure ReservedFor (w : World) (row : SpendRow) (tx : Tx) : Prop where
  mem : row ∈ w.tables.spend.rows
  state : row.state = .reserved
  nonce : row.accountNonce = tx.nonce
  gas : row.gasLimit = tx.gas
  fee : row.maxFeeWei = tx.maxFeePerGas

/-- The books hold what is sent: the signature's row, signed, with the hash and with an attempt at
the nonce of the transaction. -/
def SignedFor (i : Instance) (w : World) (raw : Bytes) : Prop :=
  ∃ g ∈ signatures w.log, raw = i.ext.signTransaction g.tx ∧
    ∃ r ∈ w.tables.spend.rows, r.key = g.row.key ∧ r.state = .signed ∧ r.txHash = rawHash i raw ∧
      ∃ a ∈ w.tables.txAttempt, a.key = r.key ∧ a.txHash = rawHash i raw ∧
        a.accountNonce = g.tx.nonce

/-- What the books hold before an event. -/
def Ahead (i : Instance) (w : World) : Event → Prop
  | .sign row _ tx _ => ReservedFor w row tx
  | .rpc (.sendRaw raw) _ => SignedFor i w raw
  | _ => True

theorem Serves.tx_gas {p : Plan} {row : SpendRow} (h : Serves i p row) :
    row.gasLimit = (p.tx i row).gas := by
  rw [h.gasLimit]
  cases p <;> rfl

theorem Serves.tx_fee {p : Plan} {row : SpendRow} (h : Serves i p row) :
    row.maxFeeWei = (p.tx i row).maxFeePerGas := by
  rw [h.maxFeeWei]
  cases p <;> rfl

/-- An event that the phase covers finds the books ready for it. -/
theorem Covered.ahead {φ : Phase} {w : World} {e : Event} (h : Covered i φ e)
    (hsound : Sound i φ (stateOf i w)) (hsigned : Signed i φ (stateOf i w))
    (hknown : SentKnown i φ (stateOf i w)) : Ahead i w e := by
  cases e with
  | call | clock => trivial
  | sign row t tx r =>
    obtain ⟨p, rfl, rfl⟩ := h
    obtain ⟨-, hstate, hrow⟩ := hsound.phase
    exact ⟨hrow, hstate, (tx_nonce p row).symm, hsigned.phase.1.tx_gas, hsigned.phase.1.tx_fee⟩
  | rpc q answer =>
    cases q with
    | sendRaw raw =>
      obtain ⟨p, row, rfl, rfl⟩ := h
      obtain ⟨t, ht⟩ := hsigned.phase.2 (by decide)
      obtain ⟨a, ha, hhash, hkey, hnonce⟩ := hknown.phase
      exact ⟨_, ht, rfl, _, hsound.phase.2.2, rfl, rfl, rfl, a, ha, hkey, hhash,
        hnonce.trans (tx_nonce p row).symm⟩
    | _ => trivial

/-! ### Runs -/

/-- From a world where a call can come in, the next event of any execution of any call finds the
books ready for it. -/
theorem Reaches.ahead {w : World} (h : Reaches i (fun _ _ => True) (fun _ _ _ => True) .running w)
    {call : Call} {script : List Choice} {c : Choice} {e : Event}
    (hstop : (execute i call script w).1 = .stopped)
    (he : (execute i call (script ++ [c]) w).2.log = e :: (execute i call script w).2.log) :
    Ahead i (execute i call script w).2 e := by
  obtain ⟨φ, hat, hφ⟩ := h.left
  have hserve := At.serve (c := call) (hat.receive script hφ trivial) rfl
  obtain ⟨φ', hrun, hcov, -⟩ := Process.Wp.run_next hserve
    (Process.admits_true _ script _) hstop
  have hsigned : Signed i φ' (stateOf i (execute i call script w).2) ∧
      SentKnown i φ' (stateOf i (execute i call script w).2) :=
    (Runs.invariant (I := fun φ s => Sound i φ s ∧ Signed i φ s ∧ SentKnown i φ s) hrun
      ⟨sound_initial i, signed_initial, sentKnown_initial⟩ fun _ _ _ _ hI hstep =>
        ⟨sound_step hI.1 hstep, signed_step hI.1 hI.2.1 hstep,
          sentKnown_step hI.1 hI.2.2 hstep⟩).2
  exact (hcov c e trivial he).ahead (sound_run hrun (sound_initial i)) hsigned.1 hsigned.2

/-- At every point where the service can be stopped, what it is about to sign is reserved, what it is
about to send is signed with its attempt, and an attempt stands for all that was sent. -/
theorem written_ahead {status : Status} {w : World}
    (h : Reaches i (fun _ _ => True) (fun _ _ _ => True) status w) :
    (∀ raw ∈ sent w.log, ∃ a ∈ w.tables.txAttempt, a.txHash = rawHash i raw) ∧
    (status = .running → ∀ call script c e, (execute i call script w).1 = .stopped →
      (execute i call (script ++ [c]) w).2.log = e :: (execute i call script w).2.log →
        Ahead i (execute i call script w).2 e) := by
  obtain ⟨φ, -, hknown⟩ := Reaches.invariant (I := SentKnown i) h sentKnown_initial
    fun _ _ _ _ hsound hI hstep => sentKnown_step hsound hI hstep
  refine ⟨hknown.sent, ?_⟩
  rintro rfl call script c e
  exact h.ahead

section Sample

open EscrowSigner.Sample

/-- A debit is signed and sent. -/
theorem written_ahead_of_debit : ∃ w : World, sent w.log ≠ [] ∧
    (∀ raw ∈ sent w.log, ∃ a ∈ w.tables.txAttempt, a.txHash = rawHash (signer unlimited "") raw) ∧
    ∀ call script c e, (execute (signer unlimited "") call script w).1 = .stopped →
      (execute (signer unlimited "") call (script ++ [c]) w).2.log =
        e :: (execute (signer unlimited "") call script w).2.log →
      Ahead (signer unlimited "") (execute (signer unlimited "") call script w).2 e := by
  obtain ⟨status, w, hw, hrunning, hsent⟩ := Reach.exists_of_play (Q := fun _ => True)
    (E := fun _ _ => True) (K := fun _ _ _ => True)
    (P := fun status w => status = .running ∧ sent w.log ≠ [])
    [boot { time := 0 : Outside }.script, debit 1 { time := 0 : Outside }.script]
    (i := signer unlimited "") (fun _ _ _ _ => trivial) (by decide +kernel)
  obtain ⟨hknown, hahead⟩ := written_ahead (hw.mono (fun _ _ _ => trivial) fun _ _ _ h => h)
  exact ⟨w, hsent, hknown, hahead hrunning⟩

end Sample

end EscrowSigner.Machine
