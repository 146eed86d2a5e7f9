import EscrowSigner.Machine.Refinement

/-! Signatures: where they come from.  Every signature is for a plan that rests on a request or on
the timer, every attempt in the books is for a signature, and a row keeps what its first plan wrote
under its key. -/

namespace EscrowSigner.Machine

open Policy

variable {i : Instance} {env : State → Choice → Prop} {ok : State → Call → List Choice → Prop}

/-! ### Signatures in the log -/

/-- A signature: the row that it is for, the time, and the transaction. -/
structure Signature where
  row : SpendRow
  instant : Nat
  tx : Tx
deriving DecidableEq

/-- The signatures of a log, newest first. -/
def signatures : List Event → List Signature
  | [] => []
  | .sign row t tx (.ok _) :: log => ⟨row, t, tx⟩ :: signatures log
  | _ :: log => signatures log

@[simp] theorem signatures_call (c : Call) (log : List Event) :
    signatures (.call c :: log) = signatures log := rfl

@[simp] theorem signatures_clock (t : Nat) (log : List Event) :
    signatures (.clock t :: log) = signatures log := rfl

@[simp] theorem signatures_rpc (q : Query) (a : Except Exn q.Answer) (log : List Event) :
    signatures (.rpc q a :: log) = signatures log := rfl

@[simp] theorem signatures_sign_ok (row : SpendRow) (t : Nat) (tx : Tx) (raw : Bytes)
    (log : List Event) :
    signatures (.sign row t tx (.ok raw) :: log) = ⟨row, t, tx⟩ :: signatures log := rfl

@[simp] theorem signatures_sign_error (row : SpendRow) (t : Nat) (tx : Tx) (e : Exn)
    (log : List Event) : signatures (.sign row t tx (.error e) :: log) = signatures log := rfl

theorem Passive.signatures {c : Choice} {e : Event} (h : Passive c e) (log : List Event) :
    signatures (e :: log) = signatures log := by
  cases h <;> rfl

/-- The hash of the signed transaction. -/
def txHashOf (i : Instance) (tx : Tx) : String :=
  hexString (i.ext.keccak (i.ext.signTransaction tx))

/-- No two transactions that were signed have one hash. -/
def CollisionFree (i : Instance) (log : List Event) : Prop :=
  ∀ g ∈ signatures log, ∀ g' ∈ signatures log, txHashOf i g.tx = txHashOf i g'.tx → g.tx = g'.tx

theorem collisionFree_of_nodup {i : Instance} {log : List Event}
    (h : ((signatures log).map fun g => txHashOf i g.tx).Nodup) : CollisionFree i log :=
  fun _ hg _ hg' heq => congrArg Signature.tx (List.inj_on_of_nodup_map h hg hg' heq)

/-! ### What stands behind rows, attempts and signatures -/

/-- What a plan rests on apart from what its call read. -/
def Sincere (i : Instance) : Plan → Prop
  | .debit body env call _ _ =>
    parseEnvelope i body = .ok env ∧ Calldata.decodeDebit i.ext env.data = .ok call ∧
      0 < call.amount
  | .expire body env call _ =>
    parseEnvelope i body = .ok env ∧ Calldata.decodeExpire i.ext env.data = .ok call
  | .sweep recipient balance data receipt _ =>
    Calldata.encodeTransfer i.ext recipient balance = .ok data ∧
      ∃ time, sweepReceipt i recipient time balance = .ok receipt

/-- A row holds what a plan wrote under its key. -/
structure Origin (i : Instance) (p : Plan) (r : SpendRow) : Prop where
  sincere : Sincere i p
  key : r.key = (p.request i).key
  tuple : r.semanticTuple = tupleOf (p.request i)
  deadline : r.deadline = (p.request i).deadline

/-- A row is reserved for a plan: the one that wrote it, or one that revived it. -/
structure Serves (i : Instance) (p : Plan) (r : SpendRow) : Prop where
  sincere : Sincere i p
  key : r.key = (p.request i).key
  amount : r.amountUnits = (p.request i).amountUnits
  gasLimit : r.gasLimit = (p.request i).gasLimit
  maxFeeWei : r.maxFeeWei = (p.request i).maxFeeWei
  same : p.isDebit = true → r.semanticTuple = tupleOf (p.request i)
  origin : ∃ p', Origin i p' r

/-- What the phase adds: the plan in progress and its signature. -/
def SignedIn (i : Instance) (s : State) : Phase → Prop
  | .working p row stage => Serves i p row ∧
    (stage ≠ .held → ∃ t, ⟨row, t, p.tx i row⟩ ∈ signatures s.log)
  | .idle | .counted _ | .found .. | .freed _ | .ended => True

/-- Rows, attempts and signatures rest on plans. -/
structure Signed (i : Instance) (φ : Phase) (s : State) : Prop where
  rows : ∀ r ∈ s.rows, ∃ p, Origin i p r
  attempts : ∀ a ∈ s.attempts, ∃ g ∈ signatures s.log, a.txHash = txHashOf i g.tx ∧
    a.key = g.row.key ∧ a.accountNonce = g.tx.nonce
  signatures : ∀ g ∈ signatures s.log, ∃ p, Serves i p g.row ∧ g.tx = p.tx i g.row
  phase : SignedIn i s φ

@[simp] theorem tx_nonce (p : Plan) (row : SpendRow) : (p.tx i row).nonce = row.accountNonce := by
  cases p <;> rfl

theorem txHash_eq (p : Plan) (row : SpendRow) : p.txHash i row = txHashOf i (p.tx i row) := rfl

theorem Justified.sincere {p : Plan} {log : List Event} {cut : Int} {rows : List SpendRow}
    (h : Justified i log p) (hfit : Fits i cut rows p) : Sincere i p := by
  cases p with
  | debit body env call channel fees => exact ⟨h.envelope, h.decoded, hfit.1⟩
  | expire body env call fees => exact ⟨h.envelope, h.decoded⟩
  | sweep recipient balance data receipt fees =>
    obtain ⟨instant, -, hlabel⟩ := h.labelled
    exact ⟨h.encoded, _, hlabel⟩

/-- What a change of a row keeps of it for good. -/
structure KeepsOrigin (f : SpendRow → SpendRow) : Prop where
  key : ∀ r, (f r).key = r.key
  tuple : ∀ r, (f r).semanticTuple = r.semanticTuple
  deadline : ∀ r, (f r).deadline = r.deadline

theorem Origin.keep {p : Plan} {r : SpendRow} {f : SpendRow → SpendRow} (h : Origin i p r)
    (hf : KeepsOrigin f) : Origin i p (f r) :=
  ⟨h.sincere, (hf.key r).trans h.key, (hf.tuple r).trans h.tuple,
    (hf.deadline r).trans h.deadline⟩

theorem keepsOrigin_revived (p : Plan) (seq ts nonce : Int) :
    KeepsOrigin (p.revived i seq ts nonce) := by
  cases p <;> exact ⟨fun _ => rfl, fun _ => rfl, fun _ => rfl⟩

/-- The row of a reservation serves its plan. -/
theorem Places.serves {p : Plan} {seq ts nonce : Int} {rows rows' : List SpendRow} {row : SpendRow}
    (h : Places i p seq ts nonce rows rows' row) (hp : Sincere i p)
    (ho : ∀ r ∈ rows, ∃ p, Origin i p r) : Serves i p row := by
  cases h with
  | fresh head hkey =>
    exact ⟨hp, rfl, rfl, rfl, rfl, fun _ => rfl, p, hp, rfl, rfl, rfl⟩
  | revived r hr hkey hdead hamount hsame =>
    obtain ⟨p', hp'⟩ := ho r hr
    have hkeep := keepsOrigin_revived (i := i) p seq ts nonce
    refine ⟨hp, (hkeep.key r).trans hkey, (revived_amountUnits p seq ts nonce r).trans hamount,
      ?_, ?_, fun hd => (hkeep.tuple r).trans (hsame hd), p', hp'.keep hkeep⟩ <;>
    cases p <;> rfl

theorem Signed.mapRow {φ' : Phase} {φ : Phase} {s : State} {c : Choice} {k : Key}
    {f : SpendRow → SpendRow} (h : Signed i φ s) (hf : KeepsOrigin f)
    (hφ : SignedIn i { s.after c with rows := EscrowSigner.mapRow k f s.rows } φ') :
    Signed i φ' { s.after c with rows := EscrowSigner.mapRow k f s.rows } where
  rows r hr := by
    obtain ⟨r', hr', ⟨-, rfl⟩ | ⟨-, rfl⟩⟩ := mem_mapRow.mp hr
    · obtain ⟨p, hp⟩ := h.rows r' hr'
      exact ⟨p, hp.keep hf⟩
    · exact h.rows _ hr'
  attempts := h.attempts
  signatures := h.signatures
  phase := hφ

/-- A step that leaves the rows alone and signs nothing. -/
theorem Signed.same {φ φ' : Phase} {s s' : State} (h : Signed i φ s) (hr : s'.rows = s.rows)
    (ha : ∀ a ∈ s'.attempts, ∃ b ∈ s.attempts,
      a.txHash = b.txHash ∧ a.key = b.key ∧ a.accountNonce = b.accountNonce)
    (hl : Machine.signatures s'.log = Machine.signatures s.log) (hφ : SignedIn i s' φ') :
    Signed i φ' s' where
  rows r hr' := h.rows r (hr ▸ hr')
  attempts a ha' := by
    obtain ⟨b, hb, h₁, h₂, h₃⟩ := ha a ha'
    rw [hl, h₁, h₂, h₃]
    exact h.attempts b hb
  signatures g hg := h.signatures g (hl ▸ hg)
  phase := hφ

theorem SignedIn.same {φ : Phase} {s s' : State} (h : SignedIn i s φ)
    (hl : signatures s'.log = signatures s.log) : SignedIn i s' φ := by
  cases φ with
  | working p row stage => exact ⟨h.1, fun hs => hl ▸ h.2 hs⟩
  | idle | counted | found | freed | ended => trivial

theorem signed_step {φ φ' : Phase} {s s' : State} (hsound : Sound i φ s) (h : Signed i φ s)
    (hstep : Step i env ok (φ, s) (φ', s')) : Signed i φ' s' := by
  have own : ∀ a ∈ s.attempts, ∃ b ∈ s.attempts,
      a.txHash = b.txHash ∧ a.key = b.key ∧ a.accountNonce = b.accountNonce :=
    fun a ha => ⟨a, ha, rfl, rfl, rfl⟩
  have apply_keeps : ∀ (u : Ledger.RowUpdates) (state : RowState), KeepsOrigin (u.apply state) :=
    fun _ _ => ⟨fun _ => rfl, fun _ => rfl, fun _ => rfl⟩
  cases hstep with
  | receive call script hφ hok => exact h.same rfl own rfl trivial
  | finish => exact h.same rfl own rfl trivial
  | settle hφ => exact h.same rfl own rfl trivial
  | @pass _ _ c log ts seq he hlog hts hseq =>
    have hl : Machine.signatures log = Machine.signatures s.log := by
      rcases hlog with rfl | ⟨e, hp, rfl⟩
      · rfl
      · exact hp.signatures s.log
    exact h.same rfl own hl (h.phase.same hl)
  | stamp txHash status he =>
    refine h.same rfl (fun a ha => ?_) rfl (h.phase.same rfl)
    obtain ⟨b, hb, hab⟩ := mem_stampAttempts ha
    exact ⟨b, hb, by rw [hab], by rw [hab]; rfl, by rw [hab]⟩
  | find he hφ hrow hlive hs => exact h.same rfl own rfl trivial
  | count he hboot ha => exact h.same rfl own rfl trivial
  | setNext he hlive => exact h.same rfl own rfl trivial
  | @grant _ c p row rows ts seq cut he hj hfit hcut hshown hts hseq hplace hbind =>
    have hserves := hplace.serves (hj.sincere hfit) h.rows
    refine ⟨fun r hr => ?_, h.attempts, h.signatures, hserves, fun hs => absurd rfl hs⟩
    rcases (hplace.mem hsound.keys).mp hr with rfl | ⟨hr, -⟩
    · exact hserves.origin
    · exact h.rows r hr
  | @sign _ c p row he =>
    refine ⟨h.rows, fun a ha => ?_, fun g hg => ?_, h.phase.1, fun _ => ⟨c.now, by simp⟩⟩
    · obtain ⟨g, hg, hrest⟩ := h.attempts a ha
      exact ⟨g, List.mem_cons_of_mem _ hg, hrest⟩
    · rcases List.mem_cons.mp hg with rfl | hg
      · exact ⟨p, h.phase.1, rfl⟩
      · exact h.signatures g hg
  | balk e he => exact h.same rfl own rfl ⟨h.phase.1, fun hs => absurd rfl hs⟩
  | mark he =>
    exact h.mapRow ⟨fun _ => rfl, fun _ => rfl, fun _ => rfl⟩
      ⟨h.phase.1, fun _ => h.phase.2 (by decide)⟩
  | @record _ c p row sentAt seq he hnew hseq =>
    obtain ⟨t, ht⟩ := h.phase.2 (by decide)
    refine ⟨h.rows, fun a ha => ?_, h.signatures, h.phase.1, fun _ => ⟨t, ht⟩⟩
    rcases mem_putAttempt.mp ha with ⟨ha, -⟩ | rfl
    · exact h.attempts a ha
    · exact ⟨_, ht, rfl, rfl, (tx_nonce p row).symm⟩
  | @send _ c p row he =>
    exact h.same rfl own rfl ⟨h.phase.1, fun _ => h.phase.2 (by decide)⟩
  | broadcast he => exact h.mapRow ⟨fun _ => rfl, fun _ => rfl, fun _ => rfl⟩ trivial
  | mine he hu => exact h.mapRow (apply_keeps _ _) trivial
  | kill reason he hr hfalls =>
    refine h.mapRow ⟨fun _ => rfl, fun _ => rfl, fun _ => rfl⟩ ?_
    unfold Phase.released
    split <;> trivial
  | giveBack he => exact h.same rfl own rfl trivial

theorem signed_initial : Signed i .ended (stateOf i .initial) where
  rows _ h := absurd h List.not_mem_nil
  attempts _ h := absurd h List.not_mem_nil
  signatures _ h := absurd h List.not_mem_nil
  phase := trivial

end EscrowSigner.Machine
