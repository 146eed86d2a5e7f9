import EscrowSigner.Machine.Doors

/-! Answers: a request that is answered with 200 names a transaction that was signed for it and that
reached the chain, as long as a row is taken for signed or mined only when its transaction did. -/

namespace EscrowSigner.Machine

open Policy
open Calldata (DebitCall ExpireCall)

variable {i : Instance} {env : State → Choice → Prop} {ok : State → Call → List Choice → Prop}

/-! ### Transactions in the log -/

/-- A node accepted a transaction with a hash. -/
def Accepted (i : Instance) (log : List Event) (txHash : String) : Prop :=
  ∃ (raw : Bytes) (answer : String), .rpc (.sendRaw raw) (.ok answer) ∈ log ∧
    hexString (i.ext.keccak raw) = txHash

/-- A transaction was mined. -/
def Mined (chain : Chain) (txHash : String) : Prop := ∃ status, (txHash, status) ∈ chain.receipts

/-- A node accepted a transaction, or it was mined. -/
def OnChain (i : Instance) (s : State) (txHash : String) : Prop :=
  Accepted i s.log txHash ∨ Mined s.chain txHash

/-- A transaction with a hash was signed for a row with a key. -/
def SignedUnder (i : Instance) (log : List Event) (k : Key) (txHash : String) : Prop :=
  ∃ row t tx raw, .sign row t tx (.ok raw) ∈ log ∧ row.key = k ∧ txHashOf i tx = txHash

/-- A later state: the log has grown, and so has the chain. -/
structure Extends (s s' : State) : Prop where
  log : ∀ e ∈ s.log, e ∈ s'.log
  chain : ∀ x ∈ s.chain.receipts, x ∈ s'.chain.receipts

section Logs

variable {s s' : State} {log log' : List Event} {k : Key} {txHash : String}

theorem Extends.cons {c : Choice} {e : Event} {s' : State}
    (hchain : ∀ x ∈ s.chain.receipts, x ∈ c.chain.receipts) (hlog : s'.log = e :: s.log)
    (hc : s'.chain = c.chain) : Extends s s' :=
  ⟨fun _ h => hlog ▸ List.mem_cons_of_mem _ h, hc ▸ hchain⟩

theorem Extends.same {c : Choice} {s' : State}
    (hchain : ∀ x ∈ s.chain.receipts, x ∈ c.chain.receipts) (hlog : s'.log = s.log)
    (hc : s'.chain = c.chain) : Extends s s' :=
  ⟨fun _ h => hlog ▸ h, hc ▸ hchain⟩

theorem OnChain.mono (h : OnChain i s txHash) (hs : Extends s s') : OnChain i s' txHash := by
  rcases h with ⟨raw, answer, hmem, hhash⟩ | ⟨status, hmem⟩
  · exact .inl ⟨raw, answer, hs.log _ hmem, hhash⟩
  · exact .inr ⟨status, hs.chain _ hmem⟩

theorem SignedUnder.mono (h : SignedUnder i log k txHash) (hl : ∀ e ∈ log, e ∈ log') :
    SignedUnder i log' k txHash := by
  obtain ⟨row, t, tx, raw, hmem, hrest⟩ := h
  exact ⟨row, t, tx, raw, hl _ hmem, hrest⟩

theorem mem_signatures {g : Signature} :
    g ∈ signatures log ↔ ∃ raw, .sign g.row g.instant g.tx (.ok raw) ∈ log := by
  induction log with
  | nil => simp [signatures]
  | cons e log ih =>
    cases e with
    | call c => simp [ih]
    | clock t => simp [ih]
    | rpc q a => simp [ih]
    | sign row t tx r =>
      cases r with
      | error e => simp [ih]
      | ok raw =>
        simp only [signatures_sign_ok, List.mem_cons, ih, Event.sign.injEq, Except.ok.injEq]
        constructor
        · rintro (rfl | ⟨raw', h⟩)
          · exact ⟨raw, .inl ⟨rfl, rfl, rfl, rfl⟩⟩
          · exact ⟨raw', .inr h⟩
        · rintro ⟨raw', ⟨hrow, ht, htx, -⟩ | h⟩
          · exact .inl (by cases g; simp_all)
          · exact .inr ⟨raw', h⟩

theorem SignedUnder.of_mem {g : Signature} (hg : g ∈ signatures log) (hkey : g.row.key = k)
    (hhash : txHashOf i g.tx = txHash) : SignedUnder i log k txHash := by
  obtain ⟨raw, hmem⟩ := mem_signatures.mp hg
  exact ⟨g.row, g.instant, g.tx, raw, hmem, hkey, hhash⟩

theorem hexString_ne (data : Bytes) : hexString data ≠ "" := by
  intro h
  have hlist : (hexString data).toList = [] := by rw [h]; rfl
  simp at hlist

theorem SignedUnder.ne (h : SignedUnder i log k txHash) : txHash ≠ "" := by
  obtain ⟨row, t, tx, raw, -, -, rfl⟩ := h
  exact hexString_ne _

end Logs

/-! ### What the books hold -/

/-- The hash of a row names a transaction as far along as its state says. -/
def RowBacked (i : Instance) (s : State) (r : SpendRow) : Prop :=
  match r.state with
  | .reserved => r.txHash = ""
  | .signed => SignedUnder i s.log r.key r.txHash
  | .broadcast => SignedUnder i s.log r.key r.txHash ∧ OnChain i s r.txHash
  | .mined => (r.txHash = "" ∧ r.amountUnits ≠ 0) ∨
      (SignedUnder i s.log r.key r.txHash ∧ OnChain i s r.txHash)
  | .dead | .superseded => True

/-- What the phase adds: a broadcast that was accepted, and what the chain said about a row. -/
def PhaseBacked (i : Instance) (s : State) : Phase → Prop
  | .working p row .accepted => Accepted i s.log (p.txHash i row)
  | .found row .collected =>
    (row.txHash = "" → row.amountUnits ≠ 0) ∧ (row.txHash ≠ "" → OnChain i s row.txHash)
  | .found row (.mined txHash) => SignedUnder i s.log row.key txHash ∧ Mined s.chain txHash
  | _ => True

structure Backed (i : Instance) (φ : Phase) (s : State) : Prop where
  rows : ∀ r ∈ s.rows, RowBacked i s r
  phase : PhaseBacked i s φ

section Growth

variable {s s' : State} {φ φ' : Phase} {r : SpendRow} {c : Choice}

theorem RowBacked.mono (h : RowBacked i s r) (hs : Extends s s') : RowBacked i s' r := by
  unfold RowBacked at h ⊢
  cases hstate : r.state with
  | reserved =>
    rw [hstate] at h
    exact h
  | dead | superseded => trivial
  | signed =>
    simp only [hstate] at h ⊢
    exact h.mono hs.log
  | broadcast =>
    simp only [hstate] at h ⊢
    exact ⟨h.1.mono hs.log, h.2.mono hs⟩
  | mined =>
    simp only [hstate] at h ⊢
    exact h.imp_right fun h => ⟨h.1.mono hs.log, h.2.mono hs⟩

theorem PhaseBacked.mono (h : PhaseBacked i s φ) (hs : Extends s s') : PhaseBacked i s' φ := by
  cases φ with
  | idle | counted | freed | ended => trivial
  | found row f =>
    cases f with
    | unused | reverted => trivial
    | collected => exact ⟨h.1, fun hne => (h.2 hne).mono hs⟩
    | mined txHash =>
      obtain ⟨status, hmem⟩ := h.2
      exact ⟨h.1.mono hs.log, status, hs.chain _ hmem⟩
  | working p row stage =>
    cases stage with
    | held | signed | marked | recorded | rejected | unanswered => trivial
    | accepted =>
      obtain ⟨raw, answer, hmem, hhash⟩ := h
      exact ⟨raw, answer, hs.log _ hmem, hhash⟩

/-- A step that leaves the rows alone. -/
theorem Backed.same (h : Backed i φ s) (hr : s'.rows = s.rows) (hs : Extends s s')
    (hφ : PhaseBacked i s' φ') : Backed i φ' s' :=
  ⟨fun r hmem => (h.rows r (hr ▸ hmem)).mono hs, hφ⟩

theorem Backed.mapRow {k : Key} {f : SpendRow → SpendRow} (h : Backed i φ s)
    (hchain : ∀ x ∈ s.chain.receipts, x ∈ c.chain.receipts)
    (hf : ∀ r ∈ s.rows, r.key = k → RowBacked i s (f r)) (hφ : PhaseBacked i s φ') :
    Backed i φ' { s.after c with rows := EscrowSigner.mapRow k f s.rows } where
  rows r hr := by
    have hs : Extends s { s.after c with rows := EscrowSigner.mapRow k f s.rows } :=
      .same hchain rfl rfl
    obtain ⟨r', hr', ⟨hk, rfl⟩ | ⟨-, rfl⟩⟩ := mem_mapRow.mp hr
    · exact (hf r' hr' hk).mono hs
    · exact (h.rows _ hr').mono hs
  phase := hφ.mono (.same hchain rfl rfl)

/-- A live row that the chain says is collected. -/
theorem RowBacked.collected (h : RowBacked i s r) (hlive : r.state.live = true)
    (hc : (r.txHash = "" → r.amountUnits ≠ 0) ∧ (r.txHash ≠ "" → OnChain i s r.txHash)) :
    (r.txHash = "" ∧ r.amountUnits ≠ 0) ∨
      (SignedUnder i s.log r.key r.txHash ∧ OnChain i s r.txHash) := by
  unfold RowBacked at h
  cases hs : r.state with
  | reserved =>
    simp only [hs] at h
    exact .inl ⟨h, hc.1 h⟩
  | signed =>
    simp only [hs] at h
    exact .inr ⟨h, hc.2 h.ne⟩
  | broadcast =>
    simp only [hs] at h
    exact .inr h
  | mined | dead | superseded =>
    rw [hs] at hlive
    cases hlive

end Growth

/-! ### What the chain says -/

/-- What is mined stays mined, and the receipts that are shown are those of mined transactions. -/
structure TellsReceipts (s : State) (c : Choice) : Prop where
  lasting : ∀ x ∈ s.chain.receipts, x ∈ c.chain.receipts
  shown : ∀ txHash receipt, c.answer (.receipt txHash) = .ok receipt → receipt.truthy = true →
    Mined c.chain txHash

/-- The row that the chain says is collected has its transaction on the chain, and a row without a
transaction is that of a debit. -/
def CollectedKnown (i : Instance) (s : State) (c : Choice) : Prop :=
  ∀ r ∈ s.rows, r.state.live = true → ∀ receiptId,
    fromHex (r.receiptId.toList.drop 2) = .ok receiptId →
    c.answer (.receiptUsed i.escrow receiptId (channelBytes r.channelId)) = .ok true →
      (r.txHash = "" → r.amountUnits ≠ 0) ∧ (r.txHash ≠ "" → OnChain i (s.after c) r.txHash)

/-- A chain that answers truthfully about the transactions of this service. -/
structure Tells (i : Instance) (s : State) (c : Choice) : Prop where
  receipts : TellsReceipts s c
  collected : CollectedKnown i s c

theorem revived_txHash (p : Plan) (seq ts nonce : Int) (r : SpendRow) :
    (p.revived i seq ts nonce r).txHash = "" := by
  cases p <;> rfl

theorem backed_step (htells : ∀ s c, env s c → Tells i s c) {φ φ' : Phase}
    {s s' : State} (hsound : Sound i φ s) (hsigned : Signed i φ s) (h : Backed i φ s)
    (hstep : Step i env ok (φ, s) (φ', s')) : Backed i φ' s' := by
  have hchain : ∀ {c}, env s c → ∀ x ∈ s.chain.receipts, x ∈ c.chain.receipts :=
    fun he => (htells _ _ he).receipts.lasting
  have signed_of_phase : ∀ {p : Plan} {row : SpendRow},
      (∃ t, ⟨row, t, p.tx i row⟩ ∈ signatures s.log) →
        SignedUnder i s.log row.key (p.txHash i row) := fun ⟨t, ht⟩ => .of_mem ht rfl rfl
  cases hstep with
  | receive call script hφ hok =>
    exact h.same rfl ⟨fun _ he => List.mem_cons_of_mem _ he, fun _ hx => hx⟩ trivial
  | finish | settle => exact ⟨h.rows, trivial⟩
  | setNext he => exact h.same rfl (.same (hchain he) rfl rfl) trivial
  | giveBack he => exact h.same rfl (.same (hchain he) rfl rfl) trivial
  | pass he hlog hts hseq =>
    rcases hlog with rfl | ⟨e, hp, rfl⟩
    · exact h.same rfl (.same (hchain he) rfl rfl) (h.phase.mono (.same (hchain he) rfl rfl))
    · exact h.same rfl (.cons (hchain he) rfl rfl) (h.phase.mono (.cons (hchain he) rfl rfl))
  | stamp txHash status he =>
    exact h.same rfl (.same (hchain he) rfl rfl) (h.phase.mono (.same (hchain he) rfl rfl))
  | @find _ _ c row q f he hφ hrow hlive hs =>
    refine h.same rfl (.cons (hchain he) rfl rfl) ?_
    cases hs with
    | unused | reverted => trivial
    | collected receiptId hid ha =>
      have hc := (htells _ _ he).collected row hrow hlive receiptId hid ha
      exact ⟨hc.1, fun hne => (hc.2 hne).mono
        ⟨fun _ he => List.mem_cons_of_mem _ he, fun _ hx => hx⟩⟩
    | mined a receipt ha hkey hr ht hstatus =>
      obtain ⟨g, hg, hhash, hgkey, -⟩ := hsigned.attempts a ha
      exact ⟨(SignedUnder.of_mem hg (hgkey.symm.trans hkey) hhash.symm).mono fun _ he =>
        List.mem_cons_of_mem _ he, (htells _ _ he).receipts.shown _ _ hr ht⟩
  | count he hboot ha => exact h.same rfl (.cons (hchain he) rfl rfl) trivial
  | @grant _ c p row rows ts seq cut he hj hfit hcut hshown hts hseq hplace hbind =>
    refine ⟨fun r hr => ?_, trivial⟩
    cases hplace with
    | fresh head hkey =>
      rcases List.mem_append.mp hr with hr | hr
      · exact (h.rows r hr).mono (.same (hchain he) rfl rfl)
      · rw [List.mem_singleton.mp hr]
        rfl
    | revived r₀ hr₀ hkey hdead hamount hsame =>
      obtain ⟨r', hr', ⟨-, rfl⟩ | ⟨-, rfl⟩⟩ := mem_mapRow.mp hr
      · unfold RowBacked
        rw [revived_state]
        exact revived_txHash p _ _ _ _
      · exact (h.rows _ hr').mono (.same (hchain he) rfl rfl)
  | sign he => exact h.same rfl (.cons (hchain he) rfl rfl) trivial
  | balk e he => exact h.same rfl (.cons (hchain he) rfl rfl) trivial
  | @mark _ c p row he =>
    refine h.mapRow (hchain he) (fun r hr hkey => ?_) trivial
    have hunder := signed_of_phase (hsigned.phase.2 (by decide))
    show SignedUnder i s.log r.key (p.txHash i row)
    rw [hkey]
    exact hunder
  | record he hnew hseq => exact h.same rfl (.same (hchain he) rfl rfl) trivial
  | @send _ c p row he =>
    refine h.same rfl (.cons (hchain he) rfl rfl) ?_
    cases ha : c.answer (.sendRaw (p.raw i row)) with
    | ok answer => exact ⟨_, answer, List.mem_cons_self, rfl⟩
    | error e => cases e <;> trivial
  | @broadcast _ c p row he =>
    refine h.mapRow (hchain he) (fun r hr hkey => ?_) trivial
    have hunder := signed_of_phase (hsigned.phase.2 (by decide))
    show SignedUnder i s.log r.key (p.txHash i row) ∧ OnChain i s (p.txHash i row)
    rw [hkey]
    exact ⟨hunder, .inl h.phase⟩
  | @mine _ c row f u he hu =>
    refine h.mapRow (hchain he) (fun r hr hkey => ?_) trivial
    obtain ⟨hrow, hlive⟩ := hsound.phase
    have heq : r = row := eq_of_key_eq hsound.keys hr hrow hkey
    subst heq
    cases hu with
    | collected => exact (h.rows r hr).collected hlive h.phase
    | mined txHash receipt fee hread hfee =>
      obtain ⟨hunder, hmined⟩ := h.phase
      refine .inr ?_
      rw [if_neg hunder.ne]
      exact ⟨hunder, .inr hmined⟩
  | kill reason he hr hfalls =>
    refine h.mapRow (hchain he) (fun _ _ _ => trivial) ?_
    unfold Phase.released
    split <;> trivial

/-! ### Runs -/

/-- A collection that comes in finds the row of its channel signed only if the transaction has reached
the chain. -/
def SignedKnown (i : Instance) (s : State) (c : Call) : Prop :=
  ∀ body envelope call, c = .handle body → parseEnvelope i body = .ok envelope →
    Calldata.decodeExpire i.ext envelope.data = .ok call → ∀ r ∈ s.rows,
      r.key = receiptKey i (expireReceipt i call.channelId) → r.state = .signed →
        OnChain i s r.txHash

/-- The calls of a service that answers truthfully. -/
structure Calls (i : Instance) (s : State) (c : Call) : Prop where
  apart : KeysApart i c
  known : SignedKnown i s c

/-- The hash of an answer is that of a transaction that was signed for the request, under the receipt
of a debit or for the channel of a collection, and that reached the chain. -/
inductive Truthful (i : Instance) (body : Bytes) (txHash : String) (s : State) : Prop
  | debit (envelope : Envelope) (call : DebitCall) (henv : parseEnvelope i body = .ok envelope)
      (hdec : Calldata.decodeDebit i.ext envelope.data = .ok call)
      (hsigned : SignedUnder i s.log (receiptKey i (hexString call.receiptId)) txHash)
      (hchain : OnChain i s txHash)
  | expire (envelope : Envelope) (call : ExpireCall) (henv : parseEnvelope i body = .ok envelope)
      (hdec : Calldata.decodeExpire i.ext envelope.data = .ok call)
      (hsigned : ∃ row t tx raw, .sign row t tx (.ok raw) ∈ s.log ∧
        tx.data = hexString (Calldata.encodeExpire i.ext call) ∧ txHashOf i tx = txHash)
      (hchain : OnChain i s txHash)

/-- What holds in every state of a run of such calls. -/
structure Books (i : Instance) (φ : Phase) (s : State) : Prop where
  sound : Sound i φ s
  signed : Signed i φ s
  kept : Kept s
  apart : Apart i s
  backed : Backed i φ s

theorem books_initial : Books i .ended (stateOf i .initial) where
  sound := sound_initial i
  signed := signed_initial
  kept _ hg := absurd hg List.not_mem_nil
  apart := ⟨fun _ hr => absurd hr List.not_mem_nil, fun _ hc => by cases hc⟩
  backed := ⟨fun _ hr => absurd hr List.not_mem_nil, trivial⟩

theorem books_step {φ φ' : Phase} {s s' : State} (h : Books i φ s)
    (hstep : Step i (Tells i) (fun s c _ => Calls i s c) (φ, s) (φ', s')) :
    Books i φ' s' where
  sound := sound_step h.sound hstep
  signed := signed_step h.sound h.signed hstep
  kept := kept_step h.sound h.kept hstep
  apart := apart_step (fun _ _ _ hcall => hcall.apart) h.sound h.apart hstep
  backed := backed_step (fun _ _ hc => hc) h.sound h.signed h.backed hstep

/-- What was signed under the key of a channel is the collection of the channel. -/
theorem Books.expire_data {φ : Phase} {s : State} (h : Books i φ s)
    (hk : Function.Injective i.ext.keccak) {call : ExpireCall} {r : SpendRow} {txHash : String}
    (hlength : call.channelId.length = 32) (hr : r ∈ s.rows)
    (hkey : r.key = receiptKey i (expireReceipt i call.channelId))
    (hsigned : SignedUnder i s.log r.key txHash) :
    ∃ row t tx raw, .sign row t tx (.ok raw) ∈ s.log ∧
      tx.data = hexString (Calldata.encodeExpire i.ext call) ∧ txHashOf i tx = txHash := by
  obtain ⟨body, envelope, call', fees, horigin, hid⟩ := h.apart.expire_of_key hk hr hlength hkey
  obtain ⟨row, t, tx, raw, hmem, hrow, hhash⟩ := hsigned
  have hg : (⟨row, t, tx⟩ : Signature) ∈ signatures s.log := mem_signatures.mpr ⟨raw, hmem⟩
  obtain ⟨p, hp, htx⟩ := h.signed.signatures _ hg
  obtain ⟨r', hr', hrkey, htuple⟩ := h.kept _ hg
  have heq : r' = r := eq_of_key_eq h.sound.keys hr' hr (hrkey.trans hrow)
  subst heq
  have hwritten : r'.calldataKeccak = hexString (i.ext.keccak envelope.data) :=
    congrArg (fun t => t.2.2.2.2) horigin.tuple
  have hsame : r'.calldataKeccak = row.calldataKeccak := congrArg (fun t => t.2.2.2.2) htuple
  have hdata : p.data = envelope.data :=
    hk (hexString_injective ((hp.calldataKeccak hk).symm.trans (hsame.symm.trans hwritten)))
  have htx' : tx = p.tx i row := htx
  refine ⟨row, t, tx, raw, hmem, ?_, hhash⟩
  rw [htx', tx_data, hdata, ← Calldata.decodeExpire_encode _ horigin.sincere.2]
  cases call
  cases call'
  cases hid
  rfl

theorem Later.extends {σ : Setting} {w w' : World} (h : Later σ w w') (hl : Lasting σ.env) :
    Extends (stateOf σ.i w) (stateOf σ.i w') := ⟨h.log, h.chain hl⟩

/-- What the books hold where a decision is answered with 200. -/
theorem Quoted.truthful {σ : Setting} {body : Bytes} {known : List SpendRow} {txHash : String}
    {w w₀ : World} (hk : Function.Injective σ.i.ext.keccak) (hl : Lasting σ.env)
    (hbooks : ∀ φ w₁, At σ φ w₁ → Books σ.i φ (stateOf σ.i w₁))
    (hknown : known = w₀.tables.spend.rows) (hw₀ : Later σ w₀ w)
    (hcall : SignedKnown σ.i (stateOf σ.i w₀) (.handle body))
    (h : Quoted σ body known txHash w) : Truthful σ.i body txHash (stateOf σ.i w) := by
  cases h with
  | debit envelope call r henv hdec hseen hkey hstate hhash =>
    obtain ⟨⟨φ, hat⟩, hr⟩ := hseen
    have hrow : RowBacked σ.i (stateOf σ.i w) r := (hbooks φ w hat).backed.rows r hr
    have hfinal : SignedUnder σ.i w.log r.key r.txHash ∧ OnChain σ.i (stateOf σ.i w) r.txHash := by
      unfold RowBacked at hrow
      rcases hstate with hs | ⟨hs, hne⟩
      · simp only [hs] at hrow
        exact hrow
      · simp only [hs] at hrow
        exact hrow.resolve_left fun hempty => hne hempty.1
    rw [hkey, hhash] at hfinal
    exact .debit envelope call henv hdec hfinal.1 hfinal.2
  | expire envelope call r henv hdec hseen hkey hstate hhash =>
    obtain ⟨⟨φ, hat⟩, hr⟩ := hseen
    have hb := hbooks φ w hat
    have hrow : RowBacked σ.i (stateOf σ.i w) r := hb.backed.rows r hr
    have hamount : r.amountUnits = 0 := by
      obtain ⟨body', envelope', call', fees, horigin, -⟩ :=
        hb.apart.expire_of_key hk hr (Calldata.decodeExpire_id _ hdec) hkey
      exact congrArg (fun t => t.2.2.1) horigin.tuple
    have hfinal : SignedUnder σ.i w.log r.key r.txHash ∧ OnChain σ.i (stateOf σ.i w) r.txHash := by
      unfold RowBacked at hrow
      rcases hstate with hs | hs | ⟨hs, hmem⟩
      · simp only [hs] at hrow
        exact hrow
      · simp only [hs] at hrow
        exact hrow.resolve_left fun hempty => hempty.2 hamount
      · simp only [hs] at hrow
        rw [hknown] at hmem
        have hon := hcall body envelope call rfl henv hdec r hmem hkey hs
        exact ⟨hrow, hon.mono (hw₀.extends hl)⟩
    obtain ⟨row, t, tx, raw, hmem, hdata, htx⟩ :=
      hb.expire_data hk (Calldata.decodeExpire_id _ hdec) hr hkey hfinal.1
    exact .expire envelope call henv hdec
      ⟨row, t, tx, raw, hmem, hdata, htx.trans hhash⟩ (hhash ▸ hfinal.2)

/-- Every request that is answered with 200 is answered truthfully. -/
theorem answers_truthful (hk : Function.Injective i.ext.keccak) {w : World}
    (h : Reaches i (Tells i) (fun s c _ => Calls i s c) .running w) {body : Bytes}
    {script : List Choice} {d : Decision} (hcall : Calls i (stateOf i w) (.handle body))
    (henv : (serve i (.handle body)).Admits (fun w => Tells i (stateOf i w)) script
      (w.record (.call (.handle body))))
    (hd : (execute i (.handle body) script w).1 = .returned (some d)) (hstatus : d.status = 200) :
    Truthful i body d.txHash (stateOf i (execute i (.handle body) script w).2) := by
  obtain ⟨φ, hat, hφ⟩ := h.left
  let σ := fromScratch i (Tells i) fun s c _ => Calls i s c
  have hbegin : At σ .idle (w.record (.call (.handle body))) := hat.receive script hφ hcall
  have hserve : Leads σ (fun r w' => ∀ d, r = some d →
      Answered σ body w.tables.spend.rows d w') (serve i (.handle body))
      (w.record (.call (.handle body))) :=
    Leads.bind (hbegin.handle rfl) fun d w' _ ha => Triple.pure fun d' hd' =>
      Option.some.inj hd' ▸ ha
  have hm := Process.Wp.run hserve henv
  have hrun : ((serve i (.handle body)).run script (w.record (.call (.handle body)))).1 =
      .returned (some d) := hd
  rw [hrun] at hm
  obtain ⟨hlater, hanswered⟩ := hm
  have hlasting : Lasting σ.env := fun _ _ he => he.receipts.lasting
  refine Quoted.truthful hk hlasting (fun φ w₁ hat => ?_) rfl hlater ?_
    ((hanswered d rfl).quoted hstatus)
  · exact Runs.invariant (I := Books i) hat.run books_initial fun _ _ _ _ => books_step
  · intro body' envelope call hc henv' hdec r hr hkey hs
    exact (hcall.known body' envelope call hc henv' hdec r hr hkey hs).mono
      ⟨fun _ he => List.mem_cons_of_mem _ he, fun _ hx => hx⟩

section Sample

open EscrowSigner.Sample

/-- The decision of a call that came to one. -/
def decisionOf : Process.Outcome Exn (Option Decision) → Option Decision
  | .returned d => d
  | .raised _ | .stopped => none

theorem eq_returned_of_decisionOf {o : Process.Outcome Exn (Option Decision)} {d : Decision}
    (h : decisionOf o = some d) : o = .returned (some d) := by
  cases o with
  | returned d' => exact congrArg _ h
  | raised e => cases h
  | stopped => cases h

/-- Whether an event is the acceptance of a transaction. -/
def accepts : Event → Bool
  | .rpc (.sendRaw _) (.ok _) => true
  | _ => false

theorem Accepted.accepts {log : List Event} {txHash : String} (h : Accepted i log txHash) :
    log.any accepts = true := by
  obtain ⟨raw, answer, hmem, -⟩ := h
  exact List.any_eq_true.mpr ⟨_, hmem, rfl⟩

/-- The code of the request for the collection of the first channel, its envelope read. -/
def collection (i : Instance) (ext : Externals) : Code (Option Decision) := do
  let decision ← answerParsed i (.ok ⟨escrow, Calldata.encodeExpire ext ⟨zeroBytes 31 ++ [1]⟩,
    Config.chainId, 100000, 0⟩)
  return some decision

/-- The node is unreachable for the broadcast of a collection, and the second request for it is
answered with 200 although no transaction was accepted or mined. -/
theorem answers_not_truthful : ∃ w body script d,
    Reaches (signer unlimited "") (fun _ _ => True) (fun _ _ _ => True) .running w ∧
      (execute (signer unlimited "") (.handle body) script w).1 = .returned (some d) ∧
      d.status = 200 ∧ ¬ Truthful (signer unlimited "") body d.txHash
        (stateOf (signer unlimited "") (execute (signer unlimited "") (.handle body) script w).2) := by
  let answer : Outside := { time := 2, channel := expired }
  let offline : Outside := { answer with sendRaw := .error (.rpcUnavailable "") }
  obtain ⟨status, w, hw, hrunning, hstatus, hlog, hchain⟩ := Reach.exists_of_play
    (i := signer unlimited "") (Q := fun _ => True) (E := fun _ _ => True) (K := fun _ _ _ => True)
    (P := fun status w => status = .running ∧
      (decisionOf ((collection (signer unlimited "") plain).run answer.script
        (w.record (.call (.handle [0, 1])))).1).any (fun d => d.status = 200) = true ∧
      ((collection (signer unlimited "") plain).run answer.script
        (w.record (.call (.handle [0, 1])))).2.log.any accepts = false ∧
      ((collection (signer unlimited "") plain).run answer.script
        (w.record (.call (.handle [0, 1])))).2.chain.receipts = [])
    [boot answer.script, expire 1 offline.script]
    (fun _ _ _ _ => trivial) (by decide +kernel)
  have hcode : collection (signer unlimited "") plain = serve (signer unlimited "") (.handle [0, 1]) :=
    serve_handle (parse_payload rfl rfl)
  rw [hcode] at hstatus hlog hchain
  obtain ⟨d, hd, h200⟩ := (Option.any_eq_true _ _).mp hstatus
  subst hrunning
  refine ⟨w, [0, 1], answer.script, d, hw.mono (fun _ _ _ => trivial) fun _ _ _ h => h,
    eq_returned_of_decisionOf hd, of_decide_eq_true h200, fun htruthful => ?_⟩
  have hon : OnChain (signer unlimited "")
      (stateOf (signer unlimited "") (execute (signer unlimited "") (.handle [0, 1]) answer.script w).2)
      d.txHash := by
    cases htruthful with
    | debit envelope call henv hdec hsigned hchain => exact hchain
    | expire envelope call henv hdec hsigned hchain => exact hchain
  rcases hon with haccepted | ⟨status, hmem⟩
  · exact absurd (hlog.symm.trans haccepted.accepts) Bool.false_ne_true
  · have hmem' : (d.txHash, status) ∈
        ((serve (signer unlimited "") (.handle [0, 1])).run answer.script
          (w.record (.call (.handle [0, 1])))).2.chain.receipts := hmem
    rw [hchain] at hmem'
    exact absurd hmem' List.not_mem_nil

/-- A collection that is broadcast is answered truthfully. -/
theorem answers_truthful_of_collection : ∃ w script d,
    (execute injective (.handle [0, 1]) script w).1 = .returned (some d) ∧
      Truthful injective [0, 1] d.txHash
        (stateOf injective (execute injective (.handle [0, 1]) script w).2) := by
  let answer : Outside := { time := 2, channel := expired }
  have hquiet : ∀ c ∈ answer.injectiveScript,
      (∀ txHash, c.answer (.receipt txHash) = .ok .null) ∧
      ∀ escrow receiptId channelId,
        c.answer (.receiptUsed escrow receiptId channelId) = .ok false := by
    intro c hc
    rw [List.eq_of_mem_replicate hc]
    exact ⟨fun _ => rfl, fun _ _ _ => rfl⟩
  have htells : ∀ w : World, ∀ c ∈ answer.injectiveScript, w.chain.receipts = [] →
      Tells injective (stateOf injective w) c := by
    intro w c hc hnone
    obtain ⟨hreceipt, hused⟩ := hquiet c hc
    refine ⟨⟨fun x hx => ?_, fun txHash receipt ha htruthy => ?_⟩, fun r _ _ receiptId _ ha => ?_⟩
    · have hx' : x ∈ w.chain.receipts := hx
      rw [hnone] at hx'
      exact absurd hx' List.not_mem_nil
    · rw [hreceipt] at ha
      cases ha
      cases htruthy
    · rw [hused] at ha
      cases ha
  obtain ⟨status, w, hw, hrunning, hrows, hstatus⟩ := Reach.exists_of_play (i := injective)
    (Q := fun c => c ∈ answer.injectiveScript) (E := fun w _ => w.chain.receipts = [])
    (K := fun _ c _ => c = .boot)
    (P := fun status w => status = .running ∧ w.tables.spend.rows = [] ∧
      (decisionOf ((collection injective unhashed).run answer.injectiveScript
        (w.record (.call (.handle [0, 1])))).1).any (fun d => d.status = 200) = true ∧
      (collection injective unhashed).Admits (fun w _ => w.chain.receipts = [])
        answer.injectiveScript (w.record (.call (.handle [0, 1]))))
    [.call .boot _ rfl answer.injectiveScript]
    (List.forall_mem_singleton.mpr fun _ hc => hc) (by decide +kernel)
  obtain ⟨hstatus, hadmits⟩ := hstatus
  have hcode : collection injective unhashed = serve injective (.handle [0, 1]) :=
    serve_handle (parse_payload rfl rfl)
  rw [hcode] at hstatus hadmits
  obtain ⟨d, hd, h200⟩ := (Option.any_eq_true _ _).mp hstatus
  subst hrunning
  have hreach : Reaches injective (Tells injective) (fun s c _ => Calls injective s c) .running w := by
    refine hw.mono (fun w c hc => htells w c hc.2 hc.1) fun w c _ hc => ⟨?_, ?_⟩
    · rintro body envelope call rfl
      cases hc
    · rintro body envelope call rfl
      cases hc
  refine ⟨w, answer.injectiveScript, d, eq_returned_of_decisionOf hd, answers_truthful
    Function.injective_id hreach ⟨?_, ?_⟩ ?_ (eq_returned_of_decisionOf hd)
    (of_decide_eq_true h200)⟩
  · intro body envelope call hc hparse hdec
    cases hc
    cases Except.ok.inj ((parse_payload rfl rfl).symm.trans hparse)
    exact absurd (Calldata.decodeDebit_length _ hdec) (by decide +kernel)
  · intro body envelope call hc hparse hdec r hr
    have hmem : r ∈ w.tables.spend.rows := hr
    rw [hrows] at hmem
    exact absurd hmem List.not_mem_nil
  · exact (hadmits.and_of_forall fun _ hc => hc).mono fun w c hc => htells w c hc.2 hc.1

end Sample

end EscrowSigner.Machine
