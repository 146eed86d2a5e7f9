import EscrowSigner.Machine.State

/-! What holds in every state that the machine reaches: rows and attempts belong to this instance,
and the phase agrees with the books. -/

namespace EscrowSigner.Machine

open Policy

variable {i : Instance} {env : State → Choice → Prop} {ok : State → Call → List Choice → Prop}

@[simp] theorem session_clock (t : Nat) (log : List Event) :
    session (.clock t :: log) = .clock t :: session log := rfl

@[simp] theorem session_rpc (q : Query) (a : Except Exn q.Answer) (log : List Event) :
    session (.rpc q a :: log) = .rpc q a :: session log := rfl

@[simp] theorem session_sign (row : SpendRow) (t : Nat) (tx : Tx) (r : Except Exn Bytes)
    (log : List Event) : session (.sign row t tx r :: log) = .sign row t tx r :: session log := rfl

/-- What stands behind a plan stays behind it while the log of the call grows. -/
theorem Justified.extend {p : Plan} {log log' : List Event} (h : Justified i log p)
    (hrequest : Machine.request log' = Machine.request log)
    (hsession : ∀ e ∈ session log, e ∈ session log') : Justified i log' p := by
  have priced : ∀ {fees : Fees}, Priced i fees log → Priced i fees log' :=
    fun ⟨toAddr, data, estimate, baseFee, he, hb, hf⟩ =>
      ⟨toAddr, data, estimate, baseFee, hsession _ he, hsession _ hb, hf⟩
  cases p with
  | debit body env call channel fees =>
    obtain ⟨instant, ht, hs⟩ := h.admitted
    exact ⟨hrequest.trans h.asked, h.envelope, h.decoded, hsession _ h.read,
      ⟨instant, hsession _ ht, hs⟩, hsession _ h.unused, h.depositor, priced h.priced⟩
  | expire body env call fees =>
    exact ⟨hrequest.trans h.asked, h.envelope, h.decoded, priced h.priced⟩
  | sweep recipient balance data receipt fees =>
    obtain ⟨instant, ht, hs⟩ := h.labelled
    exact ⟨hrequest.trans h.asked, h.chosen, hsession _ h.read, h.enough, h.encoded,
      ⟨instant, hsession _ ht, hs⟩, priced h.priced⟩

@[simp] theorem request_row_key (x : Externals) (a : Ledger.Request) (seq ts nonce : Int)
    (head : String) : (a.row x seq ts nonce head).key = a.key := rfl

@[simp] theorem revived_key (p : Plan) (seq ts nonce : Int) (r : SpendRow) :
    (p.revived i seq ts nonce r).key = r.key := by
  cases p <;> rfl

@[simp] theorem revived_state (p : Plan) (seq ts nonce : Int) (r : SpendRow) :
    (p.revived i seq ts nonce r).state = .reserved := by
  cases p <;> rfl

@[simp] theorem revived_accountNonce (p : Plan) (seq ts nonce : Int) (r : SpendRow) :
    (p.revived i seq ts nonce r).accountNonce = nonce := by
  cases p <;> rfl

@[simp] theorem revived_fromAddr (p : Plan) (seq ts nonce : Int) (r : SpendRow) :
    (p.revived i seq ts nonce r).fromAddr = r.fromAddr := by
  cases p <;> rfl

@[simp] theorem revived_amountUnits (p : Plan) (seq ts nonce : Int) (r : SpendRow) :
    (p.revived i seq ts nonce r).amountUnits = r.amountUnits := by
  cases p <;> rfl

@[simp] theorem request_fromAddr (p : Plan) : (p.request i).fromAddr = i.address := by
  cases p <;> rfl

@[simp] theorem request_key_chainId (p : Plan) : (p.request i).key.chainId = Config.chainId := by
  cases p <;> rfl

@[simp] theorem request_key_escrow (p : Plan) : (p.request i).key.escrow = i.escrow := by
  cases p <;> rfl

/-- The row of a plan after its signature was noted. -/
def signedRow (i : Instance) (p : Plan) (row : SpendRow) : SpendRow :=
  { row with state := .signed, txHash := p.txHash i row }

/-- What the books hold of the row of a plan, by the stage of the plan. -/
def RowAt (i : Instance) (p : Plan) (row : SpendRow) (rows : List SpendRow) : Stage → Prop
  | .held | .signed => row ∈ rows
  | .marked | .recorded | .accepted | .rejected | .unanswered => signedRow i p row ∈ rows

/-- The phase agrees with the books. -/
def Coherent (i : Instance) (s : State) : Phase → Prop
  | .found row _ => row ∈ s.rows ∧ row.state.live = true
  | .working p row stage =>
    row.key = (p.request i).key ∧ row.state = .reserved ∧ RowAt i p row s.rows stage
  | .freed row => row.key.chainId = Config.chainId ∧ row.fromAddr = i.address ∧ 0 ≤ row.accountNonce
  | .idle | .counted _ | .ended => True

structure Sound (i : Instance) (φ : Phase) (s : State) : Prop where
  keys : (s.rows.map SpendRow.key).Nodup
  own : ∀ r ∈ s.rows, r.key.chainId = Config.chainId ∧ r.key.escrow = i.escrow ∧
    r.fromAddr = i.address ∧ Bindable r
  nonces : ∀ r ∈ s.rows, 0 ≤ r.accountNonce
  next : 0 ≤ s.next
  attempts : ∀ a ∈ s.attempts, a.chainId = Config.chainId ∧ a.seq ≤ s.maxSeq
  phase : Coherent i s φ

/-- Two rows with one key are one row. -/
theorem eq_of_key_eq {rows : List SpendRow} (hk : (rows.map SpendRow.key).Nodup) {r r' : SpendRow}
    (hr : r ∈ rows) (hr' : r' ∈ rows) (h : r.key = r'.key) : r = r' :=
  List.inj_on_of_nodup_map hk hr hr' h

theorem Places.row_mem {p : Plan} {seq ts nonce : Int} {rows rows' : List SpendRow}
    {row : SpendRow} (h : Places i p seq ts nonce rows rows' row) : row ∈ rows' := by
  cases h with
  | fresh head hkey => simp
  | revived r hr hkey hdead hamount hsame =>
    exact mem_mapRow.mpr ⟨r, hr, .inl ⟨rfl, rfl⟩⟩

theorem Places.key_eq {p : Plan} {seq ts nonce : Int} {rows rows' : List SpendRow}
    {row : SpendRow} (h : Places i p seq ts nonce rows rows' row) :
    row.key = (p.request i).key := by
  cases h with
  | fresh head hkey => rfl
  | revived r hr hkey hdead hamount hsame => simp [hkey]

theorem Places.state_eq {p : Plan} {seq ts nonce : Int} {rows rows' : List SpendRow}
    {row : SpendRow} (h : Places i p seq ts nonce rows rows' row) : row.state = .reserved := by
  cases h with
  | fresh head hkey => rfl
  | revived r hr hkey hdead hamount hsame => simp

theorem Places.nonce_eq {p : Plan} {seq ts nonce : Int} {rows rows' : List SpendRow}
    {row : SpendRow} (h : Places i p seq ts nonce rows rows' row) : row.accountNonce = nonce := by
  cases h with
  | fresh head hkey => rfl
  | revived r hr hkey hdead hamount hsame => simp

/-- The other rows stay, and nothing else comes in. -/
theorem Places.mem {p : Plan} {seq ts nonce : Int} {rows rows' : List SpendRow} {row r : SpendRow}
    (h : Places i p seq ts nonce rows rows' row) (hk : (rows.map SpendRow.key).Nodup) :
    r ∈ rows' ↔ r = row ∨ (r ∈ rows ∧ r.key ≠ row.key) := by
  cases h with
  | fresh head hkey =>
    simp only [List.mem_append, List.mem_singleton, request_row_key]
    exact ⟨fun h => h.symm.imp id fun hr => ⟨hr, hkey r hr⟩, fun h => h.symm.imp And.left id⟩
  | revived r₀ hr₀ hkey hdead hamount hsame =>
    simp only [mem_mapRow, revived_key]
    constructor
    · rintro ⟨r', hr', ⟨hk', rfl⟩ | ⟨hne, rfl⟩⟩
      · rw [eq_of_key_eq hk hr' hr₀ hk']
        exact .inl rfl
      · exact .inr ⟨hr', hne⟩
    · rintro (rfl | ⟨hr', hne⟩)
      · exact ⟨r₀, hr₀, .inl ⟨rfl, rfl⟩⟩
      · exact ⟨r, hr', .inr ⟨hne, rfl⟩⟩

theorem Places.keys {p : Plan} {seq ts nonce : Int} {rows rows' : List SpendRow} {row : SpendRow}
    (h : Places i p seq ts nonce rows rows' row) (hk : (rows.map SpendRow.key).Nodup) :
    (rows'.map SpendRow.key).Nodup := by
  cases h with
  | fresh head hkey =>
    rw [List.map_append]
    refine List.Nodup.append hk (by simp) fun k hk' hk'' => ?_
    obtain ⟨r, hr, rfl⟩ := List.mem_map.mp hk'
    simp only [List.map_cons, List.map_nil, List.mem_singleton, request_row_key] at hk''
    exact hkey r hr hk''
  | revived r hr hkey hdead hamount hsame =>
    rw [map_key_mapRow fun r => revived_key p seq ts nonce r]
    exact hk

theorem Places.own {p : Plan} {seq ts nonce : Int} {rows rows' : List SpendRow} {row : SpendRow}
    (h : Places i p seq ts nonce rows rows' row)
    (ho : ∀ r ∈ rows, r.fromAddr = i.address) : row.fromAddr = i.address := by
  cases h with
  | fresh head hkey => exact request_fromAddr p
  | revived r hr hkey hdead hamount hsame => simpa using ho r hr

/-- Changes of state, hash, fee and reason keep the rest of a row. -/
structure Restates (f : SpendRow → SpendRow) : Prop where
  key : ∀ r, (f r).key = r.key
  fromAddr : ∀ r, (f r).fromAddr = r.fromAddr
  accountNonce : ∀ r, (f r).accountNonce = r.accountNonce
  bindable : ∀ r, Bindable r → Bindable (f r)

theorem Sound.mapRow {φ φ' : Phase} {s : State} {c : Choice} {k : Key} {f : SpendRow → SpendRow}
    (h : Sound i φ s) (hf : Restates f)
    (hφ : Coherent i { s.after c with rows := mapRow k f s.rows } φ') :
    Sound i φ' { s.after c with rows := EscrowSigner.mapRow k f s.rows } where
  keys := by simpa only [map_key_mapRow hf.key] using h.keys
  own r hr := by
    obtain ⟨r', hr', ⟨-, rfl⟩ | ⟨-, rfl⟩⟩ := mem_mapRow.mp hr
    · have ho := h.own r' hr'
      exact ⟨by rw [hf.key]; exact ho.1, by rw [hf.key]; exact ho.2.1,
        by rw [hf.fromAddr]; exact ho.2.2.1, hf.bindable r' ho.2.2.2⟩
    · exact h.own _ hr'
  nonces r hr := by
    obtain ⟨r', hr', ⟨-, rfl⟩ | ⟨-, rfl⟩⟩ := mem_mapRow.mp hr
    · exact (hf.accountNonce r').symm ▸ h.nonces r' hr'
    · exact h.nonces _ hr'
  next := h.next
  attempts := h.attempts
  phase := hφ

/-- A step that leaves the rows alone keeps the books in order. -/
theorem Sound.same {φ φ' : Phase} {s s' : State} (h : Sound i φ s) (hr : s'.rows = s.rows)
    (hn : 0 ≤ s'.next) (ha : ∀ a ∈ s'.attempts, a.chainId = Config.chainId ∧ a.seq ≤ s'.maxSeq)
    (hφ : Coherent i s' φ') : Sound i φ' s' where
  keys := hr ▸ h.keys
  own r hr' := h.own r (hr ▸ hr')
  nonces r hr' := h.nonces r (hr ▸ hr')
  next := hn
  attempts := ha
  phase := hφ

theorem coherent_of_rows_eq {φ : Phase} {s s' : State} (hr : s'.rows = s.rows)
    (h : Coherent i s φ) : Coherent i s' φ := by
  cases φ <;> simp_all [Coherent]

theorem le_foldl_max {n m : Int} {ns : List Int} (h : n ≤ m) : n ≤ ns.foldl max m := by
  induction ns generalizing m with
  | nil => exact h
  | cons k ns ih => exact ih (h.trans (le_max_left _ _))

/-- The allocator is never put below zero by rows whose nonces are not. -/
theorem highestNonce_nonneg {rows : List SpendRow} (h : ∀ r ∈ rows, 0 ≤ r.accountNonce) :
    0 ≤ highestNonce rows + 1 := by
  cases rows with
  | nil => simp [highestNonce]
  | cons r rows =>
    have : 0 ≤ highestNonce (r :: rows) := le_foldl_max (h r List.mem_cons_self)
    omega

theorem restates_apply (u : Ledger.RowUpdates) (state : RowState) : Restates (u.apply state) :=
  ⟨fun _ => rfl, fun _ => rfl, fun _ => rfl, fun _ h => h⟩

/-- Every step keeps the books in order. -/
theorem sound_step {φ φ' : Phase} {s s' : State} (h : Sound i φ s)
    (hstep : Step i env ok (φ, s) (φ', s')) : Sound i φ' s' := by
  cases hstep with
  | receive call script hφ hok => exact h.same rfl h.next h.attempts trivial
  | finish => exact h.same rfl h.next h.attempts trivial
  | settle hφ => exact h.same rfl h.next h.attempts trivial
  | pass he hlog hts hseq =>
    refine h.same rfl h.next (fun a ha => ?_) (coherent_of_rows_eq rfl h.phase)
    exact ⟨(h.attempts a ha).1, (h.attempts a ha).2.trans hseq⟩
  | stamp txHash status he =>
    refine h.same rfl h.next (fun a ha => ?_) (coherent_of_rows_eq rfl h.phase)
    obtain ⟨b, hb, hab⟩ := mem_stampAttempts ha
    rw [hab]
    exact h.attempts b hb
  | find he hφ hrow hlive hs => exact h.same rfl h.next h.attempts ⟨hrow, hlive⟩
  | count he hboot ha => exact h.same rfl h.next h.attempts trivial
  | @setNext _ c n live he hlive =>
    refine h.same rfl (le_trans ?_ (le_max_right _ _)) h.attempts trivial
    exact highestNonce_nonneg fun r hr => h.nonces r (List.mem_of_mem_filter (hlive.mem_iff.mp hr))
  | @grant _ c p row rows ts seq cut he hj hfit hcut hshown hts hseq hplace hbind =>
    refine ⟨hplace.keys h.keys, fun r hr => ?_, fun r hr => ?_, Int.add_nonneg h.next (by decide),
      fun a ha => ?_, hplace.key_eq, hplace.state_eq, hplace.row_mem⟩
    · rcases (hplace.mem h.keys).mp hr with rfl | ⟨hr, -⟩
      · rw [hplace.key_eq]
        exact ⟨request_key_chainId p, request_key_escrow p,
          hplace.own fun r hr => (h.own r hr).2.2.1, hbind⟩
      · exact h.own r hr
    · rcases (hplace.mem h.keys).mp hr with rfl | ⟨hr, -⟩
      · rw [hplace.nonce_eq]
        exact h.next
      · exact h.nonces r hr
    · exact ⟨(h.attempts a ha).1, (h.attempts a ha).2.trans hseq.le⟩
  | sign he => exact h.same rfl h.next h.attempts h.phase
  | balk e he => exact h.same rfl h.next h.attempts h.phase
  | @mark _ c p row he =>
    obtain ⟨hkey, hstate, hrow⟩ := h.phase
    refine h.mapRow ⟨fun _ => rfl, fun _ => rfl, fun _ => rfl, fun _ h => h⟩ ⟨hkey, hstate, ?_⟩
    exact mem_mapRow.mpr ⟨row, hrow, .inl ⟨rfl, rfl⟩⟩
  | @record _ c p row sentAt seq he hnew hseq =>
    refine h.same rfl h.next (fun a ha => ?_) h.phase
    rcases mem_putAttempt.mp ha with ⟨ha, -⟩ | rfl
    · exact h.attempts a ha
    · have hrow := h.own _ h.phase.2.2
      exact ⟨hrow.1, hseq⟩
  | @send _ c p row he =>
    refine h.same rfl h.next h.attempts ⟨h.phase.1, h.phase.2.1, ?_⟩
    have hrow : signedRow i p row ∈ _ := h.phase.2.2
    unfold Stage.after
    split <;> exact hrow
  | broadcast he => exact h.mapRow ⟨fun _ => rfl, fun _ => rfl, fun _ => rfl, fun _ h => h⟩ trivial
  | mine he hu => exact h.mapRow (restates_apply _ _) trivial
  | @kill _ _ c r reason he hr hfalls =>
    refine h.mapRow ⟨fun _ => rfl, fun _ => rfl, fun _ => rfl, fun _ h => h⟩ ?_
    unfold Phase.released
    split
    · exact ⟨(h.own r hr).1, (h.own r hr).2.2.1, h.nonces r hr⟩
    · trivial
  | giveBack he =>
    refine h.same rfl ?_ h.attempts trivial
    simp only
    split
    · exact h.phase.2.2
    · exact h.next

/-- A run of the machine. -/
abbrev Runs (i : Instance) (env : State → Choice → Prop)
    (ok : State → Call → List Choice → Prop) : Phase × State → Phase × State → Prop :=
  Relation.ReflTransGen (Step i env ok)

/-- The rule for invariants: what every step keeps holds at the end of a run. -/
theorem Runs.invariant {I : Phase → State → Prop} {x y : Phase × State}
    (h : Runs i env ok x y) (hx : I x.1 x.2)
    (hstep : ∀ φ s φ' s', I φ s → Step i env ok (φ, s) (φ', s') → I φ' s') : I y.1 y.2 := by
  induction h with
  | refl => exact hx
  | tail _ hs ih => exact hstep _ _ _ _ ih hs

theorem sound_run {x y : Phase × State} (h : Runs i env ok x y) (hx : Sound i x.1 x.2) :
    Sound i y.1 y.2 :=
  h.invariant (I := Sound i) hx fun _ _ _ _ => sound_step

end EscrowSigner.Machine
