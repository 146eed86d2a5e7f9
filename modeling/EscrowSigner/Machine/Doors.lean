import EscrowSigner.Machine.Binding

/-! The two doors of the ledger: as long as no debit brings the key of a channel as its receipt, what
the books hold under the key of a channel was reserved for the collection of that channel. -/

namespace EscrowSigner.Machine

open Policy

variable {i : Instance} {env : State → Choice → Prop} {ok : State → Call → List Choice → Prop}

/-- The receipt of a debit is not the key of a channel. -/
def OwnReceipt (i : Instance) (receiptId : Bytes) : Prop :=
  ∀ channelId : Bytes, channelId.length = 32 →
    receiptId ≠ i.ext.keccak (encode "expireChannel|" ++ channelId)

/-- A call is not a debit whose receipt is the key of a channel. -/
def KeysApart (i : Instance) (c : Call) : Prop :=
  ∀ body envelope call, c = .handle body → parseEnvelope i body = .ok envelope →
    Calldata.decodeDebit i.ext envelope.data = .ok call → OwnReceipt i call.receiptId

/-- The plans of calls that keep the keys apart. -/
def PlanApart (i : Instance) : Plan → Prop
  | .debit _ _ call _ _ => OwnReceipt i call.receiptId
  | .expire .. | .sweep .. => True

/-- Every row was written by a plan that keeps the keys apart, and the call in progress does. -/
structure Apart (i : Instance) (s : State) : Prop where
  rows : ∀ r ∈ s.rows, ∃ p, Origin i p r ∧ PlanApart i p
  call : ∀ c, request s.log = some c → KeysApart i c

theorem Justified.apart {p : Plan} {log : List Event} (h : Justified i log p)
    (hcall : ∀ c, request log = some c → KeysApart i c) : PlanApart i p := by
  cases p with
  | debit body envelope call channel fees =>
    exact hcall _ h.asked body envelope call rfl h.envelope h.decoded
  | expire | sweep => trivial

theorem Apart.same {s s' : State} (h : Apart i s) (hr : s'.rows = s.rows)
    (hl : request s'.log = request s.log) : Apart i s' :=
  ⟨fun r hmem => h.rows r (hr ▸ hmem), fun c hc => h.call c (hl ▸ hc)⟩

theorem Apart.mapRow {s : State} {c : Choice} {k : Key} {f : SpendRow → SpendRow} (h : Apart i s)
    (hf : KeepsOrigin f) : Apart i { s.after c with rows := EscrowSigner.mapRow k f s.rows } where
  rows r hr := by
    obtain ⟨r', hr', ⟨-, rfl⟩ | ⟨-, rfl⟩⟩ := mem_mapRow.mp hr
    · obtain ⟨p, hp, hapart⟩ := h.rows r' hr'
      exact ⟨p, hp.keep hf, hapart⟩
    · exact h.rows _ hr'
  call := h.call

theorem Passive.request {c : Choice} {e : Event} (h : Passive c e) (log : List Event) :
    request (e :: log) = request log := by
  cases h <;> rfl

theorem apart_step (hok : ∀ s c script, ok s c script → KeysApart i c) {φ φ' : Phase} {s s' : State}
    (hsound : Sound i φ s) (h : Apart i s) (hstep : Step i env ok (φ, s) (φ', s')) :
    Apart i s' := by
  cases hstep with
  | receive call script hφ hcall =>
    exact ⟨h.rows, fun c hc => Option.some.inj hc ▸ hok _ _ _ hcall⟩
  | finish | settle | stamp | count | setNext | sign | balk | record | send | giveBack =>
    exact h.same rfl rfl
  | find he hφ hrow hlive hs => exact h.same rfl rfl
  | pass he hlog hts hseq =>
    refine h.same rfl ?_
    rcases hlog with rfl | ⟨e, hp, rfl⟩
    · rfl
    · exact hp.request s.log
  | @grant _ c p row rows ts seq cut he hj hfit hcut hshown hts hseq hplace hbind =>
    refine ⟨fun r hr => ?_, h.call⟩
    cases hplace with
    | fresh head hkey =>
      rcases List.mem_append.mp hr with hr | hr
      · exact h.rows r hr
      · rw [List.mem_singleton.mp hr]
        exact ⟨p, ⟨hj.sincere hfit, rfl, rfl, rfl⟩, hj.apart h.call⟩
    | revived r₀ hr₀ hkey hdead hamount hsame =>
      exact (h.mapRow (c := c) (keepsOrigin_revived p seq ts s.next)).rows r hr
  | mark | broadcast | kill => exact h.mapRow ⟨fun _ => rfl, fun _ => rfl, fun _ => rfl⟩
  | mine he hu => exact h.mapRow ⟨fun _ => rfl, fun _ => rfl, fun _ => rfl⟩

/-- Who writes a row under the key of a channel. -/
theorem Apart.expire_of_key {s : State} (hk : Function.Injective i.ext.keccak) (h : Apart i s)
    {r : SpendRow} {channelId : Bytes} (hr : r ∈ s.rows) (hlength : channelId.length = 32)
    (hkey : r.key = receiptKey i (expireReceipt i channelId)) :
    ∃ body envelope call fees,
      Origin i (.expire body envelope call fees) r ∧ call.channelId = channelId := by
  obtain ⟨p, hp, hapart⟩ := h.rows r hr
  have hreceipt : (p.request i).receiptId = expireReceipt i channelId :=
    congrArg Key.receiptId (hp.key.symm.trans hkey)
  cases p with
  | debit body envelope call channel fees =>
    exact absurd (hexString_injective hreceipt) (hapart channelId hlength)
  | expire body envelope call fees =>
    have hpre := hk (hexString_injective hreceipt)
    exact ⟨body, envelope, call, fees, hp, List.append_cancel_left hpre⟩
  | sweep recipient balance data receipt fees =>
    obtain ⟨time, hlabel⟩ := hp.sincere.2
    exact absurd hreceipt.symm (expireReceipt_ne_sweep hk channelId hlabel)

/-- While no debit brings the key of a channel as its receipt, every row under the key of a channel
was reserved for the collection of that channel. -/
theorem doors_apart (hk : Function.Injective i.ext.keccak) {status : Status} {w : World}
    (h : Reaches i (fun _ _ => True) (fun _ c _ => KeysApart i c) status w) {r : SpendRow}
    {channelId : Bytes} (hr : r ∈ w.tables.spend.rows) (hlength : channelId.length = 32)
    (hkey : r.key = receiptKey i (expireReceipt i channelId)) :
    ∃ body envelope call fees,
      Origin i (.expire body envelope call fees) r ∧ call.channelId = channelId := by
  obtain ⟨φ, -, hapart⟩ := Reaches.invariant (I := fun _ s => Apart i s) h
    ⟨fun _ hr => absurd hr List.not_mem_nil, fun _ hc => by cases hc⟩
    fun _ _ _ _ hsound hI hstep => apart_step (fun _ _ _ hcall => hcall) hsound hI hstep
  exact hapart.expire_of_key hk hr hlength hkey

section Sample

open EscrowSigner.Sample

/-- An instance in which the key of a channel is the channel's id. -/
def meeting : Instance :=
  { signer unlimited "" with
    ext := { externals with
      keccak := fun data =>
        if encode "expireChannel|" <+: data then data.drop 14 else plain.keccak data } }

/-- A debit whose receipt is the key of a channel takes that key, and the collection of the channel is
answered with the hash of the debit. -/
theorem doors_meet : ∃ status w r channelId, Reaches meeting (fun _ _ => True) (fun _ _ _ => True)
    status w ∧ channelId.length = 32 ∧ r ∈ w.tables.spend.rows ∧
      r.key = receiptKey meeting (expireReceipt meeting channelId) ∧
      ¬ ∃ body envelope call fees, Origin meeting (.expire body envelope call fees) r ∧
        call.channelId = channelId := by
  let channelId : Bytes := zeroBytes 31 ++ [1]
  obtain ⟨status, w, hw, hrow⟩ := Reach.exists_of_play (Q := fun _ => True)
    (E := fun _ _ => True) (K := fun _ _ _ => True)
    (P := fun _ w => ∃ r ∈ w.tables.spend.rows, r.amountUnits ≠ 0 ∧
      r.key = receiptKey meeting (expireReceipt meeting (zeroBytes 31 ++ [1])))
    [.call .boot _ rfl { time := 0 : Outside }.script,
      .call (.handle [1]) _ (serve_handle (parse_payload (i := meeting) rfl rfl))
        { time := 0 : Outside }.script]
    (fun _ _ _ _ => trivial) (by decide +kernel)
  obtain ⟨r, hr, hamount, hkey⟩ := hrow
  refine ⟨status, w, r, channelId, hw.mono (fun _ _ _ => trivial) fun _ _ _ h => h, by decide, hr,
    hkey, ?_⟩
  rintro ⟨body, envelope, call, fees, horigin, -⟩
  exact hamount (congrArg (fun t => t.2.2.1) horigin.tuple)

/-- A channel is collected, and the row under its key is the collection's. -/
theorem doors_apart_of_expire : ∃ w : World, ∃ r ∈ w.tables.spend.rows,
    ∃ body envelope call fees, Origin injective (.expire body envelope call fees) r ∧
      call.channelId = zeroBytes 31 ++ [1] := by
  have hapart : ∀ c : Call, c = .boot ∨ c = .handle [0, 1] → KeysApart injective c := by
    rintro c (rfl | rfl) body envelope call hc henv hdec
    · cases hc
    · cases hc
      cases Except.ok.inj ((parse_payload rfl rfl).symm.trans henv)
      exact absurd (Calldata.decodeDebit_length _ hdec) (by decide +kernel)
  have hplay := Reach.exists_of_play (Q := fun _ => True) (E := fun _ _ => True)
    (K := fun _ c _ => c = .boot ∨ c = .handle [0, 1])
    (P := fun _ w => ∃ r ∈ w.tables.spend.rows,
      r.key = receiptKey injective (expireReceipt injective (zeroBytes 31 ++ [1])))
    [.call .boot _ rfl { time := 2 : Outside }.injectiveScript,
      injectiveExpire 1 { time := 2, channel := expired }]
    (fun _ _ _ _ => trivial) (by decide +kernel)
  obtain ⟨status, w, hw, r, hr, hkey⟩ := hplay
  exact ⟨w, r, hr, doors_apart Function.injective_id
    (hw.mono (fun _ _ _ => trivial) fun _ c _ h => hapart c h) hr (by decide) hkey⟩

end Sample

end EscrowSigner.Machine
