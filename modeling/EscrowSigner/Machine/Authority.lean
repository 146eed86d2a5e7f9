import EscrowSigner.Machine.Evidence
import EscrowSigner.Machine.Halt

/-! What the key is used for: every transaction that it signs has one of three shapes, and a debit is
signed on the authority of the depositor of its channel. -/

namespace EscrowSigner.Machine

open Policy Process
open Calldata (DebitCall ExpireCall)

variable {i : Instance}

/-! ### Runs -/

theorem AllVouched.execute {w : World} (hv : AllVouched i w.log) (c : Call)
    (script : List Choice) : AllVouched i (execute i c script w).2.log := by
  have hcall : AllVouched i (w.record (.call c)).log := ⟨trivial, hv⟩
  have hm := Wp.run (Watches.serve c hcall rfl) (admits_true _ script _)
  show AllVouched i ((serve i c).run script (w.record (.call c))).2.log
  cases ho : ((serve i c).run script (w.record (.call c))).1 with
  | returned a =>
    rw [ho] at hm
    exact hm.1
  | raised e =>
    rw [ho] at hm
    exact hm.1
  | stopped =>
    rw [ho] at hm
    exact hm.choose_spec

theorem AllVouched.onwards {ok : World → Call → List Choice → Prop} {w₀ w : World}
    {status : Status} (h : Onwards i ok w₀ status w) (hv : AllVouched i w₀.log) :
    AllVouched i w.log := by
  induction h with
  | start => exact hv
  | call c script h hok ih => exact ih.execute c script
  | restart h ih => exact ih

/-- What the service reaches from a new database, it reaches from there on. -/
theorem onwards_of_reach {env : World → Choice → Prop} {ok : World → Call → List Choice → Prop}
    {status : Status} {w : World} (h : Reach i env ok status w) :
    Onwards i (fun _ _ _ => True) World.initial status w := by
  induction h with
  | initial => exact .start
  | call c script h hok henv ih => exact ih.call c script trivial
  | restart h ih => exact ih.restart

/-- Each event of a log is vouched for by those before it. -/
theorem AllVouched.vouched {e : Event} {earlier log : List Event} (hv : AllVouched i log)
    (h : e :: earlier <:+ log) : Vouched i earlier e := by
  induction log with
  | nil => cases List.suffix_nil.mp h
  | cons e' log ih =>
    rcases List.suffix_cons_iff.mp h with heq | h
    · cases heq
      exact hv.1
    · exact ih hv.2 h

/-- Every signature of a run is for a plan that its call justified. -/
theorem justified_of_signed {ok : World → Call → List Choice → Prop} {w₀ w : World}
    {status : Status} (hlog : w₀.log = []) (h : Onwards i ok w₀ status w) {row : SpendRow}
    {t : Nat} {tx : Tx} {r : Except Exn Bytes} {earlier : List Event}
    (hsign : .sign row t tx r :: earlier <:+ w.log) :
    ∃ p, Justified i earlier p ∧ tx = p.tx i row :=
  (AllVouched.onwards h (by rw [hlog]; trivial)).vouched hsign

/-! ### The shapes of a transaction -/

/-- The three shapes of a transaction, by the call that it is signed in and what the call read:
the bytes of a request that are a canonical debit, those that are a canonical collection, and the
transfer of this key's own balance when the timer ticks. -/
inductive Shape (i : Instance) (earlier : List Event) (tx : Tx) : Prop
  | debit (body : Bytes) (env : Envelope) (call : DebitCall)
      (hasked : request earlier = some (.handle body)) (henv : parseEnvelope i body = .ok env)
      (hto : tx.toAddr = i.escrow) (hdata : tx.data = hexString env.data)
      (hencoded : Calldata.encodeDebit i.ext call = .ok env.data)
      (hchannel : call.channelId.length = 32) (hreceipt : call.receiptId.length = 32)
  | expire (body : Bytes) (env : Envelope) (call : ExpireCall)
      (hasked : request earlier = some (.handle body)) (henv : parseEnvelope i body = .ok env)
      (hto : tx.toAddr = i.escrow) (hdata : tx.data = hexString env.data)
      (hencoded : Calldata.encodeExpire i.ext call = env.data)
      (hchannel : call.channelId.length = 32)
  | sweep (balance : Int) (data : Bytes) (hasked : request earlier = some .sweep)
      (hto : tx.toAddr = Config.token) (hdata : tx.data = hexString data)
      (hencoded : Calldata.encodeTransfer i.ext (strip i.settings.sweepTo) balance = .ok data)
      (hread : .rpc (.tokenBalance Config.token i.address) (.ok balance) ∈ session earlier)
      (henough : i.settings.sweepMinUnits ≤ balance)

theorem Justified.shape {p : Plan} {row : SpendRow} {earlier : List Event}
    (h : Justified i earlier p) : Shape i earlier (p.tx i row) := by
  cases p with
  | debit body env call channel fees =>
    obtain ⟨hchannel, hreceipt⟩ := Calldata.decodeDebit_ids _ h.decoded
    exact .debit body env call h.asked h.envelope rfl rfl
      (Calldata.decodeDebit_encode _ h.decoded) hchannel hreceipt
  | expire body env call fees =>
    exact .expire body env call h.asked h.envelope rfl rfl
      (Calldata.decodeExpire_encode _ h.decoded) (Calldata.decodeExpire_id _ h.decoded)
  | sweep recipient balance data receipt fees =>
    exact .sweep balance data h.asked rfl rfl (h.chosen ▸ h.encoded) h.read h.enough

/-- What the fees of a transaction are bounded by. -/
structure FeesBounded (i : Instance) (fees : Fees) : Prop where
  gas : fees.gasLimit ≤ Config.gasHardCap
  priority : i.settings.priorityFeeWei ≤ fees.maxFee
  ceiling : fees.maxFee ≤ i.settings.maxFeeWeiCeiling

theorem priceFees_bounded {estimate baseFee : Int} {fees : Fees} (hbase : 0 ≤ baseFee)
    (h : priceFees i estimate baseFee = .ok fees) : FeesBounded i fees := by
  simp only [priceFees] at h
  split at h
  · cases h
  · split at h
    · cases h
    · rename_i hceiling
      cases h
      exact ⟨min_le_right _ _, by show _ ≤ 2 * baseFee + i.settings.priorityFeeWei; omega,
        not_lt.mp hceiling⟩

def Plan.fees : Plan → Fees
  | .debit _ _ _ _ fees => fees
  | .expire _ _ _ fees => fees
  | .sweep _ _ _ _ fees => fees

theorem Justified.priced {p : Plan} {log : List Event} (h : Justified i log p) :
    Priced i p.fees log := by
  cases p with
  | debit body env call channel fees => exact DebitEvidence.priced h
  | expire body env call fees => exact ExpireEvidence.priced h
  | sweep recipient balance data receipt fees => exact SweepEvidence.priced h

/-- Every transaction that the key is asked to sign moves no ether, is for the pinned chain, stays
within the limits on gas and fees, and has one of the three shapes. -/
theorem signs_three_shapes {w₀ w : World} {status : Status} (hlog : w₀.log = [])
    (h : Onwards i (fun _ _ _ => True) w₀ status w)
    (hbase : ∀ baseFee : Int, .rpc .baseFeeWei (.ok baseFee) ∈ w.log → 0 ≤ baseFee)
    {row : SpendRow} {t : Nat} {tx : Tx} {r : Except Exn Bytes} {earlier : List Event}
    (hsign : .sign row t tx r :: earlier <:+ w.log) :
    tx.value = 0 ∧ tx.chainId = Config.chainId ∧ tx.gas ≤ Config.gasHardCap ∧
      tx.maxPriorityFeePerGas ≤ tx.maxFeePerGas ∧
      tx.maxFeePerGas ≤ i.settings.maxFeeWeiCeiling ∧ Shape i earlier tx := by
  obtain ⟨p, hp, rfl⟩ := justified_of_signed hlog h hsign
  obtain ⟨_, _, estimate, baseFee, -, hread, hpriced⟩ := hp.priced
  have hmem : Event.rpc .baseFeeWei (.ok baseFee) ∈ w.log :=
    hsign.mem (List.mem_cons_of_mem _ (mem_of_mem_session hread))
  have hfees := priceFees_bounded (hbase baseFee hmem) hpriced
  have hshape : Shape i earlier (p.tx i row) := hp.shape
  cases p <;> exact ⟨rfl, rfl, hfees.gas, hfees.priority, hfees.ceiling, hshape⟩

section Sample

open EscrowSigner.Sample

/-- Whether a signature was asked for in the call `c`. -/
def signedIn (c : Call) : List Event → Bool
  | [] => false
  | .sign .. :: log => decide (request log = some c) || signedIn c log
  | _ :: log => signedIn c log

theorem exists_signed {c : Call} {log : List Event} (h : signedIn c log = true) :
    ∃ row t tx r earlier, Event.sign row t tx r :: earlier <:+ log ∧ request earlier = some c := by
  induction log with
  | nil => cases h
  | cons e log ih =>
    have later : signedIn c log = true → ∃ row t tx r earlier,
        Event.sign row t tx r :: earlier <:+ e :: log ∧ request earlier = some c := fun h' => by
      obtain ⟨row, t, tx, r, earlier, hsuffix, hc⟩ := ih h'
      exact ⟨row, t, tx, r, earlier, hsuffix.trans (List.suffix_cons e log), hc⟩
    cases e with
    | sign row t tx r =>
      rcases Bool.or_eq_true _ _ ▸ h with hc | h'
      · exact ⟨row, t, tx, r, log, List.suffix_refl _, of_decide_eq_true hc⟩
      · exact later h'
    | call c' => exact later h
    | clock t => exact later h
    | rpc q a => exact later h

/-- Whether an event is no base fee below zero. -/
def baseFeeOk : Event → Bool
  | .rpc .baseFeeWei (.ok baseFee) =>
    let fee : Int := baseFee
    decide (0 ≤ fee)
  | _ => true

/-- A debit is signed after a boot. -/
theorem exists_signed_debit : ∃ status w,
    Onwards (signer unlimited "") (fun _ _ _ => True) World.initial status w ∧
      signedIn (.handle [1]) w.log = true ∧ w.log.all baseFeeOk = true := by
  obtain ⟨status, w, hw, hsigned, hbase⟩ := Reach.exists_of_play (Q := fun _ => True)
    (E := fun _ _ => True) (K := fun _ _ _ => True)
    (P := fun _ w => signedIn (.handle [1]) w.log = true ∧
      w.log.all baseFeeOk = true)
    [boot { time := 0 : Outside }.script, debit 1 { time := 0 : Outside }.script]
    (i := signer unlimited "") (fun _ _ _ _ => trivial) (by decide +kernel)
  exact ⟨status, w, onwards_of_reach hw, hsigned, hbase⟩

theorem signs_three_shapes_of_debit : ∃ earlier tx,
    request earlier = some (.handle [1]) ∧ tx.value = 0 ∧ tx.gas ≤ Config.gasHardCap ∧
      Shape (signer unlimited "") earlier tx := by
  obtain ⟨status, w, hw, hsigned, hbase⟩ := exists_signed_debit
  obtain ⟨row, t, tx, r, earlier, hsign, hask⟩ := exists_signed hsigned
  obtain ⟨hvalue, -, hgas, -, -, hshape⟩ := signs_three_shapes rfl hw
    (fun baseFee hb => of_decide_eq_true (List.all_eq_true.mp hbase _ hb)) hsign
  exact ⟨earlier, tx, hask, hvalue, hgas, hshape⟩

end Sample

/-! ### The authority for a debit -/

/-- What a call has read about the channel of a debit: the channel as it stood at `instant`, and a
signature of its depositor over exactly this debit. -/
structure AuthorizedOn (i : Instance) (call : DebitCall) (channel : Channel) (instant : Nat)
    (earlier : List Event) : Prop where
  read : .rpc (.getChannel i.escrow call.channelId) (.ok channel) ∈ session earlier
  clock : .clock instant ∈ session earlier
  admissible : Admissible i (seconds instant) channel call
  unused : .rpc (.receiptUsed i.escrow call.receiptId (some call.channelId)) (.ok false) ∈
    session earlier
  signed : ∃ digest signer, Eip712.debitDigest i.ext (separator i) call.channelId i.address
      channel.token call.amount call.receiptId channel.nonce call.deadline = .ok digest ∧
    i.ext.recover digest call.signature = .ok signer ∧ lower signer = lower channel.depositor

/-- The depositor of a channel, read in the same call, has signed a debit of it. -/
def Authorized (i : Instance) (call : DebitCall) (earlier : List Event) : Prop :=
  ∃ channel instant, AuthorizedOn i call channel instant earlier

theorem checkDepositor_eq_none {call : DebitCall} {channel : Channel}
    (h : checkDepositor i call channel = .ok none) :
    ∃ digest signer, Eip712.debitDigest i.ext (separator i) call.channelId i.address channel.token
        call.amount call.receiptId channel.nonce call.deadline = .ok digest ∧
      i.ext.recover digest call.signature = .ok signer ∧ lower signer = lower channel.depositor := by
  obtain ⟨digest, hdigest, h⟩ := bind_ok_iff.mp h
  split at h
  · cases h
  · rename_i signer hsigner
    split at h
    · cases h
    · rename_i hsame
      exact ⟨digest, signer, hdigest, hsigner, not_not.mp hsame⟩

theorem DebitEvidence.authorized {body : Bytes} {env : Envelope} {call : DebitCall}
    {channel : Channel} {fees : Fees} {log : List Event}
    (h : DebitEvidence i body env call channel fees log) : Authorized i call log := by
  obtain ⟨instant, ht, hstate⟩ := h.admitted
  exact ⟨channel, instant, h.read, ht, channelState_eq_none i hstate, h.unused,
    checkDepositor_eq_none h.depositor⟩

/-- What a plan of a request signs is the data of its envelope. -/
theorem Justified.data_of_envelope {p : Plan} {log : List Event} {body : Bytes} {env : Envelope}
    (row : SpendRow) (h : Justified i log p) (hask : request log = some (.handle body))
    (henv : parseEnvelope i body = .ok env) : (p.tx i row).data = hexString env.data := by
  cases p with
  | debit body' env' call' channel fees =>
    cases Option.some.inj (h.asked.symm.trans hask)
    cases Except.ok.inj (h.envelope.symm.trans henv)
    rfl
  | expire body' env' call' fees =>
    cases Option.some.inj (h.asked.symm.trans hask)
    cases Except.ok.inj (h.envelope.symm.trans henv)
    rfl
  | sweep recipient balance data' receipt fees => cases h.asked.symm.trans hask

/-- A plan of a request that signs the bytes of a debit has the authority for that debit. -/
theorem Justified.authorized {p : Plan} {log : List Event} {body data : Bytes} {call : DebitCall}
    {row : SpendRow} (h : Justified i log p) (hask : request log = some (.handle body))
    (hdata : (p.tx i row).data = hexString data)
    (hdec : Calldata.decodeDebit i.ext data = .ok call) : Authorized i call log := by
  cases p with
  | debit body' env call' channel fees =>
    have henv : env.data = data := hexString_injective hdata
    have hcall : Calldata.decodeDebit i.ext data = .ok call' := henv ▸ h.decoded
    cases Except.ok.inj (hcall.symm.trans hdec)
    exact DebitEvidence.authorized h
  | expire body' env call' fees =>
    have henv : env.data = data := hexString_injective hdata
    have hcall : Calldata.decodeExpire i.ext data = .ok call' := henv ▸ h.decoded
    exact absurd hcall (Calldata.decodeExpire_ne_debit _ hdec)
  | sweep recipient balance data' receipt fees => cases h.asked.symm.trans hask

/-- Whenever a request has a debit signed, the same call has read a channel that admits the debit
and has recovered the channel's depositor from the signature over exactly that debit.  No two
debits, hubs, tokens or channel nonces share a digest. -/
theorem debits_authorized :
    (∀ (w₀ w : World) (status : Status), w₀.log = [] →
      Onwards i (fun _ _ _ => True) w₀ status w →
      ∀ (row : SpendRow) (t : Nat) (tx : Tx) (r : Except Exn Bytes) (earlier : List Event)
        (body data : Bytes) (call : DebitCall), .sign row t tx r :: earlier <:+ w.log →
        request earlier = some (.handle body) → tx.data = hexString data →
        Calldata.decodeDebit i.ext data = .ok call → Authorized i call earlier) ∧
    (Function.Injective i.ext.keccak →
      ∀ (separator digest channelId channelId' receiptId receiptId' : Bytes)
        (hub hub' token token' : String) (amount amount' nonce nonce' deadline deadline' : Int),
        channelId.length = 32 → channelId'.length = 32 → receiptId.length = 32 →
        receiptId'.length = 32 →
        Eip712.debitDigest i.ext separator channelId hub token amount receiptId nonce deadline =
          .ok digest →
        Eip712.debitDigest i.ext separator channelId' hub' token' amount' receiptId' nonce'
          deadline' = .ok digest →
        channelId = channelId' ∧ Eip712.addressWord hub = Eip712.addressWord hub' ∧
          Eip712.addressWord token = Eip712.addressWord token' ∧ amount = amount' ∧
          receiptId = receiptId' ∧ nonce = nonce' ∧ deadline = deadline') := by
  constructor
  · intro w₀ w status hlog h row t tx r earlier body data call hsign hask hdata hdec
    obtain ⟨p, hp, rfl⟩ := justified_of_signed hlog h hsign
    exact hp.authorized hask hdata hdec
  · intro hk separator digest channelId channelId' receiptId receiptId' hub hub' token token'
      amount amount' nonce nonce' deadline deadline' hc hc' hr hr' h h'
    exact Eip712.debitDigest_injective hk h h' (hc.trans hc'.symm) (hr.trans hr'.symm)

section Sample

open EscrowSigner.Sample

/-- A debit is signed on its depositor's authority, and two spellings of a hub share a digest. -/
theorem debits_authorized_of_debit :
    (∃ earlier, request earlier = some (.handle [1]) ∧
      Authorized (signer unlimited "") (debitCall 1) earlier) ∧
    Eip712.addressWord address = Eip712.addressWord (String.ofList (address.toList.drop 2)) := by
  constructor
  · obtain ⟨status, w, hw, hsigned, -⟩ := exists_signed_debit
    obtain ⟨row, t, tx, r, earlier, hsign, hask⟩ := exists_signed hsigned
    obtain ⟨p, hp, rfl⟩ := justified_of_signed rfl hw hsign
    have hdec : Calldata.decodeDebit externals (debitData 1) = .ok (debitCall 1) :=
      eq_ok_of_toOption (by decide +kernel)
    have henv : parseEnvelope (signer unlimited "") [1] =
        .ok ⟨escrow, debitData 1, Config.chainId, 100000, 0⟩ := parse_payload rfl rfl
    have hdata := hp.data_of_envelope row hask henv
    dsimp only at hdata
    exact ⟨earlier, hask, debits_authorized.1 _ w status rfl hw row t _ r earlier [1]
      (debitData 1) (debitCall 1) hsign hask hdata hdec⟩
  · let digestOf hub := Eip712.debitDigest injective.ext [] (zeroBytes 32) hub address 1
      (zeroBytes 32) 0 0
    obtain ⟨digest, hdigest⟩ := Option.isSome_iff_exists.mp
      (show (digestOf address).toOption.isSome = true by decide +kernel)
    have hother : (digestOf (String.ofList (address.toList.drop 2))).toOption =
        (digestOf address).toOption := by decide +kernel
    exact ((debits_authorized (i := injective)).2 Function.injective_id [] digest _ _ _ _ _ _ _ _ _ _
      _ _ _ _ rfl rfl rfl rfl (eq_ok_of_toOption hdigest)
      (eq_ok_of_toOption (hother.trans hdigest))).2.1

end Sample

end EscrowSigner.Machine
