import EscrowSigner.Calldata
import EscrowSigner.Eip712
import EscrowSigner.Ledger.Reserve

/-! What the signer decides, and the checks of a request that read nothing but the request and the
clock: the envelope, the fields of a debit and the state of its channel. -/

namespace EscrowSigner.Policy

/-- The channel under which the ledger books the sweeps of proceeds. -/
def sweepChannel : String := "sweep:proceeds"

/-- A sweep without a receipt for longer than this is released. -/
def sweepGiveUpS : Int := 86400

structure Decision where
  status : Int
  body : List (String × Json)
  reasonCode : String
  receiptId : String
  channelId : String
  amountUnits : Int
  digest16 : String
  txHash : String
  decision : String

/-- What a request has in common with its decision. -/
structure Common where
  receiptId : String
  channelId : String
  amountUnits : Int
  digest16 : String
deriving DecidableEq, Repr

def Common.none : Common := ⟨"", "", 0, ""⟩

/-- `_refuse`, with the delay before a retry where the caller passes one. -/
def refuse (status : Int) (reason : String) (c : Common) (retryAfterS : Option Int := .none) :
    Decision where
  status := status
  body := ("error", .str reason) :: (retryAfterS.toList.map fun n => ("retry_after_s", .int n))
  reasonCode := reason
  receiptId := c.receiptId
  channelId := c.channelId
  amountUnits := c.amountUnits
  digest16 := c.digest16
  txHash := ""
  decision := "refused"

/-- A decision that answers 200 with a hash. -/
def answer (txHash decision : String) (replayed : Bool) (c : Common) : Decision where
  status := 200
  body := [("tx_hash", .str txHash), ("replayed", .bool replayed)]
  reasonCode := ""
  receiptId := c.receiptId
  channelId := c.channelId
  amountUnits := c.amountUnits
  digest16 := c.digest16
  txHash := txHash
  decision := decision

/-- `_debit_deadline`: the last second at which `debitChannel` is accepted. -/
def debitDeadline (channel : Channel) : Int :=
  channel.expiresAt + if channel.v2 then Config.escrowV2SettleWindowS else 0

/-- `_channel_bytes`: the channel of a row as bytes, nothing for a label. -/
def channelBytes (ledgerChannelId : String) : Option Bytes :=
  let raw := ledgerChannelId.toList
  if raw.length ≠ 66 ∨ ¬ ['0', 'x'] <+: raw then none else fromHexChars (raw.drop 2)

/-! ### The envelope -/

structure Envelope where
  toAddr : String
  data : Bytes
  chainId : Int
  gas : Int
  value : Int
deriving DecidableEq, Repr

def envelopeKeys : List String := ["to", "data", "chainId", "gas", "value"]

/-- The items of a value that is a dictionary with exactly the keys `keys`. -/
def itemsWith (keys : List String) : Json → Option (List (String × Json))
  | .obj items =>
    if (∀ item ∈ items, item.1 ∈ keys) ∧ ∀ key ∈ keys, (items.lookup key).isSome then some items
    else none
  | _ => none

/-- An integer of the envelope; a JSON `true` does not pass as one. -/
def intField (items : List (String × Json)) (key : String) : Option Int :=
  match items.lookup key with
  | some (.int n) => some n
  | _ => none

variable (i : Instance)

/-- The bytes of the pinned escrow. -/
def escrowBytes : Bytes := (fromHexChars (i.escrow.toList.drop 2)).getD []

/-- The checks on `to`: a string of 42 characters that spells the escrow. -/
def isEscrow : Json → Option String
  | .str text =>
    if text.toList.length ≠ 42 ∨ ¬ ['0', 'x'] <+: text.toList then none
    else match fromHexChars (text.toList.drop 2) with
      | some raw => if raw.length ≠ 20 ∨ raw ≠ escrowBytes i then none else some text
      | none => none
  | _ => none

/-- The part of `_parse_envelope` after the three integers were read. -/
def parseTransaction (items : List (String × Json)) (chainId gas value : Int) :
    Except Decision Envelope :=
  if value ≠ Config.txValue then .error (refuse 422 "value_not_zero" .none)
  else if chainId ≠ Config.chainId then .error (refuse 422 "wrong_chain" .none)
  else match isEscrow i ((items.lookup "to").getD .null) with
    | none => .error (refuse 422 "to_not_escrow" .none)
    | some toAddr =>
      match Calldata.parseHexBytes ((items.lookup "data").getD .null) "calldata_length" with
      | .error (.calldata reason _) => .error (refuse 422 reason .none)
      | .error _ => .error (refuse 422 "calldata_length" .none)
      | .ok data =>
        if gas ≤ 0 then .error (refuse 400 "envelope_invalid" .none)
        else .ok ⟨toAddr, data, chainId, gas, value⟩

/-- `_parse_envelope`: the envelope, or the decision that refuses it. -/
def parseEnvelope (rawBody : Bytes) : Except Decision Envelope :=
  match i.ext.loads rawBody with
  | none => .error (refuse 400 "malformed_json" .none)
  | some payload =>
    match itemsWith ["transaction"] payload with
    | none => .error (refuse 400 "envelope_invalid" .none)
    | some outer =>
      match itemsWith envelopeKeys ((outer.lookup "transaction").getD .null) with
      | none => .error (refuse 400 "envelope_invalid" .none)
      | some items =>
        match intField items "chainId", intField items "gas", intField items "value" with
        | some chainId, some gas, some value => parseTransaction i items chainId gas value
        | _, _, _ => .error (refuse 400 "envelope_invalid" .none)

/-- A decision that refuses a body before its calldata is decoded. -/
def RefusesBody (d : Decision) : Prop :=
  ∃ status reason, (status = 400 ∨ status = 422) ∧ d = refuse status reason .none

theorem refusesBody_of_error {status : Int} {reason : String} {d : Decision}
    (hs : status = 400 ∨ status = 422)
    (h : Except.error (refuse status reason .none) = (.error d : Except Decision Envelope)) :
    RefusesBody d := by
  cases h
  exact ⟨status, reason, hs, rfl⟩

theorem parseTransaction_error {items : List (String × Json)} {chainId gas value : Int}
    {d : Decision} (h : parseTransaction i items chainId gas value = .error d) : RefusesBody d := by
  unfold parseTransaction at h
  split at h
  · exact refusesBody_of_error (by decide) h
  split at h
  · exact refusesBody_of_error (by decide) h
  cases hto : isEscrow i ((items.lookup "to").getD .null) with
  | none =>
    rw [hto] at h
    exact refusesBody_of_error (by decide) h
  | some toAddr =>
    rw [hto] at h
    dsimp only at h
    split at h
    · exact refusesBody_of_error (by decide) h
    · exact refusesBody_of_error (by decide) h
    · split at h
      · exact refusesBody_of_error (by decide) h
      · cases h

/-- A request that is not understood is refused. -/
theorem parseEnvelope_error {rawBody : Bytes} {d : Decision}
    (h : parseEnvelope i rawBody = .error d) : RefusesBody d := by
  unfold parseEnvelope at h
  split at h
  · exact refusesBody_of_error (by decide) h
  split at h
  · exact refusesBody_of_error (by decide) h
  split at h
  · exact refusesBody_of_error (by decide) h
  split at h
  · exact parseTransaction_error i h
  · exact refusesBody_of_error (by decide) h

theorem RefusesBody.status {d : Decision} (h : RefusesBody d) : d.status = 400 ∨ d.status = 422 := by
  obtain ⟨status, reason, hs, rfl⟩ := h
  exact hs

/-! ### The fields of a debit and the state of its channel -/

/-- `_field_sanity`, at the time `now`. -/
def fieldSanity (now : Int) (call : Calldata.DebitCall) : Option String :=
  if call.amount < Config.minAmountUnits ∨ call.amount > Config.maxAmountUnits then
    some "amount_out_of_band"
  else if call.amount % Config.centUnits ≠ 0 then some "amount_out_of_band"
  else if call.receiptId = zeroBytes 32 then some "receipt_id_zero"
  else if call.channelId = zeroBytes 32 then some "channel_id_zero"
  else if call.deadline < now + Config.minDeadlineSkewS then some "deadline_out_of_band"
  else if call.deadline > now + Config.maxDeadlineTtlS then some "deadline_out_of_band"
  else none

/-- `_channel_state`, at the time `now`. -/
def channelState (now : Int) (channel : Channel) (call : Calldata.DebitCall) :
    Except Exn (Option String) := do
  if !(← channel.present) then return some "channel_not_found"
  else if !channel.isOpen then return some "channel_not_open"
  else if debitDeadline channel ≤ now + Config.channelMinRemainingS then
    return some "channel_expiring"
  else if channel.balance < call.amount then return some "insufficient_balance"
  else if lower channel.token ≠ lower Config.token then return some "token_not_allowed"
  else if (← intOfHex channel.hub) ≠ 0 ∧ lower channel.hub ≠ lower i.address then
    return some "channel_bound_elsewhere"
  else return none

/-- What a channel without an objection is. -/
structure Admissible (now : Int) (channel : Channel) (call : Calldata.DebitCall) : Prop where
  present : channel.present = .ok true
  isOpen : channel.isOpen = true
  deadline : now + Config.channelMinRemainingS < debitDeadline channel
  balance : call.amount ≤ channel.balance
  token : lower channel.token = lower Config.token
  hub : intOfHex channel.hub = .ok 0 ∨
    (∃ n, intOfHex channel.hub = .ok n) ∧ lower channel.hub = lower i.address

theorem channelState_eq_none {now : Int} {channel : Channel} {call : Calldata.DebitCall}
    (h : channelState i now channel call = .ok none) : Admissible i now channel call := by
  obtain ⟨present, hpresent, h⟩ := bind_ok_iff.mp h
  cases present with
  | false => cases h
  | true =>
    simp only [Bool.not_true, Bool.false_eq_true, if_false] at h
    iterate 4 (split at h; · cases h)
    rename_i hopen hdeadline hbalance htoken
    obtain ⟨hub, hhub, h⟩ := bind_ok_iff.mp h
    split at h
    · cases h
    rename_i hbound
    rw [not_and_or, not_not, not_not] at hbound
    refine ⟨hpresent, by simpa using hopen, not_le.mp hdeadline, not_lt.mp hbalance,
      not_not.mp htoken, ?_⟩
    rcases hbound with rfl | hl
    · exact .inl hhub
    · exact .inr ⟨⟨hub, hhub⟩, hl⟩

end EscrowSigner.Policy
