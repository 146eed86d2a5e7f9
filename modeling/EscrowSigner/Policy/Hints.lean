import EscrowSigner.Codec
import EscrowSigner.History
import EscrowSigner.Policy.Alike
import EscrowSigner.Policy.Signer

/-! The caller's gas hint and spelling.  Two bodies with one transaction are decided alike, and what
they leave behind differs in the stored hint of one row. -/

namespace EscrowSigner.Policy

open Process
open Calldata (DebitCall)

variable {i : Instance} {k : Key} {w w' : World} {env env' : Envelope} {r r' : SpendRow}

/-- Two envelopes with one transaction and hints that both pass. -/
structure SameTransaction (env env' : Envelope) : Prop where
  data : env'.data = env.data
  toAddr : lower env'.toAddr = lower env.toAddr
  gas : ¬ env.gas > Config.gasHardCap
  gas' : ¬ env'.gas > Config.gasHardCap
  fits : inInt64 env.gas = true
  fits' : inInt64 env'.gas = true

/-! ### From the reservation on -/

/-- Two answers of a road that say the same. -/
structure AnswersAlike {α : Type} (k : Key) (q : Answers α) : Prop where
  refused : ∀ status reason {w w'}, WorldAlike k w w' →
    Alike k Eq (q.refused status reason) (q.refused status reason) w w'
  unavailable : ∀ {w w'}, WorldAlike k w w' → Alike k Eq q.unavailable q.unavailable w w'
  accepted : ∀ txHash {w w'}, WorldAlike k w w' →
    Alike k Eq (q.accepted txHash) (q.accepted txHash) w w'

theorem answersAlike_request (common : Common) (receiptId : String) :
    AnswersAlike k (requestAnswers common receiptId) where
  refused _ _ _ _ hw := ⟨rfl, hw⟩
  unavailable hw := ⟨rfl, hw⟩
  accepted _ _ _ hw := ⟨rfl, hw⟩

section Road

variable {α : Type} {q : Answers α}

theorem alike_broadcastRow (raw : Bytes) (txHash : String) (hq : AnswersAlike k q)
    (hw : WorldAlike k w w') (hr : RowAlike k r r') :
    Alike k Eq (broadcastRow i r raw txHash q) (broadcastRow i r' raw txHash q) w w' := by
  refine (alike_rpc (.sendRaw raw) hw).attempt.bind fun s s' w w' h => ?_
  cases s with
  | ok a =>
    cases s' with
    | ok a' => exact (alike_markBroadcast txHash h.2 hr).bind fun _ _ _ _ h => hq.accepted txHash h.2
    | error e' => exact h.elim
  | error e =>
    cases s' with
    | ok a' => exact h.elim
    | error e' =>
      obtain ⟨rfl, hw⟩ := h
      cases e with
      | reverted name => exact (alike_markDead _ hw hr).bind fun _ _ _ _ h => hq.refused _ _ h.2
      | rpcUnavailable message => exact hq.unavailable hw
      | _ => exact .raise hw

theorem alike_signRow (tx : Tx) (hq : AnswersAlike k q) (hw : WorldAlike k w w')
    (hr : RowAlike k r r') : Alike k Eq (signRow i r tx q) (signRow i r' tx q) w w' := by
  refine (alike_signTransaction hw hr).attempt.bind fun s s' w w' h => ?_
  cases s with
  | ok raw =>
    cases s' with
    | ok raw' =>
      obtain ⟨rfl, hw⟩ := h
      exact (alike_markSigned _ _ hw hr).bind fun _ _ _ _ h => alike_broadcastRow raw _ hq h.2 hr
    | error e' => exact h.elim
  | error e =>
    cases s' with
    | ok raw' => exact h.elim
    | error e' =>
      obtain ⟨rfl, hw⟩ := h
      exact (alike_markDead _ hw hr).bind fun _ _ _ _ h => hq.refused _ _ h.2

theorem alike_simulateRow (data : Bytes) {next next' : Code α} (hq : AnswersAlike k q)
    (hw : WorldAlike k w w') (hr : RowAlike k r r')
    (hnext : ∀ {w w'}, WorldAlike k w w' → Alike k Eq next next' w w') :
    Alike k Eq (simulateRow i r data q next) (simulateRow i r' data q next') w w' := by
  refine (alike_rpc (.simulate i.escrow data i.address) hw).attempt.bind fun s s' w w' h => ?_
  cases s with
  | ok a =>
    cases s' with
    | ok a' => exact hnext h.2
    | error e' => exact h.elim
  | error e =>
    cases s' with
    | ok a' => exact h.elim
    | error e' =>
      obtain ⟨rfl, hw⟩ := h
      cases e with
      | reverted name => exact (alike_markDead _ hw hr).bind fun _ _ _ _ h => hq.refused _ _ h.2
      | rpcUnavailable message =>
        exact (alike_markDead _ hw hr).bind fun _ _ _ _ h => hq.refused _ _ h.2
      | _ => exact (alike_markDead _ hw hr).bind fun _ _ _ _ h => .raise h.2

end Road

theorem alike_refuseReservation (common : Common) (e : Exn) (hw : WorldAlike k w w') :
    Alike k Eq (refuseReservation common e) (refuseReservation common e) w w' := by
  cases e with
  | capBreach name retryAfterS => exact ⟨rfl, hw⟩
  | clockRegression message => exact ⟨rfl, hw⟩
  | ledgerUnavailable message => exact ⟨rfl, hw⟩
  | _ => exact .raise hw

/-! ### Debits -/

theorem alike_signDebit (h : SameTransaction env env') (call : DebitCall) (channel : Channel)
    (common : Common) (fees : Fees) (w : World) :
    Alike (receiptKey i (hexString call.receiptId)) Eq (signDebit i env call channel common fees)
      (signDebit i env' call channel common fees) w w := by
  have hrequest : debitRequest i env'.toAddr env'.data env'.gas call channel fees =
      { debitRequest i env.toAddr env.data env.gas call channel fees with
        hubGasHint := env'.gas } := by
    unfold debitRequest
    rw [h.data, h.toAddr]
  have hreserve : Alike (receiptKey i (hexString call.receiptId)) (RowAlike _)
      (Ledger.reserve i.ext i.settings.caps
        (debitRequest i env.toAddr env.data env.gas call channel fees))
      (Ledger.reserve i.ext i.settings.caps
        { debitRequest i env.toAddr env.data env.gas call channel fees with
          hubGasHint := env'.gas }) w w :=
    alike_reserve (a := debitRequest i env.toAddr env.data env.gas call channel fees) rfl h.fits
      h.fits' w
  unfold signDebit
  rw [hrequest, h.data]
  refine hreserve.attempt.bind fun s s' w w' hs => ?_
  cases s with
  | ok row =>
    cases s' with
    | ok row' =>
      obtain ⟨hrow, hw⟩ := hs
      refine alike_simulateRow env.data (answersAlike_request common _) hw hrow fun hw => ?_
      obtain ⟨n, rfl⟩ := hrow.exists_hint
      exact alike_signRow _ (answersAlike_request common _) hw hrow
    | error e' => exact hs.elim
  | error e =>
    cases s' with
    | ok row' => exact hs.elim
    | error e' =>
      obtain ⟨rfl, hw⟩ := hs
      exact alike_refuseReservation common e hw

/-- A code that both runs share. -/
theorem alike_same {α : Type} (p : Code α) (w : World) : Alike k Eq p p w w :=
  (Lockstep.refl (WorldAlike.refl k) p w).mono fun a a' w w' h => by
    obtain ⟨rfl, rfl⟩ := h
    exact ⟨rfl, .refl k _⟩

theorem alike_priceDebit (h : SameTransaction env env') (call : DebitCall) (channel : Channel)
    (common : Common) (w : World) :
    Alike (receiptKey i (hexString call.receiptId)) Eq (priceDebit i env call channel common)
      (priceDebit i env' call channel common) w w := by
  unfold priceDebit
  rw [h.data]
  refine Lockstep.behind (WorldAlike.refl _) fun read w => ?_
  cases read with
  | error e => exact alike_same _ w
  | ok fees =>
    obtain ⟨estimate, baseFee⟩ := fees
    dsimp only
    cases priceFees i estimate baseFee with
    | error refusal => exact alike_same _ w
    | ok fees => exact alike_signDebit h call channel common fees w

theorem alike_freshDebit (h : SameTransaction env env') (call : DebitCall) (common : Common)
    (w : World) : Alike (receiptKey i (hexString call.receiptId)) Eq (freshDebit i env call common)
      (freshDebit i env' call common) w w := by
  refine Lockstep.behind (WorldAlike.refl _) fun admitted w => ?_
  cases admitted with
  | error e => cases e <;> exact alike_same _ w
  | ok admitted =>
    cases admitted with
    | error reason => exact alike_same _ w
    | ok channel =>
      refine Lockstep.behind (WorldAlike.refl _) fun refusal w => ?_
      cases refusal with
      | some reason => exact alike_same _ w
      | none => exact alike_priceDebit h call channel common w

theorem alike_handleDebit (h : SameTransaction env env') (call : DebitCall) (digest16 : String)
    (w : World) : Alike (receiptKey i (hexString call.receiptId)) Eq
      (handleDebit i env call digest16) (handleDebit i env' call digest16) w w := by
  refine Lockstep.behind (WorldAlike.refl _) fun time w => ?_
  cases fieldSanity time call with
  | some reason => exact alike_same _ w
  | none =>
    dsimp only
    rw [if_neg h.gas, if_neg h.gas', h.data]
    refine Lockstep.behind (WorldAlike.refl _) fun existing w => ?_
    cases existing with
    | none => exact alike_freshDebit h call _ w
    | some existing =>
      have hreplay : ∀ channelId calldataKeccak common,
          replay i existing env'.toAddr channelId call calldataKeccak common =
            replay i existing env.toAddr channelId call calldataKeccak common := by
        intro channelId calldataKeccak common
        unfold replay
        rw [h.toAddr]
      dsimp only
      rw [hreplay]
      refine Lockstep.behind (WorldAlike.refl _) fun answered w => ?_
      cases answered with
      | some decision => exact alike_same _ w
      | none => exact alike_freshDebit h call _ w

/-! ### Requests -/

/-- A collection is decided by the same code. -/
theorem handleExpire_same (h : SameTransaction env env') (digest16 : String) :
    handleExpire i env' digest16 = handleExpire i env digest16 := by
  have hsign : ∀ pseudoReceipt channelId common fees,
      signExpire i env' pseudoReceipt channelId common fees =
        signExpire i env pseudoReceipt channelId common fees := by
    intro pseudoReceipt channelId common fees
    unfold signExpire
    rw [h.data, h.toAddr]
  have hprice : ∀ pseudoReceipt channelId common,
      priceExpire i env' pseudoReceipt channelId common =
        priceExpire i env pseudoReceipt channelId common := by
    intro pseudoReceipt channelId common
    unfold priceExpire
    simp only [h.data, hsign]
  have hfresh : ∀ call pseudoReceipt channelId common,
      freshExpire i env' call pseudoReceipt channelId common =
        freshExpire i env call pseudoReceipt channelId common := by
    intro call pseudoReceipt channelId common
    unfold freshExpire
    simp only [hprice]
  unfold handleExpire
  simp only [h.data, if_neg h.gas, if_neg h.gas', hfresh]

/-- The key of the debit that some data asks for. -/
def debitKey (i : Instance) (data : Bytes) : Key :=
  match Calldata.decodeDebit i.ext data with
  | .ok call => receiptKey i (hexString call.receiptId)
  | .error _ => receiptKey i ""

theorem alike_dispatch (h : SameTransaction env env') (w : World) :
    Alike (debitKey i env.data) Eq (dispatch i env) (dispatch i env') w w := by
  unfold dispatch
  rw [h.data]
  dsimp only
  split
  · rw [handleExpire_same h]
    exact alike_same _ w
  split
  · exact alike_same _ w
  unfold decodeRequest debitKey
  rw [h.data]
  cases Calldata.decodeDebit i.ext env.data with
  | error e => cases e <;> exact alike_same _ w
  | ok call =>
    dsimp only [Bind.bind, Except.bind]
    cases Calldata.checkSignatureShape call with
    | error e => cases e <;> exact alike_same _ w
    | ok u => exact alike_handleDebit h call _ w

theorem alike_handle {body body' : Bytes} (henv : parseEnvelope i body = .ok env)
    (henv' : parseEnvelope i body' = .ok env') (h : SameTransaction env env') (w : World) :
    Alike (debitKey i env.data) Eq (handle i body) (handle i body') w w := by
  refine Lockstep.behind (WorldAlike.refl _) fun haltReason w => ?_
  split
  · exact alike_same _ w
  refine Lockstep.behind (WorldAlike.refl _) fun mem w => ?_
  split
  · exact alike_same _ w
  rw [henv, henv']
  exact alike_dispatch h w

/-- What was parsed names the escrow and carries a positive hint. -/
theorem parsed {body : Bytes} (h : parseEnvelope i body = .ok env) :
    lower env.toAddr = lower i.escrow ∧ 0 < env.gas := by
  unfold parseEnvelope at h
  split at h
  · cases h
  split at h
  · cases h
  split at h
  · cases h
  split at h
  · unfold parseTransaction at h
    split at h
    · cases h
    split at h
    · cases h
    split at h
    · cases h
    rename_i toAddr hto
    split at h
    · cases h
    · cases h
    · split at h
      · cases h
      · rename_i hgas
        cases h
        have hstr := eq_str_of_isEscrow hto
        rw [hstr] at hto
        exact ⟨(isEscrow_eq_some.mp hto).2.2, not_le.mp hgas⟩
  · cases h

/-- Of two bodies with one calldata and hints up to the hard cap, from one world and under the same
choices: the signer ends alike, with the same decision, and leaves worlds that differ in nothing but
the stored hint of the debit's row. -/
theorem hint_never_signed {body body' : Bytes} (henv : parseEnvelope i body = .ok env)
    (henv' : parseEnvelope i body' = .ok env') (hdata : env'.data = env.data)
    (hgas : env.gas ≤ Config.gasHardCap) (hgas' : env'.gas ≤ Config.gasHardCap)
    (script : List Choice) (w : World) :
    ((handle i body').run script w).1 = ((handle i body).run script w).1 ∧
      WorldAlike (debitKey i env.data) ((handle i body).run script w).2
        ((handle i body').run script w).2 := by
  have hfits : ∀ gas : Int, 0 < gas → gas ≤ Config.gasHardCap → inInt64 gas = true := by
    intro gas hpos hcap
    unfold Config.gasHardCap at hcap
    simp only [inInt64, Bool.and_eq_true, decide_eq_true_eq]
    omega
  have hsame : SameTransaction env env' :=
    { data := hdata
      toAddr := (parsed henv').1.trans (parsed henv).1.symm
      gas := Int.not_lt.mpr hgas
      gas' := Int.not_lt.mpr hgas'
      fits := hfits _ (parsed henv).2 hgas
      fits' := hfits _ (parsed henv').2 hgas' }
  exact ((alike_handle henv henv' hsame w).run script).same

/-! ### A sample -/

namespace Sample

open EscrowSigner.Sample

/-- A transaction with the hint `gas`. -/
def hinted (data : Bytes) (gas : Int) : Json :=
  .obj [("transaction", .obj [("to", .str escrow), ("data", .str (hexString data)),
    ("chainId", .int Config.chainId), ("gas", .int gas), ("value", .int 0)])]

/-- An instance whose bodies are the debit of one cent with different hints. -/
def hintReader : Instance :=
  { signer unlimited "" with
    ext := { externals with
      loads := fun
        | [gas] => some (hinted (debitData 1) gas.toNat)
        | _ => none } }

/-- Nothing special happens. -/
def quiet : List Choice := ({ time := 1000 } : Outside).script

/-- The world after a boot on an empty ledger. -/
def booted : World := ((Policy.boot hintReader).run quiet .initial).2

theorem parse_hinted {i : Instance} {body data : Bytes} {gas : Int} (hi : i.escrow = escrow)
    (h : i.ext.loads body = some (hinted data gas)) (hgas : 0 < gas) :
    parseEnvelope i body = .ok ⟨escrow, data, Config.chainId, gas, 0⟩ := by
  simp [parseEnvelope, h, hinted, itemsWith, envelopeKeys, intField, parseTransaction,
    isEscrow_escrow hi, Calldata.parseHexBytes_hexString, Config.txValue, List.lookup_cons, hgas]

end Sample

/-- The debit of one cent with the hints 50 and 60, from the world that a boot leaves. -/
theorem hint_never_signed_sample :
    ((handle Sample.hintReader [60]).run Sample.quiet Sample.booted).1 =
      ((handle Sample.hintReader [50]).run Sample.quiet Sample.booted).1 := by
  have henv : parseEnvelope Sample.hintReader [50] =
      .ok ⟨EscrowSigner.Sample.escrow, EscrowSigner.Sample.debitData 1, Config.chainId, 50, 0⟩ :=
    Sample.parse_hinted rfl rfl (by decide)
  have henv' : parseEnvelope Sample.hintReader [60] =
      .ok ⟨EscrowSigner.Sample.escrow, EscrowSigner.Sample.debitData 1, Config.chainId, 60, 0⟩ :=
    Sample.parse_hinted rfl rfl (by decide)
  exact (hint_never_signed henv henv' rfl (by decide) (by decide) Sample.quiet Sample.booted).1

end EscrowSigner.Policy
