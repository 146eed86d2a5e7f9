import EscrowSigner.Policy.Signer

/-! What the HTTP handler does with a body of the right size: the decision is audited before it is
answered. -/

namespace EscrowSigner.Server

open Policy

variable (i : Instance)

/-- The audit row of a decision; what is empty or zero is stored as `NULL`. -/
def requestFields (d : Decision) : Ledger.AuditFields where
  kind := "request"
  decision := d.decision
  httpStatus := d.status
  reasonCode := d.reasonCode
  chainId := some Config.chainId
  escrow := some i.escrow
  receiptId := if d.receiptId = "" then none else some d.receiptId
  channelId := if d.channelId = "" then none else some d.channelId
  amountUnits := if d.amountUnits = 0 then none else some d.amountUnits
  digest16 := d.digest16
  txHash := d.txHash

/-- `_decide`: audits a decision and answers it.  A success that cannot be audited is answered as a
failure; a refusal is answered as it is. -/
def decide (d : Decision) : Code Decision := do
  match ← (Ledger.audit i.ext (requestFields i d)).attempt with
  | .ok () => return d
  | .error _ => if d.status < 400 then return refuse 503 "ledger_unavailable" .none else return d

/-- The end of `do_POST`, under the signing lock. -/
def post (rawBody : Bytes) : Code Decision := do
  match ← (handle i rawBody).attempt with
  | .ok d => decide i d
  | .error _ => decide i (refuse 500 "internal_error" .none)

end EscrowSigner.Server
