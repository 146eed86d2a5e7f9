import EscrowSigner.Config

/-! The canonical calldata: `debitChannel` and `expireChannel` decoded strictly, and the `transfer`
that a sweep of proceeds builds. -/

namespace EscrowSigner.Calldata

variable (x : Externals)

def debitSig : String := "debitChannel(bytes32,uint256,bytes32,uint256,bytes)"

def expireSig : String := "expireChannel(bytes32)"

def transferSig : String := "transfer(address,uint256)"

/-- The first four bytes of the hash of a signature. -/
def selector (signature : String) : Bytes := (x.keccak (encode signature)).take 4

def debitSelector : Bytes := selector x debitSig

def expireSelector : Bytes := selector x expireSig

def transferSelector : Bytes := selector x transferSig

def expireLen : Nat := 4 + 32

def sigLen : Nat := 65

def canonicalLen : Nat := 4 + 5 * 32 + 32 + 96

def offsetWord : Nat := 160

def secp256k1N : Nat := 0xFFFFFFFFFFFFFFFFFFFFFFFFFFFFFFFEBAAEDCE6AF48A03BBFD25E8CD0364141

def secp256k1HalfN : Nat := secp256k1N / 2

structure DebitCall where
  channelId : Bytes
  amount : Int
  receiptId : Bytes
  deadline : Int
  signature : Bytes
deriving DecidableEq, Repr

namespace DebitCall

def r (call : DebitCall) : Nat := fromBytes (call.signature.take 32)

def s (call : DebitCall) : Nat := fromBytes ((call.signature.drop 32).take 32)

/-- The last byte of a signature of 65 bytes. -/
def v (call : DebitCall) : Nat := (call.signature.getD 64 0).toNat

end DebitCall

/-- `_word`. -/
def word (value : Int) : Except Exn Bytes := toBytes 32 value

def encodeDebit (call : DebitCall) : Except Exn Bytes :=
  if call.signature.length ≠ sigLen then
    .error (.calldata "calldata_length" "signature must be 65 bytes")
  else do
    let amount ← word call.amount
    let deadline ← word call.deadline
    let offset ← word offsetWord
    let length ← word sigLen
    let head := call.channelId ++ amount ++ call.receiptId ++ deadline ++ offset
    let tail := length ++ call.signature ++ zeroBytes 31
    return debitSelector x ++ head ++ tail

/-- `parse_hex_bytes`: a JSON string that is `0x` and pairs of hexadecimal digits. -/
def parseHexBytes (value : Json) (reason : String) : Except Exn Bytes :=
  match value with
  | .str text =>
    if ¬ ['0', 'x'] <+: text.toList ∨ text.toList.length % 2 ≠ 0 then
      .error (.calldata reason "not 0x-prefixed even-length hex")
    else match fromHexChars (text.toList.drop 2) with
      | some data => .ok data
      | none => .error (.calldata reason "not hex")
  | _ => .error (.calldata reason "not a string")

/-- The spelling of bytes is read as these bytes. -/
theorem parseHexBytes_hexString (data : Bytes) (reason : String) :
    parseHexBytes (.str (hexString data)) reason = .ok data := by
  have heven : (2 * data.length + 1 + 1) % 2 = 0 := by omega
  simp [parseHexBytes, heven]

/-- `data[start:stop]`. -/
def slice (data : Bytes) (start stop : Nat) : Bytes := (data.take stop).drop start

def decodeDebit (data : Bytes) : Except Exn DebitCall :=
  if data.length ≠ canonicalLen then
    .error (.calldata "calldata_length" s!"{data.length} bytes, expected {canonicalLen}")
  else if slice data 0 4 ≠ debitSelector x then
    .error (.calldata "selector_not_allowed" (hexString (slice data 0 4)))
  else
    let offset := fromBytes (slice data 132 164)
    let length := fromBytes (slice data 164 196)
    let call : DebitCall :=
      { channelId := slice data 4 36
        amount := fromBytes (slice data 36 68)
        receiptId := slice data 68 100
        deadline := fromBytes (slice data 100 132)
        signature := slice data 196 261 }
    if offset ≠ offsetWord then
      .error (.calldata "calldata_noncanonical" s!"offset word {offset}")
    else if length ≠ sigLen then
      .error (.calldata "calldata_length" s!"length word {length}")
    else if slice data 261 292 ≠ zeroBytes 31 then
      .error (.calldata "calldata_noncanonical" "non-zero padding")
    else do
      let again ← encodeDebit x call
      if again ≠ data then .error (.calldata "calldata_noncanonical" "re-encode mismatch")
      else return call

structure ExpireCall where
  channelId : Bytes
deriving DecidableEq, Repr

def encodeExpire (call : ExpireCall) : Bytes := expireSelector x ++ call.channelId

def decodeExpire (data : Bytes) : Except Exn ExpireCall :=
  if data.length ≠ expireLen then
    .error (.calldata "calldata_length" s!"{data.length} bytes, expected {expireLen}")
  else if slice data 0 4 ≠ expireSelector x then
    .error (.calldata "selector_not_allowed" (hexString (slice data 0 4)))
  else
    let call : ExpireCall := { channelId := slice data 4 36 }
    if encodeExpire x call ≠ data then
      .error (.calldata "calldata_noncanonical" "re-encode mismatch")
    else .ok call

def encodeTransfer (recipient : String) (amount : Int) : Except Exn Bytes :=
  if ¬ (['0', 'x'] <+: recipient.toList ∧ recipient.toList.length = 42) then .error .valueError
  else if amount ≤ 0 then .error .valueError
  else do
    let raw ← fromHex (recipient.toList.drop 2)
    let amount ← word amount
    return transferSelector x ++ zeroBytes 12 ++ raw ++ amount

/-- Refuses the signatures on which the contract's `ECDSA.recover` would revert. -/
def checkSignatureShape (call : DebitCall) : Except Exn Unit :=
  if ¬ (1 ≤ call.r ∧ call.r < secp256k1N) then
    .error (.calldata "signature_malformed" "r out of range")
  else if ¬ (1 ≤ call.s ∧ call.s < secp256k1N) then
    .error (.calldata "signature_malformed" "s out of range")
  else if call.s > secp256k1HalfN then .error (.calldata "signature_malformed" "high-s")
  else if call.v ≠ 27 ∧ call.v ≠ 28 then
    .error (.calldata "signature_malformed" s!"v={call.v}")
  else .ok ()

/-- What a decoder accepts is the encoding of what it returns. -/
theorem decodeDebit_encode {data : Bytes} {call : DebitCall}
    (h : decodeDebit x data = .ok call) : encodeDebit x call = .ok data := by
  simp only [decodeDebit] at h
  iterate 5 (split at h; · cases h)
  obtain ⟨again, hagain, h⟩ := bind_ok_iff.mp h
  split at h
  · cases h
  · rename_i heq
    cases h
    rw [hagain, not_not.mp heq]

/-- A slice within the data has the length that its bounds say. -/
theorem length_slice {data : Bytes} {start stop : Nat} (h : stop ≤ data.length) :
    (slice data start stop).length = stop - start := by
  simp only [slice, List.length_drop, List.length_take]
  omega

theorem decodeDebit_length {data : Bytes} {call : DebitCall} (h : decodeDebit x data = .ok call) :
    data.length = canonicalLen := by
  simp only [decodeDebit] at h
  split at h
  · cases h
  · rename_i hlength
    exact not_not.mp hlength

/-- The ids of a debit that was decoded have 32 bytes. -/
theorem decodeDebit_ids {data : Bytes} {call : DebitCall} (h : decodeDebit x data = .ok call) :
    call.channelId.length = 32 ∧ call.receiptId.length = 32 := by
  have hlength := decodeDebit_length x h
  unfold canonicalLen at hlength
  simp only [decodeDebit] at h
  iterate 5 (split at h; · cases h)
  obtain ⟨again, -, h⟩ := bind_ok_iff.mp h
  split at h
  · cases h
  · cases h
    exact ⟨length_slice (by omega), length_slice (by omega)⟩

theorem decodeExpire_length {data : Bytes} {call : ExpireCall}
    (h : decodeExpire x data = .ok call) : data.length = expireLen := by
  simp only [decodeExpire] at h
  split at h
  · cases h
  · rename_i hlength
    exact not_not.mp hlength

theorem decodeExpire_encode {data : Bytes} {call : ExpireCall}
    (h : decodeExpire x data = .ok call) : encodeExpire x call = data := by
  simp only [decodeExpire] at h
  iterate 2 (split at h; · cases h)
  split at h
  · cases h
  · rename_i heq
    cases h
    exact not_not.mp heq

theorem decodeExpire_id {data : Bytes} {call : ExpireCall} (h : decodeExpire x data = .ok call) :
    call.channelId.length = 32 := by
  have hlength := decodeExpire_length x h
  unfold expireLen at hlength
  simp only [decodeExpire] at h
  iterate 3 (split at h; · cases h)
  cases h
  exact length_slice (by omega)

/-- No calldata is a debit and a collection at once. -/
theorem decodeExpire_ne_debit {data : Bytes} {call : DebitCall} {call' : ExpireCall}
    (h : decodeDebit x data = .ok call) : decodeExpire x data ≠ .ok call' := by
  intro h'
  have hlength := (decodeDebit_length x h).symm.trans (decodeExpire_length x h')
  exact absurd hlength (by decide)

/-- The data of a transfer is determined by the recipient's bytes and the amount. -/
theorem encodeTransfer_eq {recipient : String} {amount : Int} {raw data : Bytes}
    (hraw : fromHex (recipient.toList.drop 2) = .ok raw)
    (h : encodeTransfer x recipient amount = .ok data) :
    (word amount).map (fun w => transferSelector x ++ zeroBytes 12 ++ raw ++ w) = .ok data := by
  simp only [encodeTransfer] at h
  iterate 2 (split at h; · cases h)
  rw [hraw] at h
  exact h

end EscrowSigner.Calldata
