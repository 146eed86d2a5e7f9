import EscrowSigner.Config

/-! The EIP-712 digest of a debit authorisation, rebuilt from chain state. -/

namespace EscrowSigner.Eip712

variable (x : Externals)

def debitTypeString : String :=
  "DebitAuthorization(bytes32 channelId,address hub,address token,uint256 amount," ++
    "bytes32 receiptId,uint256 nonce,uint256 deadline)"

def domainTypeString : String :=
  "EIP712Domain(string name,string version,uint256 chainId,address verifyingContract)"

def domainName : String := "AIMarketEscrow"

def domainVersion : String := "1"

def debitTypehash : Bytes := x.keccak (encode debitTypeString)

/-- `_address_word`. -/
def addressWord (address : String) : Except Exn Bytes := do
  let cs := address.toList
  let raw ← fromHex (if ['0', 'x'] <+: cs then cs.drop 2 else cs)
  if raw.length ≠ 20 then .error .valueError else return zeroBytes 12 ++ raw

def domainSeparator (chainId : Int) (verifyingContract : String) : Except Exn Bytes := do
  let chain ← toBytes 32 chainId
  let contract ← addressWord verifyingContract
  return x.keccak (x.keccak (encode domainTypeString) ++ x.keccak (encode domainName) ++
    x.keccak (encode domainVersion) ++ chain ++ contract)

/-- The words that are hashed into the struct hash, after the type hash. -/
def debitWords (channelId : Bytes) (hub token : String) (amount : Int) (receiptId : Bytes)
    (nonce deadline : Int) : Except Exn Bytes := do
  let hubWord ← addressWord hub
  let tokenWord ← addressWord token
  let amountWord ← toBytes 32 amount
  let nonceWord ← toBytes 32 nonce
  let deadlineWord ← toBytes 32 deadline
  return channelId ++ hubWord ++ tokenWord ++ amountWord ++ receiptId ++ nonceWord ++ deadlineWord

/-- The digest that `debitChannel` recovers against. -/
def debitDigest (separator channelId : Bytes) (hub token : String) (amount : Int)
    (receiptId : Bytes) (nonce deadline : Int) : Except Exn Bytes := do
  let words ← debitWords channelId hub token amount receiptId nonce deadline
  return x.keccak ([0x19, 0x01] ++ separator ++ x.keccak (debitTypehash x ++ words))

/-! ### Two authorisations with one digest -/

variable {x}

theorem length_addressWord {address : String} {data : Bytes} (h : addressWord address = .ok data) :
    data.length = 32 := by
  obtain ⟨raw, -, h⟩ := bind_ok_iff.mp h
  split at h
  · cases h
  · rename_i hlength
    cases h
    have : raw.length = 20 := not_not.mp hlength
    simp [zeroBytes, this]

variable {channelId channelId' receiptId receiptId' words : Bytes} {hub hub' token token' : String}
  {amount amount' nonce nonce' deadline deadline' : Int}

/-- Words of one width do not run together. -/
theorem debitWords_injective
    (h : debitWords channelId hub token amount receiptId nonce deadline = .ok words)
    (h' : debitWords channelId' hub' token' amount' receiptId' nonce' deadline' = .ok words)
    (hchannel : channelId.length = channelId'.length)
    (hreceipt : receiptId.length = receiptId'.length) :
    channelId = channelId' ∧ addressWord hub = addressWord hub' ∧
      addressWord token = addressWord token' ∧ amount = amount' ∧ receiptId = receiptId' ∧
      nonce = nonce' ∧ deadline = deadline' := by
  obtain ⟨hubWord, hhub, h⟩ := bind_ok_iff.mp h
  obtain ⟨tokenWord, htoken, h⟩ := bind_ok_iff.mp h
  obtain ⟨amountWord, hamount, h⟩ := bind_ok_iff.mp h
  obtain ⟨nonceWord, hnonce, h⟩ := bind_ok_iff.mp h
  obtain ⟨deadlineWord, hdeadline, h⟩ := bind_ok_iff.mp h
  obtain ⟨hubWord', hhub', h'⟩ := bind_ok_iff.mp h'
  obtain ⟨tokenWord', htoken', h'⟩ := bind_ok_iff.mp h'
  obtain ⟨amountWord', hamount', h'⟩ := bind_ok_iff.mp h'
  obtain ⟨nonceWord', hnonce', h'⟩ := bind_ok_iff.mp h'
  obtain ⟨deadlineWord', hdeadline', h'⟩ := bind_ok_iff.mp h'
  cases h
  have heq := Except.ok.inj h'
  simp only [List.append_assoc] at heq
  obtain ⟨hc, hrest⟩ := List.append_inj heq hchannel.symm
  obtain ⟨hh, hrest⟩ := List.append_inj hrest
    ((length_addressWord hhub').trans (length_addressWord hhub).symm)
  obtain ⟨ht, hrest⟩ := List.append_inj hrest
    ((length_addressWord htoken').trans (length_addressWord htoken).symm)
  obtain ⟨ha, hrest⟩ := List.append_inj hrest
    ((length_of_toBytes hamount').trans (length_of_toBytes hamount).symm)
  obtain ⟨hr, hrest⟩ := List.append_inj hrest hreceipt.symm
  obtain ⟨hn, hd⟩ := List.append_inj hrest
    ((length_of_toBytes hnonce').trans (length_of_toBytes hnonce).symm)
  subst hh ht ha hn hd
  exact ⟨hc.symm, hhub.trans hhub'.symm, htoken.trans htoken'.symm,
    toBytes_injective hamount hamount', hr.symm, toBytes_injective hnonce hnonce',
    toBytes_injective hdeadline hdeadline'⟩

/-- A digest is the digest of one authorisation, as long as the hash has no collisions. -/
theorem debitDigest_injective {separator digest : Bytes} (hk : Function.Injective x.keccak)
    (h : debitDigest x separator channelId hub token amount receiptId nonce deadline = .ok digest)
    (h' : debitDigest x separator channelId' hub' token' amount' receiptId' nonce' deadline' =
      .ok digest)
    (hchannel : channelId.length = channelId'.length)
    (hreceipt : receiptId.length = receiptId'.length) :
    channelId = channelId' ∧ addressWord hub = addressWord hub' ∧
      addressWord token = addressWord token' ∧ amount = amount' ∧ receiptId = receiptId' ∧
      nonce = nonce' ∧ deadline = deadline' := by
  obtain ⟨words, hwords, h⟩ := bind_ok_iff.mp h
  obtain ⟨words', hwords', h'⟩ := bind_ok_iff.mp h'
  cases h
  have houter := hk (Except.ok.inj h')
  have hinner := hk (List.append_cancel_left houter)
  cases List.append_cancel_left hinner
  exact debitWords_injective hwords hwords' hchannel hreceipt

end EscrowSigner.Eip712
