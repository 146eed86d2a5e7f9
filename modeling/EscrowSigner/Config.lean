import EscrowSigner.Python

/-! The configuration: the constants compiled into the service, the caps and the settings that the
operator chooses, and the code outside the repository that the service calls. -/

namespace EscrowSigner

namespace Config

def chainId : Int := 8453

/-- The escrows an instance may serve, of which it picks one by name. -/
inductive Deployment
  | aicom
  | independent
deriving DecidableEq, Repr

/-- The escrow contract of a deployment. -/
def escrow : Deployment → String
  | .aicom => "0xa4cb6ef73B982B847fB06Ec75540d05D0311B2Eb"
  | .independent => "0x0BFCa46A324fe534Eb6E71c52C8b5AD74B969534"

def token : String := "0x833589fCD6eDb6E08f4c7C32D4f71b54bdA02913"

def tokenDecimals : Int := 6

def txValue : Int := 0

def maxBodyBytes : Int := 8192

def gasHardCap : Int := 400000

def gasMultiplierNum : Int := 5

def gasMultiplierDen : Int := 4

def minAmountUnits : Int := 10000

def maxAmountUnits : Int := 10000000000

def centUnits : Int := 10000

def minDeadlineSkewS : Int := 60

def maxDeadlineTtlS : Int := 86400

def channelMinRemainingS : Int := 60

def escrowV2SettleWindowS : Int := 3600

def chainCacheTtlS : Nat := 30

end Config

/-- The caps, each `-1` when the operator spelled it `unlimited`. -/
structure Caps where
  units10m : Int
  units1h : Int
  units24h : Int
  unitsPerTx : Int
  unitsChannel24h : Int
  tx1h : Int
  tx24h : Int
  txPerChannel24h : Int
  distinctChannels24h : Int
  feeWei24h : Int
deriving DecidableEq, Repr

/-- A value in a dictionary that is serialised. -/
inductive Scalar
  | null
  | int (n : Int)
  | text (s : String)
deriving DecidableEq, Repr

/-- A cap as the log of boots spells it. -/
def capJson (n : Int) : Scalar := if n = -1 then .text "unlimited" else .int n

/-- `as_json`. -/
def Caps.asJson (c : Caps) : List (String × Scalar) :=
  [("units_10m", capJson c.units10m), ("units_1h", capJson c.units1h),
    ("units_24h", capJson c.units24h), ("units_per_tx", capJson c.unitsPerTx),
    ("units_channel_24h", capJson c.unitsChannel24h), ("tx_1h", capJson c.tx1h),
    ("tx_24h", capJson c.tx24h), ("tx_per_channel_24h", capJson c.txPerChannel24h),
    ("distinct_channels_24h", capJson c.distinctChannels24h),
    ("fee_wei_24h", capJson c.feeWei24h)]

/-- The settings that the decision path reads. -/
structure Settings where
  caps : Caps
  priorityFeeWei : Int
  maxFeeWeiCeiling : Int
  maxGasOnlyPer24h : Int
  sweepTo : String
  sweepMinUnits : Int
deriving DecidableEq

/-- The dictionary given to `account.sign_transaction`. -/
structure Tx where
  toAddr : String
  value : Int
  data : String
  gas : Int
  maxFeePerGas : Int
  maxPriorityFeePerGas : Int
  nonce : Int
  chainId : Int
  type : Int
deriving DecidableEq, Repr

/-- Code outside the repository: `eth_utils.keccak`, the JSON reader, the JSON writer in its
canonical and its default form, `str` of a parsed value that is neither text nor a number,
`eth_account`'s recovery and signature, and the floating-point total to which SQLite falls back when
a product leaves the range of its integers. -/
structure Externals where
  keccak : Bytes → Bytes
  loads : Bytes → Option Json
  dumps : List (String × Scalar) → Bytes
  jsonText : List (String × Scalar) → String
  str : Json → String
  recover : Bytes → Bytes → Except Exn String
  signTransaction : Tx → Bytes
  floatTotal : List Int → Int

/-- What stays fixed while an instance runs: its settings, its deployment, the address of its key
and the code it calls. -/
structure Instance where
  settings : Settings
  deployment : Config.Deployment
  address : String
  ext : Externals

/-- `cfg.ESCROW`. -/
def Instance.escrow (i : Instance) : String := Config.escrow i.deployment

end EscrowSigner
