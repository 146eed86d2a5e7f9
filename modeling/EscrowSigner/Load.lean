import EscrowSigner.Config

/-! How `load` reads the limits from the environment: each is required, and `unlimited` is the only way
to switch one off. -/

namespace EscrowSigner

namespace Config

/-- `_env`, with an empty default. -/
def env (environ : String → Option String) (name : String) : String :=
  strip ((environ name).getD "")

/-- `_cap`.  `int` reads a decimal text, and nothing where `int(raw)` raises `ValueError`. -/
def cap (int : String → Option Int) (environ : String → Option String) (name : String) :
    Except Exn Int :=
  let raw := env environ name
  if raw = "" then .error (.other "ConfigError")
  else if lower raw = "unlimited" then .ok (-1)
  else
    match int raw with
    | none => .error (.other "ConfigError")
    | some value => if value ≤ 0 then .error (.other "ConfigError") else .ok value

/-- The part of `load` that reads caps. -/
def loadCaps (int : String → Option Int) (environ : String → Option String) : Except Exn Caps := do
  let units10m ← cap int environ "SIGNER_CAP_UNITS_10M"
  let units1h ← cap int environ "SIGNER_CAP_UNITS_1H"
  let units24h ← cap int environ "SIGNER_CAP_UNITS_24H"
  let unitsPerTx ← cap int environ "SIGNER_CAP_UNITS_PER_TX"
  let unitsChannel24h ← cap int environ "SIGNER_CAP_UNITS_CHANNEL_24H"
  let tx1h ← cap int environ "SIGNER_CAP_TX_1H"
  let tx24h ← cap int environ "SIGNER_CAP_TX_24H"
  let txPerChannel24h ← cap int environ "SIGNER_CAP_TX_PER_CHANNEL_24H"
  let distinctChannels24h ← cap int environ "SIGNER_CAP_DISTINCT_CHANNELS_24H"
  let feeWei24h ← cap int environ "SIGNER_CAP_FEE_WEI_24H"
  return ⟨units10m, units1h, units24h, unitsPerTx, unitsChannel24h, tx1h, tx24h, txPerChannel24h,
    distinctChannels24h, feeWei24h⟩

/-- The settings that `load` reads through `_cap`, in place of those of `base`. -/
def loadLimits (int : String → Option Int) (environ : String → Option String) (base : Settings) :
    Except Exn Settings := do
  let priorityFeeWei ← cap int environ "SIGNER_PRIORITY_FEE_WEI"
  let maxFeeWeiCeiling ← cap int environ "SIGNER_MAX_FEE_WEI_CEILING"
  let caps ← loadCaps int environ
  return { base with
    priorityFeeWei := priorityFeeWei
    maxFeeWeiCeiling := maxFeeWeiCeiling
    caps := caps }

variable {int : String → Option Int} {environ : String → Option String} {name : String} {n : Int}

/-- What `_cap` accepts is off or positive, and off exactly where it is spelled so. -/
theorem cap_ok (h : cap int environ name = .ok n) :
    (n = -1 ↔ lower (env environ name) = "unlimited") ∧ (n = -1 ∨ 0 < n) := by
  unfold cap at h
  dsimp only at h
  split at h
  · cases h
  · split at h
    · rename_i hoff
      cases h
      exact ⟨⟨fun _ => hoff, fun _ => rfl⟩, .inl rfl⟩
    · rename_i hon
      split at h
      · cases h
      · split at h
        · cases h
        · rename_i hpos
          cases h
          exact ⟨⟨fun hn => by omega, fun hoff => absurd hoff hon⟩, .inr (by omega)⟩

/-- A cap that is spelled `unlimited` is read. -/
theorem cap_unlimited (h : lower (env environ name) = "unlimited") : cap int environ name = .ok (-1) := by
  unfold cap
  generalize env environ name = raw at h ⊢
  have hne : raw ≠ "" := by
    rintro rfl
    exact absurd h (by decide +kernel)
  dsimp only
  rw [if_neg hne, if_pos h]

end Config

/-- The limits that `load` reads through `_cap` and compares something with. -/
inductive CapSetting
  | units10m
  | units1h
  | units24h
  | unitsPerTx
  | unitsChannel24h
  | tx1h
  | tx24h
  | txPerChannel24h
  | distinctChannels24h
  | feeWei24h
  | maxFeeWeiCeiling
deriving DecidableEq, Repr

namespace CapSetting

/-- The variable of the environment. -/
def envName : CapSetting → String
  | units10m => "SIGNER_CAP_UNITS_10M"
  | units1h => "SIGNER_CAP_UNITS_1H"
  | units24h => "SIGNER_CAP_UNITS_24H"
  | unitsPerTx => "SIGNER_CAP_UNITS_PER_TX"
  | unitsChannel24h => "SIGNER_CAP_UNITS_CHANNEL_24H"
  | tx1h => "SIGNER_CAP_TX_1H"
  | tx24h => "SIGNER_CAP_TX_24H"
  | txPerChannel24h => "SIGNER_CAP_TX_PER_CHANNEL_24H"
  | distinctChannels24h => "SIGNER_CAP_DISTINCT_CHANNELS_24H"
  | feeWei24h => "SIGNER_CAP_FEE_WEI_24H"
  | maxFeeWeiCeiling => "SIGNER_MAX_FEE_WEI_CEILING"

def read (s : Settings) : CapSetting → Int
  | units10m => s.caps.units10m
  | units1h => s.caps.units1h
  | units24h => s.caps.units24h
  | unitsPerTx => s.caps.unitsPerTx
  | unitsChannel24h => s.caps.unitsChannel24h
  | tx1h => s.caps.tx1h
  | tx24h => s.caps.tx24h
  | txPerChannel24h => s.caps.txPerChannel24h
  | distinctChannels24h => s.caps.distinctChannels24h
  | feeWei24h => s.caps.feeWei24h
  | maxFeeWeiCeiling => s.maxFeeWeiCeiling

/-- The caps with one of them set to `v`. -/
def writeCap (c : Caps) (v : Int) : CapSetting → Caps
  | units10m => { c with units10m := v }
  | units1h => { c with units1h := v }
  | units24h => { c with units24h := v }
  | unitsPerTx => { c with unitsPerTx := v }
  | unitsChannel24h => { c with unitsChannel24h := v }
  | tx1h => { c with tx1h := v }
  | tx24h => { c with tx24h := v }
  | txPerChannel24h => { c with txPerChannel24h := v }
  | distinctChannels24h => { c with distinctChannels24h := v }
  | feeWei24h => { c with feeWei24h := v }
  | maxFeeWeiCeiling => c

/-- The settings with one of the limits set to `v`. -/
def write (s : Settings) (v : Int) : CapSetting → Settings
  | maxFeeWeiCeiling => { s with maxFeeWeiCeiling := v }
  | l => { s with caps := writeCap s.caps v l }

/-- The reason of a refusal on account of the limit. -/
def reasonCode : CapSetting → String
  | units10m => "cap_units_10m"
  | units1h => "cap_units_1h"
  | units24h => "cap_units_24h"
  | unitsPerTx => "cap_units_per_tx"
  | unitsChannel24h => "cap_units_channel_24h"
  | tx1h => "cap_tx_1h"
  | tx24h => "cap_tx_24h"
  | txPerChannel24h => "cap_tx_per_channel_24h"
  | distinctChannels24h => "cap_distinct_channels_24h"
  | feeWei24h => "cap_fee_wei_24h"
  | maxFeeWeiCeiling => "fee_ceiling"

/-- The status of a refusal on account of the limit. -/
def status : CapSetting → Int
  | maxFeeWeiCeiling => 503
  | _ => 429

/-- The reads that are made only where the limit is on. -/
def reads : CapSetting → Nat
  | distinctChannels24h => 2
  | feeWei24h => 1
  | _ => 0

variable {int : String → Option Int} {environ : String → Option String} {base s : Settings}

/-- `load` reads a limit from its variable. -/
theorem load_ok (h : Config.loadLimits int environ base = .ok s) (l : CapSetting) :
    Config.cap int environ l.envName = .ok (l.read s) := by
  unfold Config.loadLimits at h
  obtain ⟨priorityFeeWei, -, h⟩ := bind_ok_iff.mp h
  obtain ⟨maxFeeWeiCeiling, hceiling, h⟩ := bind_ok_iff.mp h
  obtain ⟨caps, hcaps, h⟩ := bind_ok_iff.mp h
  unfold Config.loadCaps at hcaps
  obtain ⟨units10m, h10m, hcaps⟩ := bind_ok_iff.mp hcaps
  obtain ⟨units1h, h1h, hcaps⟩ := bind_ok_iff.mp hcaps
  obtain ⟨units24h, h24h, hcaps⟩ := bind_ok_iff.mp hcaps
  obtain ⟨unitsPerTx, hperTx, hcaps⟩ := bind_ok_iff.mp hcaps
  obtain ⟨unitsChannel24h, hchannel, hcaps⟩ := bind_ok_iff.mp hcaps
  obtain ⟨tx1h, htx1h, hcaps⟩ := bind_ok_iff.mp hcaps
  obtain ⟨tx24h, htx24h, hcaps⟩ := bind_ok_iff.mp hcaps
  obtain ⟨txPerChannel24h, htxChannel, hcaps⟩ := bind_ok_iff.mp hcaps
  obtain ⟨distinctChannels24h, hdistinct, hcaps⟩ := bind_ok_iff.mp hcaps
  obtain ⟨feeWei24h, hfee, hcaps⟩ := bind_ok_iff.mp hcaps
  obtain rfl := Except.ok.inj hcaps
  obtain rfl := Except.ok.inj h
  cases l with
  | units10m => exact h10m
  | units1h => exact h1h
  | units24h => exact h24h
  | unitsPerTx => exact hperTx
  | unitsChannel24h => exact hchannel
  | tx1h => exact htx1h
  | tx24h => exact htx24h
  | txPerChannel24h => exact htxChannel
  | distinctChannels24h => exact hdistinct
  | feeWei24h => exact hfee
  | maxFeeWeiCeiling => exact hceiling

/-- A limit that is spelled `unlimited` is `-1`. -/
theorem read_unlimited (h : Config.loadLimits int environ base = .ok s) {l : CapSetting}
    (hoff : lower (Config.env environ l.envName) = "unlimited") : l.read s = -1 :=
  (Config.cap_ok (load_ok h l)).1.mpr hoff

end CapSetting

end EscrowSigner
