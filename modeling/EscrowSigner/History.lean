import EscrowSigner.Service

/-! Histories: runs of the service that are given turn by turn and executed, and a small instance to
execute them on. -/

namespace EscrowSigner

open Policy

/-- A turn of a history: a call with the code that serves it, or a restart. -/
inductive Turn (i : Instance)
  | call (c : Call) (code : Code (Option Decision)) (hcode : code = serve i c)
      (script : List Choice)
  | restart

section Play

variable {i : Instance} (E : World → Choice → Prop) (K : World → Call → List Choice → Prop)
  [∀ w c, Decidable (E w c)] [∀ w c script, Decidable (K w c script)]

/-- The status and the world after a turn, unless the turn breaks a condition. -/
def Turn.play : Turn i → Status → World → Option (Status × World)
  | call c code _ script, status, w =>
    if status = .running ∧ K w c script ∧ code.Admits E script (w.record (.call c)) then
      let r := code.run script (w.record (.call c))
      some (.after r.1, r.2)
    else none
  | restart, _, w => some (.running, w.restart)

def play : List (Turn i) → Status → World → Option (Status × World)
  | [], status, w => some (status, w)
  | turn :: turns, status, w =>
    match turn.play E K status w with
    | some (status', w') => play turns status' w'
    | none => none

variable {E K} {status status' : Status} {w w' : World} {Q : Choice → Prop}

/-- What the scripts of a turn choose. -/
def Turn.choices : Turn i → List Choice
  | call _ _ _ script => script
  | restart => []

theorem Reach.turn {turn : Turn i} (h : Reach i (fun w c => E w c ∧ Q c) K status w)
    (hQ : ∀ c ∈ turn.choices, Q c) (ht : turn.play E K status w = some (status', w')) :
    Reach i (fun w c => E w c ∧ Q c) K status' w' := by
  cases turn with
  | restart =>
    cases ht
    exact h.restart
  | call c code hcode script =>
    subst hcode
    simp only [Turn.play] at ht
    split at ht
    · rename_i hc
      obtain ⟨rfl, hok, henv⟩ := hc
      cases ht
      exact h.call c script hok (henv.and_of_forall hQ)
    · cases ht

/-- What a history plays, the service reaches. -/
theorem Reach.play {turns : List (Turn i)} (h : Reach i (fun w c => E w c ∧ Q c) K status w)
    (hQ : ∀ turn ∈ turns, ∀ c ∈ turn.choices, Q c)
    (hp : EscrowSigner.play E K turns status w = some (status', w')) :
    Reach i (fun w c => E w c ∧ Q c) K status' w' := by
  induction turns generalizing status w with
  | nil =>
    cases hp
    exact h
  | cons turn turns ih =>
    unfold EscrowSigner.play at hp
    split at hp
    · rename_i ht
      exact ih (h.turn (hQ turn List.mem_cons_self) ht)
        (fun t hmem => hQ t (List.mem_cons_of_mem turn hmem)) hp
    · cases hp

/-- A history that ends in a world with a property shows that the service can reach one.  `E` is
checked on the way, `Q` on the choices alone. -/
theorem Reach.exists_of_play {P : Status → World → Prop} [∀ status w, Decidable (P status w)]
    (turns : List (Turn i)) (hQ : ∀ turn ∈ turns, ∀ c ∈ turn.choices, Q c)
    (h : ((EscrowSigner.play E K turns .running .initial).any fun r => P r.1 r.2) = true) :
    ∃ status w, Reach i (fun w c => E w c ∧ Q c) K status w ∧ P status w := by
  cases hp : EscrowSigner.play E K turns .running .initial with
  | none =>
    rw [hp] at h
    cases h
  | some r =>
    rw [hp] at h
    exact ⟨r.1, r.2, Reach.initial.play hQ hp, of_decide_eq_true h⟩

end Play

/-! ### A request whose envelope was read -/

/-- `handle` from the outcome of the parser on. -/
def answerParsed (i : Instance) (parsed : Except Decision Envelope) : Code Decision := do
  let haltReason ← Ledger.halted
  if haltReason ≠ "" then return refuse 503 "clock_regression" .none
  else
    let mem ← readMemory
    if ¬ mem.ready then
      return refuse 503
        (if mem.notReadyReason = "" then "boot_reconciliation" else mem.notReadyReason) .none
    else match parsed with
      | .error decision => return decision
      | .ok env => dispatch i env

theorem serve_handle {i : Instance} {body : Bytes} {parsed : Except Decision Envelope}
    (h : parseEnvelope i body = parsed) :
    (do let decision ← answerParsed i parsed; return some decision) = serve i (.handle body) := by
  subst h
  rfl

/-! ### A small instance -/

namespace Sample

def depositor : String := "0x1"

def address : String := "0x2222222222222222222222222222222222222222"

def escrow : String := Config.escrow .aicom

/-- The externals: a hash of eight bytes, the remainder by a prime, and a signature that is the
nonce. -/
def plain : Externals where
  keccak data := bytesOf 8 (fromBytes data % (2 ^ 64 - 59))
  loads _ := none
  dumps _ := []
  jsonText _ := ""
  str _ := ""
  recover _ _ := .ok depositor
  signTransaction tx := bytesOf 4 tx.nonce.toNat
  floatTotal _ := 0

/-- The debit of one cent with a receipt. -/
def debitCall (receipt : UInt8) : Calldata.DebitCall where
  channelId := zeroBytes 31 ++ [1]
  amount := 10000
  receiptId := zeroBytes 31 ++ [receipt]
  deadline := 5000
  signature := zeroBytes 31 ++ [1] ++ zeroBytes 31 ++ [1] ++ [27]

def debitData (receipt : UInt8) : Bytes :=
  match Calldata.encodeDebit plain (debitCall receipt) with
  | .ok data => data
  | .error _ => []

def expireData (channel : UInt8) : Bytes :=
  Calldata.encodeExpire plain ⟨zeroBytes 31 ++ [channel]⟩

def payload (data : Bytes) : Json :=
  .obj [("transaction", .obj [("to", .str escrow), ("data", .str (hexString data)),
    ("chainId", .int Config.chainId), ("gas", .int 100000), ("value", .int 0)])]

/-- The externals with a reader for the bodies of the requests. -/
def externals : Externals :=
  { plain with
    loads := fun
      | [receipt] => some (payload (debitData receipt))
      | [0, channel] => some (payload (expireData channel))
      | _ => none }

/-- An instance with caps and a recipient of the proceeds. -/
def signer (caps : Caps) (sweepTo : String) : Instance where
  settings := ⟨caps, 0, 1000, -1, sweepTo, 1⟩
  deployment := .aicom
  address := address
  ext := externals

def unlimited : Caps := ⟨-1, -1, -1, -1, -1, -1, -1, -1, -1, -1⟩

variable {caps : Caps} {sweepTo : String}

theorem isEscrow_escrow {i : Instance} (hi : i.escrow = escrow) :
    isEscrow i (.str escrow) = some escrow := by
  have hsample : isEscrow (signer unlimited "") (.str escrow) = some escrow := by decide +kernel
  have hbytes : escrowBytes i = escrowBytes (signer unlimited "") := by
    unfold escrowBytes
    rw [hi]
    rfl
  unfold isEscrow at hsample ⊢
  rw [hbytes]
  exact hsample

theorem parse_payload {i : Instance} {body data : Bytes} (hi : i.escrow = escrow)
    (h : i.ext.loads body = some (payload data)) :
    parseEnvelope i body = .ok ⟨escrow, data, Config.chainId, 100000, 0⟩ := by
  simp [parseEnvelope, h, payload, itemsWith, envelopeKeys, intField, parseTransaction,
    isEscrow_escrow hi, Calldata.parseHexBytes_hexString, Config.txValue, List.lookup_cons]

/-- The turn in which a debit is requested. -/
def debit (receipt : UInt8) (script : List Choice) : Turn (signer caps sweepTo) :=
  .call (.handle [receipt]) _ (serve_handle (parse_payload rfl rfl)) script

/-- The turn in which the collection of a channel is requested. -/
def expire (channel : UInt8) (script : List Choice) : Turn (signer caps sweepTo) :=
  .call (.handle [0, channel]) _ (serve_handle (parse_payload rfl rfl)) script

def boot (script : List Choice) : Turn (signer caps sweepTo) := .call .boot _ rfl script

/-- What the outside answers while nothing special happens. -/
structure Outside where
  time : Nat
  chain : Chain := ⟨[], [], 0, 0⟩
  channel : Channel := ⟨depositor, "0x0", Config.token, 100000, 100000, 0, 100000, 0, 0, 0, false⟩
  used : Bool := false
  count : Int := 0
  balance : Int := 0
  baseFee : Int := 1
  simulate : Except Exn Unit := .ok ()
  sendRaw : Except Exn String := .ok ""
  receipt : String → Json := fun _ => .null

/-- The choice for every step while the outside stays as it is. -/
def Outside.choice (o : Outside) : Choice where
  now := o.time * 1000000000
  chain := o.chain
  fault := none
  answer
    | .chainId => .ok Config.chainId
    | .domainSeparator _ => .ok (separator (signer unlimited ""))
    | .hubAuthorized .. => .ok true
    | .tokenDecimals _ => .ok Config.tokenDecimals
    | .tokenBalance .. => .ok o.balance
    | .getChannel .. => .ok o.channel
    | .receiptUsed .. => .ok o.used
    | .estimateGas .. => .ok (100000 : Int)
    | .baseFeeWei => .ok o.baseFee
    | .transactionCount .. => .ok o.count
    | .simulate .. => o.simulate
    | .sendRaw _ => o.sendRaw
    | .receipt txHash => .ok (o.receipt txHash)
  signFault := none

/-- A script that is long enough for a call. -/
def Outside.script (o : Outside) : List Choice := List.replicate 200 o.choice

theorem Outside.forall_script {P : Choice → Prop} {o : Outside} (h : P o.choice) :
    ∀ c ∈ o.script, P c :=
  fun _ hc => List.eq_of_mem_replicate hc ▸ h

/-! ### An instance without collisions -/

/-- The externals with a hash that returns its argument. -/
def unhashed : Externals := { plain with keccak := id }

def debitDataOf (call : Calldata.DebitCall) : Bytes :=
  match Calldata.encodeDebit unhashed call with
  | .ok data => data
  | .error _ => []

/-- An instance whose hash has no collisions: it reads the collection of a channel, and the debit of
some cents with a receipt. -/
def injective : Instance :=
  { signer unlimited "" with
    ext := { unhashed with
      loads := fun
        | [0, channel] =>
          some (payload (Calldata.encodeExpire unhashed ⟨zeroBytes 31 ++ [channel]⟩))
        | [receipt, cents] =>
          some (payload (debitDataOf { debitCall receipt with amount := 10000 * cents.toNat }))
        | _ => none } }

/-- The script for a call of that instance while the outside stays as it is. -/
def Outside.injectiveScript (o : Outside) : List Choice :=
  List.replicate 200
    { o.choice with
      answer := fun
        | .domainSeparator _ => .ok (separator injective)
        | q => o.choice.answer q }

def injectiveExpire (channel : UInt8) (o : Outside) : Turn injective :=
  .call (.handle [0, channel]) _ (serve_handle (parse_payload rfl rfl)) o.injectiveScript

end Sample

end EscrowSigner
