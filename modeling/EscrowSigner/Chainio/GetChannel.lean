import EscrowSigner.Chainio.ReceiptUsed

/-! `get_channel`: a channel read from the words of either layout, and the two deadlines that are taken
from it. -/

namespace EscrowSigner

/-! ### `int(text, 16)` of the spelling of bytes -/

theorem hexNumber_hexChars (value : Nat) (data : Bytes) :
    hexNumber value true (hexChars data) = some (data.foldl (fun n b => 256 * n + b.toNat) value) := by
  induction data generalizing value with
  | nil => rfl
  | cons b data ih =>
    have hb : b.toNat < 256 := b.toNat_lt
    have hhigh : b.toNat / 16 < 16 := by omega
    have hlow : b.toNat % 16 < 16 := by omega
    have hne : ∀ n < 16, hexDigit n ≠ '_' := by decide
    have hcons : hexChars (b :: data) =
        hexDigit (b.toNat / 16) :: hexDigit (b.toNat % 16) :: hexChars data := rfl
    have hvalue : 16 * (16 * value + b.toNat / 16) + b.toNat % 16 = 256 * value + b.toNat := by omega
    rw [hcons, hexNumber, if_neg (hne _ hhigh), hexValue_hexDigit hhigh]
    simp only
    rw [hexNumber, if_neg (hne _ hlow), hexValue_hexDigit hlow]
    simp only
    rw [ih, hvalue, List.foldl_cons]

theorem isBlank_hexChars {data : Bytes} {c : Char} (h : c ∈ hexChars data) : isBlank c = false := by
  have hall : ∀ n < 16, isBlank (hexDigit n) = false := by decide
  obtain ⟨b, -, hc⟩ := List.mem_flatMap.mp h
  have hb : b.toNat < 256 := b.toNat_lt
  rcases List.mem_pair.mp hc with rfl | rfl
  · exact hall _ (by omega)
  · exact hall _ (by omega)

/-- Text without blanks is not stripped. -/
theorem stripChars_of_noBlank {cs : List Char} (h : ∀ c ∈ cs, isBlank c = false) :
    stripChars cs = cs := by
  have hdrop : ∀ ds : List Char, (∀ c ∈ ds, isBlank c = false) → ds.dropWhile isBlank = ds := by
    intro ds hds
    cases ds with
    | nil => rfl
    | cons c ds => rw [List.dropWhile_cons_of_neg (by rw [hds c List.mem_cons_self]; decide)]
  unfold stripChars
  rw [hdrop cs h, hdrop _ fun c hc => h c (List.mem_reverse.mp hc), List.reverse_reverse]

/-- The spelling of bytes is read as the number that they make. -/
theorem intOfHex_hexString {data : Bytes} (h : data ≠ []) :
    intOfHex (hexString data) = .ok (fromBytes data) := by
  have hblank : ∀ c ∈ '0' :: 'x' :: hexChars data, isBlank c = false := by
    intro c hc
    rcases List.mem_cons.mp hc with rfl | hc
    · decide
    rcases List.mem_cons.mp hc with rfl | hc
    · decide
    exact isBlank_hexChars hc
  have hfirst : ∀ n < 16, hexDigit n ≠ '_' := by decide
  have hnatural : hexNatural ('0' :: 'x' :: hexChars data) = some (fromBytes data) := by
    obtain ⟨b, rest, rfl⟩ := List.exists_cons_of_ne_nil h
    have hb : b.toNat < 256 := b.toNat_lt
    have hcons : hexChars (b :: rest) =
        hexDigit (b.toNat / 16) :: hexDigit (b.toNat % 16) :: hexChars rest := rfl
    have hnumber := hexNumber_hexChars 0 (b :: rest)
    rw [hcons, hexNumber, if_neg (hfirst _ (by omega))] at hnumber
    rw [hcons, hexNatural, if_pos (.inl rfl), hexNumber, if_neg (hfirst _ (by omega))]
    · exact hnumber
    · intro digits heq
      exact absurd (List.cons.inj heq).1 (hfirst _ (by omega))
  unfold intOfHex
  rw [hexString_toList, stripChars_of_noBlank hblank]
  simp [hnatural]

theorem intOfHex_present {c : Channel} {depositor : Bytes} (hlen : depositor ≠ [])
    (h : c.depositor = hexString depositor) : c.present = .ok (fromBytes depositor != 0) := by
  unfold Channel.present
  rw [h, intOfHex_hexString hlen]
  show Except.ok _ = Except.ok _
  congr 1
  rw [Bool.eq_iff_iff]
  simp

namespace Chainio

/-! ### The two layouts -/

abbrev Address := {a : Bytes // a.length = 20}

abbrev Word := Fin (256 ^ 32)

/-- A channel as the escrow keeps it. -/
structure Record where
  depositor : Address
  hub : Address
  token : Address
  depositAmount : Word
  balance : Word
  usedAmount : Word
  expiresAt : Word
  nonce : Word
  closableAt : Word
  status : Word

namespace Record

def ofAddress (a : Address) : Bytes := zeroBytes 12 ++ a.val

def ofWord (n : Word) : Bytes := bytesOf 32 n.val

/-- The words that both layouts begin with. -/
def head (r : Record) : Bytes :=
  ofAddress r.depositor ++ (ofAddress r.hub ++ (ofAddress r.token ++ (ofWord r.depositAmount ++
    (ofWord r.balance ++ (ofWord r.usedAmount ++ (ofWord r.expiresAt ++ ofWord r.nonce))))))

/-- The nine words of V1. -/
def encodeV1 (r : Record) : Bytes := r.head ++ ofWord r.status

/-- The ten words of V2. -/
def encodeV2 (r : Record) : Bytes := r.head ++ (ofWord r.closableAt ++ ofWord r.status)

/-- The channel that is read from a record. -/
def channel (r : Record) (v2 : Bool) : Channel where
  depositor := hexString r.depositor.val
  hub := hexString r.hub.val
  token := hexString r.token.val
  depositAmount := r.depositAmount.val
  balance := r.balance.val
  usedAmount := r.usedAmount.val
  expiresAt := r.expiresAt.val
  nonce := r.nonce.val
  status := r.status.val
  closableAt := if v2 then r.closableAt.val else 0
  v2 := v2

end Record

/-! ### Reading -/

/-- `words[i]`. -/
def word (out : Bytes) (i : Nat) : Bytes := Calldata.slice out (32 * i) (32 * (i + 1))

def addr (w : Bytes) : String := hexString (w.drop 12)

/-- The channel in an answer of nine or ten words. -/
def decodeChannel (out : Bytes) : Channel :=
  let v2 : Bool := 10 * 32 ≤ out.length
  { depositor := addr (word out 0)
    hub := addr (word out 1)
    token := addr (word out 2)
    depositAmount := fromBytes (word out 3)
    balance := fromBytes (word out 4)
    usedAmount := fromBytes (word out 5)
    expiresAt := fromBytes (word out 6)
    nonce := fromBytes (word out 7)
    status := fromBytes (word out (if v2 then 9 else 8))
    closableAt := if v2 then fromBytes (word out 8) else 0
    v2 := v2 }

/-- `get_channel`, on how its `eth_call` ends. -/
def getChannel (x : Externals) (call : String → Bytes → Outcome) (escrow : String)
    (channelId : Bytes) : Except Exn Channel :=
  match call escrow (Calldata.selector x "getChannel(bytes32)" ++ channelId) with
  | .outage message => .error (.rpcUnavailable message)
  | .revert name => .error (.reverted name)
  | .answer out =>
    if out.length < 9 * 32 then .error (.rpcUnavailable s!"getChannel returned {out.length} bytes")
    else .ok (decodeChannel out)

theorem length_ofAddress (a : Address) : (Record.ofAddress a).length = 32 := by
  rw [Record.ofAddress, List.length_append, a.property]
  rfl

theorem length_ofWord (n : Word) : (Record.ofWord n).length = 32 := length_bytesOf 32 n.val

theorem fromBytes_ofWord (n : Word) : fromBytes (Record.ofWord n) = n.val :=
  fromBytes_bytesOf n.isLt

theorem addr_ofAddress (a : Address) : addr (Record.ofAddress a) = hexString a.val :=
  congrArg hexString (List.drop_left' rfl)

theorem word_head {w rest : Bytes} (h : w.length = 32) : word (w ++ rest) 0 = w :=
  Calldata.slice_head h

theorem word_next {w rest : Bytes} (h : w.length = 32) (i : Nat) :
    word (w ++ rest) (i + 1) = word rest i := by
  unfold word
  rw [Calldata.slice_skip (by omega) (by omega), h]
  congr 1

theorem word_last {w : Bytes} (h : w.length = 32) : word w 0 = w := Calldata.slice_all h

theorem decodeChannel_encodeV1 (r : Record) : decodeChannel r.encodeV1 = r.channel false := by
  have hlen : r.encodeV1.length = 9 * 32 := by
    simp [Record.encodeV1, Record.head, length_ofAddress, length_ofWord]
  unfold decodeChannel
  rw [hlen]
  simp [Record.encodeV1, Record.head, word_head, word_next, word_last, length_ofAddress, length_ofWord,
    addr_ofAddress, fromBytes_ofWord, Record.channel]

theorem decodeChannel_encodeV2 (r : Record) : decodeChannel r.encodeV2 = r.channel true := by
  have hlen : r.encodeV2.length = 10 * 32 := by
    simp [Record.encodeV2, Record.head, length_ofAddress, length_ofWord]
  unfold decodeChannel
  rw [hlen]
  simp [Record.encodeV2, Record.head, word_head, word_next, word_last, length_ofAddress, length_ofWord,
    addr_ofAddress, fromBytes_ofWord, Record.channel]

/-! ### The two deadlines -/

/-- The time check of a debit. -/
def InDebitTime (now : Int) (channel : Channel) : Prop :=
  now + Config.channelMinRemainingS < Policy.debitDeadline channel

/-- The time check of a collection. -/
def InExpireTime (now : Int) (channel : Channel) : Prop :=
  channel.expiresAt = 0 ∨ Policy.debitDeadline channel < now

variable {i : Instance} {now : Int} {channel : Channel} {call : Calldata.DebitCall}

variable (i now channel call) in
/-- The objections of a debit that look at the status and the time. -/
theorem channelState_cases {present : Bool} (h : channel.present = .ok present) :
    (Policy.channelState i now channel call = .ok (some "channel_not_open") ↔
      present = true ∧ channel.status ≠ 0) ∧
    (Policy.channelState i now channel call = .ok (some "channel_expiring") ↔
      present = true ∧ channel.status = 0 ∧ ¬ InDebitTime now channel) := by
  have hopen : channel.isOpen = true ↔ channel.status = 0 := beq_iff_eq
  unfold Policy.channelState InDebitTime
  rw [h, not_lt]
  simp only [bind, Except.bind]
  cases present with
  | false => simp [pure, Except.pure]
  | true =>
    by_cases hstatus : channel.status = 0
    · rw [hopen.mpr hstatus]
      by_cases htime : Policy.debitDeadline channel ≤ now + Config.channelMinRemainingS
      · simp [hstatus, htime, pure, Except.pure]
      · simp only [Bool.not_true, Bool.false_eq_true, if_false, htime]
        iterate 2 (split; · simp [hstatus, pure, Except.pure])
        split
        · simp [hstatus]
        · split <;> simp [hstatus, pure, Except.pure]
    · have hclosed : channel.isOpen = false := by simpa using fun h => hstatus (hopen.mp h)
      simp [hclosed, hstatus, pure, Except.pure]

variable (i now channel) in
/-- The objections of a collection that look at the status and the time. -/
theorem expireState_cases :
    (Policy.expireState i now channel = some "channel_not_open" ↔ channel.status ≠ 0) ∧
    (Policy.expireState i now channel = some "channel_not_expired" ↔
      channel.status = 0 ∧ 0 < channel.usedAmount ∧ lower channel.hub = lower i.address ∧
        ¬ InExpireTime now channel) := by
  unfold Policy.expireState InExpireTime
  rw [not_or, not_lt]
  by_cases hstatus : channel.status = 0
  · rw [if_neg (not_not.mpr hstatus)]
    by_cases hused : channel.usedAmount ≤ 0
    · rw [if_pos hused]
      simp [hstatus, hused]
    · rw [if_neg hused]
      by_cases hhub : lower channel.hub = lower i.address
      · rw [if_neg (not_not.mpr hhub)]
        split <;> simp_all
      · rw [if_pos hhub]
        simp [hstatus, hhub]
  · rw [if_pos hstatus]
    simp [hstatus]

/-- What the checks of both doors say of a V2 channel that was read from a record, in its own terms. -/
structure ChecksRecord (i : Instance) (r : Record) (now : Int) (call : Calldata.DebitCall) :
    Prop where
  debitOpen : Policy.channelState i now (r.channel true) call = .ok (some "channel_not_open") ↔
    fromBytes r.depositor.val ≠ 0 ∧ r.status.val ≠ 0
  debitTime : Policy.channelState i now (r.channel true) call = .ok (some "channel_expiring") ↔
    fromBytes r.depositor.val ≠ 0 ∧ r.status.val = 0 ∧
      r.expiresAt.val + Config.escrowV2SettleWindowS ≤ now + Config.channelMinRemainingS
  expireOpen : Policy.expireState i now (r.channel true) = some "channel_not_open" ↔ r.status.val ≠ 0
  expireTime : Policy.expireState i now (r.channel true) = some "channel_not_expired" ↔
    r.status.val = 0 ∧ 0 < r.usedAmount.val ∧ lower (hexString r.hub.val) = lower i.address ∧
      r.expiresAt.val ≠ 0 ∧ now ≤ r.expiresAt.val + Config.escrowV2SettleWindowS

theorem checksRecord (r : Record) : ChecksRecord i r now call := by
  have hlen : r.depositor.val ≠ [] := by
    intro h
    have := r.depositor.property
    rw [h] at this
    cases this
  have hdebit := channelState_cases i now (r.channel true) call (intOfHex_present hlen rfl)
  have hexpire := expireState_cases i now (r.channel true)
  have hdeadline : Policy.debitDeadline (r.channel true) =
    r.expiresAt.val + Config.escrowV2SettleWindowS := rfl
  have hstatus : (r.channel true).status = 0 ↔ r.status.val = 0 := Int.natCast_eq_zero
  refine ⟨hdebit.1.trans ?_, hdebit.2.trans ?_, hexpire.1.trans ?_, hexpire.2.trans ?_⟩
  · rw [ne_eq, hstatus, bne_iff_ne]
  · rw [hstatus, bne_iff_ne, InDebitTime, not_lt, hdeadline]
  · rw [ne_eq, hstatus]
  · rw [hstatus, InExpireTime, not_or, not_lt, hdeadline]
    exact and_congr_right fun _ => and_congr Int.natCast_pos (and_congr_right fun _ =>
      and_congr_left fun _ => not_congr Int.natCast_eq_zero)

/-- No channel with an expiry is inside both times. -/
theorem times_apart (h : 0 < channel.expiresAt) (hdebit : InDebitTime now channel) :
    ¬ InExpireTime now channel := by
  unfold InDebitTime Config.channelMinRemainingS at hdebit
  rintro (hzero | hexpire)
  · omega
  · omega

/-- `get_channel` reads back the record that either layout spells, refuses what is too short, and the
checks of both doors then look at the record's own status and expiry. -/
theorem getChannel_faithful (x : Externals) (i : Instance) (read : String → Bytes → Outcome)
    (escrow : String) (channelId : Bytes) :
    (∀ r : Record, (read escrow (Calldata.selector x "getChannel(bytes32)" ++ channelId) =
        .answer r.encodeV1 → getChannel x read escrow channelId = .ok (r.channel false)) ∧
      (read escrow (Calldata.selector x "getChannel(bytes32)" ++ channelId) = .answer r.encodeV2 →
        getChannel x read escrow channelId = .ok (r.channel true))) ∧
    (∀ out, read escrow (Calldata.selector x "getChannel(bytes32)" ++ channelId) = .answer out →
      out.length < 9 * 32 → ∃ message,
        getChannel x read escrow channelId = .error (.rpcUnavailable message)) ∧
    (∀ (r : Record) (now : Int) (call : Calldata.DebitCall), ChecksRecord i r now call) ∧
    ∀ (channel : Channel) (now : Int), 0 < channel.expiresAt →
      ¬ (InDebitTime now channel ∧ InExpireTime now channel) := by
  refine ⟨fun r => ⟨fun h => ?_, fun h => ?_⟩, fun out h hshort => ?_, fun r _ _ => checksRecord r,
    fun channel now h hboth => times_apart h hboth.1 hboth.2⟩
  · have hlen : ¬ r.encodeV1.length < 9 * 32 := by
      simp [Record.encodeV1, Record.head, length_ofAddress, length_ofWord]
    simp only [getChannel, h, if_neg hlen, decodeChannel_encodeV1]
  · have hlen : ¬ r.encodeV2.length < 9 * 32 := by
      simp [Record.encodeV2, Record.head, length_ofAddress, length_ofWord]
    simp only [getChannel, h, if_neg hlen, decodeChannel_encodeV2]
  · simp only [getChannel, h, if_pos hshort]
    exact ⟨_, rfl⟩

end Chainio

end EscrowSigner
