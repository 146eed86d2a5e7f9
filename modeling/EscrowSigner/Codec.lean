import EscrowSigner.History

/-! What the readers of a request accept, over all strings: the decoders of the canonical calldata are the
inverses of its encoders, and `parse_hex_bytes` reads hexadecimal text and, against its own word, white
space between the bytes. -/

namespace EscrowSigner

namespace Calldata

/-! ### Slices -/

theorem slice_skip {before rest : Bytes} {start stop : Nat} (hstart : before.length ≤ start)
    (hstop : before.length ≤ stop) :
    slice (before ++ rest) start stop =
      slice rest (start - before.length) (stop - before.length) := by
  unfold slice
  rw [List.take_append, List.take_of_length_le hstop, List.drop_append,
    List.drop_of_length_le hstart, List.nil_append]

theorem slice_head {field rest : Bytes} {stop : Nat} (h : field.length = stop) :
    slice (field ++ rest) 0 stop = field := by
  subst h
  simp [slice]

theorem slice_append_slice {data : Bytes} {a b c : Nat} (hab : a ≤ b) (hbc : b ≤ c) :
    slice data a b ++ slice data b c = slice data a c := by
  have htake : data.take b = (data.take c).take b := by rw [List.take_take, min_eq_left hbc]
  have hdrop : (data.take c).drop b = ((data.take c).drop a).drop (b - a) := by
    rw [List.drop_drop, Nat.add_sub_cancel' hab]
  unfold slice
  rw [htake, List.drop_take, hdrop, List.take_append_drop]

theorem slice_all {data : Bytes} {n : Nat} (h : data.length = n) : slice data 0 n = data := by
  subst h
  simp [slice]

variable (x : Externals)

/-! ### Debits -/

/-- The fields of a debit that the encoding has room for. -/
structure DebitCall.WellFormed (call : DebitCall) : Prop where
  channelId : call.channelId.length = 32
  amount : 0 ≤ call.amount ∧ call.amount < 2 ^ 256
  receiptId : call.receiptId.length = 32
  deadline : 0 ≤ call.deadline ∧ call.deadline < 2 ^ 256
  signature : call.signature.length = 65

theorem word_eq_ok {n : Int} (h : 0 ≤ n ∧ n < 2 ^ 256) : word n = .ok (bytesOf 32 n.toNat) := by
  have hlt : n.toNat < 256 ^ 32 := by
    have : (256 : Nat) ^ 32 = 2 ^ 256 := by decide
    omega
  exact if_pos ⟨h.1, hlt⟩

/-- The seven fields of an encoding. -/
theorem encodeDebit_eq {call : DebitCall} {data : Bytes} (h : encodeDebit x call = .ok data) :
    ∃ amount deadline, word call.amount = .ok amount ∧ word call.deadline = .ok deadline ∧
      call.signature.length = 65 ∧
      data = debitSelector x ++ (call.channelId ++ (amount ++ (call.receiptId ++ (deadline ++
        (bytesOf 32 160 ++ (bytesOf 32 65 ++ (call.signature ++ zeroBytes 31))))))) := by
  unfold encodeDebit at h
  split at h
  · cases h
  rename_i hsig
  obtain ⟨amount, hamount, h⟩ := bind_ok_iff.mp h
  obtain ⟨deadline, hdeadline, h⟩ := bind_ok_iff.mp h
  obtain ⟨offset, hoffset, h⟩ := bind_ok_iff.mp h
  obtain ⟨length, hlength, h⟩ := bind_ok_iff.mp h
  rw [word_eq_ok (by decide)] at hoffset hlength
  cases hoffset
  cases hlength
  cases h
  refine ⟨amount, deadline, hamount, hdeadline, not_not.mp hsig, ?_⟩
  simp only [List.append_assoc]
  rfl

/-- The hash is long enough to have a selector. -/
def HasSelectors : Prop := ∀ data, 4 ≤ (x.keccak data).length

variable {x}

theorem HasSelectors.length (hk : HasSelectors x) (signature : String) :
    (selector x signature).length = 4 := by
  rw [selector, List.length_take, min_eq_left (hk _)]

theorem decodeDebit_of_encode (hk : HasSelectors x) {call : DebitCall} {data : Bytes}
    (hwf : call.WellFormed) (h : encodeDebit x call = .ok data) : decodeDebit x data = .ok call := by
  obtain ⟨amount, deadline, hamount, hdeadline, hsig, hdata⟩ := encodeDebit_eq x h
  have hs : (debitSelector x).length = 4 := hk.length debitSig
  have hc := hwf.channelId
  have hr := hwf.receiptId
  have ha : amount.length = 32 := length_of_toBytes hamount
  have hd : deadline.length = 32 := length_of_toBytes hdeadline
  have hlength : data.length = canonicalLen := by
    simp [hdata, hs, hc, hr, ha, hd, hsig, canonicalLen, zeroBytes]
  have hselector : slice data 0 4 = debitSelector x := by simp [hdata, slice_head, hs]
  have hchannel : slice data 4 36 = call.channelId := by
    simp [hdata, slice_skip, slice_head, hs, hc]
  have hamount' : slice data 36 68 = amount := by
    simp [hdata, slice_skip, slice_head, hs, hc, ha]
  have hreceipt : slice data 68 100 = call.receiptId := by
    simp [hdata, slice_skip, slice_head, hs, hc, ha, hr]
  have hdeadline' : slice data 100 132 = deadline := by
    simp [hdata, slice_skip, slice_head, hs, hc, ha, hr, hd]
  have hoffset : slice data 132 164 = bytesOf 32 160 := by
    simp [hdata, slice_skip, slice_head, hs, hc, ha, hr, hd]
  have hcount : slice data 164 196 = bytesOf 32 65 := by
    simp [hdata, slice_skip, slice_head, hs, hc, ha, hr, hd]
  have hsignature : slice data 196 261 = call.signature := by
    simp [hdata, slice_skip, slice_head, hs, hc, ha, hr, hd, hsig]
  have hpad : slice data 261 292 = zeroBytes 31 := by
    have hzero : (zeroBytes 31).length = 31 := rfl
    simp [hdata, slice_skip, slice_all hzero, hs, hc, ha, hr, hd, hsig]
  have hcall : (⟨call.channelId, fromBytes amount, call.receiptId, fromBytes deadline,
      call.signature⟩ : DebitCall) = call := by
    rw [fromBytes_of_toBytes hamount, fromBytes_of_toBytes hdeadline]
  have hoffsetWord : fromBytes (bytesOf 32 160) = offsetWord := fromBytes_bytesOf (by decide)
  have hsigLen : fromBytes (bytesOf 32 65) = sigLen := fromBytes_bytesOf (by decide)
  unfold decodeDebit
  rw [if_neg (not_not.mpr hlength), if_neg (not_not.mpr hselector)]
  simp only [hchannel, hamount', hreceipt, hdeadline', hoffset, hcount, hsignature, hpad, hcall,
    hoffsetWord, hsigLen, ne_eq, not_true_eq_false, if_false, h]
  exact if_neg (not_not.mpr rfl)

/-- What passes the checks of `decode_debit` is encoded again as it was. -/
theorem encodeDebit_slices {data : Bytes} (hlength : data.length = canonicalLen)
    (hselector : slice data 0 4 = debitSelector x)
    (hoffset : fromBytes (slice data 132 164) = offsetWord)
    (hcount : fromBytes (slice data 164 196) = sigLen) (hpad : slice data 261 292 = zeroBytes 31) :
    encodeDebit x ⟨slice data 4 36, fromBytes (slice data 36 68), slice data 68 100,
      fromBytes (slice data 100 132), slice data 196 261⟩ = .ok data := by
  have hlen : data.length = 292 := hlength
  have hword : ∀ start stop, stop ≤ 292 → stop - start = 32 →
      word (fromBytes (slice data start stop)) = .ok (slice data start stop) := fun start stop hs hw =>
    toBytes_fromBytes ((length_slice (hlen ▸ hs)).trans hw)
  have hsig : (slice data 196 261).length = sigLen := length_slice (by omega)
  have hall : slice data 0 4 ++ slice data 4 36 ++ slice data 36 68 ++ slice data 68 100 ++
      slice data 100 132 ++ slice data 132 164 ++ slice data 164 196 ++ slice data 196 261 ++
      slice data 261 292 = data := by
    iterate 8 rw [slice_append_slice (by decide) (by decide)]
    exact slice_all hlen
  simp only [encodeDebit, hsig, ne_eq, not_true_eq_false, if_false, ← hoffset, ← hcount,
    hword 36 68 (by decide) rfl, hword 100 132 (by decide) rfl, hword 132 164 (by decide) rfl,
    hword 164 196 (by decide) rfl, ← hselector, ← hpad]
  refine congrArg Except.ok (Eq.trans ?_ hall)
  simp only [List.append_assoc]

/-- A call is decoded with the fields that the encoding has room for. -/
theorem decodeDebit_wellFormed {data : Bytes} {call : DebitCall} (h : decodeDebit x data = .ok call) :
    call.WellFormed := by
  have hids := decodeDebit_ids x h
  obtain ⟨amount, deadline, hamount, hdeadline, hsig, -⟩ := encodeDebit_eq x (decodeDebit_encode x h)
  have fits : ∀ {n : Int} {field : Bytes}, word n = .ok field → 0 ≤ n ∧ n < 2 ^ 256 := by
    intro n field hn
    have hlt : fromBytes field < 2 ^ 256 := by
      have := fromBytes_lt field
      rw [length_of_toBytes hn] at this
      exact this
    rw [← fromBytes_of_toBytes hn]
    omega
  exact ⟨hids.1, fits hamount, hids.2, fits hdeadline, hsig⟩

/-- `decode_debit` is the inverse of `encode_debit`. -/
theorem decodeDebit_iff (hk : HasSelectors x) {data : Bytes} {call : DebitCall} :
    decodeDebit x data = .ok call ↔ call.WellFormed ∧ encodeDebit x call = .ok data :=
  ⟨fun h => ⟨decodeDebit_wellFormed h, decodeDebit_encode x h⟩,
    fun h => decodeDebit_of_encode hk h.1 h.2⟩

/-- A call that the encoding has room for is encoded. -/
theorem DebitCall.WellFormed.encode {call : DebitCall} (h : call.WellFormed) :
    ∃ data, encodeDebit x call = .ok data := by
  simp only [encodeDebit, sigLen, h.signature, ne_eq, not_true_eq_false, if_false,
    word_eq_ok h.amount, word_eq_ok h.deadline, word_eq_ok (n := offsetWord) (by decide),
    word_eq_ok (n := (65 : Nat)) (by decide)]
  exact ⟨_, rfl⟩

/-- An error of a decoder other than the one for an encoding that does not come out the same. -/
def Checked (e : Exn) : Prop :=
  ∃ reason detail, e = .calldata reason detail ∧ detail ≠ "re-encode mismatch"

theorem append_ne_of_head {a b c : String} {d e : Char} (ha : a.toList.head? = some d)
    (hc : c.toList.head? = some e) (hne : d ≠ e) : a ++ b ≠ c := by
  rintro rfl
  rw [String.toList_append, List.head?_append, ha, Option.some_or, Option.some.injEq] at hc
  exact hne hc

theorem append_ne_of_last {a b c : String} {d e : Char} (hb : b.toList.getLast? = some d)
    (hc : c.toList.getLast? = some e) (hne : d ≠ e) : a ++ b ≠ c := by
  rintro rfl
  rw [String.toList_append, List.getLast?_append, hb, Option.some_or, Option.some.injEq] at hc
  exact hne hc

theorem hexString_ne_mismatch (data : Bytes) : hexString data ≠ "re-encode mismatch" := by
  intro h
  have hlist := congrArg String.toList h
  rw [hexString_toList] at hlist
  have hhead : some '0' = some 'r' := congrArg List.head? hlist
  exact absurd (Option.some.inj hhead) (by decide)

/-- `decode_debit` raises nothing but its own errors, and never finds that the encoding differs. -/
theorem decodeDebit_checked {data : Bytes} {e : Exn} (h : decodeDebit x data = .error e) :
    Checked e := by
  simp only [decodeDebit] at h
  split at h
  · cases h
    exact ⟨_, _, rfl, append_ne_of_last (d := '2') (e := 'h') (by decide) (by decide) (by decide)⟩
  rename_i hlength
  split at h
  · cases h
    exact ⟨_, _, rfl, hexString_ne_mismatch _⟩
  rename_i hselector
  split at h
  · cases h
    exact ⟨_, _, rfl, append_ne_of_head (d := 'o') (e := 'r') (by decide) (by decide) (by decide)⟩
  rename_i hoffset
  split at h
  · cases h
    exact ⟨_, _, rfl, append_ne_of_head (d := 'l') (e := 'r') (by decide) (by decide) (by decide)⟩
  rename_i hcount
  split at h
  · cases h
    exact ⟨_, _, rfl, by decide⟩
  rename_i hpad
  rw [encodeDebit_slices (not_not.mp hlength) (not_not.mp hselector) (not_not.mp hoffset)
    (not_not.mp hcount) (not_not.mp hpad)] at h
  rcases bind_error_iff.mp h with hok | ⟨again, hagain, hlast⟩
  · cases hok
  · cases hagain
    rw [if_neg (not_not.mpr rfl)] at hlast
    cases hlast

/-! ### Collections -/

theorem decodeExpire_iff (hk : HasSelectors x) {data : Bytes} {call : ExpireCall} :
    decodeExpire x data = .ok call ↔ call.channelId.length = 32 ∧ encodeExpire x call = data := by
  refine ⟨fun h => ⟨decodeExpire_id x h, decodeExpire_encode x h⟩, ?_⟩
  rintro ⟨hid, rfl⟩
  have hs : (expireSelector x).length = 4 := hk.length expireSig
  have hlength : (encodeExpire x call).length = expireLen := by
    simp [encodeExpire, hs, hid, expireLen]
  have hselector : slice (encodeExpire x call) 0 4 = expireSelector x := slice_head hs
  have hchannel : slice (encodeExpire x call) 4 36 = call.channelId := by
    simp [encodeExpire, slice_skip, slice_all, hs, hid]
  simp only [decodeExpire, hlength, hselector, hchannel, ne_eq, not_true_eq_false, if_false]

theorem decodeExpire_checked {data : Bytes} {e : Exn} (h : decodeExpire x data = .error e) :
    Checked e := by
  simp only [decodeExpire] at h
  split at h
  · cases h
    exact ⟨_, _, rfl, append_ne_of_last (d := '6') (e := 'h') (by decide) (by decide) (by decide)⟩
  rename_i hlength
  split at h
  · cases h
    exact ⟨_, _, rfl, hexString_ne_mismatch _⟩
  rename_i hselector
  have hsame : encodeExpire x ⟨slice data 4 36⟩ = data := by
    rw [encodeExpire, ← not_not.mp hselector, slice_append_slice (by decide) (by decide)]
    exact slice_all (not_not.mp hlength)
  rw [if_neg (not_not.mpr hsame)] at h
  cases h

/-- Each decoder is the inverse of its encoder: it accepts exactly the encodings of the calls that
have room in them, so that no two calls share an encoding and no two strings a call.  It never finds
that the encoding of what it read differs, and no string is accepted by both. -/
theorem decoders_invert (hk : HasSelectors x) :
    (∀ data call, decodeDebit x data = .ok call ↔
      call.WellFormed ∧ encodeDebit x call = .ok data) ∧
    (∀ data call, decodeExpire x data = .ok call ↔
      call.channelId.length = 32 ∧ encodeExpire x call = data) ∧
    (∀ call : DebitCall, call.WellFormed → ∃ data, encodeDebit x call = .ok data ∧
      ∀ call' : DebitCall, call'.WellFormed → encodeDebit x call' = .ok data → call' = call) ∧
    (∀ call call' : ExpireCall, call.channelId.length = 32 → call'.channelId.length = 32 →
      encodeExpire x call' = encodeExpire x call → call' = call) ∧
    (∀ data data' call, data' ≠ data → decodeDebit x data = .ok call →
      decodeDebit x data' ≠ .ok call) ∧
    (∀ data data' call, data' ≠ data → decodeExpire x data = .ok call →
      decodeExpire x data' ≠ .ok call) ∧
    (∀ data e, decodeDebit x data = .error e → Checked e) ∧
    (∀ data e, decodeExpire x data = .error e → Checked e) ∧
    ∀ data call call', decodeDebit x data = .ok call → decodeExpire x data ≠ .ok call' := by
  refine ⟨fun _ _ => decodeDebit_iff hk, fun _ _ => decodeExpire_iff hk, ?_, ?_, ?_, ?_,
    fun _ _ => decodeDebit_checked, fun _ _ => decodeExpire_checked,
    fun _ _ _ => decodeExpire_ne_debit x⟩
  · intro call hwf
    obtain ⟨data, hdata⟩ := hwf.encode (x := x)
    refine ⟨data, hdata, fun call' hwf' hdata' => ?_⟩
    exact Except.ok.inj ((decodeDebit_of_encode hk hwf' hdata').symm.trans
      (decodeDebit_of_encode hk hwf hdata))
  · intro call call' hid hid' hsame
    exact Except.ok.inj (((decodeExpire_iff hk).mpr ⟨hid', hsame⟩).symm.trans
      ((decodeExpire_iff hk).mpr ⟨hid, rfl⟩))
  · intro data data' call hne h h'
    exact hne (Except.ok.inj ((decodeDebit_encode x h').symm.trans (decodeDebit_encode x h)))
  · intro data data' call hne h h'
    exact hne ((decodeExpire_encode x h').symm.trans (decodeExpire_encode x h))

section Sample

open EscrowSigner.Sample

/-- The calldata of a debit is read as that debit, and nothing else is. -/
theorem decoders_invert_debit : decodeDebit plain (debitData 1) = .ok (debitCall 1) ∧
    decodeDebit plain (debitData 2) ≠ .ok (debitCall 1) ∧
    decodeExpire plain (debitData 1) ≠ .ok ⟨zeroBytes 32⟩ := by
  have hk : HasSelectors plain := fun data => by simp [plain]
  obtain ⟨hdebit, -, -, -, hother, -, -, -, hboth⟩ := decoders_invert hk
  have hread : decodeDebit plain (debitData 1) = .ok (debitCall 1) :=
    (hdebit _ _).mpr ⟨⟨rfl, by decide, rfl, by decide, rfl⟩, by decide +kernel⟩
  exact ⟨hread, hother _ _ _ (by decide +kernel) hread, hboth _ _ _ hread⟩

end Sample

/-! ### Hexadecimal text -/

/-- A hexadecimal digit, in either case. -/
def IsHexDigit (c : Char) : Prop :=
  ('0' ≤ c ∧ c ≤ '9') ∨ ('a' ≤ c ∧ c ≤ 'f') ∨ ('A' ≤ c ∧ c ≤ 'F')

instance (c : Char) : Decidable (IsHexDigit c) := inferInstanceAs (Decidable (_ ∨ _))

/-- `0x` and an even number of hexadecimal digits. -/
def HexText (text : String) : Prop :=
  ∃ digits, text.toList = '0' :: 'x' :: digits ∧ digits.length % 2 = 0 ∧ ∀ c ∈ digits, IsHexDigit c

/-- Pairs of hexadecimal digits, with white space before, between and after them. -/
inductive SpacedPairs : List Char → Prop
  | nil : SpacedPairs []
  | space (c : Char) (rest : List Char) (hc : isHexSpace c = true) (h : SpacedPairs rest) :
      SpacedPairs (c :: rest)
  | pair (c d : Char) (rest : List Char) (hc : IsHexDigit c) (hd : IsHexDigit d)
      (h : SpacedPairs rest) : SpacedPairs (c :: d :: rest)

/-- `0x` and pairs of hexadecimal digits among which there is white space, an even number of
characters in all. -/
def SpacedText (text : String) : Prop :=
  ∃ digits, text.toList = '0' :: 'x' :: digits ∧ digits.length % 2 = 0 ∧ SpacedPairs digits ∧
    ∃ c ∈ digits, isHexSpace c = true

theorem hexValue_isSome {c : Char} : (hexValue c).isSome = true ↔ IsHexDigit c := by
  unfold hexValue IsHexDigit
  split
  · simp [*]
  · split
    · simp [*]
    · split <;> simp [*]

theorem isHexDigit_ascii {c : Char} (h : IsHexDigit c) : c.toNat < 128 := by
  have hle : ∀ {a b : Char}, a ≤ b → a.toNat ≤ b.toNat := fun h => h
  rcases h with h | h | h
  · exact (hle h.2).trans_lt (by decide)
  · exact (hle h.2).trans_lt (by decide)
  · exact (hle h.2).trans_lt (by decide)

/-- A digit is no white space, and is written back in lower case. -/
theorem isHexDigit_facts {c : Char} (h : IsHexDigit c) : isHexSpace c = false ∧
    ∃ n < 16, hexValue c = some n ∧ hexDigit n = c.toLower := by
  have hall : ∀ k < 128, IsHexDigit (Char.ofNat k) → isHexSpace (Char.ofNat k) = false ∧
      ∃ n < 16, hexValue (Char.ofNat k) = some n ∧ hexDigit n = (Char.ofNat k).toLower := by
    decide +kernel
  have hc := hall c.toNat (isHexDigit_ascii h)
  rw [Char.ofNat_toNat] at hc
  exact hc h

theorem isHexDigit_of_value {c : Char} {n : Nat} (h : hexValue c = some n) : IsHexDigit c :=
  hexValue_isSome.mp (by rw [h]; rfl)

/-- The characters from which `bytes.fromhex` has read bytes: every byte takes two digits, and without
white space the bytes are spelled by the same digits in lower case. -/
structure ReadAs (cs : List Char) (data : Bytes) : Prop where
  pairs : SpacedPairs cs
  length : cs.length = 2 * data.length + cs.countP isHexSpace
  lower : (∀ c ∈ cs, isHexSpace c = false) → hexChars data = cs.map Char.toLower

theorem ReadAs.space {c : Char} {cs : List Char} {data : Bytes} (hc : isHexSpace c = true)
    (h : ReadAs cs data) : ReadAs (c :: cs) data where
  pairs := .space c cs hc h.pairs
  length := by
    rw [List.length_cons, List.countP_cons_of_pos hc, h.length, Nat.add_assoc]
  lower hno := absurd (hno c List.mem_cons_self) (by simp [hc])

theorem ReadAs.pair {c d : Char} {cs : List Char} {data : Bytes} {high low : Nat}
    (hc : hexValue c = some high) (hd : hexValue d = some low) (h : ReadAs cs data) :
    ReadAs (c :: d :: cs) (UInt8.ofNat (16 * high + low) :: data) := by
  obtain ⟨hspace, high', hlt, hhigh, hupper⟩ := isHexDigit_facts (isHexDigit_of_value hc)
  obtain ⟨hspace', low', hlt', hlow, hlower⟩ := isHexDigit_facts (isHexDigit_of_value hd)
  cases Option.some.inj (hc.symm.trans hhigh)
  cases Option.some.inj (hd.symm.trans hlow)
  refine ⟨.pair c d cs (isHexDigit_of_value hc) (isHexDigit_of_value hd) h.pairs, ?_, fun hno => ?_⟩
  · rw [List.length_cons, List.length_cons, List.countP_cons_of_neg (by simp [hspace]),
      List.countP_cons_of_neg (by simp [hspace']), h.length, List.length_cons]
    omega
  · have hbyte : (UInt8.ofNat (16 * high + low)).toNat = 16 * high + low := by
      rw [UInt8.toNat_ofNat']
      omega
    have hdiv : (16 * high + low) / 16 = high := by omega
    have hmod : (16 * high + low) % 16 = low := by omega
    have hcons : hexChars (UInt8.ofNat (16 * high + low) :: data) =
        hexDigit ((UInt8.ofNat (16 * high + low)).toNat / 16) ::
          hexDigit ((UInt8.ofNat (16 * high + low)).toNat % 16) :: hexChars data := rfl
    rw [hcons, hbyte, hdiv, hmod, hupper, hlower, h.lower fun e he => hno e (by simp [he])]
    rfl

theorem readAs_of_fromHexChars {cs : List Char} {data : Bytes} (h : fromHexChars cs = some data) :
    ReadAs cs data := by
  induction cs using fromHexChars.induct generalizing data with
  | case1 =>
    cases h
    exact ⟨.nil, rfl, fun _ => rfl⟩
  | case2 c hc =>
    rw [fromHexChars, if_pos hc] at h
    cases h
    exact .space hc ⟨.nil, rfl, fun _ => rfl⟩
  | case3 c hc =>
    rw [fromHexChars, if_neg hc] at h
    cases h
  | case4 c d rest hc ih =>
    rw [fromHexChars, if_pos hc] at h
    exact .space hc (ih h)
  | case5 c d rest hc ih =>
    rw [fromHexChars, if_neg hc] at h
    obtain ⟨high, hhigh, h⟩ := Option.bind_eq_some_iff.mp h
    obtain ⟨low, hlow, h⟩ := Option.bind_eq_some_iff.mp h
    obtain ⟨tail, htail, h⟩ := Option.bind_eq_some_iff.mp h
    cases h
    exact .pair hhigh hlow (ih htail)

theorem SpacedPairs.fromHexChars {cs : List Char} (h : SpacedPairs cs) :
    ∃ data, EscrowSigner.fromHexChars cs = some data := by
  induction h with
  | nil => exact ⟨[], rfl⟩
  | space c rest hc h ih =>
    obtain ⟨data, hdata⟩ := ih
    cases rest with
    | nil => exact ⟨[], if_pos hc⟩
    | cons d rest => exact ⟨data, (if_pos hc).trans hdata⟩
  | pair c d rest hc hd h ih =>
    obtain ⟨data, hdata⟩ := ih
    obtain ⟨hspace, high, -, hhigh, -⟩ := isHexDigit_facts hc
    obtain ⟨-, low, -, hlow, -⟩ := isHexDigit_facts hd
    refine ⟨UInt8.ofNat (16 * high + low) :: data, ?_⟩
    rw [EscrowSigner.fromHexChars, if_neg (by rw [hspace]; exact Bool.false_ne_true), hhigh, hlow,
      hdata]
    rfl

theorem spacedPairs_of_digits {cs : List Char} (heven : cs.length % 2 = 0)
    (h : ∀ c ∈ cs, IsHexDigit c) : SpacedPairs cs := by
  induction cs using List.twoStepInduction with
  | nil => exact .nil
  | singleton c => cases heven
  | cons_cons c d rest ih =>
    have hrest : rest.length % 2 = 0 := by
      simp only [List.length_cons] at heven
      omega
    exact .pair c d rest (h c (by simp)) (h d (by simp))
      (ih hrest fun e he => h e (by simp [he]))

theorem SpacedPairs.digits {cs : List Char} (h : SpacedPairs cs)
    (hno : ∀ c ∈ cs, isHexSpace c = false) : ∀ c ∈ cs, IsHexDigit c := by
  induction h with
  | nil => exact fun _ hc => absurd hc List.not_mem_nil
  | space c rest hc h ih => exact absurd (hno c List.mem_cons_self) (by simp [hc])
  | pair c d rest hc hd h ih =>
    intro e he
    rcases List.mem_cons.mp he with rfl | he
    · exact hc
    rcases List.mem_cons.mp he with rfl | he
    · exact hd
    · exact ih (fun f hf => hno f (by simp [hf])) e he

/-- What `parse_hex_bytes` reads. -/
theorem parseHexBytes_eq_ok {text reason : String} {data : Bytes} :
    parseHexBytes (.str text) reason = .ok data ↔ ∃ digits, text.toList = '0' :: 'x' :: digits ∧
      digits.length % 2 = 0 ∧ fromHexChars digits = some data := by
  constructor
  · intro h
    simp only [parseHexBytes] at h
    split at h
    · cases h
    rename_i hn
    rw [not_or, not_not, not_not] at hn
    obtain ⟨⟨digits, hdigits⟩, heven⟩ := hn
    have htext : text.toList = '0' :: 'x' :: digits := hdigits.symm
    rw [htext] at h heven
    refine ⟨digits, htext, by simp only [List.length_cons] at heven; omega, ?_⟩
    cases hread : fromHexChars digits with
    | none =>
      rw [List.drop_succ_cons, List.drop_succ_cons, List.drop_zero, hread] at h
      cases h
    | some data' =>
      rw [List.drop_succ_cons, List.drop_succ_cons, List.drop_zero, hread] at h
      exact congrArg some (Except.ok.inj h)
  · rintro ⟨digits, htext, heven, hread⟩
    have heven' : (digits.length + 1 + 1) % 2 = 0 := by omega
    simp [parseHexBytes, htext, heven', hread]

/-- What was read is written back as the text in lower case. -/
def ReadsBack (text : String) (data : Bytes) : Prop := hexString data = lower text

theorem HexText.reads {text : String} (h : HexText text) (reason : String) :
    ∃ data, parseHexBytes (.str text) reason = .ok data := by
  obtain ⟨digits, htext, heven, hdigits⟩ := h
  obtain ⟨data, hdata⟩ := (spacedPairs_of_digits heven hdigits).fromHexChars
  exact ⟨data, parseHexBytes_eq_ok.mpr ⟨digits, htext, heven, hdata⟩⟩

theorem readsBack_of_no_space {digits : List Char} {text : String} {data : Bytes}
    (htext : text.toList = '0' :: 'x' :: digits) (h : fromHexChars digits = some data)
    (hno : ∀ c ∈ digits, isHexSpace c = false) : ReadsBack text data := by
  rw [ReadsBack, hexString, lower, htext, (readAs_of_fromHexChars h).lower hno]
  rfl

/-- `parse_hex_bytes` reads `0x` and pairs of hexadecimal digits, and nothing else, and what it reads is
spelled so: unless the text has white space among the pairs. -/
theorem parseHexBytes_grammar (text reason : String) :
    ((∃ data, parseHexBytes (.str text) reason = .ok data) ↔ HexText text) ∧
      (∀ data, parseHexBytes (.str text) reason = .ok data → ReadsBack text data) ↔
    ¬ SpacedText text := by
  constructor
  · rintro ⟨hiff, -⟩ ⟨digits, htext, heven, hpairs, c, hc, hspace⟩
    obtain ⟨data, hdata⟩ := hpairs.fromHexChars
    obtain ⟨digits', htext', -, hdigits⟩ :=
      hiff.mp ⟨data, parseHexBytes_eq_ok.mpr ⟨digits, htext, heven, hdata⟩⟩
    cases htext.symm.trans htext'
    rw [(isHexDigit_facts (hdigits c hc)).1] at hspace
    cases hspace
  · intro hspaced
    have hno : ∀ digits data, text.toList = '0' :: 'x' :: digits → digits.length % 2 = 0 →
        fromHexChars digits = some data → ∀ c ∈ digits, isHexSpace c = false := by
      intro digits data htext heven hdata c hc
      refine Bool.eq_false_iff.mpr fun hspace => hspaced ?_
      exact ⟨digits, htext, heven, (readAs_of_fromHexChars hdata).pairs, c, hc, hspace⟩
    refine ⟨⟨?_, fun h => h.reads reason⟩, ?_⟩
    · rintro ⟨data, hdata⟩
      obtain ⟨digits, htext, heven, hread⟩ := parseHexBytes_eq_ok.mp hdata
      exact ⟨digits, htext, heven, (readAs_of_fromHexChars hread).pairs.digits
        (hno digits data htext heven hread)⟩
    · intro data hdata
      obtain ⟨digits, htext, heven, hread⟩ := parseHexBytes_eq_ok.mp hdata
      exact readsBack_of_no_space htext hread (hno digits data htext heven hread)

/-- Text with white space is read, although it is no hexadecimal text. -/
theorem parseHexBytes_not_exact :
    (∃ data, parseHexBytes (.str "0x 12 ") "calldata_length" = .ok data) ∧ ¬ HexText "0x 12 " := by
  refine ⟨⟨[0x12], by decide +kernel⟩, ?_⟩
  rintro ⟨digits, htext, -, hdigits⟩
  have hd : digits = [' ', '1', '2', ' '] := by
    have h : ['0', 'x', ' ', '1', '2', ' '] = '0' :: 'x' :: digits := htext
    injection h with _ h
    injection h with _ h
    exact h.symm
  exact absurd (hdigits ' ' (by simp [hd])) (by decide)

end Calldata

namespace Policy

open Calldata

variable {i : Instance}

/-! ### The envelope -/

/-- The escrow's address in either case of its digits. -/
def SpellsEscrow (i : Instance) (text : String) : Prop :=
  HexText text ∧ text.toList.length = 42 ∧ lower text = lower i.escrow

theorem escrow_spelling (i : Instance) : fromHexChars (i.escrow.toList.drop 2) = some (escrowBytes i) ∧
    (escrowBytes i).length = 20 ∧ hexString (escrowBytes i) = lower i.escrow := by
  have hall : ∀ d : Config.Deployment, ∃ raw : Bytes,
      fromHexChars ((Config.escrow d).toList.drop 2) = some raw ∧ raw.length = 20 ∧
        hexString raw = lower (Config.escrow d) := by
    intro d
    have hsome : ((fromHexChars ((Config.escrow d).toList.drop 2)).any fun raw =>
        raw.length = 20 ∧ hexString raw = lower (Config.escrow d)) = true := by
      cases d <;> decide +kernel
    obtain ⟨raw, hraw, hfacts⟩ := (Option.any_eq_true _ _).mp hsome
    exact ⟨raw, hraw, of_decide_eq_true hfacts⟩
  obtain ⟨raw, hraw, hlength, hspelling⟩ := hall i.deployment
  have hbytes : escrowBytes i = raw := by
    unfold escrowBytes Instance.escrow
    rw [hraw]
    rfl
  exact ⟨hbytes ▸ hraw, hbytes ▸ hlength, hbytes ▸ hspelling⟩

/-- The check of `to` accepts the spellings of the escrow. -/
theorem isEscrow_eq_some {text : String} :
    isEscrow i (.str text) = some text ↔ SpellsEscrow i text := by
  obtain ⟨-, hlength, hspelling⟩ := escrow_spelling i
  constructor
  · intro h
    simp only [isEscrow] at h
    split at h
    · cases h
    rename_i hshape
    rw [not_or, not_not, not_not] at hshape
    obtain ⟨hcount, digits, hdigits⟩ := hshape
    have htext : text.toList = '0' :: 'x' :: digits := hdigits.symm
    split at h
    · rename_i raw hraw
      split at h
      · cases h
      rename_i hsame
      rw [not_or, not_not, not_not] at hsame
      have hread : fromHexChars digits = some raw := by
        rw [htext] at hraw
        exact hraw
      have hforty : digits.length = 40 := by
        rw [htext] at hcount
        simpa using hcount
      have hno : ∀ c ∈ digits, isHexSpace c = false := by
        have hspaces := (readAs_of_fromHexChars hread).length
        rw [hforty, hsame.1] at hspaces
        have hnone : digits.countP isHexSpace = 0 := by omega
        intro c hc
        exact Bool.eq_false_iff.mpr (List.countP_eq_zero.mp hnone c hc)
      have hback : ReadsBack text raw := readsBack_of_no_space htext hread hno
      refine ⟨⟨digits, htext, by omega, (readAs_of_fromHexChars hread).pairs.digits hno⟩, hcount, ?_⟩
      rw [← hback, hsame.2, hspelling]
    · cases h
  · rintro ⟨⟨digits, htext, heven, hdigits⟩, hcount, hlower⟩
    obtain ⟨raw, hread⟩ := (spacedPairs_of_digits heven hdigits).fromHexChars
    have hback : ReadsBack text raw :=
      readsBack_of_no_space htext hread fun c hc => (isHexDigit_facts (hdigits c hc)).1
    have hraw : raw = escrowBytes i :=
      hexString_injective (hback.trans (hlower.trans hspelling.symm))
    have hdrop : text.toList.drop 2 = digits := by rw [htext]; rfl
    have hprefix : ['0', 'x'] <+: text.toList := ⟨digits, htext.symm⟩
    simp [isEscrow, hcount, hprefix, hdrop, hread, hraw, hlength]

theorem eq_str_of_isEscrow {value : Json} {text : String} (h : isEscrow i value = some text) :
    value = .str text := by
  cases value with
  | str text' =>
    simp only [isEscrow] at h
    split at h
    · cases h
    split at h
    · split at h
      · cases h
      · cases h
        rfl
    · cases h
  | _ => cases h

/-- The items of the transaction of a body that has the shape of an envelope. -/
def transactionItems (i : Instance) (rawBody : Bytes) : Option (List (String × Json)) := do
  let payload ← i.ext.loads rawBody
  let outer ← itemsWith ["transaction"] payload
  itemsWith envelopeKeys ((outer.lookup "transaction").getD .null)

/-- The checks of the fields of a transaction. -/
structure Acceptable (i : Instance) (items : List (String × Json)) : Prop where
  value : intField items "value" = some Config.txValue
  chainId : intField items "chainId" = some Config.chainId
  gas : ∃ gas, intField items "gas" = some gas ∧ 0 < gas
  toAddr : ∃ text, (items.lookup "to").getD .null = .str text ∧ SpellsEscrow i text
  data : ∃ data, parseHexBytes ((items.lookup "data").getD .null) "calldata_length" = .ok data

theorem parseTransaction_isOk {items : List (String × Json)} {chainId gas value : Int} :
    (∃ env, parseTransaction i items chainId gas value = .ok env) ↔
      value = Config.txValue ∧ chainId = Config.chainId ∧ 0 < gas ∧
        (∃ text, (items.lookup "to").getD .null = .str text ∧ SpellsEscrow i text) ∧
        ∃ data, parseHexBytes ((items.lookup "data").getD .null) "calldata_length" = .ok data := by
  constructor
  · rintro ⟨env, h⟩
    unfold parseTransaction at h
    split at h
    · cases h
    rename_i hvalue
    split at h
    · cases h
    rename_i hchain
    split at h
    · cases h
    rename_i toAddr hto
    split at h
    · cases h
    · cases h
    · rename_i data hdata
      split at h
      · cases h
      rename_i hgas
      have hstr := eq_str_of_isEscrow hto
      rw [hstr] at hto
      exact ⟨not_not.mp hvalue, not_not.mp hchain, not_le.mp hgas,
        ⟨toAddr, hstr, isEscrow_eq_some.mp hto⟩, data, hdata⟩
  · rintro ⟨rfl, rfl, hgas, ⟨text, hto, hspells⟩, data, hdata⟩
    refine ⟨⟨text, data, Config.chainId, gas, Config.txValue⟩, ?_⟩
    simp [parseTransaction, hto, isEscrow_eq_some.mpr hspells, hdata, hgas]

/-- `_parse_envelope` accepts a body that has the shape of an envelope and whose fields pass their
checks. -/
theorem parseEnvelope_isOk {rawBody : Bytes} :
    (∃ env, parseEnvelope i rawBody = .ok env) ↔
      ∃ items, transactionItems i rawBody = some items ∧ Acceptable i items := by
  unfold parseEnvelope transactionItems
  cases i.ext.loads rawBody with
  | none => simp
  | some payload =>
  cases houter : itemsWith ["transaction"] payload with
  | none => simp [houter]
  | some outer =>
  cases hitems : itemsWith envelopeKeys ((outer.lookup "transaction").getD .null) with
  | none => simp [houter, hitems]
  | some items =>
  simp only [Option.bind_eq_bind, Option.bind_some, houter, hitems, Option.some.injEq,
    exists_eq_left']
  constructor
  · intro h
    split at h
    · rename_i chainId gas value hchain hgas hvalue
      obtain ⟨rfl, rfl, hpos, hto, hdata⟩ := parseTransaction_isOk.mp h
      exact ⟨hvalue, hchain, ⟨gas, hgas, hpos⟩, hto, hdata⟩
    · obtain ⟨env, h⟩ := h
      cases h
  · rintro ⟨hvalue, hchain, ⟨gas, hgas, hpos⟩, hto, hdata⟩
    rw [hvalue, hchain, hgas]
    exact parseTransaction_isOk.mpr ⟨rfl, rfl, hpos, hto, hdata⟩

end Policy

/-- On texts without white space among the pairs, and on no others, `parse_hex_bytes` reads what its
grammar says.  The check of `to` takes exactly the spellings of the escrow, whatever the text. -/
theorem hexText_read_exactly (text reason : String) (i : Instance) (rawBody : Bytes) :
    (((∃ data, Calldata.parseHexBytes (.str text) reason = .ok data) ↔ Calldata.HexText text) ∧
      (∀ data, Calldata.parseHexBytes (.str text) reason = .ok data →
        Calldata.ReadsBack text data) ↔ ¬ Calldata.SpacedText text) ∧
    ((∃ env, Policy.parseEnvelope i rawBody = .ok env) ↔
      ∃ items, Policy.transactionItems i rawBody = some items ∧ Policy.Acceptable i items) :=
  ⟨Calldata.parseHexBytes_grammar text reason, Policy.parseEnvelope_isOk⟩

end EscrowSigner
