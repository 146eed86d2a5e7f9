import EscrowSigner.Codec

/-! `call_method`: one JSON-RPC call over every endpoint in turn.  An endpoint may fail, or reply with any
JSON document. -/

namespace EscrowSigner

/-! ### UTF-8 with replacements -/

/-- The bits that a first byte holds, with the ranges of the bytes that may follow it. -/
def utf8Lead (b : Nat) : Option (Nat × List (Nat × Nat)) :=
  let any := (0x80, 0xBF)
  if 0xC2 ≤ b ∧ b ≤ 0xDF then some (b - 0xC0, [any])
  else if b = 0xE0 then some (0x0, [(0xA0, 0xBF), any])
  else if b = 0xED then some (0xD, [(0x80, 0x9F), any])
  else if 0xE1 ≤ b ∧ b ≤ 0xEF then some (b - 0xE0, [any, any])
  else if b = 0xF0 then some (0x0, [(0x90, 0xBF), any, any])
  else if 0xF1 ≤ b ∧ b ≤ 0xF3 then some (b - 0xF0, [any, any, any])
  else if b = 0xF4 then some (0x4, [(0x80, 0x8F), any, any])
  else none

/-- The character of a sequence and what follows it.  A sequence that breaks off is replaced. -/
def utf8Rest (value : Nat) : List (Nat × Nat) → Bytes → Char × Bytes
  | [], rest => (Char.ofNat value, rest)
  | _ :: _, [] => (Char.ofNat 0xFFFD, [])
  | (low, high) :: ranges, b :: rest =>
    if low ≤ b.toNat ∧ b.toNat ≤ high then utf8Rest (64 * value + (b.toNat - 0x80)) ranges rest
    else (Char.ofNat 0xFFFD, b :: rest)

/-- The characters of at most `count` sequences. -/
def utf8Chars : (count : Nat) → Bytes → List Char
  | 0, _ | _, [] => []
  | count + 1, b :: rest =>
    if b.toNat < 0x80 then Char.ofNat b.toNat :: utf8Chars count rest
    else match utf8Lead b.toNat with
      | none => Char.ofNat 0xFFFD :: utf8Chars count rest
      | some (value, ranges) =>
        let (c, rest) := utf8Rest value ranges rest
        c :: utf8Chars count rest

/-- `data.decode("utf-8", "replace")`, as characters. -/
def decodeChars (data : Bytes) : List Char := utf8Chars data.length data

namespace Chainio

/-! ### Reverts -/

def escrowErrors : List String :=
  ["ChannelNotFound()", "ChannelNotOpen()", "ChannelExists()", "ChannelNotExpired()",
    "InsufficientBalance(uint256,uint256)", "InvalidSignature()", "ChannelExpired()",
    "Unauthorized()", "DepositOutOfRange()", "TokenNotSupported()",
    "ReceiptAlreadyUsed(bytes32)", "RefundAfterDebit()", "UnsupportedTokenDecimals()",
    "ReasonTooLong()"]

/-- The selectors of the escrow's errors with their names, the last ones first. -/
def errorNames (x : Externals) : List (String × String) :=
  (escrowErrors.map fun signature =>
    (hexString (Calldata.selector x signature),
      String.ofList (signature.toList.takeWhile (· ≠ '(')))).reverse

/-- The reason in the data of an `Error(string)`. -/
def errorString (digits : List Char) : String :=
  match fromHexChars digits with
  | none => "Error(string)"
  | some body =>
    let length := fromBytes (Calldata.slice body 32 64)
    let reason := decodeChars (Calldata.slice body 64 (64 + length))
    "Error:" ++ String.ofList (reason.take 64)

/-- `_decode_revert`.  A letter beyond ASCII stands in no selector that is known; in the text of an
unknown one it is left as it is, where Python writes it in lower case. -/
def decodeRevert (x : Externals) (data : String) : String :=
  let raw := stripChars data.toList
  if ¬ ['0', 'x'] <+: raw ∨ raw.length < 10 then "unknown_revert"
  else
    let sel := lower (String.ofList (raw.take 10))
    match (errorNames x).lookup sel with
    | some name => name
    | none => if sel = "0x08c379a0" then errorString (raw.drop 10) else "revert" ++ sel

/-! ### Texts without credentials -/

/-- A character of a user name or a password in an URL. -/
def isCredential (c : Char) : Bool := c ≠ '/' && c ≠ '@' && !isBlank c

/-- What follows the credentials that a text begins with. -/
def afterCredentials (cs : List Char) : Option (List Char) :=
  match cs.dropWhile isCredential with
  | '@' :: rest => if ':' ∈ cs.takeWhile isCredential then some rest else none
  | _ => none

theorem length_afterCredentials {cs rest : List Char} (h : afterCredentials cs = some rest) :
    rest.length < cs.length := by
  unfold afterCredentials at h
  split at h
  · rename_i tail hdrop
    split at h
    · cases h
      have hle := (List.dropWhile_suffix isCredential (l := cs)).length_le
      rw [hdrop, List.length_cons] at hle
      omega
    · cases h
  · cases h

def scrubChars : List Char → List Char
  | '/' :: '/' :: cs =>
    match h : afterCredentials cs with
    | some rest =>
      have := length_afterCredentials h
      "//<redacted>@".toList ++ scrubChars rest
    | none => '/' :: scrubChars ('/' :: cs)
  | c :: cs => c :: scrubChars cs
  | [] => []
termination_by cs => cs.length

def scrub (text : String) : String := String.ofList (scrubChars text.toList)

/-! ### The endpoints -/

/-- What an endpoint answers a request with: an HTTP error, another failure, or a JSON document. -/
inductive Reply
  | httpError (code : Int)
  | failure (typeName : String)
  | body (document : Json)

/-- The data of an error, where it reads as that of a revert. -/
def revertData : Json → Option String
  | .obj error =>
    let data := match (error.lookup "data").getD .null with
      | .obj inner => (inner.lookup "data").getD .null
      | data => data
    match data with
    | .str text => if ['0', 'x'] <+: text.toList ∧ 10 ≤ text.toList.length then some text else none
    | _ => none
  | _ => none

/-- The message of an error. -/
def errorMessage : Json → Json
  | .obj error =>
    let message := (error.lookup "message").getD .null
    if message.truthy then message else .str ""
  | _ => .str ""

/-- Whether a message speaks of a revert. -/
def saysRevert (message : String) : Prop := "revert".toList <:+: (lower message).toList

instance (message : String) : Decidable (saysRevert message) := inferInstanceAs (Decidable (_ <:+: _))

/-- What a reply comes to: the result, or what is noted before the next endpoint is tried. -/
def readReply (x : Externals) (url : String) : Reply → Except Exn (Json ⊕ String)
  | .httpError code => .ok (.inr s!"{scrub url}: HTTP {code}")
  | .failure typeName => .ok (.inr s!"{scrub url}: {typeName}")
  | .body body => do
    let error ← body.get "error" .null
    if error.truthy then
      match revertData error with
      | some data => .error (.reverted (decodeRevert x data))
      | none =>
        match errorMessage error with
        | .str message =>
          if saysRevert message then .error (.reverted "unknown_revert")
          else .ok (.inr s!"{scrub url}: rpc {String.ofList (message.toList.take 60)}")
        | _ => .error .attributeError
    else
      match body with
      | .obj items =>
        match items.lookup "result" with
        | some result => .ok (.inl result)
        | none => .ok (.inr s!"{scrub url}: no result")
      | _ => .error .attributeError

/-- The loop of `call_method`, with `last_errors`. -/
def tryEndpoints (x : Externals) : List (String × Reply) → List String →
    Except Exn Json × List String
  | [], lastErrors =>
    (.error (.rpcUnavailable (if lastErrors = [] then "no endpoints tried"
      else "; ".intercalate lastErrors)), lastErrors)
  | (url, reply) :: rest, lastErrors =>
    match readReply x url reply with
    | .error e => (.error e, lastErrors)
    | .ok (.inl result) => (.ok result, lastErrors)
    | .ok (.inr note) => tryEndpoints x rest (lastErrors ++ [note])

def callMethod (x : Externals) (endpoints : List (String × Reply)) : Except Exn Json × List String :=
  tryEndpoints x endpoints []

/-! ### What a reply says -/

/-- A result without an error. -/
def Gives (reply : Reply) (result : Json) : Prop :=
  ∃ items, reply = .body (.obj items) ∧ ((items.lookup "error").getD .null).truthy = false ∧
    items.lookup "result" = some result

/-- An error that reports a revert, by its data or by its message. -/
def Reverts (reply : Reply) : Prop :=
  ∃ items error, reply = .body (.obj items) ∧ items.lookup "error" = some (.obj error) ∧
    ((∃ data, revertData (.obj error) = some data) ∨
      ∃ message, error.lookup "message" = some (.str message) ∧ saysRevert message)

/-- A reply that settles the call. -/
def Decisive (reply : Reply) : Prop := (∃ result, Gives reply result) ∨ Reverts reply

/-- A document that is no object, or an error without the data of a revert whose message is neither
text nor empty. -/
def Misshapen (reply : Reply) : Prop :=
  (∃ document, reply = .body document ∧ ∀ items, document ≠ .obj items) ∨
    ∃ items error message, reply = .body (.obj items) ∧ items.lookup "error" = some (.obj error) ∧
      revertData (.obj error) = none ∧ error.lookup "message" = some message ∧
      message.truthy = true ∧ ∀ text, message ≠ .str text

/-- The replies that are reached: no reply before them settles the call. -/
inductive Reached : List Reply → Reply → Prop
  | here {reply : Reply} {rest : List Reply} : Reached (reply :: rest) reply
  | later {before reply : Reply} {rest : List Reply} (h : ¬ Decisive before)
    (hrest : Reached rest reply) : Reached (before :: rest) reply

/-- The result of a call over all endpoints: that of the first reply that settles it, or an outage. -/
structure FailsOver (replies : List Reply) (result : Except Exn Json) : Prop where
  returned : ∀ v, result = .ok v ↔ ∃ reply, Reached replies reply ∧ Gives reply v
  reverted : (∃ name, result = .error (.reverted name)) ↔
    ∃ reply, Reached replies reply ∧ Reverts reply
  unavailable : (∃ message, result = .error (.rpcUnavailable message)) ↔
    ∀ reply ∈ replies, ¬ Decisive reply
  only : ∀ e, result = .error e → (∃ name, e = .reverted name) ∨ ∃ message, e = .rpcUnavailable message

variable {x : Externals} {url : String} {reply : Reply} {replies : List Reply}
  {items : List (String × Json)} {v : Json}

theorem Gives.unique {v' : Json} (h : Gives reply v) (h' : Gives reply v') : v = v' := by
  obtain ⟨items, rfl, -, hv⟩ := h
  obtain ⟨items', hitems, -, hv'⟩ := h'
  cases hitems
  exact Option.some.inj (hv.symm.trans hv')

/-- Where a message speaks of a revert or is no text, it is not empty, and so the error is not. -/
theorem truthy_of_lookup {error : List (String × Json)} {key : String} {value : Json}
    (h : error.lookup key = some value) : (Json.obj error).truthy = true := by
  cases error with
  | nil => cases h
  | cons => rfl

theorem Reverts.truthy (h : Reverts (.body (.obj items))) :
    ((items.lookup "error").getD .null).truthy = true := by
  obtain ⟨items', error, hitems, herror, h⟩ := h
  cases hitems
  rw [herror, Option.getD_some]
  rcases h with ⟨data, hdata⟩ | ⟨message, hmessage, -⟩
  · cases error with
    | nil => cases hdata
    | cons => rfl
  · exact truthy_of_lookup hmessage

theorem Misshapen.truthy (h : Misshapen (.body (.obj items))) :
    ((items.lookup "error").getD .null).truthy = true := by
  rcases h with ⟨document, hdocument, h⟩ | ⟨items', error, message, hitems, herror, -, hmessage, -⟩
  · cases hdocument
    exact absurd rfl (h items)
  · cases hitems
    rw [herror, Option.getD_some]
    exact truthy_of_lookup hmessage

theorem Gives.not_reverts (h : Gives reply v) : ¬ Reverts reply := by
  obtain ⟨items, rfl, hfalsy, -⟩ := h
  intro hreverts
  rw [hreverts.truthy] at hfalsy
  cases hfalsy

theorem Misshapen.not_decisive (h : Misshapen reply) : ¬ Decisive reply := by
  rintro (⟨v, items, rfl, hfalsy, -⟩ | ⟨items, error, rfl, herror, hreverts⟩)
  · rw [h.truthy] at hfalsy
    cases hfalsy
  · rcases h with ⟨document, hdocument, h⟩ |
      ⟨items', error', message, hitems, herror', hdata, hmessage, -, htext⟩
    · cases hdocument
      exact h items rfl
    · cases hitems
      cases Option.some.inj (herror.symm.trans herror')
      rcases hreverts with ⟨data, hrevert⟩ | ⟨text, htext', -⟩
      · cases hdata.symm.trans hrevert
      · exact htext text (Option.some.inj (hmessage.symm.trans htext'))

/-- What a reply is, by what is read from it. -/
inductive Verdict (reply : Reply) : Except Exn (Json ⊕ String) → Prop
  | gives {v : Json} (h : Gives reply v) : Verdict reply (.ok (.inl v))
  | reverts {name : String} (h : Reverts reply) : Verdict reply (.error (.reverted name))
  | misshapen (h : Misshapen reply) : Verdict reply (.error .attributeError)
  | passes {note : String} (h : ¬ Decisive reply) (h' : ¬ Misshapen reply) :
    Verdict reply (.ok (.inr note))

theorem not_saysRevert_empty : ¬ saysRevert "" := by decide

theorem errorMessage_none {error : List (String × Json)} (h : error.lookup "message" = none) :
    errorMessage (.obj error) = .str "" := by
  unfold errorMessage
  dsimp only
  rw [h]
  rfl

theorem errorMessage_some {error : List (String × Json)} {message : Json}
    (h : error.lookup "message" = some message) :
    errorMessage (.obj error) = if message.truthy then message else .str "" := by
  unfold errorMessage
  dsimp only
  rw [h]
  rfl

/-- An error that is no revert and no object with a strange message is passed over. -/
theorem passes_of_error (htruthy : ((items.lookup "error").getD .null).truthy = true)
    (hdata : ∀ error, items.lookup "error" = some (.obj error) → revertData (.obj error) = none)
    (hmessage : ∀ error message, items.lookup "error" = some (.obj error) →
      error.lookup "message" = some message → message.truthy = true →
      ∃ text, message = .str text ∧ ¬ saysRevert text) :
    ¬ Decisive (.body (.obj items)) ∧ ¬ Misshapen (.body (.obj items)) := by
  constructor
  · rintro (⟨v, items', hitems, hfalsy, -⟩ | ⟨items', error, hitems, herror, hreverts⟩)
    · cases hitems
      rw [htruthy] at hfalsy
      cases hfalsy
    · cases hitems
      rcases hreverts with ⟨data, hrevert⟩ | ⟨text, htext, hsays⟩
      · cases (hdata error herror).symm.trans hrevert
      · have hne : text ≠ "" := by
          rintro rfl
          exact not_saysRevert_empty hsays
        obtain ⟨text', htext', hnot⟩ := hmessage error _ herror htext (by simpa [Json.truthy] using hne)
        cases htext'
        exact hnot hsays
  · rintro (⟨document, hdocument, h⟩ | ⟨items', error, message, hitems, herror, -, hmess, ht, htext⟩)
    · cases hdocument
      exact h items rfl
    · cases hitems
      obtain ⟨text, rfl, -⟩ := hmessage error message herror hmess ht
      exact htext text rfl

/-- An error object without the data of a revert. -/
theorem verdict_message {error : List (String × Json)}
    (herror : items.lookup "error" = some (.obj error)) (htruthy : (Json.obj error).truthy = true)
    (hdata : revertData (.obj error) = none) :
    Verdict (.body (.obj items))
      (match errorMessage (.obj error) with
        | .str message =>
          if saysRevert message then .error (.reverted "unknown_revert")
          else .ok (.inr s!"{scrub url}: rpc {String.ofList (message.toList.take 60)}")
        | _ => .error .attributeError) := by
  have htruthy' : ((items.lookup "error").getD .null).truthy = true := by
    rw [herror]
    exact htruthy
  have hnone : ∀ error', items.lookup "error" = some (.obj error') → revertData (.obj error') = none := by
    intro error' herror'
    cases herror.symm.trans herror'
    exact hdata
  cases hmessage : error.lookup "message" with
  | none =>
    have hpasses := passes_of_error htruthy' hnone fun error' message herror' hmessage' => by
      cases herror.symm.trans herror'
      cases hmessage.symm.trans hmessage'
    rw [errorMessage_none hmessage]
    dsimp only
    rw [if_neg not_saysRevert_empty]
    exact .passes hpasses.1 hpasses.2
  | some message =>
    rw [errorMessage_some hmessage]
    by_cases ht : message.truthy = true
    · rw [if_pos ht]
      cases message with
      | str text =>
        dsimp only
        split
        · rename_i hsays
          exact .reverts ⟨items, error, rfl, herror, .inr ⟨text, hmessage, hsays⟩⟩
        · rename_i hnot
          have hpasses := passes_of_error htruthy' hnone fun error' message herror' hmessage' _ => by
            cases herror.symm.trans herror'
            exact ⟨text, Option.some.inj (hmessage'.symm.trans hmessage), hnot⟩
          exact .passes hpasses.1 hpasses.2
      | null | bool | int | float | arr | obj =>
        exact .misshapen (.inr ⟨items, error, _, rfl, herror, hdata, hmessage, ht,
          fun text h => by cases h⟩)
    · have hpasses := passes_of_error htruthy' hnone fun error' message' herror' hmessage' ht' => by
        cases herror.symm.trans herror'
        cases hmessage.symm.trans hmessage'
        exact absurd ht' ht
      rw [if_neg ht]
      dsimp only
      rw [if_neg not_saysRevert_empty]
      exact .passes hpasses.1 hpasses.2

theorem verdict (x : Externals) (url : String) (reply : Reply) :
    Verdict reply (readReply x url reply) := by
  cases reply with
  | httpError code =>
    exact .passes (by rintro (⟨v, items, h, -⟩ | ⟨items, error, h, -⟩) <;> cases h)
      (by rintro (⟨document, h, -⟩ | ⟨items, error, message, h, -⟩) <;> cases h)
  | failure typeName =>
    exact .passes (by rintro (⟨v, items, h, -⟩ | ⟨items, error, h, -⟩) <;> cases h)
      (by rintro (⟨document, h, -⟩ | ⟨items, error, message, h, -⟩) <;> cases h)
  | body document =>
    cases document with
    | obj items =>
      simp only [readReply, Json.get, bind, Except.bind]
      by_cases htruthy : ((items.lookup "error").getD .null).truthy = true
      · rw [if_pos htruthy]
        obtain ⟨error, herror⟩ : ∃ error, items.lookup "error" = some error := by
          cases hlookup : items.lookup "error" with
          | none =>
            rw [hlookup] at htruthy
            cases htruthy
          | some error => exact ⟨error, rfl⟩
        have herrs := htruthy
        rw [herror, Option.getD_some] at htruthy ⊢
        cases error with
        | obj error =>
          cases hdata : revertData (.obj error) with
          | some data => exact .reverts ⟨items, error, rfl, herror, .inl ⟨data, hdata⟩⟩
          | none => exact verdict_message herror htruthy hdata
        | null | bool | int | float | str | arr =>
          have hpasses := passes_of_error herrs (fun error' h => by cases herror.symm.trans h)
            fun error' message h => by cases herror.symm.trans h
          dsimp only [revertData, errorMessage]
          rw [if_neg not_saysRevert_empty]
          exact .passes hpasses.1 hpasses.2
      · have hfalsy : ((items.lookup "error").getD .null).truthy = false := by simpa using htruthy
        rw [if_neg htruthy]
        cases hresult : items.lookup "result" with
        | some result => exact .gives ⟨items, rfl, hfalsy, hresult⟩
        | none =>
          refine .passes ?_ fun h => htruthy h.truthy
          rintro (⟨v, items', hitems, -, hv⟩ | hreverts)
          · cases hitems
            cases hresult.symm.trans hv
          · exact htruthy hreverts.truthy
    | null | bool | int | float | str | arr =>
      exact .misshapen (.inl ⟨_, rfl, fun items h => by cases h⟩)

/-! ### Every endpoint in turn -/

theorem Reached.eq_of_decisive {first : Reply} (hd : Decisive first)
    (h : Reached (first :: replies) reply) : reply = first := by
  cases h with
  | here => rfl
  | later hn => exact absurd hd hn

theorem reached_cons {first : Reply} {P : Reply → Prop} (hn : ¬ Decisive first)
    (hP : ∀ r, P r → Decisive r) :
    (∃ r, Reached (first :: replies) r ∧ P r) ↔ ∃ r, Reached replies r ∧ P r := by
  constructor
  · rintro ⟨r, hr, hp⟩
    cases hr with
    | here => exact absurd (hP _ hp) hn
    | later _ hr => exact ⟨r, hr, hp⟩
  · rintro ⟨r, hr, hp⟩
    exact ⟨r, .later hn hr, hp⟩

theorem FailsOver.of_gives (h : Gives reply v) : FailsOver (reply :: replies) (.ok v) where
  returned v' := by
    constructor
    · intro heq
      cases heq
      exact ⟨reply, .here, h⟩
    · rintro ⟨r, hr, hv⟩
      rw [hr.eq_of_decisive (.inl ⟨v, h⟩)] at hv
      rw [h.unique hv]
  reverted := by
    constructor
    · rintro ⟨name, heq⟩
      cases heq
    · rintro ⟨r, hr, hreverts⟩
      rw [hr.eq_of_decisive (.inl ⟨v, h⟩)] at hreverts
      exact absurd hreverts h.not_reverts
  unavailable := by
    constructor
    · rintro ⟨message, heq⟩
      cases heq
    · exact fun hnone => absurd (.inl ⟨v, h⟩) (hnone reply List.mem_cons_self)
  only e heq := by cases heq

theorem FailsOver.of_reverts {name : String} (h : Reverts reply) :
    FailsOver (reply :: replies) (.error (.reverted name)) where
  returned v' := by
    constructor
    · intro heq
      cases heq
    · rintro ⟨r, hr, hv⟩
      rw [hr.eq_of_decisive (.inr h)] at hv
      exact absurd h hv.not_reverts
  reverted := ⟨fun _ => ⟨reply, .here, h⟩, fun _ => ⟨name, rfl⟩⟩
  unavailable := by
    constructor
    · rintro ⟨message, heq⟩
      cases heq
    · exact fun hnone => absurd (.inr h) (hnone reply List.mem_cons_self)
  only e heq := by
    cases heq
    exact .inl ⟨name, rfl⟩

theorem FailsOver.cons {result : Except Exn Json} (hn : ¬ Decisive reply)
    (h : FailsOver replies result) : FailsOver (reply :: replies) result where
  returned v' := (h.returned v').trans (reached_cons hn fun _ hv => .inl ⟨v', hv⟩).symm
  reverted := h.reverted.trans (reached_cons hn fun _ hr => .inr hr).symm
  unavailable := h.unavailable.trans
    ⟨fun hnone => List.forall_mem_cons.mpr ⟨hn, hnone⟩, fun hnone => (List.forall_mem_cons.mp hnone).2⟩
  only := h.only

theorem FailsOver.nil {message : String} : FailsOver [] (.error (.rpcUnavailable message)) where
  returned v' := by
    constructor
    · intro heq
      cases heq
    · rintro ⟨r, hr, -⟩
      cases hr
  reverted := by
    constructor
    · rintro ⟨name, heq⟩
      cases heq
    · rintro ⟨r, hr, -⟩
      cases hr
  unavailable := ⟨fun _ r hr => absurd hr List.not_mem_nil, fun _ => ⟨message, rfl⟩⟩
  only e heq := by
    cases heq
    exact .inr ⟨message, rfl⟩

/-- Over endpoints without a misshapen reply, the loop fails over. -/
theorem tryEndpoints_failsOver (x : Externals) (endpoints : List (String × Reply))
    (lastErrors : List String)
    (h : ∀ reply, Reached (endpoints.map (·.2)) reply → ¬ Misshapen reply) :
    FailsOver (endpoints.map (·.2)) (tryEndpoints x endpoints lastErrors).1 := by
  induction endpoints generalizing lastErrors with
  | nil => exact .nil
  | cons endpoint rest ih =>
    obtain ⟨url, reply⟩ := endpoint
    rw [List.map_cons] at h ⊢
    have hv := verdict x url reply
    unfold tryEndpoints
    generalize readReply x url reply = read at hv
    cases hv with
    | gives hv => exact .of_gives hv
    | reverts hr => exact .of_reverts hr
    | misshapen hm => exact absurd hm (h reply .here)
    | passes hn _ => exact .cons hn (ih _ fun r hr => h r (.later hn hr))

/-- A misshapen reply that is reached raises an exception that the callers do not name. -/
theorem tryEndpoints_misshapen (x : Externals) (endpoints : List (String × Reply))
    (lastErrors : List String) (h : Reached (endpoints.map (·.2)) reply) (hm : Misshapen reply) :
    (tryEndpoints x endpoints lastErrors).1 = .error .attributeError := by
  induction endpoints generalizing lastErrors with
  | nil => cases h
  | cons endpoint rest ih =>
    obtain ⟨url, first⟩ := endpoint
    have hv := verdict x url first
    unfold tryEndpoints
    generalize readReply x url first = read at hv
    cases h with
    | here =>
      cases hv with
      | gives hv => exact absurd (.inl ⟨_, hv⟩) hm.not_decisive
      | reverts hr => exact absurd (.inr hr) hm.not_decisive
      | misshapen => rfl
      | passes _ hn => exact absurd hm hn
    | later hn hrest =>
      cases hv with
      | gives hv => exact absurd (.inl ⟨_, hv⟩) hn
      | reverts hr => exact absurd (.inr hr) hn
      | misshapen => rfl
      | passes => exact ih _ hrest

/-- A call goes over all endpoints, whatever they reply, exactly if no misshapen reply is reached. -/
theorem callMethod_failsOver (x : Externals) (endpoints : List (String × Reply)) :
    FailsOver (endpoints.map (·.2)) (callMethod x endpoints).1 ↔
      ∀ reply, Reached (endpoints.map (·.2)) reply → ¬ Misshapen reply := by
  constructor
  · intro h reply hreached hm
    have hraised := tryEndpoints_misshapen x endpoints [] hreached hm
    rcases h.only _ hraised with ⟨name, hname⟩ | ⟨message, hmessage⟩
    · cases hname
    · cases hmessage
  · exact tryEndpoints_failsOver x endpoints []

/-- An array as the first reply keeps the second endpoint from being tried. -/
theorem callMethod_not_failsOver : ∃ (x : Externals) (first second : String),
    ¬ FailsOver [.body (.arr []), .body (.obj [("result", .str "0x1")])]
      (callMethod x [(first, .body (.arr [])),
        (second, .body (.obj [("result", .str "0x1")]))]).1 := by
  refine ⟨Sample.unhashed, "https://a", "https://b", fun h => ?_⟩
  rcases h.only .attributeError rfl with ⟨name, hname⟩ | ⟨message, hmessage⟩
  · cases hname
  · cases hmessage

end Chainio

end EscrowSigner
