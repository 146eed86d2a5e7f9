import EscrowSigner.Server.Handler
import EscrowSigner.Service

/-! The routes of the HTTP handler: what a GET shows, and what a POST has to bring before its body is
handled. -/

namespace EscrowSigner.Server

open Policy

/-- What `_send` writes. -/
structure Reply where
  status : Int
  body : List (String × Json)

/-- The settings that only the handler reads. -/
structure Front where
  signPath : String
  token : String

variable (i : Instance) (front : Front)

/-! ### GET -/

/-- `text.lower()`, on the Latin-1 letters that a request line is made of. -/
def lowerLatin1 (text : String) : String :=
  String.ofList (text.toList.map fun c =>
    if 0xc0 ≤ c.toNat && c.toNat ≤ 0xde && c.toNat != 0xd7 then Char.ofNat (c.toNat + 32)
    else c.toLower)

/-- `path.strip("/").split("/")`. -/
def pathParts (path : String) : List String :=
  let slash : Char → Bool := (· == '/')
  let bare := ((path.toList.dropWhile slash).reverse.dropWhile slash).reverse
  (bare.splitOn '/').map String.ofList

/-- What is shown of a row. -/
def receiptBody (r : SpendRow) : List (String × Json) :=
  [("receipt_id", .str r.receiptId), ("channel_id", .str r.channelId),
    ("amount_units", .int r.amountUnits), ("state", .str r.state.name), ("tx_hash", .str r.txHash),
    ("account_nonce", .int r.accountNonce)]

/-- The route `/receipt/<receipt_id>`. -/
def getReceipt (path : String) : Code Reply :=
  match pathParts path with
  | [_, receiptId] => do
    match ← Ledger.get ⟨Config.chainId, i.escrow, lowerLatin1 receiptId⟩ with
    | none => return ⟨404, [("error", .str "unknown_receipt")]⟩
    | some row => return ⟨200, receiptBody row⟩
  | _ => return ⟨400, [("error", .str "usage: /receipt/<receipt_id>")]⟩

/-- The route `/health`. -/
def health : Code Reply := do
  let ok ← readMemory
  let ready ← readMemory
  let reason ← readMemory
  let halted ← Ledger.halted
  return ⟨200, [("ok", .bool ok.ready), ("service", .str "escrow-policy-signer"),
    ("address", .str i.address), ("chain_id", .int Config.chainId), ("escrow", .str i.escrow),
    ("ready", .bool ready.ready), ("not_ready_reason", .str reason.notReadyReason),
    ("halted", .str halted)]⟩

/-- A value of a dictionary, as JSON. -/
def scalarJson : Scalar → Json
  | .null => .null
  | .int n => .int n
  | .text s => .str s

/-- `unlimited_windows`. -/
def unlimitedWindows (caps : Caps) : List String :=
  ((caps.asJson.filter (·.2 = .text "unlimited")).map (·.1)).insertionSort (· ≤ ·)

/-- The route `/status`. -/
def status : Code Reply := do
  let stats ← Ledger.stats
  let memory ← readMemory
  return ⟨200, [("address", .str i.address), ("ready", .bool memory.ready),
    ("caps", .obj (i.settings.caps.asJson.map fun cap => (cap.1, scalarJson cap.2))),
    ("unlimited_windows", .arr ((unlimitedWindows i.settings.caps).map .str)),
    ("ledger", .obj stats)]⟩

/-- `do_GET`. -/
def get (path : String) : Code Reply :=
  if path = "/health" then health i
  else if path = "/status" then status i
  else if "/receipt/".toList.isPrefixOf path.toList then getReceipt i path
  else return ⟨404, [("error", .str "not_found")]⟩

/-! ### POST -/

/-- What a POST brings: the path, the headers that the handler reads, and what its socket gives: the
bytes that arrive, and the exception that ends them, if it is not their end. -/
structure Incoming where
  path : String
  authorization : Option String
  contentLength : Option String
  transferEncoding : Option String
  sent : Bytes
  failure : Option Exn

/-- `self.rfile.read(n)`. -/
def Incoming.read (r : Incoming) (n : Nat) : Except Exn Bytes :=
  if n ≤ r.sent.length then .ok (r.sent.take n)
  else match r.failure with
    | none => .ok r.sent
    | some e => .error e

/-- `hmac.compare_digest`, which takes text only in ASCII. -/
def compareDigest (a b : String) : Except Exn Bool :=
  if (a.toList ++ b.toList).all (·.toNat < 128) then .ok (a == b) else .error (.other "TypeError")

/-- `authorized`. -/
def authorized (header : String) : Except Exn Bool :=
  if "Bearer ".toList.isPrefixOf header.toList then
    compareDigest (strip (String.ofList (header.toList.drop 7))) front.token
  else .ok false

/-- The value of `Content-Length`; `int` reads a decimal text, and nothing where it raises
`ValueError`. -/
def declaredLength (int : String → Option Int) (r : Incoming) : Option Int :=
  let text := r.contentLength.getD "0"
  if text = "" then some 0 else int text

/-- What the handler does with a request. -/
inductive Task
  | call (c : Call)
  | audited (d : Decision)
  | read (path : String)
  | plain (r : Reply)
  | fails (e : Exn)

/-- A body is handled once it has arrived whole and is not too large. -/
def readBody (r : Incoming) (declared : Int) : Except Exn Task := do
  let raw ← r.read (min declared (Config.maxBodyBytes + 1)).toNat
  if raw.length ≠ declared then return .plain ⟨400, [("error", .str "incomplete_body")]⟩
  else if raw.length > Config.maxBodyBytes then
    return .audited (refuse 413 "body_too_large" .none)
  else return .call (.handle raw)

/-- `do_POST`, up to the signing lock. -/
def door (int : String → Option Int) (r : Incoming) : Except Exn Task :=
  if r.path ≠ front.signPath then .ok (.plain ⟨404, [("error", .str "not_found")]⟩)
  else do
    if ← authorized front (r.authorization.getD "") then
      match declaredLength int r with
      | none => return .plain ⟨400, [("error", .str "malformed_length")]⟩
      | some declared =>
        if declared < 0 ∨ r.transferEncoding.getD "" ≠ "" then
          return .plain ⟨400, [("error", .str "malformed_length")]⟩
        else if declared > Config.maxBodyBytes then
          return .audited (refuse 413 "body_too_large" .none)
        else readBody r declared
    else return .audited (refuse 401 "unauthorized" .none)

/-- A request whose body is handled: it names the path, brings the token, and sends a body that is as
long as it declares and not too large. -/
structure Admitted (int : String → Option Int) (r : Incoming) (raw : Bytes) : Prop where
  path : r.path = front.signPath
  token : ∃ credentials, r.authorization = some ("Bearer " ++ credentials) ∧
    strip credentials = front.token
  ascii : front.token.toList.all (·.toNat < 128) = true
  declared : declaredLength int r = some raw.length
  plain : r.transferEncoding.getD "" = ""
  size : raw.length ≤ Config.maxBodyBytes
  sent : raw = r.sent.take raw.length

variable {front} {int : String → Option Int} {r : Incoming} {raw : Bytes}

theorem compareDigest_true {a b : String} :
    compareDigest a b = .ok true ↔ a = b ∧ b.toList.all (·.toNat < 128) = true := by
  unfold compareDigest
  split
  · rename_i hascii
    rw [List.all_append, Bool.and_eq_true] at hascii
    simp [hascii.2]
  · rename_i hascii
    refine ⟨nofun, fun ⟨hab, hb⟩ => absurd ?_ hascii⟩
    rw [List.all_append, hab, hb]
    rfl

theorem authorized_true {header : String} :
    authorized front header = .ok true ↔ (∃ credentials, header = "Bearer " ++ credentials ∧
      strip credentials = front.token) ∧ front.token.toList.all (·.toNat < 128) = true := by
  unfold authorized
  split
  · rename_i hscheme
    obtain ⟨rest, hrest⟩ := List.isPrefixOf_iff_prefix.mp hscheme
    have hdrop : header.toList.drop 7 = rest := by rw [← hrest]; rfl
    have hheader : header = "Bearer " ++ String.ofList rest := by
      apply String.toList_injective
      rw [String.toList_append]
      exact hrest.symm.trans (congrArg _ String.toList_ofList.symm)
    rw [hdrop, compareDigest_true]
    refine and_congr_left fun _ => ⟨fun h => ⟨_, hheader, h⟩, fun ⟨credentials, hc, h⟩ => ?_⟩
    have hsame : String.ofList rest = credentials := by
      apply String.toList_injective
      have := congrArg String.toList (hheader.symm.trans hc)
      simpa only [String.toList_append, List.append_cancel_left_eq] using this
    rw [hsame, h]
  · rename_i hscheme
    refine ⟨nofun, fun ⟨⟨credentials, hc, _⟩, _⟩ => absurd ?_ hscheme⟩
    rw [hc, String.toList_append]
    exact List.isPrefixOf_iff_prefix.mpr (List.prefix_append _ _)

/-- A read that gives as many bytes as it was asked for gives the first that were sent. -/
theorem read_whole : r.read raw.length = .ok raw ↔ raw = r.sent.take raw.length := by
  unfold Incoming.read
  split
  · exact ⟨fun h => (Except.ok.inj h).symm, fun h => congrArg Except.ok h.symm⟩
  · rename_i hshort
    refine ⟨fun h => ?_, fun h => absurd ?_ hshort⟩
    · split at h
      · cases h
        exact absurd le_rfl hshort
      · cases h
    · exact (congrArg List.length h).trans_le (List.length_take_le' _ _)

theorem readBody_call {declared : Int} {c : Call} (hpos : 0 ≤ declared)
    (hsize : declared ≤ Config.maxBodyBytes) : readBody r declared = .ok (.call c) ↔
      ∃ raw, c = .handle raw ∧ declared = raw.length ∧ raw = r.sent.take raw.length := by
  have hasked : (min declared (Config.maxBodyBytes + 1)).toNat = declared.toNat := by
    rw [min_eq_left (by omega)]
  unfold readBody
  rw [hasked, bind_ok_iff]
  constructor
  · rintro ⟨raw, hraw, h⟩
    split at h
    · cases h
    rename_i hlength
    split at h
    · cases h
    cases h
    have hdeclared : declared = raw.length := (not_not.mp hlength).symm
    refine ⟨raw, rfl, hdeclared, read_whole.mp ?_⟩
    rwa [hdeclared, Int.toNat_natCast] at hraw
  · rintro ⟨raw, rfl, rfl, hsent⟩
    refine ⟨raw, read_whole.mpr hsent, ?_⟩
    rw [if_neg (not_not.mpr rfl), if_neg (not_lt.mpr hsize)]
    rfl

/-- The door opens for the requests that are admitted, and for no other. -/
theorem door_call {c : Call} :
    door front int r = .ok (.call c) ↔ ∃ raw, c = .handle raw ∧ Admitted front int r raw := by
  constructor
  · intro h
    unfold door at h
    split at h
    · cases h
    rename_i hpath
    obtain ⟨allowed, hauth, h⟩ := bind_ok_iff.mp h
    cases allowed with
    | false => cases h
    | true =>
      obtain ⟨⟨credentials, hheader, htoken⟩, hascii⟩ := authorized_true.mp hauth
      simp only [if_true] at h
      split at h
      · cases h
      rename_i declared hdeclared
      split at h
      · cases h
      rename_i hplain
      split at h
      · cases h
      rename_i hsize
      obtain ⟨hpos, hencoding⟩ := not_or.mp hplain
      obtain ⟨raw, rfl, rfl, hsent⟩ := (readBody_call (not_lt.mp hpos) (not_lt.mp hsize)).mp h
      refine ⟨raw, rfl, not_not.mp hpath, ⟨credentials, ?_, htoken⟩, hascii, hdeclared,
        not_not.mp hencoding, not_lt.mp hsize, hsent⟩
      cases hgiven : r.authorization with
      | some header =>
        rw [hgiven] at hheader
        exact congrArg some hheader
      | none =>
        rw [hgiven] at hheader
        have hlength : 0 = 7 + credentials.length :=
          (congrArg String.length hheader).trans (String.length_append _ _)
        omega
  · rintro ⟨raw, rfl, h⟩
    obtain ⟨credentials, hheader, htoken⟩ := h.token
    have hauth : authorized front (r.authorization.getD "") = .ok true :=
      authorized_true.mpr ⟨⟨credentials, by rw [hheader]; rfl, htoken⟩, h.ascii⟩
    have hplain : ¬ ((raw.length : Int) < 0 ∨ r.transferEncoding.getD "" ≠ "") :=
      not_or.mpr ⟨not_lt.mpr (Int.natCast_nonneg _), not_not.mpr h.plain⟩
    unfold door
    rw [if_neg (not_not.mpr h.path), hauth]
    show (match declaredLength int r with
      | none => _
      | some declared => _) = _
    rw [h.declared]
    show (if _ then _ else if _ then _ else _) = _
    rw [if_neg hplain, if_neg (not_lt.mpr h.size)]
    exact (readBody_call (Int.natCast_nonneg _) h.size).mpr ⟨raw, rfl, rfl, h.sent⟩

/-! ### The server -/

variable (front)

/-- What comes to the process: its own start, the timer of the sweep, or a request. -/
inductive Arrival
  | boot
  | sweep
  | get (path : String)
  | post (r : Incoming)

def Arrival.task (int : String → Option Int) : Arrival → Task
  | .boot => .call .boot
  | .sweep => .call .sweep
  | .get path => .read path
  | .post r =>
    match door front int r with
    | .ok task => task
    | .error e => .fails e

theorem task_of_door {front : Front} {task : Task} (h : door front int r = .ok task) :
    (Arrival.post r).task front int = task := by
  simp only [Arrival.task, h]

/-- The code of a task, with the reply that it sends. -/
def Task.code : Task → Code (Option Reply)
  | .call (.handle raw) => do
    let d ← post i raw
    return some ⟨d.status, d.body⟩
  | .call c => do
    let _ ← serve i c
    return none
  | .audited d => do
    let d ← decide i d
    return some ⟨d.status, d.body⟩
  | .read path => do
    let reply ← get i path
    return some reply
  | .plain reply => return some reply
  | .fails e => throwExn e

/-- The world in which the code of a task starts: a call of the service is noted. -/
def Task.enter : Task → World → World
  | .call c, w => w.record (.call c)
  | _, w => w

/-- The execution of a task on a script. -/
def Task.execute (task : Task) (script : List Choice) (w : World) :
    Process.Outcome Exn (Option Reply) × World :=
  (task.code i).run script (task.enter w)

end EscrowSigner.Server
