import EscrowSigner.Machine.Identity
import EscrowSigner.Server.Serving

/-! The authoritative view of what the service broadcast: whatever came to the server, and whatever
the node answered, a receipt that it shows is borne out by what passed between it and the node. -/

namespace EscrowSigner.Server

open Policy Machine

variable {i : Instance} {front : Front} {int : String → Option Int} {as : List Arrival}
  {status : Status} {w : World} {path : String}

/-- What a request for a receipt is answered. -/
inductive ReceiptReply (i : Instance) (w : World) (path : String) (reply : Reply) : Prop
  | usage (hpath : ∀ route receiptId, pathParts path ≠ [route, receiptId])
      (hreply : reply.status = 400)
  | unknown (route receiptId : String) (hpath : pathParts path = [route, receiptId])
      (hrow : ∀ r ∈ w.tables.spend.rows,
        r.key ≠ ⟨Config.chainId, i.escrow, lowerLatin1 receiptId⟩)
      (hreply : reply.status = 404)
  | known (route receiptId : String) (r : SpendRow) (hpath : pathParts path = [route, receiptId])
      (hrow : r ∈ w.tables.spend.rows)
      (hkey : r.key = ⟨Config.chainId, i.escrow, lowerLatin1 receiptId⟩)
      (hreply : reply = ⟨200, receiptBody r⟩) (htold : Testified i w.log r)

/-- What the books say of a transaction, the log bears out. -/
theorem Serves.testified {env : State → Choice → Prop} {ok : State → Arrival → Prop}
    (h : Serves i front int env ok .initial status as w) :
    ∀ r ∈ w.tables.spend.rows, Testified i w.log r := by
  obtain ⟨φ, -, -, hborne⟩ := h.invariant (I := fun φ s => Signed i φ s ∧ Borne i φ s)
    ⟨signed_initial, borne_initial⟩ fun _ _ _ _ hsound hI hstep =>
      ⟨signed_step hsound hI.1 hstep, borne_step hsound hI.1 hI.2 hstep⟩
  exact hborne.rows

/-- The two worlds differ in time and chain at most. -/
structure Unwritten (w w' : World) : Prop where
  db : w'.db = w.db
  mem : w'.mem = w.mem
  log : w'.log = w.log

/-- A read between two transactions. -/
theorem through_view {α : Type} (f : Tables → α) (hclosed : w.db.working = none) :
    (select fun t => .ok (f t)).Through (fun _ _ => True) (Unwritten w) (fun _ => Unwritten w)
      (fun a w' => Unwritten w w' ∧ a = f w.tables) w := by
  refine .atomic ⟨rfl, rfl, rfl⟩ fun c _ => ?_
  rw [statement_eq hclosed]
  cases c.fault with
  | some fault => exact ⟨rfl, rfl, rfl⟩
  | none =>
    refine ⟨⟨?_, rfl, rfl⟩, rfl⟩
    show (⟨w.db.committed, none⟩ : Db) = w.db
    rw [← hclosed]

/-- A receipt is read off the committed books, and nothing is written. -/
theorem through_getReceipt (hclosed : w.db.working = none)
    (htold : ∀ r ∈ w.tables.spend.rows, Testified i w.log r) :
    (getReceipt i path).Through (fun _ _ => True) (Unwritten w) (fun _ => Unwritten w)
      (fun reply w' => Unwritten w w' ∧ ReceiptReply i w path reply) w := by
  unfold getReceipt
  split
  · rename_i route receiptId hpath
    refine Process.Through.bind (through_view _ hclosed) fun found w' ⟨hw, hfound⟩ => ?_
    subst hfound
    unfold Tables.get
    cases hrow : w.tables.spend.rows.find? _ with
    | none =>
      refine ⟨hw, .unknown route receiptId hpath (fun r hr hkey => ?_) rfl⟩
      exact List.find?_eq_none.mp hrow r hr (beq_iff_eq.mpr hkey)
    | some r =>
      have hmem : r ∈ w.tables.spend.rows := List.mem_of_find?_eq_some hrow
      have hkey : r.key = ⟨Config.chainId, i.escrow, lowerLatin1 receiptId⟩ := by
        simpa using List.find?_some hrow
      exact ⟨hw, .known route receiptId r hpath hmem hkey rfl (htold r hmem)⟩
  · rename_i hpath
    exact ⟨⟨rfl, rfl, rfl⟩, .usage (fun route receiptId h => hpath route receiptId h) rfl⟩

/-- Whatever came to the server before, wherever it stands, and whatever the node said: a request for a
receipt writes nothing, however it ends, and what it shows of a row when it is answered is borne out by the
log. -/
theorem receipts_testified
    (h : Serves i front int (fun _ _ => True) (fun _ _ => True) .initial status as w)
    (hclosed : w.db.working = none) (hroute : "/receipt/".toList.isPrefixOf path.toList = true)
    (script : List Choice) :
    Unwritten w ((get i path).run script w).2 ∧
      ∀ reply, ((get i path).run script w).1 = .returned reply → ReceiptReply i w path reply := by
  have hpath : get i path = getReceipt i path := by
    unfold get
    have hhealth : path ≠ "/health" := by
      rintro rfl
      exact absurd hroute (by decide)
    have hstatus : path ≠ "/status" := by
      rintro rfl
      exact absurd hroute (by decide)
    rw [if_neg hhealth, if_neg hstatus, if_pos hroute]
  rw [hpath]
  have hread : (getReceipt i path).Through (fun _ _ => True) (Unwritten w) (fun _ => Unwritten w)
      (fun reply w' => Unwritten w w' ∧ ReceiptReply i w path reply) w :=
    through_getReceipt hclosed h.testified
  have hrun := hread.run (Process.admits_true _ script w)
  cases hget : ((getReceipt i path).run script w).1 with
  | returned reply =>
    rw [hget] at hrun
    exact ⟨hrun.1, fun _ heq => Process.Outcome.returned.inj heq ▸ hrun.2⟩
  | raised e =>
    rw [hget] at hrun
    exact ⟨hrun, fun _ heq => by cases heq⟩
  | stopped =>
    rw [hget] at hrun
    exact ⟨hrun, fun _ heq => by cases heq⟩

/-! ### A sample -/

section Sample

open EscrowSigner.Sample

/-- The settings of a small server, where every length is read as one. -/
def smallFront : Front := ⟨"/sign", "token"⟩

def readsOne (_ : String) : Option Int := some 1

/-- The request for the first debit. -/
def debitPost : Incoming := ⟨"/sign", some "Bearer token", some "1", none, [1], none⟩

theorem admitted_debitPost : Admitted smallFront readsOne debitPost [1] where
  path := rfl
  token := ⟨"token", rfl, by decide +kernel⟩
  ascii := by decide
  declared := by decide
  plain := rfl
  size := by decide
  sent := rfl

theorem task_debitPost :
    (Arrival.post debitPost).task smallFront readsOne = .call (.handle [1]) :=
  task_of_door (door_call.mpr ⟨[1], rfl, admitted_debitPost⟩)

/-- The choices of an environment in which nothing special happens. -/
def calm : List Choice := ({ time := 0 } : Outside).script

theorem boot_running :
    Status.after (Task.execute (signer unlimited "") (.call .boot) calm .initial).1 = .running := by
  decide +kernel

/-- What comes after a boot. -/
theorem serves_after_boot {a : Arrival} {task : Task}
    (htask : a.task smallFront readsOne = task) : ∃ status,
      Serves (signer unlimited "") smallFront readsOne (fun _ _ => True) (fun _ _ => True) .initial
        status [a, .boot] (Task.execute (signer unlimited "") task calm
          (Task.execute (signer unlimited "") (.call .boot) calm .initial).2).2 := by
  have hstart : Serves (signer unlimited "") smallFront readsOne (fun _ _ => True)
      (fun _ _ => True) .initial .running [] .initial := .start
  have hboot : Arrival.boot.task smallFront readsOne = .call .boot := rfl
  have hbooted := hstart.task hboot calm
  rw [boot_running] at hbooted
  exact ⟨_, hbooted.task htask calm⟩

/-- The path of the receipt of the first debit. -/
def debitPath : String := "/receipt/" ++ hexString (debitCall 1).receiptId

/-- `post` from the outcome of the parser on. -/
def postParsed (i : Instance) (parsed : Except Decision Envelope) : Code Decision := do
  match ← (answerParsed i parsed).attempt with
  | .ok d => decide i d
  | .error _ => decide i (refuse 500 "internal_error" .none)

theorem execute_parsed {i : Instance} {body : Bytes} {parsed : Except Decision Envelope}
    (h : parseEnvelope i body = parsed) (script : List Choice) (w : World) :
    Task.execute i (.call (.handle body)) script w =
      (do let d ← postParsed i parsed; return some ⟨d.status, d.body⟩ : Code (Option Reply)).run script
        (w.record (.call (.handle body))) := by
  subst h
  rfl

/-- The status of a reply, if there was one. -/
def statusOf : Process.Outcome Exn Reply → Option Int
  | .returned reply => some reply.status
  | .raised _ | .stopped => none

/-- Whether a receipt is shown, on a database between two transactions. -/
def showsReceipt (i : Instance) (path : String) (script : List Choice) (w : World) : Bool :=
  statusOf ((get i path).run script w).1 = some 200 && w.db.working.isNone

theorem eval_parsed {i : Instance} {body : Bytes} {parsed : Except Decision Envelope}
    {script : List Choice} {w : World} (P : World → Bool) (h : parseEnvelope i body = parsed)
    (hP : P ((do let d ← postParsed i parsed; return some ⟨d.status, d.body⟩ :
      Code (Option Reply)).run script (w.record (.call (.handle body)))).2 = true) :
    P (Task.execute i (.call (.handle body)) script w).2 = true := by
  rw [execute_parsed h]
  exact hP

/-- After a boot and a debit, a signature was made, and the receipt of the debit is shown. -/
theorem serves_debit : ∃ status w, Serves (signer unlimited "") smallFront readsOne
    (fun _ _ => True) (fun _ _ => True) .initial status [.post debitPost, .boot] w ∧
      (w.log.any isSign && showsReceipt (signer unlimited "") debitPath calm w) = true := by
  obtain ⟨status, h⟩ := serves_after_boot task_debitPost
  refine ⟨status, _, h, eval_parsed (fun w => w.log.any isSign &&
    showsReceipt (signer unlimited "") debitPath calm w) (parse_payload rfl rfl) ?_⟩
  decide +kernel

/-- The receipt of a debit is shown, borne out by the log. -/
theorem receipts_testified_debit : ∃ w reply, reply.status = 200 ∧
    ReceiptReply (signer unlimited "") w debitPath reply := by
  obtain ⟨status, w, hserves, hshown⟩ := serves_debit
  obtain ⟨hstatus, hclosed⟩ := Bool.and_eq_true_iff.mp (Bool.and_eq_true_iff.mp hshown).2
  have hstatus := of_decide_eq_true hstatus
  cases hget : ((get (signer unlimited "") debitPath).run calm w).1 with
  | returned reply =>
    rw [hget] at hstatus
    have hroute : "/receipt/".toList.isPrefixOf debitPath.toList = true := by decide +kernel
    have htestified := receipts_testified hserves (Option.isNone_iff_eq_none.mp hclosed) hroute calm
    exact ⟨w, reply, Option.some.inj hstatus, htestified.2 reply hget⟩
  | raised e =>
    rw [hget] at hstatus
    cases hstatus
  | stopped =>
    rw [hget] at hstatus
    cases hstatus

end Sample

end EscrowSigner.Server
