import EscrowSigner.Machine.LifeCycle

/-! Repetitions: a debit that was answered with 200 finds its row in the books for good, and asks for
the same debit as that row.  What it is answered with when it comes in again depends on the clock, as
`_field_sanity` comes before the books are looked up. -/

namespace EscrowSigner.Machine

open Policy Process
open Calldata (DebitCall)

variable {i : Instance} {σ : Setting} {φ φ' : Phase} {s s' : State} {w w' : World} {body : Bytes}
  {env : Envelope} {call : DebitCall}

/-! ### What an answer shows -/

/-- Calldata that is dispatched as a debit. -/
structure Debits (i : Instance) (data : Bytes) (call : DebitCall) : Prop where
  apart : Calldata.slice data 0 4 ≠ Calldata.expireSelector i.ext
  selector : Calldata.slice data 0 4 = Calldata.debitSelector i.ext
  decoded : Calldata.decodeDebit i.ext data = .ok call
  shape : Calldata.checkSignatureShape call = .ok ()

theorem Debits.dispatch (h : Debits i env.data call) :
    dispatch i env = handleDebit i env call (digest16 i env.data) := by
  have hdecoded : (Calldata.decodeDebit i.ext env.data >>= fun call =>
      Calldata.checkSignatureShape call >>= fun _ => pure call) = .ok call := by
    rw [h.decoded]
    show Calldata.checkSignatureShape call >>= (fun _ => pure call) = .ok call
    rw [h.shape]
    rfl
  unfold Policy.dispatch decodeRequest
  simp only
  rw [if_neg h.apart, if_neg (not_not.mpr h.selector), hdecoded]

/-- What the row of a debit is compared with. -/
def debitTuple (i : Instance) (env : Envelope) (call : DebitCall) :
    String × String × Int × String × String :=
  (lower env.toAddr, hexString call.channelId, call.amount, hexString call.receiptId,
    hexString (i.ext.keccak env.data))

/-- The row of a key is that of a debit. -/
def Matches (i : Instance) (env : Envelope) (call : DebitCall) (rows : List SpendRow) : Prop :=
  ∀ r ∈ rows, r.key = receiptKey i (hexString call.receiptId) → r.semanticTuple = debitTuple i env call

/-- A debit passes the checks of its fields by the instant `latest`, and the rows do not contradict
it. -/
structure Accepts (i : Instance) (env : Envelope) (call : DebitCall) (rows : List SpendRow)
    (latest : Nat) : Prop where
  debits : Debits i env.data call
  sane : ∃ instant ≤ latest, fieldSanity (seconds instant) call = none
  known : Matches i env call rows

theorem Leads.refused {P : Decision → World → Prop} {status : Int} {reason : String}
    {common : Common} (hs : status ≠ 200) :
    Leads σ (fun d w' => d.status = 200 → P d w') (pure (refuse status reason common)) w :=
  Triple.pure fun h => absurd h hs

theorem At.handleDebit_accepts (hs : Steady σ.env) (h : At σ .idle w)
    (hask : request w.log = some (.handle body)) (henv : parseEnvelope σ.i body = .ok env)
    (hd : Debits σ.i env.data call) {digest : String} :
    Leads σ (fun d w' => d.status = 200 → Accepts σ.i env call w.tables.spend.rows w'.clock)
      (Policy.handleDebit σ.i env call digest) w := by
  unfold Policy.handleDebit
  refine Leads.bind h.now ?_
  rintro time w₁ hl₁ ⟨h₁, ht₁, rfl, -⟩
  simp only
  split
  · exact .refused (by decide)
  rename_i hsane
  split
  · exact .refused (by decide)
  refine Leads.bind (h₁.select (.inr ⟨_, rfl⟩)) ?_
  rintro existing w₂ hl₂ ⟨h₂, hget, ht₂, -⟩
  rw [Except.ok.injEq, ← ht₂] at hget
  have hask₂ : request w₂.log = some (.handle body) := (hl₁.trans hl₂).request.trans hask
  have hrows : w₂.tables.spend.rows = w.tables.spend.rows := by rw [ht₂, ht₁]
  have accepts : Matches σ.i env call w₂.tables.spend.rows → ∀ w₃, Later σ w₂ w₃ →
      Accepts σ.i env call w.tables.spend.rows w₃.clock := fun hm w₃ hl₃ =>
    ⟨hd, ⟨w₁.clock, (hl₂.trans hl₃).clock hs, hsane⟩, hrows ▸ hm⟩
  cases existing with
  | none =>
    have hm : Matches σ.i env call w₂.tables.spend.rows := fun r hr hk =>
      absurd hk (key_ne_of_get hget r hr)
    have hasking : Asking σ body env call w₂ := ⟨h₂, hask₂, henv, hd.decoded, hm⟩
    exact Leads.mono (P := Answered σ body []) hasking.freshDebit fun _ w₃ hl₃ _ _ =>
      accepts hm w₃ hl₃
  | some existing =>
    obtain ⟨hrow, hkey⟩ := mem_of_get hget
    by_cases htuple : existing.semanticTuple = debitTuple σ.i env call
    · have hm : Matches σ.i env call w₂.tables.spend.rows := fun r hr hk => by
        rw [eq_of_key_eq h₂.soundness.keys hr hrow (hk.trans hkey.symm), htuple]
      refine Leads.bind (h₂.replay [] henv hd.decoded hrow hkey) ?_
      rintro decision w₃ hl₃ hreplayed
      cases decision with
      | some decision => exact Triple.pure fun _ => accepts hm w₃ hl₃
      | none =>
        obtain ⟨h₃, htup, -⟩ := hreplayed
        have hasking : Asking σ body env call w₃ := by
          refine ⟨h₃, hl₃.request.trans hask₂, henv, hd.decoded, fun r hr hk => ?_⟩
          obtain ⟨r₀, hr₀, hk₀, ht₀⟩ := htup r hr
          exact ht₀.symm.trans (hm r₀ hr₀ (hk₀.trans hk))
        exact Leads.mono (P := Answered σ body []) hasking.freshDebit fun _ w₄ hl₄ _ _ =>
          accepts hm w₄ (hl₃.trans hl₄)
    · unfold debitTuple at htuple
      unfold Policy.replay
      simp only
      rw [if_pos htuple]
      exact .refused (by decide)

theorem At.dispatch_accepts (hs : Steady σ.env) (h : At σ .idle w)
    (hask : request w.log = some (.handle body)) (henv : parseEnvelope σ.i body = .ok env)
    (hdec : Calldata.decodeDebit σ.i.ext env.data = .ok call) :
    Leads σ (fun d w' => d.status = 200 → Accepts σ.i env call w.tables.spend.rows w'.clock)
      (Policy.dispatch σ.i env) w := by
  unfold Policy.dispatch
  simp only
  split
  · unfold Policy.handleExpire
    split
    · exact .refused (by decide)
    · exact Triple.raise h.endsIdle
    · rename_i hexpire
      exact absurd hexpire (Calldata.decodeExpire_ne_debit _ hdec)
  rename_i hapart
  split
  · exact .refused (by decide)
  rename_i hselector
  rw [not_not] at hselector
  unfold decodeRequest
  simp only
  split
  · exact .refused (by decide)
  · exact Triple.raise h.endsIdle
  · rename_i call' hcall
    obtain ⟨call'', hdec', hrest⟩ := bind_ok_iff.mp hcall
    obtain ⟨_, hshape, hpure⟩ := bind_ok_iff.mp hrest
    cases hpure
    cases Except.ok.inj (hdec'.symm.trans hdec)
    exact h.handleDebit_accepts hs hask henv ⟨hapart, hselector, hdec, hshape⟩

theorem At.handle_accepts (hs : Steady σ.env) (h : At σ .idle w)
    (hask : request w.log = some (.handle body)) (henv : parseEnvelope σ.i body = .ok env)
    (hdec : Calldata.decodeDebit σ.i.ext env.data = .ok call) :
    Leads σ (fun d w' => d.status = 200 → Accepts σ.i env call w.tables.spend.rows w'.clock)
      (Policy.handle σ.i body) w := by
  unfold Policy.handle
  refine Leads.bind h.halted ?_
  rintro reason w₁ hl₁ ⟨h₁, ht₁⟩
  split
  · exact .refused (by decide)
  refine Leads.bind h₁.readMemory ?_
  rintro mem w₂ hl₂ ⟨h₂, ht₂⟩
  split
  · exact .refused (by decide)
  rw [henv, ← ht₁, ← ht₂]
  exact h₂.dispatch_accepts hs ((hl₁.trans hl₂).request.trans hask) henv hdec

/-! ### One call -/

/-- A step of a call stays in the call. -/
theorem request_step {E : State → Choice → Prop}
    (hstep : Step i E (fun _ _ _ => False) (φ, s) (φ', s')) : request s'.log = request s.log := by
  cases hstep with
  | receive _ _ _ hok => exact hok.elim
  | finish | settle | stamp | find | count | setNext | grant | sign | balk | mark | record | send
  | broadcast | mine | kill | giveBack => rfl
  | pass he hlog hts hseq =>
    rcases hlog with rfl | ⟨e, hp, rfl⟩
    · rfl
    · exact hp.request s.log

section Calls

variable {E E' : State → Choice → Prop} {ok : State → Call → List Choice → Prop}

/-- The setting of one call, from a world where it can come in. -/
def duringCall (i : Instance) (E : State → Choice → Prop) (w : World) (c : Call)
    (h : Sound i .idle (stateOf i (w.record (.call c)))) : Setting :=
  ⟨i, E, fun _ _ _ => False, (.idle, stateOf i (w.record (.call c))), h⟩

theorem Reaches.closed (h : Reaches i E ok .running w) : w.db.working = none := by
  obtain ⟨φ, hat, -⟩ := h.left
  exact hat.closed

theorem Reaches.sound_call (h : Reaches i E ok .running w) (c : Call) :
    Sound i .idle (stateOf i (w.record (.call c))) := by
  obtain ⟨φ, hat, -⟩ := h.left
  exact hat.soundness.same rfl hat.soundness.next hat.soundness.attempts trivial

theorem Reaches.at_call (h : Reaches i E ok .running w) (E' : State → Choice → Prop) (c : Call) :
    At (duringCall i E' w c (h.sound_call c)) .idle (w.record (.call c)) :=
  ⟨.refl, h.closed⟩

/-- What every step of a call keeps holds where the call ends or is stopped. -/
theorem Reaches.call_invariant {I : State → Prop} (h : Reaches i E ok .running w) {c : Call}
    {script : List Choice}
    (hadmits : (serve i c).Admits (fun w => E' (stateOf i w)) script (w.record (.call c)))
    (hI : I (stateOf i (w.record (.call c))))
    (hstep : ∀ φ s φ' s', Sound i φ s → request s.log = some c → I s →
      Step i E' (fun _ _ _ => False) (φ, s) (φ', s') → I s') :
    I (stateOf i (execute i c script w).2) := by
  have hat := h.at_call E' c
  have hmeets := ((hat.serve rfl).run hadmits).mono fun r h => (show Ends _ _ by cases r <;> exact h.2)
  obtain ⟨φ, hrun⟩ := (Left.of_meets hmeets).run
  have hkept := Runs.invariant (I := fun φ s => Sound i φ s ∧ request s.log = some c ∧ I s) hrun
    ⟨h.sound_call c, rfl, hI⟩ fun φ s φ' s' h hst =>
      ⟨sound_step h.1 hst, (request_step hst).trans h.2.1, hstep φ s φ' s' h.1 h.2.1 h.2.2 hst⟩
  exact hkept.2.2

end Calls

/-! ### The row of a debit -/

theorem Matches.mapRow {rows : List SpendRow} {k : Key} {f : SpendRow → SpendRow}
    (h : Matches i env call rows) (hf : KeepsOrigin f) : Matches i env call (mapRow k f rows) := by
  intro r hr hk
  obtain ⟨r', hr', ⟨-, rfl⟩ | ⟨-, rfl⟩⟩ := mem_mapRow.mp hr
  · exact (hf.tuple r').trans (h r' hr' ((hf.key r').symm.trans hk))
  · exact h _ hr' hk

/-- A call for a debit writes no other row under its key. -/
theorem matches_step {E : State → Choice → Prop} {ok : State → Call → List Choice → Prop}
    (henv : parseEnvelope i body = .ok env) (hdec : Calldata.decodeDebit i.ext env.data = .ok call)
    (hask : request s.log = some (.handle body)) (h : Matches i env call s.rows)
    (hstep : Step i E ok (φ, s) (φ', s')) : Matches i env call s'.rows := by
  cases hstep with
  | receive | finish | settle | pass | stamp | find | count | setNext | sign | balk | record | send
  | giveBack => exact h
  | @grant _ c p row rows ts seq cut he hj hfit hcut hshown hts hseq hplace hbind =>
    cases hplace with
    | fresh head hkey =>
      intro r hr hk
      rcases List.mem_append.mp hr with hr | hr
      · exact h r hr hk
      rw [List.mem_singleton.mp hr]
      cases p with
      | debit body' env' call' channel fees =>
        cases hask.symm.trans hj.asked
        cases Except.ok.inj (henv.symm.trans hj.envelope)
        cases Except.ok.inj (hdec.symm.trans hj.decoded)
        rfl
      | expire body' env' call' fees =>
        cases hask.symm.trans hj.asked
        cases Except.ok.inj (henv.symm.trans hj.envelope)
        exact absurd hj.decoded (Calldata.decodeExpire_ne_debit _ hdec)
      | sweep recipient balance data receipt fees => cases hask.symm.trans hj.asked
    | revived r₀ hr₀ hkey hdead hamount hsame => exact h.mapRow (keepsOrigin_revived p seq ts s.next)
  | mark | broadcast | kill => exact h.mapRow ⟨fun _ => rfl, fun _ => rfl, fun _ => rfl⟩
  | mine he hu => exact h.mapRow ⟨fun _ => rfl, fun _ => rfl, fun _ => rfl⟩

/-- The clock does not step back. -/
def steady (s : State) (c : Choice) : Prop := s.clock ≤ c.now

theorem clock_step {E : State → Choice → Prop} {ok : State → Call → List Choice → Prop}
    (hE : Steady E) (hstep : Step i E ok (φ, s) (φ', s')) : s.clock ≤ s'.clock := by
  cases hstep with
  | receive | finish | settle => exact le_rfl
  | pass he | stamp _ _ he | find he | count he | setNext he | grant he | sign he | balk _ he | mark he
  | record he | send he | broadcast he | mine he | kill _ he | giveBack he => exact hE _ _ he

/-- The books hold the row of a debit, which passed the checks of its fields. -/
structure Standing (i : Instance) (env : Envelope) (call : DebitCall) (s : State) : Prop where
  debits : Debits i env.data call
  sane : ∃ instant ≤ s.clock, fieldSanity (seconds instant) call = none
  row : ∃ r ∈ s.rows, r.key = receiptKey i (hexString call.receiptId) ∧
    r.semanticTuple = debitTuple i env call

theorem standing_step {E : State → Choice → Prop} {ok : State → Call → List Choice → Prop}
    (hE : Steady E) (h : Standing i env call s) (hstep : Step i E ok (φ, s) (φ', s')) :
    Standing i env call s' := by
  obtain ⟨instant, hle, hsane⟩ := h.sane
  obtain ⟨r, hr, hkey, htuple⟩ := h.row
  obtain ⟨r', hr', hkey', htuple'⟩ := exists_row_step hstep r hr
  exact ⟨h.debits, ⟨instant, hle.trans (clock_step hE hstep), hsane⟩, r', hr', hkey'.trans hkey,
    htuple'.trans htuple⟩

/-- The calls on a clock that does not step back. -/
def Steadily (i : Instance) (w : World) (c : Call) (script : List Choice) : Prop :=
  (serve i c).Admits (fun w => steady (stateOf i w)) script (w.record (.call c))

/-- A debit that is answered with 200 has its row in the books. -/
theorem Reaches.standing (h : Reaches i (fun _ _ => True) (fun _ _ _ => True) .running w)
    (henv : parseEnvelope i body = .ok env) (hdec : Calldata.decodeDebit i.ext env.data = .ok call)
    {script : List Choice} (hsteady : Steadily i w (.handle body) script) {d : Decision}
    (hd : (execute i (.handle body) script w).1 = .returned (some d)) (hstatus : d.status = 200) :
    Standing i env call (stateOf i (execute i (.handle body) script w).2) := by
  have hat := h.at_call steady (.handle body)
  let σ := duringCall i steady w (.handle body) (h.sound_call _)
  have hhandle : Leads σ (fun d w' => Answered σ body w.tables.spend.rows d w' ∧
      (d.status = 200 → Accepts i env call w.tables.spend.rows w'.clock))
      (Policy.handle i body) (w.record (.call (.handle body))) :=
    (hat.handle rfl).and (hat.handle_accepts (fun _ _ hc => hc) rfl henv hdec)
  have hserve : Leads σ (fun r w' => ∀ d, r = some d →
      Answered σ body w.tables.spend.rows d w' ∧
        (d.status = 200 → Accepts i env call w.tables.spend.rows w'.clock))
      (serve i (.handle body)) (w.record (.call (.handle body))) :=
    Leads.bind hhandle fun d w' _ ha => Triple.pure fun d' hd' => Option.some.inj hd' ▸ ha
  have hm := Process.Wp.run hserve hsteady
  have hrun : ((serve i (.handle body)).run script (w.record (.call (.handle body)))).1 =
      .returned (some d) := hd
  rw [hrun] at hm
  obtain ⟨hanswered, haccepts⟩ := hm.2 d rfl
  have ha := haccepts hstatus
  have hmatches : Matches i env call (execute i (.handle body) script w).2.tables.spend.rows :=
    h.call_invariant (I := fun s => Matches i env call s.rows) hsteady ha.known
      fun φ s φ' s' _ hask hI hstep => matches_step henv hdec hask hI hstep
  refine ⟨ha.debits, ha.sane, ?_⟩
  cases hanswered.quoted hstatus with
  | debit env' call' r henv' hdec' hseen hkey hstate hhash =>
    cases Except.ok.inj (henv.symm.trans henv')
    cases Except.ok.inj (hdec.symm.trans hdec')
    exact ⟨r, hseen.2, hkey, hmatches r hseen.2 hkey⟩
  | expire env' call' r henv' hdec' hseen hkey hstate hhash =>
    cases Except.ok.inj (henv.symm.trans henv')
    exact absurd hdec' (Calldata.decodeExpire_ne_debit _ hdec)

/-- A debit that stood in the books stands in them after every call and every restart. -/
theorem Onwards.standing {w₀ : World} {status : Status}
    (h₀ : Reaches i (fun _ _ => True) (fun _ _ _ => True) .running w₀)
    (h : Onwards i (Steadily i) w₀ status w) (hstanding : Standing i env call (stateOf i w₀)) :
    Reaches i (fun _ _ => True) (fun _ _ _ => True) status w ∧
      Standing i env call (stateOf i w) := by
  induction h with
  | start => exact ⟨h₀, hstanding⟩
  | call c script h hok ih =>
    refine ⟨ih.1.call c script trivial (admits_true _ _ _), ?_⟩
    have hcall : Standing i env call (stateOf i (World.record _ (.call c))) :=
      ⟨ih.2.debits, ih.2.sane, ih.2.row⟩
    exact ih.1.call_invariant hok hcall fun φ s φ' s' _ _ hI hstep =>
      standing_step (fun _ _ hc => hc) hI hstep
  | restart h ih => exact ⟨ih.1.restart, ih.2.debits, ih.2.sane, ih.2.row⟩

/-! ### A repetition -/

section Execution

variable {c₁ c₂ c₃ c₄ : Choice} {script : List Choice} {r : SpendRow} {digest : String}

/-- A request to a service that is ready. -/
theorem exec_handle (hclosed : w.db.working = none) (hready : w.mem.ready = true)
    (hhalted : ¬ Tables.IsHalted w.tables) (henv : parseEnvelope i body = .ok env) :
    (handle i body).exec (c₁ :: c₂ :: script) w =
      match c₁.fault with
      | some fault => (.raised fault.exn, w.advance c₁, c₂ :: script)
      | none => (dispatch i env).exec script (w.advance c₂) := by
  have hreason : (if w.tables.clockGuard.halted then w.tables.clockGuard.haltReason else "") = "" := by
    split
    · rename_i hh
      exact not_not.mp fun hne => hhalted ⟨hh, hne⟩
    · rfl
  unfold handle Ledger.halted Ledger.guardRow
  simp only [bind_eq, exec_bind, exec_select hclosed]
  cases c₁.fault with
  | some fault => rfl
  | none =>
    simp only [pure_eq_ret, exec, hreason, ne_eq, not_true_eq_false, if_false]
    simp only [exec_bind, readMemory, action, exec_atomic]
    have hready' : ((w.advance c₁).advance c₂).mem.ready = true := hready
    simp only [hready', not_true_eq_false, if_false, henv]
    rfl

/-- What the repetition of a debit has in common with its decision. -/
def debitCommon (call : DebitCall) (digest : String) : Common :=
  ⟨hexString call.receiptId, hexString call.channelId, call.amount, digest⟩

/-- A debit whose row has been broadcast or is mined. -/
theorem exec_handleDebit (hclosed : w.db.working = none)
    (hget : w.tables.get (receiptKey i (hexString call.receiptId)) = some r)
    (htuple : r.semanticTuple = debitTuple i env call)
    (hstate : r.state = .broadcast ∨ r.state = .mined) (hgas : env.gas ≤ Config.gasHardCap) :
    (handleDebit i env call digest).exec (c₃ :: c₄ :: script) w =
      match fieldSanity (seconds c₃.now) call, c₄.fault with
      | some reason, _ =>
        (.returned (refuse 422 reason (debitCommon call digest)),
          (w.advance c₃).record (.clock c₃.now), c₄ :: script)
      | none, some fault =>
        (.raised fault.exn,
          ((w.advance c₃).record (.clock c₃.now)).advance c₄, script)
      | none, none =>
        if r.txHash ≠ "" then
          (.returned (answer r.txHash "replayed" true (debitCommon call digest)),
            ((w.advance c₃).record (.clock c₃.now)).advance c₄, script)
        else
          (freshDebit i env call (debitCommon call digest)).exec script
            (((w.advance c₃).record (.clock c₃.now)).advance c₄) := by
  have hclosed' : ((w.advance c₃).record (.clock c₃.now)).db.working = none := hclosed
  have hget' : ((w.advance c₃).record (.clock c₃.now)).tables.get
      (receiptKey i (hexString call.receiptId)) = some r := hget
  unfold handleDebit now readClock
  simp only [bind_eq, exec_bind, action, exec_atomic, pure_eq_ret, exec]
  cases fieldSanity (seconds c₃.now) call with
  | some reason => rfl
  | none =>
    simp only [if_neg (not_lt.mpr hgas), exec_bind, Ledger.get, exec_select hclosed', hget']
    cases c₄.fault with
    | some fault => rfl
    | none =>
      unfold debitTuple at htuple
      have hlive : ¬ (r.state = .superseded) ∧ ¬ (r.state = .reserved ∨ r.state = .signed) := by
        rcases hstate with hs | hs <;> simp [hs]
      simp only [replay, htuple, ne_eq, not_true_eq_false, if_false, hlive.1, hlive.2, hstate,
        true_and]
      by_cases hhash : r.txHash = ""
      · simp only [hhash, not_true_eq_false, if_false]
        rfl
      · simp only [hhash, not_false_eq_true, if_true]
        rfl

end Execution

/-- A decision that answers with a hash as the answer to an earlier request. -/
def Replays (txHash : String) (d : Decision) : Prop :=
  d.status = 200 ∧ d.txHash = txHash ∧
    d.body = [("tx_hash", .str txHash), ("replayed", .bool true)]

/-- Whatever the code decides is no answer to an earlier request. -/
def Anew (p : Code Decision) : Prop :=
  ∀ w, p.Ends (fun _ _ => True) (fun d _ => ∀ txHash, ¬ Replays txHash d) w

theorem anew_refuse {status : Int} {reason : String} {common : Common} {retryAfterS : Option Int} :
    Anew (pure (refuse status reason common retryAfterS)) := by
  rintro w txHash ⟨-, -, hbody⟩
  simp [refuse] at hbody

theorem anew_answer {txHash : String} {common : Common} :
    Anew (pure (answer txHash "signed" false common)) := by
  rintro w txHash' ⟨-, -, hbody⟩
  simp [answer] at hbody

theorem anew_raise (e : Exn) : Anew (throwExn e) := fun _ => trivial

/-- What comes before the decision does not matter. -/
theorem Anew.after {α : Type} {p : Code α} {f : α → Code Decision} (h : ∀ a, Anew (f a)) :
    Anew (p >>= f) :=
  fun w => (Under.trivial p w).bind fun a w' _ => h a w'

theorem anew_refuseRead (common : Common) (e : Exn) : Anew (refuseRead common e) := by
  cases e with
  | reverted name => exact anew_refuse
  | rpcUnavailable message => exact anew_refuse
  | _ => exact anew_raise _

theorem anew_refuseReservation (common : Common) (e : Exn) : Anew (refuseReservation common e) := by
  cases e with
  | capBreach name retryAfterS => exact anew_refuse
  | clockRegression message => exact anew_refuse
  | ledgerUnavailable message => exact anew_refuse
  | _ => exact anew_raise _

section Answers

variable {row : SpendRow} {common : Common} {receiptId : String}

theorem anew_broadcastRow (raw : Bytes) (txHash : String) :
    Anew (broadcastRow i row raw txHash (requestAnswers common receiptId)) := by
  refine Anew.after fun r => ?_
  rcases r with e | answer
  · cases e with
    | reverted name => exact Anew.after fun _ => anew_refuse
    | rpcUnavailable message => exact anew_refuse
    | _ => exact anew_raise _
  · exact Anew.after fun _ => anew_answer

theorem anew_signRow (tx : Tx) : Anew (signRow i row tx (requestAnswers common receiptId)) := by
  refine Anew.after fun r => ?_
  rcases r with e | raw
  · exact Anew.after fun _ => anew_refuse
  · exact Anew.after fun _ => anew_broadcastRow raw _

theorem anew_simulateRow (data : Bytes) {next : Code Decision} (h : Anew next) :
    Anew (simulateRow i row data (requestAnswers common receiptId) next) := by
  refine Anew.after fun r => ?_
  rcases r with e | _
  · cases e with
    | reverted name => exact Anew.after fun _ => anew_refuse
    | rpcUnavailable message => exact Anew.after fun _ => anew_refuse
    | _ => exact Anew.after fun _ => anew_raise _
  · exact h

theorem anew_signDebit (channel : Channel) (fees : Fees) :
    Anew (signDebit i env call channel common fees) := by
  refine Anew.after fun r => ?_
  rcases r with e | row
  · exact anew_refuseReservation common e
  · exact anew_simulateRow env.data (anew_signRow _)

theorem anew_priceDebit (channel : Channel) : Anew (priceDebit i env call channel common) := by
  refine Anew.after fun r => ?_
  rcases r with e | ⟨estimate, baseFee⟩
  · exact anew_refuseRead common e
  · simp only
    split
    · exact anew_refuse
    · exact anew_signDebit channel _

/-- A debit that is taken for new work is not answered as a repetition. -/
theorem anew_freshDebit : Anew (freshDebit i env call common) := by
  refine Anew.after fun r => ?_
  rcases r with e | reason | channel
  · cases e with
    | chainUnverified message => exact anew_refuse
    | _ => exact anew_refuseRead common _
  · exact anew_refuse
  · refine Anew.after fun reason => ?_
    cases reason with
    | some reason => exact anew_refuse
    | none => exact anew_priceDebit channel

end Answers

/-! ### The law -/

/-- A debit that once passed the checks of its fields passes them until its deadline is near. -/
theorem fieldSanity_later {earlier later : Int} (h : fieldSanity earlier call = none)
    (hle : earlier ≤ later) :
    fieldSanity later call = none ↔ later + Config.minDeadlineSkewS ≤ call.deadline := by
  unfold fieldSanity at h ⊢
  iterate 6 (split at h; · cases h)
  rename_i hamount hcents hreceipt hchannel hnear hfar
  rw [if_neg hamount, if_neg hcents, if_neg hreceipt, if_neg hchannel]
  have hfar' : ¬ call.deadline > later + Config.maxDeadlineTtlS := by omega
  rw [if_neg hfar']
  split
  · rename_i hlt
    exact ⟨fun hnone => (by cases hnone), fun hge => absurd hge (not_le.mpr hlt)⟩
  · rename_i hge
    exact ⟨fun _ => not_lt.mp hge, fun _ => rfl⟩

/-- How a request ends, from how its code does. -/
theorem execute_handle {o : Outcome Exn Decision} {script rest : List Choice}
    (h : (handle i body).exec script (w.record (.call (.handle body))) = (o, w', rest)) :
    execute i (.handle body) script w =
      (match o with
        | .returned d => .returned (some d)
        | .raised e => .raised e
        | .stopped => .stopped, w') := by
  have hserve : (serve i (.handle body)).exec script (w.record (.call (.handle body))) = _ :=
    exec_bind (handle i body) (fun d => .ret (some d)) script _
  rw [h] at hserve
  refine (run_eq_exec _ _ _).trans ?_
  rw [hserve]
  cases o <;> rfl

/-- A repetition is answered with the hash of the row of its receipt, and neither signs nor writes
anything. -/
def AnsweredAgain (i : Instance) (body : Bytes) (script : List Choice) (w : World) (txHash : String) :
    Prop :=
  (∃ d, (execute i (.handle body) script w).1 = .returned (some d) ∧ Replays txHash d) ∧
    (execute i (.handle body) script w).2.tables = w.tables ∧
    keyUses (execute i (.handle body) script w).2.log = keyUses w.log

/-- After a debit was answered with 200, and whatever happened since on a clock that does not step
back, its repetition to a service that is ready and not halted, while its row is broadcast or mined,
is answered with the hash of the row exactly if both reads of the books succeed, the deadline of the
debit is not near and the row names a transaction. -/
theorem repetition_answered {w₀ w : World} {body body' : Bytes}
    {env env' : Envelope} {call : DebitCall} {script rest : List Choice} {d : Decision}
    {r : SpendRow} {c₁ c₂ c₃ c₄ : Choice}
    (h₀ : Reaches i (fun _ _ => True) (fun _ _ _ => True) .running w₀)
    (henv : parseEnvelope i body = .ok env) (hdec : Calldata.decodeDebit i.ext env.data = .ok call)
    (hfirst : Steadily i w₀ (.handle body) script)
    (hd : (execute i (.handle body) script w₀).1 = .returned (some d)) (hstatus : d.status = 200)
    (hsince : Onwards i (Steadily i) (execute i (.handle body) script w₀).2 .running w)
    (henv' : parseEnvelope i body' = .ok env') (hto : lower env'.toAddr = lower env.toAddr)
    (hdata : env'.data = env.data) (hgas : env'.gas ≤ Config.gasHardCap)
    (hready : w.mem.ready = true) (hhalted : ¬ Tables.IsHalted w.tables)
    (hr : r ∈ w.tables.spend.rows) (hkey : r.key = receiptKey i (hexString call.receiptId))
    (hstate : r.state = .broadcast ∨ r.state = .mined)
    (hnow : w.clock ≤ c₃.now) :
    AnsweredAgain i body' (c₁ :: c₂ :: c₃ :: c₄ :: rest) w r.txHash ↔
      c₁.fault = none ∧ c₄.fault = none ∧
        seconds c₃.now + Config.minDeadlineSkewS ≤ call.deadline ∧ r.txHash ≠ "" := by
  have hafter : Reaches i (fun _ _ => True) (fun _ _ _ => True) .running
      (execute i (.handle body) script w₀).2 := by
    have h := h₀.call (.handle body) script trivial (admits_true _ _ _)
    rw [hd] at h
    exact h
  obtain ⟨hreach, hstanding⟩ := hsince.standing hafter (h₀.standing henv hdec hfirst hd hstatus)
  obtain ⟨instant, hle, hsane⟩ := hstanding.sane
  obtain ⟨r₀, hr₀, hkey₀, htuple₀⟩ := hstanding.row
  obtain ⟨φ, hat, -⟩ := hreach.left
  have hsame : debitTuple i env call = debitTuple i env' call := by
    unfold debitTuple
    rw [hto, hdata]
  have htuple : r.semanticTuple = debitTuple i env' call := by
    rw [eq_of_key_eq hat.soundness.keys hr hr₀ (hkey.trans hkey₀.symm), htuple₀, hsame]
  have hdebits : Debits i env'.data call := hdata ▸ hstanding.debits
  have hdeadline := fieldSanity_later hsane (seconds_mono (hle.trans hnow))
  have hget : ((w.record (.call (.handle body'))).advance c₂).tables.get
      (receiptKey i (hexString call.receiptId)) = some r := hkey ▸ get_eq_some hr
  have hclosed : ((w.record (.call (.handle body'))).advance c₂).db.working = none := hat.closed
  have hcode : (handle i body').exec (c₁ :: c₂ :: c₃ :: c₄ :: rest)
      (w.record (.call (.handle body'))) = _ := exec_handle hat.closed hready hhalted henv'
  rw [hdebits.dispatch, exec_handleDebit hclosed hget htuple hstate hgas] at hcode
  unfold AnsweredAgain
  cases hc₁ : c₁.fault with
  | some fault =>
    rw [hc₁] at hcode
    rw [execute_handle hcode]
    refine ⟨fun h => ?_, fun h => nomatch h.1⟩
    obtain ⟨⟨d', hd', -⟩, -⟩ := h
    cases hd'
  | none =>
  simp only [hc₁] at hcode
  cases hcheck : fieldSanity (seconds c₃.now) call with
  | some reason =>
    simp only [hcheck] at hcode
    rw [execute_handle hcode]
    refine ⟨fun h => ?_, fun h => ?_⟩
    · obtain ⟨⟨d', hd', hreplays⟩, -⟩ := h
      cases hd'
      exact absurd hreplays.1 (show (422 : Int) ≠ 200 by decide)
    · exact absurd (hcheck.symm.trans (hdeadline.mpr h.2.2.1)) (by simp)
  | none =>
  simp only [hcheck] at hcode
  cases hc₄ : c₄.fault with
  | some fault =>
    simp only [hc₄] at hcode
    rw [execute_handle hcode]
    refine ⟨fun h => ?_, fun h => nomatch h.2.1⟩
    obtain ⟨⟨d', hd', -⟩, -⟩ := h
    cases hd'
  | none =>
  simp only [hc₄] at hcode
  by_cases hhash : r.txHash = ""
  · rw [if_neg (not_not.mpr hhash)] at hcode
    refine ⟨fun h => ?_, fun h => absurd hhash h.2.2.2⟩
    obtain ⟨⟨d', hd', hreplays⟩, -⟩ := h
    have hfresh : Anew (freshDebit i env' call (debitCommon call (digest16 i env'.data))) :=
      anew_freshDebit
    have hanew := hfresh (((((w.record (.call (.handle body'))).advance c₂).advance c₃).record
      (.clock c₃.now)).advance c₄)
    obtain ⟨o, w', rest', ho⟩ : ∃ o w' rest',
        (freshDebit i env' call (debitCommon call (digest16 i env'.data))).exec rest
          (((((w.record (.call (.handle body'))).advance c₂).advance c₃).record
            (.clock c₃.now)).advance c₄) = (o, w', rest') := ⟨_, _, _, rfl⟩
    rw [ho] at hcode
    rw [execute_handle hcode] at hd'
    cases o with
    | returned d'' =>
      cases hd'
      exact absurd hreplays (Ends.returned hanew ho _)
    | raised e => cases hd'
    | stopped => cases hd'
  · rw [if_pos hhash] at hcode
    rw [execute_handle hcode]
    exact ⟨fun _ => ⟨rfl, rfl, hdeadline.mp hcheck, hhash⟩,
      fun _ => ⟨⟨_, rfl, rfl, rfl, rfl⟩, rfl, rfl⟩⟩

section Sample

open EscrowSigner.Sample

/-- The code of the request for a debit, its envelope read. -/
def firstDebit : Code (Option Decision) := do
  let decision ← answerParsed (signer unlimited "")
    (.ok ⟨escrow, debitData 1, Config.chainId, 100000, 0⟩)
  return some decision

theorem firstDebit_eq : firstDebit = serve (signer unlimited "") (.handle [1]) :=
  serve_handle (parse_payload rfl rfl)

/-- A debit is signed and broadcast.  Its repetition one second before its deadline is refused. -/
theorem debit_and_repetition : ∃ w₀ : World, ∃ d : Decision, ∃ r : SpendRow,
    let w := (execute (signer unlimited "") (.handle [1]) { time := 0 : Outside }.script w₀).2
    Reaches (signer unlimited "") (fun _ _ => True) (fun _ _ _ => True) .running w₀ ∧
      Steadily (signer unlimited "") w₀ (.handle [1]) { time := 0 : Outside }.script ∧
      (execute (signer unlimited "") (.handle [1]) { time := 0 : Outside }.script w₀).1 =
        .returned (some d) ∧ d.status = 200 ∧ w.mem.ready = true ∧ ¬ Tables.IsHalted w.tables ∧
      w.clock = 0 ∧ r ∈ w.tables.spend.rows ∧
      r.key = receiptKey (signer unlimited "") (hexString (debitCall 1).receiptId) ∧
      r.state = .broadcast ∧ r.txHash ≠ "" ∧
      Steadily (signer unlimited "") w (.handle [1]) { time := 4999 : Outside }.script ∧
      ∃ d', (execute (signer unlimited "") (.handle [1]) { time := 4999 : Outside }.script w).1 =
        .returned (some d') ∧ d'.status ≠ 200 := by
  obtain ⟨status, w₀, hw, hrunning, hfirst, hsteady, hready, hhalted, hclock, hrow, hlater, hagain⟩ :=
    Reach.exists_of_play (i := signer unlimited "") (Q := fun _ => True) (E := fun _ _ => True)
      (K := fun _ _ _ => True)
      (P := fun status w =>
        let w₀ := w.record (.call (.handle [1]))
        let first := firstDebit.run { time := 0 : Outside }.script w₀
        let w₁ := first.2.record (.call (.handle [1]))
        let later := firstDebit.run { time := 4999 : Outside }.script w₁
        status = .running ∧ (decisionOf first.1).any (fun d => d.status = 200) = true ∧
          firstDebit.Admits (fun w c => w.clock ≤ c.now) { time := 0 : Outside }.script w₀ ∧
          first.2.mem.ready = true ∧ ¬ Tables.IsHalted first.2.tables ∧ first.2.clock = 0 ∧
          (∃ r ∈ first.2.tables.spend.rows,
            r.key = receiptKey (signer unlimited "") (hexString (debitCall 1).receiptId) ∧
              r.state = .broadcast ∧ r.txHash ≠ "") ∧
          firstDebit.Admits (fun w c => w.clock ≤ c.now) { time := 4999 : Outside }.script w₁ ∧
          (decisionOf later.1).any (fun d => d.status ≠ 200) = true)
      [boot { time := 0 : Outside }.script] (fun _ _ _ _ => trivial) (by decide +kernel)
  rw [firstDebit_eq] at *
  obtain ⟨d, hd, h200⟩ := (Option.any_eq_true _ _).mp hfirst
  obtain ⟨d', hd', hne⟩ := (Option.any_eq_true _ _).mp hagain
  obtain ⟨r, hr, hkey, hstate, hhash⟩ := hrow
  subst hrunning
  exact ⟨w₀, d, r, hw.mono (fun _ _ _ => trivial) fun _ _ _ h => h, hsteady,
    eq_returned_of_decisionOf hd, of_decide_eq_true h200, hready, hhalted, hclock, hr, hkey, hstate,
    hhash, hlater, d', eq_returned_of_decisionOf hd', of_decide_eq_true hne⟩

/-- The repetition comes in at once, and is answered with the hash of the row. -/
theorem repetition_answered_at_once : ∃ w : World, ∃ r ∈ w.tables.spend.rows,
    r.key = receiptKey (signer unlimited "") (hexString (debitCall 1).receiptId) ∧
      AnsweredAgain (signer unlimited "") [1] { time := 0 : Outside }.script w r.txHash := by
  obtain ⟨w₀, d, r, hreach, hsteady, hd, hstatus, hready, hhalted, hclock, hr, hkey, hstate, hhash,
    -⟩ := debit_and_repetition
  have hdec : Calldata.decodeDebit externals (debitData 1) = .ok (debitCall 1) := by decide +kernel
  let c : Choice := { time := 0 : Outside }.choice
  have hparse : parseEnvelope (signer unlimited "") [1] =
      .ok ⟨escrow, debitData 1, Config.chainId, 100000, 0⟩ := parse_payload rfl rfl
  have hagain : AnsweredAgain (signer unlimited "") [1] (c :: c :: c :: c :: List.replicate 196 c) _
      r.txHash :=
    (repetition_answered hreach hparse hdec hsteady hd hstatus .start hparse rfl rfl (by decide)
      hready hhalted hr hkey (.inl hstate) (by rw [hclock]; exact Nat.zero_le _)).mpr
      ⟨rfl, rfl, by decide, hhash⟩
  exact ⟨_, r, hr, hkey, hagain⟩

/-- A debit was answered with 200, its row is broadcast, and its repetition within the last minute
before the deadline is refused. -/
theorem repetition_not_answered : ∃ (w₀ w : World) (d d' : Decision) (r : SpendRow)
    (script script' : List Choice),
    Reaches (signer unlimited "") (fun _ _ => True) (fun _ _ _ => True) .running w₀ ∧
      Steadily (signer unlimited "") w₀ (.handle [1]) script ∧
      (execute (signer unlimited "") (.handle [1]) script w₀).1 = .returned (some d) ∧
      d.status = 200 ∧
      Onwards (signer unlimited "") (Steadily (signer unlimited ""))
        (execute (signer unlimited "") (.handle [1]) script w₀).2 .running w ∧
      w.mem.ready = true ∧ ¬ Tables.IsHalted w.tables ∧ r ∈ w.tables.spend.rows ∧
      r.key = receiptKey (signer unlimited "") (hexString (debitCall 1).receiptId) ∧
      r.state = .broadcast ∧ r.txHash ≠ "" ∧
      Steadily (signer unlimited "") w (.handle [1]) script' ∧
      (execute (signer unlimited "") (.handle [1]) script' w).1 = .returned (some d') ∧
      ¬ AnsweredAgain (signer unlimited "") [1] script' w r.txHash := by
  obtain ⟨w₀, d, r, hreach, hsteady, hd, hstatus, hready, hhalted, -, hr, hkey, hstate, hhash,
    hsteady', d', hd', hne⟩ := debit_and_repetition
  refine ⟨w₀, _, d, d', r, _, _, hreach, hsteady, hd, hstatus, .start, hready, hhalted, hr, hkey,
    hstate, hhash, hsteady', hd', ?_⟩
  rintro ⟨⟨d'', hd'', hreplays⟩, -⟩
  cases hd'.symm.trans hd''
  exact hne hreplays.1

end Sample

end EscrowSigner.Machine
