import EscrowSigner.Server.Receipts

/-! Bystanders: whoever does not hold the token, or sends no whole body of the right size, reads what
the routes show and leaves refusals in the audit log.  The books of the service, its memory and the
chain are out of reach. -/

namespace EscrowSigner.Server

open Policy Machine Process

variable {i : Instance} {front : Front} {int : String → Option Int} {as : List Arrival}
  {status : Status} {w w' w₀ : World} {t t' t'' : Tables}

/-- An audit row of a request that was turned away before its body was looked at. -/
structure TurnedAway (r : AuditRow) : Prop where
  kind : r.kind = "request"
  decision : r.decision = "refused"
  status : r.httpStatus = 401 ∨ r.httpStatus = 413

/-- The tables differ in the clock guard and in new refusals at the end of the audit log, if they
differ at all; no halt is lifted. -/
structure Beside (t t' : Tables) : Prop where
  spend : t'.spend = t.spend
  txAttempt : t'.txAttempt = t.txAttempt
  nonceAlloc : t'.nonceAlloc = t.nonceAlloc
  boot : t'.boot = t.boot
  spendHead : t'.spendHead = t.spendHead
  halted : t.clockGuard.halted = true → t'.clockGuard.halted = true
  audit : ∃ added, t'.audit = t.audit ++ added ∧ ∀ r ∈ added, TurnedAway r

theorem added_nil : ∃ added, t.audit = t.audit ++ added ∧ ∀ r ∈ added, TurnedAway r :=
  ⟨[], (List.append_nil _).symm, fun _ hr => absurd hr List.not_mem_nil⟩

theorem Beside.refl (t : Tables) : Beside t t := ⟨rfl, rfl, rfl, rfl, rfl, id, added_nil⟩

theorem Beside.trans (h : Beside t t') (h' : Beside t' t'') : Beside t t'' := by
  refine ⟨h'.spend.trans h.spend, h'.txAttempt.trans h.txAttempt, h'.nonceAlloc.trans h.nonceAlloc,
    h'.boot.trans h.boot, h'.spendHead.trans h.spendHead, fun ht => h'.halted (h.halted ht), ?_⟩
  obtain ⟨added, heq, hadded⟩ := h.audit
  obtain ⟨more, heq', hmore⟩ := h'.audit
  refine ⟨added ++ more, by rw [heq', heq, List.append_assoc], fun r hr => ?_⟩
  exact (List.mem_append.mp hr).elim (hadded r) (hmore r)

/-- One world comes after the other with nothing done but reading the clock and noting refusals. -/
structure Aside (w w' : World) : Prop where
  closed : w'.db.working = none
  tables : Beside w.tables w'.tables
  mem : w'.mem = w.mem ∨ w'.mem = .fresh
  log : ∃ later, w'.log = later ++ w.log ∧ ∀ e ∈ later, ∃ instant, e = .clock instant

theorem Aside.refl (h : w.db.working = none) : Aside w w :=
  ⟨h, .refl _, .inl rfl, [], rfl, fun _ he => absurd he List.not_mem_nil⟩

/-! ### Steps -/

/-- A step of a bystander's task. -/
structure Strays (c : Choice) (w w' : World) : Prop where
  db : w.db.working = none → w'.db.working = none ∧ Beside w.tables w'.tables
  mem : w'.mem = w.mem
  log : w'.log = w.log ∨ w'.log = .clock c.now :: w.log

theorem Aside.step (c : Choice) (w w' : World) (h : Aside w₀ w) (hs : Strays c w w') :
    Aside w₀ w' := by
  obtain ⟨hclosed, hbeside⟩ := hs.db h.closed
  refine ⟨hclosed, h.tables.trans hbeside, by rw [hs.mem]; exact h.mem, ?_⟩
  obtain ⟨later, hlog, hclocks⟩ := h.log
  rcases hs.log with hsame | hread
  · exact ⟨later, hsame.trans hlog, hclocks⟩
  · refine ⟨.clock c.now :: later, hread.trans (congrArg _ hlog), fun e he => ?_⟩
    rcases List.mem_cons.mp he with rfl | he
    · exact ⟨_, rfl⟩
    · exact hclocks e he

theorem strays_now : now.Steps Strays :=
  Steps.bind (Steps.atomic fun _ _ => ⟨fun h => ⟨h, .refl _⟩, rfl, .inr rfl⟩) fun _ => Steps.pure _

theorem strays_readMemory : readMemory.Steps Strays :=
  Steps.atomic fun _ _ => ⟨fun h => ⟨h, .refl _⟩, rfl, .inl rfl⟩

theorem strays_sql {α : Type} {f : Tables → Except Exn (Tables × α)}
    (h : ∀ t t' a, f t = .ok (t', a) → Beside t t') : (sql f).Steps Strays := by
  refine Steps.atomic fun c w => ⟨fun hclosed => ?_, ?_, .inl (statement_log _ _ _)⟩
  · rw [statement_eq hclosed]
    cases c.fault with
    | some fault => exact ⟨hclosed, .refl _⟩
    | none =>
      dsimp only
      split
      · rename_i t a hf
        exact ⟨rfl, h _ _ _ hf⟩
      · exact ⟨hclosed, .refl _⟩
  · unfold statement World.fail
    split
    · split <;> rfl
    · split <;> rfl

theorem strays_update {f : Tables → Except Exn Tables} (h : ∀ t t', f t = .ok t' → Beside t t') :
    (update f).Steps Strays := by
  refine strays_sql fun t t' a hf => ?_
  obtain ⟨t'', ht, hf⟩ := bind_ok_iff.mp hf
  cases hf
  exact h t _ ht

theorem strays_select {α : Type} (f : Tables → Except Exn α) : (select f).Steps Strays := by
  refine strays_sql fun t t' a hf => ?_
  obtain ⟨a', -, hf⟩ := bind_ok_iff.mp hf
  cases hf
  exact .refl t

theorem strays_halted : Ledger.halted.Steps Strays := (strays_select _).bind fun _ => Steps.pure _

theorem strays_tick : Ledger.tick.Steps Strays := by
  refine (strays_select _).bind fun row => strays_now.bind fun wall => Steps.bind ?_ fun _ =>
    (strays_update fun t t' ht => ?_).bind fun _ => Steps.pure _
  · unfold Ledger.refuseRegression
    split
    · refine (strays_update fun t t' ht => ?_).bind fun _ => Steps.raise _
      cases ht
      exact ⟨rfl, rfl, rfl, rfl, rfl, fun _ => rfl, added_nil⟩
    · exact Steps.pure _
  · cases ht
    exact ⟨rfl, rfl, rfl, rfl, rfl, id, added_nil⟩

/-- A decision that turns a request away. -/
def Away (d : Decision) : Prop :=
  d = refuse 401 "unauthorized" .none ∨ d = refuse 413 "body_too_large" .none

theorem turnedAway {d : Decision} (hd : Away d) (seq ts : Int) (head : String) :
    TurnedAway ((requestFields i d).row i.ext seq ts head) := by
  rcases hd with rfl | rfl
  · exact ⟨rfl, rfl, .inl rfl⟩
  · exact ⟨rfl, rfl, .inr rfl⟩

theorem strays_audit {d : Decision} (hd : Away d) :
    (Ledger.audit i.ext (requestFields i d)).Steps Strays := by
  refine strays_tick.bind fun _ => (strays_select _).bind fun head => Steps.bind ?_ fun _ => ?_
  · refine strays_sql fun t t' a ht => ?_
    obtain ⟨_, -, ht⟩ := bind_ok_iff.mp ht
    cases ht
    refine ⟨rfl, rfl, rfl, rfl, rfl, id, [_], rfl, fun r hr => ?_⟩
    cases List.mem_singleton.mp hr
    exact turnedAway hd _ _ _
  · refine strays_update fun t t' ht => ?_
    cases ht
    exact ⟨rfl, rfl, rfl, rfl, rfl, id, added_nil⟩

theorem strays_decide {d : Decision} (hd : Away d) : (decide i d).Steps Strays := by
  refine (strays_audit hd).attempt.bind fun r => ?_
  split
  · exact Steps.pure _
  · split <;> exact Steps.pure _

theorem strays_stats : Ledger.stats.Steps Strays :=
  strays_now.bind fun _ => (strays_select _).bind fun _ => (strays_select _).bind fun _ =>
    (strays_select _).bind fun _ => (strays_select _).bind fun _ => strays_halted.bind fun _ =>
      (strays_select _).bind fun _ => Steps.pure _

theorem strays_get (path : String) : (get i path).Steps Strays := by
  unfold get
  split
  · exact strays_readMemory.bind fun _ => strays_readMemory.bind fun _ =>
      strays_readMemory.bind fun _ => strays_halted.bind fun _ => Steps.pure _
  split
  · exact strays_stats.bind fun _ => strays_readMemory.bind fun _ => Steps.pure _
  split
  · unfold getReceipt
    split
    · refine (strays_select _).bind fun row => ?_
      split <;> exact Steps.pure _
    · exact Steps.pure _
  · exact Steps.pure _

/-! ### Runs -/

/-- What comes from a bystander: a GET, or a POST that is not admitted. -/
inductive Bystander (front : Front) (int : String → Option Int) : Arrival → Prop
  | get (path : String) : Bystander front int (.get path)
  | post (r : Incoming) (h : ∀ raw, ¬ Admitted front int r raw) : Bystander front int (.post r)

/-- The task of a bystander does nothing but stray. -/
theorem Bystander.steps {a : Arrival} (h : Bystander front int a) :
    ((a.task front int).code i).Steps Strays ∧ ∀ w, (a.task front int).enter w = w := by
  cases h with
  | get path => exact ⟨(strays_get path).bind fun _ => Steps.pure _, fun _ => rfl⟩
  | post r hnot =>
    cases htask : (Arrival.post r).task front int with
    | call c =>
      obtain ⟨raw, -, hr⟩ := door_call.mp (task_post htask nofun)
      exact absurd hr (hnot raw)
    | audited d =>
      exact ⟨(strays_decide (door_audited (task_post htask nofun))).bind fun _ => Steps.pure _,
        fun _ => rfl⟩
    | read path => exact ⟨(strays_get path).bind fun _ => Steps.pure _, fun _ => rfl⟩
    | plain reply => exact ⟨Steps.pure _, fun _ => rfl⟩
    | fails e => exact ⟨Steps.raise _, fun _ => rfl⟩

/-- However many bystanders come, and wherever they are interrupted: the books stay as they are but for
refusals at the end of the audit log, nothing is signed, and no node hears of it. -/
theorem bystanders_aside {env : State → Choice → Prop} {ok : State → Arrival → Prop}
    (h : Serves i front int env ok w₀ status as w) (hclosed : w₀.db.working = none)
    (has : ∀ a ∈ as, Bystander front int a) : Aside w₀ w := by
  induction h with
  | start => exact .refl hclosed
  | @arrive as w a script h hok henv ih =>
    obtain ⟨hsteps, henter⟩ := (has a (.head _)).steps (i := i)
    unfold Task.execute
    rw [henter]
    exact hsteps.run Aside.step script (ih fun a ha => has a (.tail _ ha))
  | restart h ih =>
    obtain ⟨hclosed, htables, -, hlog⟩ := ih has
    exact ⟨rfl, htables, .inr rfl, hlog⟩

/-! ### A sample -/

/-- A request without a token. -/
def strangerPost : Incoming := ⟨"/sign", none, some "1", none, [1], none⟩

theorem task_strangerPost :
    (Arrival.post strangerPost).task smallFront readsOne =
      .audited (refuse 401 "unauthorized" .none) :=
  task_of_door (by rfl)

/-- A request without a token leaves one row in the audit log, and nothing else. -/
theorem bystanders_aside_stranger :
    ∃ w : World, w.tables.audit.length = 1 ∧ Aside .initial w := by
  have hserves : Serves (Sample.signer Sample.unlimited "") smallFront readsOne (fun _ _ => True)
      (fun _ _ => True) .initial .running [] .initial := .start
  refine ⟨_, ?_, bystanders_aside (hserves.task task_strangerPost calm) rfl fun a ha => ?_⟩
  · decide +kernel
  · cases List.mem_singleton.mp ha
    refine .post _ fun raw hr => ?_
    obtain ⟨credentials, hgiven, -⟩ := hr.token
    cases hgiven

end EscrowSigner.Server
