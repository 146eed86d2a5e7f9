import EscrowSigner.Integrity.Reservations

/-! The admission of a debit: while the clock stands at one second and no statement fails, what the
ledger checks is a function of its tables, and a debit that passes the checks breaches no cap in its
transaction either. -/

namespace EscrowSigner.Integrity

open Ledger Process

variable {x : Externals} {caps : Caps} {a : Request} {T : Int} {w : World} {α β : Type}

/-! ### Reads -/

/-- What the environment may choose while the clock stands at one second and no statement fails. -/
def Calm (T : Int) (_ : World) (c : Choice) : Prop := c.fault = none ∧ seconds c.now = T

/-- Between two transactions the code computes `f` from the tables.  Unless `f` fails, the database
stays as it is. -/
def Reads (T : Int) (f : Tables → Except Exn α) (p : Code α) : Prop :=
  ∀ w, w.db.working = none → p.Under (Calm T) (fun e _ => f w.tables = .error e)
    (fun r w' => w'.db = w.db ∧ f w.tables = .ok r) w

namespace Reads

theorem pure (r : α) : Reads T (fun _ => .ok r) (Pure.pure r) := fun _ _ => .pure ⟨rfl, rfl⟩

theorem raise (e : Exn) : Reads T (fun _ => .error e) (throwExn e : Code α) := fun _ _ => .raise rfl

theorem bind {f : Tables → Except Exn α} {g : α → Tables → Except Exn β} {p : Code α}
    {k : α → Code β} (hp : Reads T f p) (hk : ∀ r, Reads T (g r) (k r)) :
    Reads T (fun t => f t >>= fun r => g r t) (p >>= k) := by
  intro w hclosed
  refine Under.bind ((hp w hclosed).mono (fun e _ he => ?_) fun _ _ h => h) fun r w' h => ?_
  · exact bind_error_iff.mpr (.inl he)
  · obtain ⟨hdb, hr⟩ := h
    have htables : w'.tables = w.tables := congrArg Db.committed hdb
    refine (hk r w' (hdb ▸ hclosed)).mono (fun e _ he => ?_) fun b w'' h' => ⟨h'.1.trans hdb, ?_⟩
    · exact bind_error_iff.mpr (.inr ⟨r, hr, htables ▸ he⟩)
    · exact bind_ok_iff.mpr ⟨r, hr, htables ▸ h'.2⟩

theorem congr {f g : Tables → Except Exn α} {p : Code α} (h : Reads T f p) (hfg : ∀ t, f t = g t) :
    Reads T g p := (funext hfg : f = g) ▸ h

theorem select (f : Tables → Except Exn α) : Reads T f (select f) := by
  intro w hclosed
  refine .atomic fun c hc => ?_
  rw [statement_eq hclosed, hc.1]
  dsimp only
  cases hf : f w.tables with
  | error e => exact rfl
  | ok r =>
    refine ⟨?_, rfl⟩
    show (⟨w.tables, none⟩ : Db) = w.db
    rw [← hclosed]
    rfl

/-- The clock reads the second at which it stands. -/
theorem now_bind {g : Tables → Except Exn β} {k : Int → Code β} (hk : Reads T g (k T)) :
    Reads T g (now >>= k) := by
  intro w hclosed
  refine Under.bind (P := fun wall w' => w'.db = w.db ∧ wall = T) ?_ fun wall w' h => ?_
  · exact Under.bind (P := fun instant w' => w'.db = w.db ∧ seconds instant = T)
      (.atomic fun _ hc => ⟨rfl, hc.2⟩) fun _ _ h => .pure h
  · obtain ⟨hdb, rfl⟩ := h
    have htables : w'.tables = w.tables := congrArg Db.committed hdb
    exact htables ▸ hdb ▸ hk w' (hdb ▸ hclosed)

end Reads

/-! ### The checks of a debit -/

/-- The clock stands too far behind the guard. -/
def Behind (T : Int) (row : ClockGuard) : Prop := T < row.maxTs - clockToleranceS

instance (T : Int) (row : ClockGuard) : Decidable (Behind T row) :=
  inferInstanceAs (Decidable (_ < _))

/-- What `refuseRegression` decides. -/
def clockVerdict (T : Int) (row : ClockGuard) : Except Exn Unit :=
  if Behind T row then .error (.clockRegression s!"wall clock is {row.maxTs - T}s behind the ledger")
  else .ok ()

theorem reads_refuseRegression (row : ClockGuard) :
    Reads T (fun _ => clockVerdict T row) (refuseRegression row T) := by
  by_cases h : Behind T row
  · refine Reads.congr (f := fun _ => .error _) (fun w hclosed => ?_) fun _ => (if_pos h).symm
    rw [show refuseRegression row T = _ from if_pos h]
    refine Under.bind (P := fun _ _ => True) ?_ fun _ _ _ => .raise rfl
    refine .atomic fun c hc => ?_
    rw [statement_eq hclosed, hc.1]
    trivial
  · refine Reads.congr (f := fun _ => .ok ()) ?_ fun _ => (if_neg h).symm
    rw [show refuseRegression row T = _ from if_neg h]
    exact .pure ()

theorem reads_assertClockSane : Reads T (fun t => clockVerdict T t.clockGuard) assertClockSane :=
  (Reads.select fun t => .ok t.clockGuard).bind fun row => .now_bind (reads_refuseRegression row)

/-- The checks of the caps that are counted in units. -/
def unitChecks (caps : Caps) (a : Request) (cuts : Cuts) (t : Tables) : Except Exn (List Check) := do
  let units10m ← t.windowUnits a.chainId a.escrow a.token cuts.tenMinutes
  let units1h ← t.windowUnits a.chainId a.escrow a.token cuts.hour
  let units24h ← t.windowUnits a.chainId a.escrow a.token cuts.day
  let unitsChannel ← t.channelUnits a.chainId a.escrow a.channelId cuts.day
  return [⟨"cap_units_per_tx", caps.unitsPerTx, a.amountUnits, 0⟩,
    ⟨"cap_units_10m", caps.units10m, a.amountUnits, units10m⟩,
    ⟨"cap_units_1h", caps.units1h, a.amountUnits, units1h⟩,
    ⟨"cap_units_24h", caps.units24h, a.amountUnits, units24h⟩,
    ⟨"cap_units_channel_24h", caps.unitsChannel24h, a.amountUnits, unitsChannel⟩]

/-- The checks of the caps on the number of transactions. -/
def countChecks (caps : Caps) (a : Request) (cuts : Cuts) (t : Tables) : List Check :=
  [⟨"cap_tx_1h", caps.tx1h, 1, t.windowCount a.chainId a.escrow cuts.hour⟩,
    ⟨"cap_tx_24h", caps.tx24h, 1, t.windowCount a.chainId a.escrow cuts.day⟩,
    ⟨"cap_tx_per_channel_24h", caps.txPerChannel24h, 1,
      t.channelCount a.chainId a.escrow a.channelId cuts.day⟩]

/-- The check of the cap on fees. -/
def feeCheck (caps : Caps) (a : Request) (fees : Int) : Check :=
  ⟨"cap_fee_wei_24h", caps.feeWei24h, a.maxFeeWei * a.gasLimit, fees⟩

/-- The check of the cap on channels, which a channel that was seen passes. -/
def channelChecks (caps : Caps) (a : Request) (cuts : Cuts) (t : Tables) : List Check :=
  if t.channelCount a.chainId a.escrow a.channelId cuts.day = 0 then
    [⟨"cap_distinct_channels_24h", caps.distinctChannels24h, 1,
      t.distinctChannels a.chainId a.escrow cuts.day⟩]
  else []

/-- The name of the first cap without room. -/
def lacking (checks : List Check) : Option String :=
  (checks.find? fun c => !c.passes).map (·.name)

/-- What `runChecks` decides. -/
def checksVerdict (checks : List Check) : Except Exn Unit :=
  match lacking checks with
  | some name => .error (capBreach name)
  | none => .ok ()

/-- What `reviveOf` decides. -/
def reviveVerdict (existing : Option SpendRow) (what : String) : Except Exn Bool :=
  match existing with
  | none => .ok false
  | some r =>
    if r.state = .dead then .ok true
    else .error (.ledgerUnavailable
      (s!"a row for this {what} already exists in state '{r.state.name}'; " ++
        "only a dead row may be retried"))

/-- What the checks of `reserve` decide at a second of the clock. -/
def admission (x : Externals) (caps : Caps) (a : Request) (T : Int) (t : Tables) :
    Except Exn (Cuts × Bool) :=
  let cuts := Cuts.at T
  if a.amountUnits ≤ 0 then .error .valueError
  else do
    clockVerdict T t.clockGuard
    let units ← unitChecks caps a cuts t
    let fees ← t.feeWeiWindow x a.chainId a.escrow cuts.day
    checksVerdict (units ++ countChecks caps a cuts t ++ [feeCheck caps a fees])
    checksVerdict (channelChecks caps a cuts t)
    let revive ← reviveVerdict (t.get a.key) "receipt"
    return (cuts, revive)

theorem reads_windowChecks (cuts : Cuts) :
    Reads T (fun t => do
      let units ← unitChecks caps a cuts t
      let fees ← t.feeWeiWindow x a.chainId a.escrow cuts.day
      return units ++ countChecks caps a cuts t ++ [feeCheck caps a fees])
      (windowChecks x caps a cuts) := by
  refine ((Reads.select _).bind fun _ => (Reads.select _).bind fun _ => (Reads.select _).bind fun _ =>
    (Reads.select _).bind fun _ => (Reads.select _).bind fun _ => (Reads.select _).bind fun _ =>
      (Reads.select _).bind fun _ => (Reads.select _).bind fun _ => Reads.pure _).congr fun t => ?_
  unfold unitChecks
  simp only [LawfulMonad.bind_assoc, pure_bind]
  rfl

theorem reads_runChecks (checks : List Check) :
    Reads T (fun _ => checksVerdict checks) (runChecks checks) := by
  induction checks with
  | nil => exact .pure ()
  | cons c checks ih =>
    unfold runChecks
    cases hc : c.passes with
    | true =>
      rw [if_pos rfl]
      refine ih.congr fun _ => ?_
      simp only [checksVerdict, lacking, List.find?_cons, hc, Bool.not_true]
    | false =>
      rw [if_neg Bool.false_ne_true]
      refine (Reads.raise _).congr fun _ => ?_
      simp only [checksVerdict, lacking, List.find?_cons, hc, Bool.not_false, Option.map_some]

theorem checksVerdict_singleton (c : Check) :
    checksVerdict [c] = if c.passes then .ok () else .error (capBreach c.name) := by
  cases hc : c.passes <;>
    simp only [checksVerdict, lacking, List.find?_cons, hc, Bool.not_true, Bool.not_false,
      List.find?_nil, Option.map_none, Option.map_some, Bool.false_eq_true, if_true, if_false]

theorem reads_checkDistinctChannels (cuts : Cuts) :
    Reads T (fun t => checksVerdict (channelChecks caps a cuts t))
      (checkDistinctChannels caps a cuts) := by
  unfold checkDistinctChannels
  split
  · rename_i hoff
    refine (Reads.pure ()).congr fun t => ?_
    unfold channelChecks
    split
    · rw [checksVerdict_singleton, Check.passes, beq_iff_eq.mpr hoff, Bool.true_or, if_pos rfl]
    · rfl
  · rename_i hon
    refine ((Reads.select fun t => .ok (t.distinctChannels a.chainId a.escrow cuts.day)).bind
      fun seen => (Reads.select fun t => .ok (t.channelCount a.chainId a.escrow a.channelId
        cuts.day)).bind fun count => (?_ : Reads T (fun _ => checksVerdict (if count = 0 then
          [⟨"cap_distinct_channels_24h", caps.distinctChannels24h, 1, seen⟩] else [])) _)).congr
      fun t => rfl
    by_cases hbreach : count = 0 ∧ seen + 1 > caps.distinctChannels24h
    · rw [if_pos hbreach]
      refine (Reads.raise _).congr fun _ => ?_
      have hfull : ¬ seen + 1 ≤ caps.distinctChannels24h := not_le.mpr hbreach.2
      rw [if_pos hbreach.1, checksVerdict_singleton, Check.passes, beq_eq_false_iff_ne.mpr hon,
        Bool.false_or, decide_eq_false hfull, if_neg Bool.false_ne_true]
    · rw [if_neg hbreach]
      refine (Reads.pure ()).congr fun _ => ?_
      split
      · rename_i hfresh
        have hle : seen + 1 ≤ caps.distinctChannels24h := not_lt.mp fun h => hbreach ⟨hfresh, h⟩
        rw [checksVerdict_singleton, Check.passes, decide_eq_true hle, Bool.or_true, if_pos rfl]
      · rfl

theorem reads_reviveOf (existing : Option SpendRow) (what : String) :
    Reads T (fun _ => reviveVerdict existing what) (reviveOf existing what) := by
  unfold reviveOf reviveVerdict
  cases existing with
  | none => exact .pure false
  | some r =>
    dsimp only
    split
    · exact .pure true
    · exact .raise _

theorem reads_debitChecks : Reads T (admission x caps a T) (debitChecks x caps a) := by
  unfold debitChecks admission
  split
  · exact .raise _
  · refine (reads_assertClockSane.bind fun _ => .now_bind ((reads_windowChecks _).bind fun checks =>
      (reads_runChecks checks).bind fun _ => (reads_checkDistinctChannels _).bind fun _ =>
        (Reads.select _).bind fun existing => (reads_reviveOf existing _).bind fun revive =>
          Reads.pure _)).congr fun t => ?_
    simp only [LawfulMonad.bind_assoc, pure_bind]
    rfl

/-! ### A debit that was admitted -/

/-- An exception that names no cap. -/
def NoBreach (e : Exn) : Prop := ∀ name retryAfterS, e ≠ .capBreach name retryAfterS

theorem Ordinary.noBreach {e : Exn} (h : Ordinary False e) : NoBreach e := by
  intro name retryAfterS heq
  subst heq
  cases h with
  | race h => exact h

theorem raises_sql {f : Tables → Except Exn (Tables × α)}
    (hf : ∀ t e, f t = .error e → NoBreach e) : (sql f).Raises NoBreach := by
  refine Raises.atomic fun c w e he => ?_
  unfold statement at he
  split at he
  · cases he
    exact (Ordinary.fault _).noBreach
  · split at he
    · cases he
    · rename_i e' hf'
      cases he
      exact hf _ _ hf'

theorem raises_select {f : Tables → Except Exn α} (hf : ∀ t e, f t = .error e → NoBreach e) :
    (select f).Raises NoBreach := by
  refine raises_sql fun t e he => ?_
  rcases bind_error_iff.mp he with he | ⟨_, -, he⟩
  · exact hf t e he
  · cases he

/-- A read that does not fail by itself. -/
theorem raises_read (f : Tables → α) : (select fun t => .ok (f t)).Raises NoBreach :=
  raises_select fun _ _ he => (by cases he)

/-- An update that does not fail by itself. -/
theorem raises_write (f : Tables → Tables) : (update fun t => .ok (f t)).Raises NoBreach :=
  raises_sql fun _ _ he => (by cases he)

theorem raises_now : now.Raises NoBreach :=
  Raises.bind (Raises.atomic fun _ _ _ he => (by cases he)) fun _ => .pure _

theorem raises_tick : tick.Raises NoBreach := by
  refine (raises_read _).bind fun row => raises_now.bind fun wall => Raises.bind ?_ fun _ =>
    (raises_write _).bind fun _ => .pure _
  unfold refuseRegression
  split
  · exact (raises_write _).bind fun _ => .raise fun _ _ h => (by cases h)
  · exact .pure _

theorem raises_opening : opening.Raises NoBreach := by
  refine Raises.bind (Raises.atomic fun c w e he => ?_) fun _ => raises_tick
  dsimp only at he
  split at he
  · cases he
    exact (Ordinary.fault _).noBreach
  · cases he
    exact (Ordinary.sqlite _).noBreach
  · cases he

theorem raises_audit (f : AuditFields) : (audit x f).Raises NoBreach := by
  refine raises_tick.bind fun _ => (raises_read _).bind fun _ => Raises.bind (raises_sql
    fun t e he => ?_) fun _ => raises_write _
  rcases bind_error_iff.mp he with he | ⟨_, -, he⟩
  · exact (bindInts_error he).noBreach
  · cases he

theorem raises_reviveAfter : (reviveAfter x a).Raises NoBreach := by
  refine (raises_read _).bind fun row => ?_
  split
  · exact .raise fun _ _ h => (by cases h)
  · exact (raises_audit _).bind fun _ => .pure _

theorem raises_committedRow (k : Key) : (committedRow k).Raises NoBreach := by
  refine (raises_read _).bind fun row => ?_
  split
  · exact .pure _
  · exact .raise fun _ _ h => (by cases h)

theorem raises_inner (plan : Cuts × Bool) : ((debitParts x caps a).inner plan).Raises NoBreach := by
  dsimp only [debitParts]
  split
  · exact raises_reviveAfter.bind fun _ => .pure _
  · exact .pure _

theorem raises_outer (row : Option SpendRow) : ((debitParts x caps a).outer row).Raises NoBreach := by
  cases row with
  | some row => exact .pure _
  | none => exact raises_committedRow _

theorem raises_guardHandlers {e : Exn} (h : NoBreach e) :
    (guardHandlers (.error e) : Code α).Raises NoBreach := by
  cases e with
  | sqlite name => exact (Raises.attempt _).bind fun _ => .raise fun _ _ h => (by cases h)
  | clockRegression message => exact (Raises.attempt _).bind fun _ => .raise fun _ _ h => (by cases h)
  | capBreach | ledgerUnavailable | chainUnverified | reverted | rpcUnavailable | calldata | other =>
    exact .raise h

/-- A check that passes is a clause that holds. -/
theorem clause_of_passes {c : Check} (h : c.passes = true) :
    clause c.limit (.ok c.existing) c.adding = .ok true := by
  unfold clause
  simp only [Check.passes, Bool.or_eq_true, beq_iff_eq, decide_eq_true_eq] at h
  split
  · rfl
  · rename_i hon
    show (Except.ok (decide (c.existing + c.adding ≤ c.limit)) : Except Exn Bool) = .ok true
    rw [decide_eq_true (h.resolve_left hon)]

theorem lacking_eq_none {checks : List Check} :
    lacking checks = none ↔ ∀ c ∈ checks, c.passes = true := by
  simp [lacking, List.find?_eq_none]

theorem checksVerdict_ok {checks : List Check} (h : checksVerdict checks = .ok ()) :
    lacking checks = none := by
  unfold checksVerdict at h
  split at h
  · cases h
  · assumption

theorem unitChecks_ok {cuts : Cuts} {t : Tables} {units : List Check}
    (h : unitChecks caps a cuts t = .ok units) :
    ∃ units10m units1h units24h unitsChannel,
      t.windowUnits a.chainId a.escrow a.token cuts.tenMinutes = .ok units10m ∧
      t.windowUnits a.chainId a.escrow a.token cuts.hour = .ok units1h ∧
      t.windowUnits a.chainId a.escrow a.token cuts.day = .ok units24h ∧
      t.channelUnits a.chainId a.escrow a.channelId cuts.day = .ok unitsChannel ∧
      units = [⟨"cap_units_per_tx", caps.unitsPerTx, a.amountUnits, 0⟩,
        ⟨"cap_units_10m", caps.units10m, a.amountUnits, units10m⟩,
        ⟨"cap_units_1h", caps.units1h, a.amountUnits, units1h⟩,
        ⟨"cap_units_24h", caps.units24h, a.amountUnits, units24h⟩,
        ⟨"cap_units_channel_24h", caps.unitsChannel24h, a.amountUnits, unitsChannel⟩] := by
  obtain ⟨units10m, h10m, h⟩ := bind_ok_iff.mp h
  obtain ⟨units1h, h1h, h⟩ := bind_ok_iff.mp h
  obtain ⟨units24h, h24h, h⟩ := bind_ok_iff.mp h
  obtain ⟨unitsChannel, hchannel, h⟩ := bind_ok_iff.mp h
  exact ⟨units10m, units1h, units24h, unitsChannel, h10m, h1h, h24h, hchannel, (Except.ok.inj h).symm⟩

/-- What an admission says about the tables. -/
theorem admission_ok {t : Tables} {plan : Cuts × Bool} (h : admission x caps a T t = .ok plan) :
    ∃ units fees, unitChecks caps a (Cuts.at T) t = .ok units ∧
      t.feeWeiWindow x a.chainId a.escrow (Cuts.at T).day = .ok fees ∧
      lacking (units ++ countChecks caps a (Cuts.at T) t ++ [feeCheck caps a fees]) = none ∧
      lacking (channelChecks caps a (Cuts.at T) t) = none ∧ plan.1 = Cuts.at T := by
  unfold admission at h
  dsimp only at h
  split at h
  · cases h
  · obtain ⟨_, -, h⟩ := bind_ok_iff.mp h
    obtain ⟨units, hunits, h⟩ := bind_ok_iff.mp h
    obtain ⟨fees, hfees, h⟩ := bind_ok_iff.mp h
    obtain ⟨_, hchecks, h⟩ := bind_ok_iff.mp h
    obtain ⟨_, hchannels, h⟩ := bind_ok_iff.mp h
    obtain ⟨revive, -, h⟩ := bind_ok_iff.mp h
    cases h
    exact ⟨units, fees, hunits, hfees, checksVerdict_ok hchecks, checksVerdict_ok hchannels, rfl⟩

/-- The guarded `INSERT` admits what passes the checks. -/
theorem debitGuard_of_room {t : Tables} {cuts : Cuts} {units rest : List Check}
    (hunits : unitChecks caps a cuts t = .ok units)
    (hroom : lacking (units ++ countChecks caps a cuts t ++ rest) = none) :
    debitGuard caps a cuts t = .ok true := by
  obtain ⟨units10m, units1h, units24h, unitsChannel, h10m, h1h, h24h, hchannel, rfl⟩ :=
    unitChecks_ok hunits
  simp only [countChecks, List.cons_append, List.nil_append, lacking_eq_none, List.forall_mem_cons]
    at hroom
  obtain ⟨-, p10m, p1h, p24h, pchannel, ptx1h, ptx24h, -⟩ := hroom
  unfold debitGuard
  rw [h10m, h1h, h24h, hchannel, clause_of_passes p24h, clause_of_passes p1h, clause_of_passes p10m,
    clause_of_passes pchannel, clause_of_passes ptx1h, clause_of_passes ptx24h]
  rfl

theorem admission_guard {t : Tables} {plan : Cuts × Bool}
    (h : admission x caps a T t = .ok plan) : debitGuard caps a plan.1 t = .ok true := by
  obtain ⟨units, fees, hunits, -, hroom, -, hcuts⟩ := admission_ok h
  rw [hcuts]
  exact debitGuard_of_room hunits hroom

theorem Draft.insertRow_passing {R : Prop} {t₀ : Tables} (h : Draft t₀ (fun t => t.spend = t₀.spend) w)
    (ints : List Int) {guard : Tables → Except Exn Bool} (row : SpendRow)
    (hguard : ∀ t, t.spend = t₀.spend → guard t = .ok true) :
    (Ledger.insertRow ints guard row).Ends (Dropped R t₀)
      (fun inserted w' => Draft t₀ (fun _ => inserted = true) w') w := by
  refine h.sql (G := fun inserted _ => inserted = true) (fun t e ht he => ?_)
    fun t t' inserted ht hok => ?_
  · rcases bind_error_iff.mp he with he | ⟨_, -, he⟩
    · exact bindInts_error he
    · rcases bind_error_iff.mp he with he | ⟨passes, hpasses, he⟩
      · rw [hguard t ht] at he
        cases he
      · cases (hguard t ht).symm.trans hpasses
        rcases bind_error_iff.mp he with he | ⟨_, -, he⟩
        · exact setSpend_error he
        · cases he
  · obtain ⟨-, -, hok⟩ := bind_ok_iff.mp hok
    obtain ⟨passes, hpasses, hok⟩ := bind_ok_iff.mp hok
    cases (hguard t ht).symm.trans hpasses
    obtain ⟨t'', -, heq⟩ := bind_ok_iff.mp hok
    cases heq
    rfl

/-- The transaction of an admitted debit names no cap. -/
theorem admitted_body {plan : Cuts × Bool} {t₀ : Tables} (hguard : debitGuard caps a plan.1 t₀ = .ok true)
    (stamp : Int × Int) (h : Draft t₀ (fun t => t.spend = t₀.spend) w) :
    ((debitParts x caps a).body plan stamp).Ends (fun e _ => NoBreach e) (fun _ _ => True) w := by
  refine Under.mono (E := Dropped False t₀) (P := fun _ _ => True) ?_
    (fun _ _ h => h.kind.noBreach) fun _ _ h => h
  refine (h.allocateAt (fun _ _ h => h) _ _ _).bind fun al w₁ h₁ => ?_
  split
  · refine (h₁.reviveRow _ _ _ fun _ => rfl).bind fun changed w₂ h₂ => ?_
    cases changed with
    | true =>
      exact (h₂.takeNonce (fun _ _ h => h) _ _ _).bind fun _ _ h₃ =>
        h₃.commit.mono (fun _ _ h => h) fun _ _ _ => trivial
    | false => exact h₂.giveUp (.ledgerUnavailable _)
  · refine (h₁.insertRow_passing _ _ fun t ht => (debitGuard_congr ht).trans hguard).bind
      fun inserted w₂ h₂ => ?_
    obtain ⟨t, -, hinserted⟩ := h₂.opened
    rw [hinserted, if_pos rfl]
    exact (h₂.takeNonce (fun _ _ h => h) _ _ _).bind fun _ _ h₃ =>
      (h₃.write (G := fun _ => True) fun _ _ => trivial).bind fun _ _ h₄ =>
        h₄.commit.mono (fun _ _ h => h) fun _ _ _ => trivial

theorem admitted_rest {plan : Cuts × Bool} (hclosed : w.db.working = none)
    (hguard : debitGuard caps a plan.1 w.tables = .ok true) :
    (guardTransaction ((opening >>= (debitParts x caps a).body plan) >>= fun _ =>
      (debitParts x caps a).inner plan) >>= (debitParts x caps a).outer).Ends
      (fun e _ => NoBreach e) (fun _ _ => True) w := by
  have hidle : Idle (fun t => t = w.tables) w := ⟨hclosed, rfl⟩
  have hopening : opening.Ends (fun e _ => NoBreach e)
      (fun _ w' => Draft w.tables (fun t => t.spend = w.tables.spend) w') w := by
    exact (hidle.opening.and (raises_opening.under _ w)).mono (fun _ _ h => h.2) fun _ _ h => h.1
  refine Under.bind (P := fun _ _ => True) ?_ fun row w' _ => (raises_outer row).under _ w'
  rw [guardTransaction_eq]
  refine Under.bind (E := fun e _ => NoBreach e) (Under.attempt (E := fun e _ => NoBreach e)
    (P := fun _ _ => True) ?_) fun r w' hr => ?_
  · exact (hopening.bind fun stamp w₁ h₁ => admitted_body hguard stamp h₁).bind
      fun _ w₂ _ => (raises_inner plan).under _ w₂
  · cases r with
    | ok row => exact .pure trivial
    | error e => exact (raises_guardHandlers hr).under _ w'

/-- At a second of the clock and without a failed statement, `reserve` breaches the cap that its
checks name, and no other. -/
theorem reserve_breaches_iff (hclosed : w.db.working = none) {script : List Choice}
    (hcalm : ∀ c ∈ script, Calm T w c) (hdone : ((reserve x caps a).run script w).1 ≠ .stopped)
    (name : String) :
    ((reserve x caps a).run script w).1 = .raised (capBreach name) ↔
      admission x caps a T w.tables = .error (capBreach name) := by
  have hwalk : (reserve x caps a).Under (Calm T)
      (fun e _ => admission x caps a T w.tables = .error e ∨
        NoBreach e ∧ ∃ plan, admission x caps a T w.tables = .ok plan)
      (fun _ _ => ∃ plan, admission x caps a T w.tables = .ok plan) w := by
    rw [reserve_eq]
    unfold Parts.whole
    rw [rollbackOnError_eq]
    refine Under.bind (Under.attempt (E := fun e _ => admission x caps a T w.tables = .error e ∨
        NoBreach e ∧ ∃ plan, admission x caps a T w.tables = .ok plan)
      (P := fun _ _ => ∃ plan, admission x caps a T w.tables = .ok plan) ?_) fun r w' hr => ?_
    · refine Under.bind ((reads_debitChecks w hclosed).mono (fun e _ he => .inl he) fun _ _ h => h)
        fun plan w' h => ?_
      obtain ⟨hdb, hplan⟩ := h
      have htables : w'.tables = w.tables := congrArg Db.committed hdb
      refine ((admitted_rest (hdb ▸ hclosed) (htables ▸ admission_guard hplan)).weaken
        fun _ _ _ => trivial).mono (fun e _ he => .inr ⟨he, plan, hplan⟩) fun _ _ _ => ⟨plan, hplan⟩
    · cases r with
      | ok row => exact .pure hr
      | error e =>
        refine ((ends_rollbackHandlers w' e).weaken fun _ _ _ => trivial).mono (fun e' _ h => ?_)
          fun _ _ h => h.elim
        rw [h.2.2]
        exact hr
  have hadmits : (reserve x caps a).Admits (Calm T) script w :=
    ((admits_true _ script w).and_of_forall (Q := fun c => Calm T w c) hcalm).mono fun _ _ h => h.2
  have hend := hwalk.exec hadmits
  rw [run_eq_exec] at hdone ⊢
  cases ho : (reserve x caps a).exec script w with
  | mk o r =>
    rw [ho] at hend
    have hdone : o ≠ .stopped := fun h => hdone (by rw [ho, h])
    cases o with
    | stopped => exact absurd rfl hdone
    | returned row =>
      obtain ⟨plan, hplan⟩ := hend
      rw [hplan]
      exact ⟨fun h => (by cases h), fun h => (by cases h)⟩
    | raised e =>
      refine ⟨fun h => ?_, fun h => ?_⟩
      · cases h
        exact hend.resolve_right fun hno => hno.1 name 60 rfl
      · rcases hend with he | ⟨-, plan, hplan⟩
        · rw [he] at h
          cases h
          rfl
        · rw [hplan] at h
          cases h

end EscrowSigner.Integrity
