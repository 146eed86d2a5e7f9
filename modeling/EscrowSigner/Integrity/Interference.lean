import EscrowSigner.Integrity.Admission

/-! What gas-only traffic does to the admission of debits.  It leaves the rows that move tokens, so
the windows that are counted in units do not see it; the caps on the number of transactions and of
channels count its rows too. -/

namespace EscrowSigner.Integrity

open Ledger Process
open Machine (Firm Quiet KeepsSpend Holds Writes)

variable {x : Externals} {caps : Caps} {a : Request} {b : GasOnlyRequest} {k : Key} {T M : Int}
  {w w' : World} {t t' : Tables} {status : Status}

/-! ### The rows that move tokens -/

def debits (rows : List SpendRow) : List SpendRow := rows.filter (·.amountUnits ≠ 0)

/-- The rows of a key move no tokens. -/
def GasOnlyKey (k : Key) (t : Tables) : Prop := ∀ r ∈ t.spend.rows, r.key = k → r.amountUnits = 0

instance (k : Key) (t : Tables) : Decidable (GasOnlyKey k t) :=
  inferInstanceAs (Decidable (∀ r ∈ t.spend.rows, r.key = k → r.amountUnits = 0))

/-- A statement that leaves the rows that move tokens. -/
def SameDebits (t t' : Tables) : Prop := debits t'.spend.rows = debits t.spend.rows

/-- A statement that leaves the rows that move tokens, where those of a key move none. -/
def Spares (k : Key) (t t' : Tables) : Prop :=
  GasOnlyKey k t → GasOnlyKey k t' ∧ SameDebits t t'

theorem sameDebits_of_keeps (h : KeepsSpend t t') : SameDebits t t' := by
  unfold SameDebits
  rw [h.spend]

theorem spares_of_keeps (h : KeepsSpend t t') : Spares k t t' := by
  refine fun hk => ⟨?_, sameDebits_of_keeps h⟩
  unfold GasOnlyKey
  rw [h.spend]
  exact hk

/-- A change of rows that move no tokens. -/
theorem debits_mapRow {f : SpendRow → SpendRow} {rows : List SpendRow}
    (hf : ∀ r, (f r).amountUnits = r.amountUnits)
    (h : ∀ r ∈ rows, r.key = k → r.amountUnits = 0) : debits (mapRow k f rows) = debits rows := by
  induction rows with
  | nil => rfl
  | cons r rows ih =>
    have ih := ih fun r' hr' => h r' (List.mem_cons_of_mem r hr')
    unfold debits mapRow at ih ⊢
    rw [List.map_cons]
    by_cases hk : r.key = k
    · have hzero := h r List.mem_cons_self hk
      rw [if_pos hk, List.filter_cons_of_neg (by simp [hf, hzero]),
        List.filter_cons_of_neg (by simp [hzero])]
      exact ih
    · rw [if_neg hk, List.filter_cons, List.filter_cons, ih]

theorem updateRow_spares {f : SpendRow → SpendRow} (hf : ∀ r, (f r).amountUnits = r.amountUnits)
    (h : t.updateRow k f = .ok t') : Spares k t t' := by
  obtain ⟨hrows, rfl⟩ := setSpend_eq h
  refine fun hk => ⟨fun r' hr' hkey => ?_, debits_mapRow hf hk⟩
  obtain ⟨r, hr, ⟨hrk, rfl⟩ | ⟨hrk, rfl⟩⟩ := mem_mapRow.mp hr'
  · rw [hf]
    exact hk r hr hrk
  · exact hk r' hr hkey

/-- The key of a row that moves no tokens stands for no other row. -/
theorem gasOnlyKey_of_mem {r : SpendRow} (hr : r ∈ t.spend.rows) (hzero : r.amountUnits = 0) :
    GasOnlyKey r.key t := by
  intro r' hr' hkey
  have hnodup := t.spend.constraints.1
  rw [List.inj_on_of_nodup_map hnodup hr' hr hkey]
  exact hzero

/-! ### The statements of gas-only traffic -/

theorem steps_reviveGasOnly (ints : List Int) (k : Key) {f : SpendRow → SpendRow}
    (hf : ∀ r, (f r).amountUnits = r.amountUnits) :
    (reviveRow ints k 0 f).Steps (Quiet SameDebits) := by
  refine Machine.steps_sql fun t t' changed ht => ?_
  obtain ⟨_, -, ht⟩ := bind_ok_iff.mp ht
  split at ht
  · rename_i hany
    obtain ⟨r, hr, hfound⟩ := List.any_eq_true.mp hany
    simp only [Bool.and_eq_true, decide_eq_true_eq] at hfound
    obtain ⟨⟨rfl, -⟩, hzero⟩ := hfound
    obtain ⟨t'', ht'', heq⟩ := bind_ok_iff.mp ht
    cases heq
    exact (updateRow_spares hf ht'' (gasOnlyKey_of_mem hr hzero)).2
  · cases ht
    exact rfl

theorem steps_insertGasOnly (ints : List Int) (guard : Tables → Except Exn Bool) {row : SpendRow}
    (hzero : row.amountUnits = 0) : (insertRow ints guard row).Steps (Quiet SameDebits) := by
  refine Machine.steps_sql fun t t' inserted ht => ?_
  obtain ⟨_, -, ht⟩ := bind_ok_iff.mp ht
  obtain ⟨passes, -, ht⟩ := bind_ok_iff.mp ht
  split at ht
  · obtain ⟨t'', ht'', heq⟩ := bind_ok_iff.mp ht
    cases heq
    obtain ⟨hrows, rfl⟩ := setSpend_eq ht''
    show debits (t.spend.rows ++ [row]) = debits t.spend.rows
    simp [debits, hzero]
  · cases ht
    exact rfl

/-- What leaves the rows leaves those that move tokens. -/
theorem steps_sameDebits {α : Type} {p : Code α} (h : p.Steps (Quiet KeepsSpend)) :
    p.Steps (Quiet SameDebits) :=
  h.mono fun _ _ _ hq => ⟨hq.db.mono fun _ _ => sameDebits_of_keeps, hq.log⟩

theorem steps_reserveGasOnly (x : Externals) (caps : Caps) (b : GasOnlyRequest) :
    (reserveGasOnly x caps b).Steps (Quiet SameDebits) := by
  refine Machine.steps_rollbackOnError ((steps_sameDebits Machine.steps_assertClockSane).bind fun _ =>
    Machine.steps_now.bind fun _ => (steps_sameDebits (Machine.steps_checkGasOnlyCount _ _)).bind
    fun _ => (steps_sameDebits (Machine.steps_checkGasOnlyFee _ _ _ _)).bind fun _ =>
    (steps_sameDebits (Machine.steps_get _)).bind fun _ => (Machine.steps_reviveOf _ _).bind
    fun revive => (Machine.steps_guardTransaction ?_).bind fun _ =>
    (steps_sameDebits (Machine.steps_committedRow _)).bind fun _ =>
    (steps_sameDebits (Machine.steps_audit _ _)).bind fun _ => Steps.pure _)
  refine (steps_sameDebits (Machine.steps_allocate _ _)).bind fun al => Steps.bind ?_ fun _ =>
    (steps_sameDebits (Machine.steps_takeNonce _ _ _)).bind fun _ => Machine.steps_commit
  unfold placeGasOnly
  split
  · refine (steps_reviveGasOnly (f := b.revived al.seq al.ts al.accountNonce) _ _ fun _ => rfl).bind
      fun changed => ?_
    split
    · exact Steps.pure _
    · exact Machine.steps_giveUp _
  · refine (steps_insertGasOnly _ _ rfl).bind fun inserted => ?_
    split
    · exact steps_sameDebits (Machine.steps_setHead _)
    · exact Machine.steps_giveUp _

theorem steps_spares {α : Type} {p : Code α} (h : p.Steps (Quiet KeepsSpend)) :
    p.Steps (Quiet (Spares k)) :=
  h.mono fun _ _ _ hq => ⟨hq.db.mono fun _ _ => spares_of_keeps, hq.log⟩

theorem steps_setState (x : Externals) (row : SpendRow) (state : RowState) (u : RowUpdates) :
    (setState x row state u).Steps (Quiet (Spares row.key)) := by
  refine Steps.bind (Machine.steps_update fun t t' ht => ?_) fun _ =>
    steps_spares (Machine.steps_audit _ _)
  obtain ⟨_, -, ht⟩ := bind_ok_iff.mp ht
  exact updateRow_spares (f := u.apply state) (fun _ => rfl) ht

theorem steps_markSigned (x : Externals) (row : SpendRow) (txHash rawKeccak : String) :
    (markSigned x row txHash rawKeccak).Steps (Quiet (Spares row.key)) := by
  refine (steps_setState x row _ _).bind fun _ => (steps_spares Machine.steps_tick).bind fun _ =>
    Machine.steps_update fun t t' ht => ?_
  obtain ⟨_, -, ht⟩ := bind_ok_iff.mp ht
  cases ht
  exact fun h => ⟨h, rfl⟩

theorem steps_markDead (x : Externals) (row : SpendRow) (reason : String) :
    (markDead x row reason).Steps (Quiet (Spares row.key)) := by
  refine (steps_spares (Machine.steps_readUnsigned row)).bind fun unsigned =>
    (steps_setState x row _ _).bind fun _ => ?_
  split
  · refine (steps_spares Machine.steps_guardRow).bind fun _ => Machine.steps_update fun t t' ht => ?_
    cases ht
    exact fun h => ⟨h, rfl⟩
  · exact Steps.pure _

/-! ### Gas-only traffic -/

/-- A reservation of a gas-only call, or a transition of a row that moves no tokens. -/
def Operation.GasOnly (t : Tables) : Operation → Prop
  | .reserveGasOnly .. | .recordAttemptStatus .. => True
  | .markSigned row _ _ | .markBroadcast row _ | .markMined row _ _ | .markDead row _ =>
    GasOnlyKey row.key t
  | _ => False

/-- Gas-only traffic at one second of the clock. -/
def GasOnlyAt (x : Externals) (T : Int) (w : World) (op : Operation) (script : List Choice) : Prop :=
  op.GasOnly w.tables ∧ (∀ c ∈ script, seconds c.now = T) ∧ (op.run x script w).1 ≠ .stopped

theorem holds_spares {α : Type} {p : Code α} {rows : List SpendRow}
    (h : p.Steps (Quiet (Spares k))) (hk : GasOnlyKey k w.tables) (hclosed : w.db.working = none)
    (hrows : debits w.tables.spend.rows = rows) (script : List Choice) :
    debits (p.run script w).2.tables.spend.rows = rows := by
  have hholds : Holds (fun t => GasOnlyKey k t ∧ debits t.spend.rows = rows) w.db := by
    refine ⟨⟨hk, hrows⟩, fun t ht => ?_⟩
    rw [hclosed] at ht
    cases ht
  refine (h.firm.run (I := fun w => Holds (fun t => GasOnlyKey k t ∧ debits t.spend.rows = rows) w.db)
    (fun _ _ _ hI hw => hw.holds hI fun t t' ht hs => ?_) script hholds).committed.2
  exact ⟨(hs ht.1).1, (hs ht.1).2.trans ht.2⟩

theorem holds_sameDebits {α : Type} {p : Code α} {rows : List SpendRow}
    (h : p.Steps (Quiet SameDebits)) (hclosed : w.db.working = none)
    (hrows : debits w.tables.spend.rows = rows) (script : List Choice) :
    debits (p.run script w).2.tables.spend.rows = rows := by
  have hholds : Holds (fun t => debits t.spend.rows = rows) w.db := by
    refine ⟨hrows, fun t ht => ?_⟩
    rw [hclosed] at ht
    cases ht
  exact (h.firm.run (I := fun w => Holds (fun t => debits t.spend.rows = rows) w.db)
    (fun _ _ _ hI hw => hw.holds hI fun t t' ht hs => hs.trans ht) script hholds).committed

theorem Operation.debits (op : Operation) (h : op.GasOnly w.tables)
    (hclosed : w.db.working = none) (script : List Choice) :
    debits (op.run x script w).2.tables.spend.rows = debits w.tables.spend.rows := by
  unfold Operation.run
  cases op with
  | reserveGasOnly caps b =>
    exact holds_sameDebits ((steps_reserveGasOnly x caps b).bind fun _ => .pure _) hclosed rfl script
  | markSigned row txHash rawKeccak =>
    exact holds_spares (steps_markSigned x row txHash rawKeccak) h hclosed rfl script
  | markBroadcast row txHash => exact holds_spares (steps_setState x row _ _) h hclosed rfl script
  | markMined row txHash feeWei => exact holds_spares (steps_setState x row _ _) h hclosed rfl script
  | markDead row reason => exact holds_spares (steps_markDead x row reason) h hclosed rfl script
  | recordAttemptStatus txHash status =>
    exact holds_sameDebits (steps_sameDebits (Machine.steps_recordAttemptStatus _ _)) hclosed rfl script
  | reserve | audit | setNextNonce | recordBoot | assertClockSane | tick | halt | clearHalt => cases h

/-- The guard, while the clock stands at the second `T`. -/
structure GuardAt (T M : Int) (t : Tables) (instant : Nat) : Prop where
  instant : seconds instant = T
  lower : M ≤ t.clockGuard.maxTs
  upper : t.clockGuard.maxTs ≤ max T M

theorem GuardAt.same {n : Nat} (h : GuardAt T M t n) (hts : t'.clockGuard.maxTs = t.clockGuard.maxTs) :
    GuardAt T M t' n :=
  ⟨h.instant, hts ▸ h.lower, hts ▸ h.upper⟩

/-- The guard does not pass the clock. -/
def guardRegime (x : Externals) (T M : Int) : Regime x where
  env _ c := seconds c.now = T
  Kept := GuardAt T M
  Broken := GuardAt T M
  Safe _ := True
  safe _ := trivial
  broken h := h
  later h hc := ⟨hc, h.lower, h.upper⟩
  laterBroken h hc := ⟨hc, h.lower, h.upper⟩
  plain h hp := h.same hp.maxTs
  tick h := ⟨h.instant, h.lower.trans (le_max_right _ _),
    max_le (h.instant.le.trans (le_max_left _ _)) h.upper⟩
  half _ _ _ := trivial
  fault _ _ h hc _ := ⟨hc, h.lower, h.upper⟩
  audit _ _ h := ⟨h.instant, h.lower, h.upper⟩
  place _ h _ hc := h.same hc.maxTs

/-- After gas-only traffic the rows that move tokens are the same, and the guard has not passed the
clock. -/
theorem Ran.gasOnly (h : Ran x (GasOnlyAt x T) .running w status w') (hclosed : w.db.working = none)
    (hT : seconds w.clock = T) :
    w'.db.working = none ∧ SameDebits w.tables w'.tables ∧
      GuardAt T w.tables.clockGuard.maxTs w'.tables w'.clock := by
  induction h with
  | start => exact ⟨hclosed, rfl, hT, le_rfl, le_max_right _ _⟩
  | @operation w' op script h hok ih =>
    obtain ⟨hclosed', hsame, hguard⟩ := ih
    obtain ⟨hgas, hsecond, hdone⟩ := hok
    have hadmits : (op.code x).Admits
        (fun w c => (guardRegime x T w.tables.clockGuard.maxTs).env w.clock c) script w' :=
      ((admits_true _ script w').and_of_forall hsecond).mono fun _ _ h => h.2
    have hrunning : Status.after (op.run x script w').1 = .running := by
      cases ho : (op.run x script w').1 with
      | stopped => exact absurd ho hdone
      | returned _ | raised _ => rfl
    have hleaves := (op.leaves (g := guardRegime x T w.tables.clockGuard.maxTs) hadmits
      ⟨hclosed', hguard⟩).2 hrunning
    exact ⟨hleaves.1, (op.debits hgas hclosed' script).trans hsame, hleaves.2⟩
  | reopen h ih => exact ⟨rfl, ih.2⟩

/-- The clock stands too far behind the guard after the traffic exactly when it did before. -/
theorem GuardAt.behind_iff {n : Nat} (h : GuardAt T t.clockGuard.maxTs t' n) :
    Behind T t'.clockGuard ↔ Behind T t.clockGuard := by
  have hlower := h.lower
  have hupper := h.upper
  unfold Behind clockToleranceS
  omega

/-! ### What the two ledgers admit -/

theorem sumInts_zeros {terms : List Int} : sumInts (terms.filter (· ≠ 0)) = sumInts terms := by
  unfold sumInts
  have hgo : ∀ total : Int, inInt64 total = true →
      (terms.filter (· ≠ 0)).foldlM (fun total n =>
        if inInt64 (total + n) then (.ok (total + n) : Except Exn Int)
        else .error (.sqlite "OperationalError")) total =
      terms.foldlM (fun total n =>
        if inInt64 (total + n) then .ok (total + n)
        else .error (.sqlite "OperationalError")) total := by
    induction terms with
    | nil => exact fun _ _ => rfl
    | cons n terms ih =>
      intro total htotal
      by_cases hn : n = 0
      · subst hn
        rw [List.filter_cons_of_neg (by simp), List.foldlM_cons, ih total htotal, Int.add_zero,
          if_pos htotal]
        rfl
      · rw [List.filter_cons_of_pos (by simp [hn]), List.foldlM_cons, List.foldlM_cons]
        split
        · rename_i hfits
          exact ih _ hfits
        · rfl
  exact hgo 0 (by decide)

/-- A total of units is a total over the rows that move tokens. -/
theorem sumInts_debits (q : SpendRow → Bool) (chainId since : Int) (escrow : String) :
    sumInts (((t.countedRows chainId escrow since).filter q).map (·.amountUnits)) =
      sumInts (((countedSince chainId escrow since (debits t.spend.rows)).filter q).map
        (·.amountUnits)) := by
  rw [← sumInts_zeros]
  refine congrArg sumInts ?_
  unfold Tables.countedRows countedSince debits
  rw [List.filter_map, List.filter_filter, List.filter_filter, List.filter_filter,
    List.filter_filter]
  refine congrArg _ (List.filter_congr fun r _ => ?_)
  simp only [Function.comp_apply]
  ac_rfl

theorem unitChecks_congr (cuts : Cuts) (h : SameDebits t t') :
    unitChecks caps a cuts t' = unitChecks caps a cuts t := by
  unfold unitChecks Tables.windowUnits Tables.channelUnits
  simp only [sumInts_debits]
  rw [show debits t'.spend.rows = debits t.spend.rows from h]

/-- The debit is refused before a limit is compared: its amount is not positive, the clock stands
behind, or a total of units overflows. -/
def RefusedFirst (caps : Caps) (a : Request) (T : Int) (t : Tables) : Prop :=
  a.amountUnits ≤ 0 ∨ Behind T t.clockGuard ∨ ∀ units, unitChecks caps a (Cuts.at T) t ≠ .ok units

/-- The fees of the day can be totalled. -/
def FeesKnown (x : Externals) (a : Request) (T : Int) (t : Tables) : Prop :=
  ∃ fees, t.feeWeiWindow x a.chainId a.escrow (Cuts.at T).day = .ok fees

/-- A cap that is counted in units has no room. -/
def UnitsLack (caps : Caps) (a : Request) (T : Int) (t : Tables) : Prop :=
  ∃ units, unitChecks caps a (Cuts.at T) t = .ok units ∧ lacking units ≠ none

/-- The first cap on transactions or channels that has no room. -/
def firstCount (caps : Caps) (a : Request) (T : Int) (t : Tables) : Option String :=
  lacking (countChecks caps a (Cuts.at T) t ++ channelChecks caps a (Cuts.at T) t)

/-- No cap is without room, as far as the fees are known. -/
def NothingLacks (x : Externals) (caps : Caps) (a : Request) (T : Int) (t : Tables) : Prop :=
  FeesKnown x a T t → ¬ UnitsLack caps a T t ∧ firstCount caps a T t = none

/-- The rows that move no tokens make no difference to the caps on transactions and channels: these
are not reached, or the first of them without room is the same. -/
def Undisturbed (x : Externals) (caps : Caps) (a : Request) (T : Int) (t t' : Tables) : Prop :=
  RefusedFirst caps a T t ∨
    (FeesKnown x a T t ∧ FeesKnown x a T t' ∧
      (UnitsLack caps a T t ∨ firstCount caps a T t' = firstCount caps a T t)) ∨
    (¬ (FeesKnown x a T t ∧ FeesKnown x a T t') ∧
      NothingLacks x caps a T t ∧ NothingLacks x caps a T t')

theorem lacking_append (checks checks' : List Check) :
    lacking (checks ++ checks') = (lacking checks).or (lacking checks') := by
  unfold lacking
  rw [List.find?_append]
  cases checks.find? fun c => !c.passes <;> rfl

theorem checksVerdict_error_iff {checks : List Check} {name : String} :
    checksVerdict checks = .error (capBreach name) ↔ lacking checks = some name := by
  unfold checksVerdict
  cases lacking checks with
  | none => exact ⟨fun h => (by cases h), fun h => (by cases h)⟩
  | some name' =>
    refine ⟨fun h => ?_, fun h => ?_⟩
    · cases h
      rfl
    · cases h
      rfl

theorem unitChecks_error {cuts : Cuts} {e : Exn} (h : unitChecks caps a cuts t = .error e) :
    NoBreach e := by
  rcases bind_error_iff.mp h with h | ⟨_, -, h⟩
  · exact (sumInts_error h).noBreach
  rcases bind_error_iff.mp h with h | ⟨_, -, h⟩
  · exact (sumInts_error h).noBreach
  rcases bind_error_iff.mp h with h | ⟨_, -, h⟩
  · exact (sumInts_error h).noBreach
  rcases bind_error_iff.mp h with h | ⟨_, -, h⟩
  · exact (sumInts_error h).noBreach
  · cases h

/-- Which cap a debit breaches, where there is no cap on fees. -/
theorem admission_breaches_iff (hfee : caps.feeWei24h = -1) {name : String} :
    admission x caps a T t = .error (capBreach name) ↔
      ¬ RefusedFirst caps a T t ∧ FeesKnown x a T t ∧
        ∃ units, unitChecks caps a (Cuts.at T) t = .ok units ∧
          (lacking units).or (firstCount caps a T t) = some name := by
  unfold admission RefusedFirst FeesKnown firstCount
  dsimp only
  by_cases hamount : a.amountUnits ≤ 0
  · rw [if_pos hamount]
    exact ⟨fun h => (by cases h), fun h => absurd (.inl hamount) h.1⟩
  rw [if_neg hamount]
  by_cases hbehind : Behind T t.clockGuard
  · rw [show clockVerdict T t.clockGuard = _ from if_pos hbehind]
    exact ⟨fun h => (by cases h), fun h => absurd (.inr (.inl hbehind)) h.1⟩
  rw [show clockVerdict T t.clockGuard = _ from if_neg hbehind]
  cases hunits : unitChecks caps a (Cuts.at T) t with
  | error e =>
    refine ⟨fun h => ?_, fun h => absurd (.inr (.inr fun units hu => by cases hu)) h.1⟩
    cases h
    exact absurd rfl (unitChecks_error hunits name 60)
  | ok units =>
    cases hfees : t.feeWeiWindow x a.chainId a.escrow (Cuts.at T).day with
    | error e =>
      constructor
      · intro h
        cases h
        exact absurd rfl ((feeWeiWindow_error hfees).noBreach name 60)
      · rintro ⟨-, ⟨fees, hf⟩, -⟩
        cases hf
    | ok fees =>
      have hfeeCheck : lacking [feeCheck caps a fees] = none := by
        simp [lacking, feeCheck, Check.passes, hfee]
      have hverdict : (checksVerdict (units ++ countChecks caps a (Cuts.at T) t ++
          [feeCheck caps a fees]) >>= fun _ => checksVerdict (channelChecks caps a (Cuts.at T) t)) =
            .error (capBreach name) ↔
          (lacking units).or (lacking (countChecks caps a (Cuts.at T) t ++
            channelChecks caps a (Cuts.at T) t)) = some name := by
        rw [bind_error_iff, checksVerdict_error_iff, checksVerdict_error_iff, lacking_append,
          lacking_append, lacking_append, hfeeCheck, Option.or_none, ← Option.or_assoc]
        unfold checksVerdict
        rw [lacking_append, lacking_append, hfeeCheck, Option.or_none]
        cases (lacking units).or (lacking (countChecks caps a (Cuts.at T) t)) with
        | none => simp
        | some name' => simp
      refine Iff.trans ?_ (Iff.trans hverdict ⟨fun h => ⟨?_, ⟨fees, rfl⟩, units, rfl, h⟩, ?_⟩)
      · show (checksVerdict _ >>= fun _ => checksVerdict _ >>= fun _ =>
          reviveVerdict (t.get a.key) "receipt" >>= fun revive => .ok (Cuts.at T, revive)) = _ ↔ _
        refine bind_error_iff.trans (Iff.trans (or_congr_right (exists_congr fun _ =>
          and_congr_right fun _ => ?_)) bind_error_iff.symm)
        refine ⟨fun h => ?_, fun h => bind_error_iff.mpr (.inl h)⟩
        rcases bind_error_iff.mp h with h | ⟨_, -, h⟩
        · exact h
        · rcases bind_error_iff.mp h with h | ⟨_, -, h⟩
          · unfold reviveVerdict at h
            split at h
            · cases h
            · split at h <;> cases h
          · cases h
      · rintro (h | h | h)
        · exact hamount h
        · exact hbehind h
        · exact h units rfl
      · rintro ⟨-, -, units', hu, h⟩
        cases hu
        exact h

theorem refusedFirst_congr (hsame : SameDebits t t')
    (hbehind : Behind T t'.clockGuard ↔ Behind T t.clockGuard) :
    RefusedFirst caps a T t' ↔ RefusedFirst caps a T t := by
  unfold RefusedFirst
  rw [unitChecks_congr _ hsame, hbehind]

/-- Two ledgers with the same rows that move tokens name the same cap exactly when the other rows
make no difference to the caps that count them. -/
theorem admission_undisturbed_iff (hfee : caps.feeWei24h = -1) (hsame : SameDebits t t')
    (hbehind : Behind T t'.clockGuard ↔ Behind T t.clockGuard) :
    (∀ name, admission x caps a T t' = .error (capBreach name) ↔
      admission x caps a T t = .error (capBreach name)) ↔ Undisturbed x caps a T t t' := by
  simp only [admission_breaches_iff hfee, refusedFirst_congr hsame hbehind,
    unitChecks_congr _ hsame]
  unfold Undisturbed NothingLacks UnitsLack
  simp only [unitChecks_congr _ hsame]
  by_cases hfirst : RefusedFirst caps a T t
  · exact ⟨fun _ => .inl hfirst, fun _ name => ⟨fun h => absurd hfirst h.1, fun h => absurd hfirst h.1⟩⟩
  cases hunits : unitChecks caps a (Cuts.at T) t with
  | error e => exact absurd (.inr (.inr fun units hu => by rw [hunits] at hu; cases hu)) hfirst
  | ok units =>
    have hpick : ∀ {p : List Check → Prop}, (∃ us, (.ok units : Except Exn (List Check)) = .ok us ∧ p us) ↔
        p units := fun {p} => ⟨fun ⟨us, hus, hp⟩ => by cases hus; exact hp, fun hp => ⟨units, rfl, hp⟩⟩
    simp only [hpick, hfirst, not_false_eq_true, true_and, false_or]
    by_cases hf : FeesKnown x a T t <;> by_cases hf' : FeesKnown x a T t' <;>
      cases lacking units <;> cases firstCount caps a T t <;> cases firstCount caps a T t' <;>
      simp_all [eq_comm]

/-- Any gas-only traffic at one second of the clock leaves the cap that a debit breaches, and whether
it breaches one, exactly when the rows of that traffic make no difference to the caps on transactions
and channels. -/
theorem gas_only_apart (hfee : caps.feeWei24h = -1) (hclosed : w.db.working = none)
    (hran : Ran x (GasOnlyAt x (seconds w.clock)) .running w .running w')
    {script script' : List Choice} (hcalm : ∀ c ∈ script, Calm (seconds w.clock) w c)
    (hcalm' : ∀ c ∈ script', Calm (seconds w.clock) w' c)
    (hdone : ((reserve x caps a).run script w).1 ≠ .stopped)
    (hdone' : ((reserve x caps a).run script' w').1 ≠ .stopped) :
    (∀ name, ((reserve x caps a).run script' w').1 = .raised (capBreach name) ↔
      ((reserve x caps a).run script w).1 = .raised (capBreach name)) ↔
      Undisturbed x caps a (seconds w.clock) w.tables w'.tables := by
  obtain ⟨hclosed', hsame, hguard⟩ := hran.gasOnly hclosed rfl
  rw [← admission_undisturbed_iff hfee hsame hguard.behind_iff]
  simp only [reserve_breaches_iff hclosed hcalm hdone, reserve_breaches_iff hclosed' hcalm' hdone']

/-- The collection of an expired channel. -/
def collection : GasOnlyRequest where
  chainId := Config.chainId
  escrow := Sample.escrow
  receiptId := "0x04"
  channelId := "0x05"
  calldataKeccak := "0x06"
  toAddr := Sample.escrow
  gasLimit := 100000
  maxFeeWei := 1
  fromAddr := Sample.address
  maxPer24h := -1

/-- A ledger after its reservation. -/
def collectedFrom (w : World) : World :=
  (Operation.run Sample.plain (.reserveGasOnly Sample.unlimited collection)
    (List.replicate 60 quiet) w).2

theorem collectedFrom_ran {w : World}
    (hdone : (Operation.run Sample.plain (.reserveGasOnly Sample.unlimited collection)
      (List.replicate 60 quiet) w).1 = .returned ()) :
    Ran Sample.plain (GasOnlyAt Sample.plain 0) .running w .running (collectedFrom w) := by
  have hran := (Ran.start : Ran Sample.plain (GasOnlyAt Sample.plain 0) .running w _ _).operation
    (.reserveGasOnly Sample.unlimited collection) (List.replicate 60 quiet)
    ⟨trivial, by decide, by rw [hdone]; exact fun h => by cases h⟩
  rw [hdone] at hran
  exact hran

/-- A ledger with a debit. -/
def debited : World :=
  (Operation.run Sample.plain (.reserve Sample.unlimited otherCent) (List.replicate 60 quiet)
    .initial).2

/-- Three transactions an hour. -/
def threePerHour : Caps := { Sample.unlimited with tx1h := 3 }

/-- One transaction an hour. -/
def onePerHour : Caps := { Sample.unlimited with tx1h := 1 }

/-- The collection makes no difference to whether a second debit breaches the limit of the hour. -/
def SameHour (caps : Caps) : Prop :=
  ((reserve Sample.plain caps cent).run (List.replicate 60 quiet) (collectedFrom debited)).1 =
      .raised (capBreach "cap_tx_1h") ↔
    ((reserve Sample.plain caps cent).run (List.replicate 60 quiet) debited).1 =
      .raised (capBreach "cap_tx_1h")

/-- So where three transactions an hour have room for the debit on both ledgers, and where one has room on
neither. -/
theorem gas_only_apart_hourly : SameHour threePerHour ∧ SameHour onePerHour := by
  suffices h : ∀ caps ∈ [threePerHour, onePerHour], SameHour caps by
    exact ⟨h _ List.mem_cons_self, h _ (.tail _ (.head _))⟩
  intro caps hcaps
  have hclosed : debited.db.working.isNone = true := by decide +kernel
  have hfees : (debited.tables.feeWeiWindow Sample.plain cent.chainId cent.escrow
      (Cuts.at 0).day).toOption = some 100000 := by decide +kernel
  have hfees' : ((collectedFrom debited).tables.feeWeiWindow Sample.plain cent.chainId cent.escrow
      (Cuts.at 0).day).toOption = some 200000 := by decide +kernel
  have hcounts : ∀ caps ∈ [threePerHour, onePerHour], caps.feeWei24h = -1 ∧
      firstCount caps cent 0 (collectedFrom debited).tables = firstCount caps cent 0 debited.tables ∧
        Status.after ((reserve Sample.plain caps cent).run (List.replicate 60 quiet)
          (collectedFrom debited)).1 = .running ∧
        Status.after ((reserve Sample.plain caps cent).run (List.replicate 60 quiet) debited).1 =
          .running := by decide +kernel
  obtain ⟨hfee, hcount, hdone', hdone⟩ := hcounts caps hcaps
  refine (gas_only_apart (a := cent) hfee (Option.isNone_iff_eq_none.mp hclosed)
    (collectedFrom_ran (by decide +kernel)) (fun c hc => ?_) (fun c hc => ?_) (fun hstop => ?_)
    (fun hstop => ?_)).mpr (.inr (.inl ⟨⟨100000, eq_ok_of_toOption hfees⟩,
      ⟨200000, eq_ok_of_toOption hfees'⟩, .inr hcount⟩)) _
  · rw [List.eq_of_mem_replicate hc]
    exact ⟨rfl, rfl⟩
  · rw [List.eq_of_mem_replicate hc]
    exact ⟨rfl, rfl⟩
  · rw [hstop] at hdone
    cases hdone
  · rw [hstop] at hdone'
    cases hdone'

/-- The ledger after the collection alone. -/
abbrev collected : World := collectedFrom .initial

/-- The collection of a channel takes the only transaction of the hour, and the debit is refused. -/
theorem gas_only_not_apart :
    ∃ w', Ran Sample.plain (GasOnlyAt Sample.plain 0) .running .initial .running w' ∧
      ((reserve Sample.plain onePerHour cent).run (List.replicate 60 quiet) w').1 =
        .raised (capBreach "cap_tx_1h") ∧
      ((reserve Sample.plain onePerHour cent).run (List.replicate 60 quiet) .initial).1 ≠
        .raised (capBreach "cap_tx_1h") :=
  ⟨collected, collectedFrom_ran (by decide +kernel), by decide +kernel, by decide +kernel⟩

end EscrowSigner.Integrity
