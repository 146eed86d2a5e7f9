import EscrowSigner.Integrity.Reservations
import EscrowSigner.Machine.Budget

/-! Another writer between the checks of a debit and its transaction.  The `INSERT` compares six of the
limits again and a revival none, so whether the others still hold rests on the room that the
transaction finds. -/

namespace EscrowSigner.Integrity

open Ledger Process
open Machine (sumInts_eq get_eq_some othersOf perm_mapRow)

variable {x : Externals} {caps : Caps} {a : Request} {w w' w₁ : World} {t t₀ : Tables} {R : Prop}
  {script rest : List Choice} {rows rows' : List SpendRow} {row : SpendRow} {cuts : Cuts}

/-! ### The other writer -/

/-- Another writer on the same database leaves the tables `t`. -/
def otherWriter (t : Tables) : Code Unit :=
  action fun _ w => ({ w with db := { w.db with committed := t } }, .ok ())

namespace Parts

variable {π γ α : Type} (p : Parts π γ α)

/-- A reservation while another writer leaves the tables `t` between its checks and its
transaction. -/
def raced (t : Tables) : Code α :=
  rollbackOnError do
    let a ← p.checks
    otherWriter t
    let c ← guardTransaction ((opening >>= p.body a) >>= fun _ => p.inner a)
    p.outer c

/-- The same reservation up to its `COMMIT`. -/
def racedToCommit (t : Tables) : Code Unit := do
  let a ← p.checks
  otherWriter t
  opening >>= p.body a

/-- What is left of a reservation when its checks have returned. -/
def resumed (plan : π) : Parts π γ α := { p with checks := return plan }

variable {p}

theorem Lawful.resumed (hp : p.Lawful x) (plan : π) : (p.resumed plan).Lawful x :=
  { hp with checks := fun h => .pure h }

/-- The world that the transaction finds. -/
def found (w : World) (c : Choice) (t : Tables) : World :=
  { w.advance c with db := { w.db with committed := t } }

theorem exec_raced {plan : π} {c : Choice}
    (hchecks : p.checks.exec script w = (.returned plan, w₁, c :: rest)) :
    (p.raced t).exec script w = (p.resumed plan).whole.exec rest (found w₁ c t) ∧
      (p.racedToCommit t).exec script w = (p.resumed plan).toCommit.exec rest (found w₁ c t) := by
  refine ⟨?_, ?_⟩
  · unfold raced whole
    rw [exec_rollbackOnError, exec_rollbackOnError, bind_eq, exec_bind, hchecks]
    rfl
  · unfold racedToCommit
    rw [bind_eq, exec_bind, hchecks]
    rfl

theorem exec_raced_nil {plan : π} (hchecks : p.checks.exec script w = (.returned plan, w₁, [])) :
    ((p.raced t).exec script w).1 = .stopped ∧ ((p.racedToCommit t).exec script w).1 = .stopped := by
  refine ⟨?_, ?_⟩
  · unfold raced
    rw [exec_rollbackOnError, bind_eq, exec_bind, hchecks]
    rfl
  · unfold racedToCommit
    rw [bind_eq, exec_bind, hchecks]
    rfl

end Parts

/-! ### The transaction -/

/-- The transaction reads the clock at its third step, and takes the later of that reading and the
guard. -/
theorem opening_returned {stamp : Int × Int} (hclosed : w.db.working = none)
    (h : opening.exec script w = (.returned stamp, w', rest)) :
    ∃ c₀ c₁ c₂ c₃, script = c₀ :: c₁ :: c₂ :: c₃ :: rest ∧
      stamp.2 = max (seconds c₂.now) w.tables.clockGuard.maxTs := by
  obtain ⟨_, w₁, r₁, hbegin, htick⟩ := exec_bind_returned.mp h
  obtain ⟨row, w₂, r₂, hrow, hrest⟩ := exec_bind_returned.mp htick
  obtain ⟨wall, w₃, r₃, hnow, hrest'⟩ := exec_bind_returned.mp hrest
  obtain ⟨_, w₅, r₅, hsane, hlast⟩ := exec_bind_returned.mp hrest'
  obtain ⟨_, w₆, r₆, hupdate, hstamp⟩ := exec_bind_returned.mp hlast
  obtain ⟨c₀, rfl, ebegin⟩ := exec_atomic_returned.mp hbegin
  obtain ⟨c₁, rfl, erow⟩ := exec_atomic_returned.mp hrow
  obtain ⟨instant, w₄, r₄, hclock, hwall⟩ := exec_bind_returned.mp hnow
  obtain ⟨c₂, rfl, eclock⟩ := exec_atomic_returned.mp hclock
  obtain ⟨c₃, hr₅, eupdate⟩ := exec_atomic_returned.mp hupdate
  have hwall₂ : wall = seconds c₂.now ∧ r₃ = r₄ := by
    cases eclock
    cases hwall
    exact ⟨rfl, rfl⟩
  have hr₃ : r₅ = r₃ := by
    unfold refuseRegression at hsane
    split at hsane
    · obtain ⟨_, _, _, _, hraise⟩ := exec_bind_returned.mp hsane
      cases hraise
    · cases hsane
      rfl
  have hrow₂ : row.maxTs = w.tables.clockGuard.maxTs := by
    have hbegun : w₁.view = w.tables := by
      have hopen : (w.advance c₀).db.working = none := hclosed
      simp only [hopen] at ebegin
      split at ebegin
      · cases ebegin
      · rename_i h
        cases h
      · cases ebegin
        rfl
    have hview : (w₁.advance c₁).view = w.tables := hbegun
    unfold statement at erow
    split at erow
    · cases erow
    · rw [hview] at erow
      cases erow
      rfl
  obtain ⟨hwall₂, rfl⟩ := hwall₂
  have hends : stamp.2 = max wall row.maxTs ∧ r₆ = rest := by
    cases hstamp
    exact ⟨rfl, rfl⟩
  refine ⟨c₀, c₁, c₂, c₃, ?_, ?_⟩
  · rw [← hr₃, hr₅, hends.2]
  · rw [hends.1, hwall₂, hrow₂]

/-- What a reservation does to the rows: it puts a row in, which the `INSERT` admitted, or makes a
dead row reserved. -/
inductive Placed (x : Externals) (caps : Caps) (a : Request) (cuts : Cuts) (stamp : Int × Int)
    (t : Tables) : Bool → List SpendRow → Prop
  | insert (nonce : Int) (head : String) (hguard : debitGuard caps a cuts t = .ok true) :
    Placed x caps a cuts stamp t false (t.spend.rows ++ [a.row x stamp.1 stamp.2 nonce head])
  | revive {r : SpendRow} (nonce : Int) (hr : r ∈ t.spend.rows) (hkey : r.key = a.key)
      (hdead : r.state = .dead) :
    Placed x caps a cuts stamp t true (mapRow a.key (a.revived stamp.1 stamp.2 nonce) t.spend.rows)

theorem Draft.insertRow_placed (h : Draft t₀ (fun t => t.spend = t₀.spend) w) (ints : List Int)
    (guard : Tables → Except Exn Bool) (row : SpendRow)
    (hguard : ∀ t e, guard t = .error e → Ordinary R e) :
    (Ledger.insertRow ints guard row).Ends (Dropped R t₀)
      (fun inserted w' => Draft t₀ (fun t => inserted = true → t.spend.rows = t₀.spend.rows ++ [row] ∧
        ∃ t₁, t₁.spend = t₀.spend ∧ guard t₁ = .ok true) w') w := by
  refine h.sql (G := fun inserted t => inserted = true → t.spend.rows = t₀.spend.rows ++ [row] ∧
    ∃ t₁, t₁.spend = t₀.spend ∧ guard t₁ = .ok true) (fun t e ht he => ?_) fun t t' inserted ht hok => ?_
  · rcases bind_error_iff.mp he with he | ⟨_, -, he⟩
    · exact bindInts_error he
    · rcases bind_error_iff.mp he with he | ⟨_, -, he⟩
      · exact hguard t e he
      · split at he
        · rcases bind_error_iff.mp he with he | ⟨_, -, he⟩
          · exact setSpend_error he
          · cases he
        · cases he
  · obtain ⟨-, -, hok⟩ := bind_ok_iff.mp hok
    obtain ⟨passes, hpasses, hok⟩ := bind_ok_iff.mp hok
    split at hok
    · rename_i htrue
      obtain ⟨t'', ht'', heq⟩ := bind_ok_iff.mp hok
      cases heq
      obtain ⟨hrows, rfl⟩ := setSpend_eq ht''
      refine fun _ => ⟨?_, t, ht, htrue ▸ hpasses⟩
      show t.spend.rows ++ [row] = t₀.spend.rows ++ [row]
      rw [ht]
    · cases hok
      exact fun h => (by cases h)

theorem Draft.reviveRow_placed (h : Draft t₀ (fun t => t.spend = t₀.spend) w) (ints : List Int)
    (k : Key) (amountUnits : Int) (f : SpendRow → SpendRow) :
    (Ledger.reviveRow ints k amountUnits f).Ends (Dropped R t₀)
      (fun changed w' => Draft t₀ (fun t => changed = true → t.spend.rows = mapRow k f t₀.spend.rows ∧
        ∃ r ∈ t₀.spend.rows, r.key = k ∧ r.state = .dead) w') w := by
  refine h.sql (G := fun changed t => changed = true → t.spend.rows = mapRow k f t₀.spend.rows ∧
    ∃ r ∈ t₀.spend.rows, r.key = k ∧ r.state = .dead) (fun t e ht he => ?_)
    fun t t' changed ht hok => ?_
  · rcases bind_error_iff.mp he with he | ⟨_, -, he⟩
    · exact bindInts_error he
    · split at he
      · rcases bind_error_iff.mp he with he | ⟨_, -, he⟩
        · exact setSpend_error he
        · cases he
      · cases he
  · obtain ⟨-, -, hok⟩ := bind_ok_iff.mp hok
    split at hok
    · rename_i hany
      obtain ⟨t'', ht'', heq⟩ := bind_ok_iff.mp hok
      cases heq
      obtain ⟨hrows, rfl⟩ := setSpend_eq ht''
      obtain ⟨r, hr, hfound⟩ := List.any_eq_true.mp hany
      simp only [Bool.and_eq_true, decide_eq_true_eq] at hfound
      refine fun _ => ⟨?_, r, ht ▸ hr, hfound.1.1, hfound.1.2⟩
      show mapRow k f t.spend.rows = mapRow k f t₀.spend.rows
      rw [ht]
    · cases hok
      exact fun h => (by cases h)

theorem debitBody_placed {plan : Cuts × Bool} (stamp : Int × Int)
    (h : Draft t₀ (fun t => t.spend = t₀.spend) w) :
    ((debitParts x caps a).body plan stamp).Ends (Dropped True t₀)
      (fun _ w' => Placed x caps a plan.1 stamp t₀ plan.2 w'.tables.spend.rows) w := by
  obtain ⟨cuts, revive⟩ := plan
  refine (h.allocateAt_stamp (fun _ _ h => h) _ _ _).bind fun al w₁ h₁ => ?_
  obtain ⟨⟨hseq, hts⟩, h₁⟩ := h₁
  dsimp only
  cases revive with
  | true =>
    refine (h₁.reviveRow_placed _ _ _ _).bind fun changed w₂ h₂ => ?_
    cases changed with
    | true =>
      refine (h₂.takeNonce (fun _ _ h => h) _ _ _).bind fun _ _ h₃ =>
        h₃.commit.mono (fun _ _ h => h) fun _ w' h₄ => ?_
      obtain ⟨hrows, r, hr, hkey, hdead⟩ := h₄.2 rfl
      rw [hrows, hseq, hts]
      exact .revive al.accountNonce hr hkey hdead
    | false => exact h₂.giveUp (.ledgerUnavailable _)
  | false =>
    refine (h₁.insertRow_placed _ _ _ fun _ _ he => debitGuard_error he).bind fun inserted w₂ h₂ => ?_
    cases inserted with
    | true =>
      refine (h₂.takeNonce (fun _ _ h => h) _ _ _).bind fun _ _ h₃ =>
        (h₃.write (G := fun t => t.spend.rows = t₀.spend.rows ++
          [a.row x al.seq al.ts al.accountNonce al.head] ∧ ∃ t₁, t₁.spend = t₀.spend ∧
          debitGuard caps a cuts t₁ = .ok true) fun _ h => h rfl).bind fun _ _ h₄ =>
        h₄.commit.mono (fun _ _ h => h) fun _ w' h₅ => ?_
      obtain ⟨hrows, t₁, ht₁, hguard⟩ := h₅.2
      rw [hrows, hseq, hts]
      exact .insert al.accountNonce al.head ((debitGuard_congr ht₁).symm.trans hguard)
    | false => exact h₂.giveUp (.race trivial)

/-! ### Limits -/

/-- A limit on the weight of some of the rows. -/
structure Limit where
  cap : Int
  counts : SpendRow → Bool
  weight : SpendRow → Int

namespace Limit

variable (l : Limit)

def total (rows : List SpendRow) : Int := Window.load l.counts l.weight rows

/-- What a row weighs. -/
def adds (row : SpendRow) : Int := if l.counts row then l.weight row else 0

def Holds (rows : List SpendRow) : Prop := l.cap = -1 ∨ l.total rows ≤ l.cap

/-- There is room for one more row. -/
def Room (row : SpendRow) (rows : List SpendRow) : Prop :=
  l.cap = -1 ∨ l.total rows + l.adds row ≤ l.cap

instance (rows : List SpendRow) : Decidable (l.Holds rows) := inferInstanceAs (Decidable (_ ∨ _))

instance (row : SpendRow) (rows : List SpendRow) : Decidable (l.Room row rows) :=
  inferInstanceAs (Decidable (_ ∨ _))

end Limit

/-- Whether a row holds budget in a window of the request's chain and escrow. -/
def inWindow (a : Request) (since : Int) (r : SpendRow) : Bool :=
  r.chainId == a.chainId && r.escrow == a.escrow && since < r.ts && r.state.counted

def tokenLimit (a : Request) (cap since : Int) : Limit :=
  ⟨cap, fun r => r.token == a.token && inWindow a since r, (·.amountUnits)⟩

def countLimit (a : Request) (cap since : Int) : Limit := ⟨cap, inWindow a since, fun _ => 1⟩

def channelCountLimit (a : Request) (cap since : Int) : Limit :=
  ⟨cap, fun r => r.channelId == a.channelId && inWindow a since r, fun _ => 1⟩

def feeLimit (a : Request) (cap since : Int) : Limit := ⟨cap, inWindow a since, Tables.feeOf⟩

/-- The limits that the `INSERT` compares again. -/
def rechecked (caps : Caps) (a : Request) (cuts : Cuts) : List Limit :=
  [tokenLimit a caps.units24h cuts.day, tokenLimit a caps.units1h cuts.hour,
    tokenLimit a caps.units10m cuts.tenMinutes,
    ⟨caps.unitsChannel24h, fun r => r.channelId == a.channelId && inWindow a cuts.day r,
      (·.amountUnits)⟩,
    countLimit a caps.tx1h cuts.hour, countLimit a caps.tx24h cuts.day]

/-- The limits that only the checks compare, beside the one on channels. -/
def unchecked (caps : Caps) (a : Request) (cuts : Cuts) : List Limit :=
  [channelCountLimit a caps.txPerChannel24h cuts.day, feeLimit a caps.feeWei24h cuts.day]

/-- The number of channels with budget in a window. -/
def channels (a : Request) (since : Int) (rows : List SpendRow) : Int :=
  ((rows.filter (inWindow a since)).map (·.channelId)).dedup.length

/-- Every limit that `reserve` checks holds at its cut times. -/
structure Within (caps : Caps) (a : Request) (cuts : Cuts) (rows : List SpendRow) : Prop where
  limits : ∀ l ∈ rechecked caps a cuts ++ unchecked caps a cuts, l.Holds rows
  channels : caps.distinctChannels24h = -1 ∨
    channels a cuts.day rows ≤ caps.distinctChannels24h

/-- The limits that the transaction of a reservation does not compare have room for a row. -/
structure RoomLeft (caps : Caps) (a : Request) (cuts : Cuts) (revive : Bool) (row : SpendRow)
    (rows : List SpendRow) : Prop where
  limits : ∀ l ∈ if revive then rechecked caps a cuts ++ unchecked caps a cuts
    else unchecked caps a cuts, l.Room row rows
  channels : caps.distinctChannels24h = -1 ∨
    channels a cuts.day (row :: rows) ≤ caps.distinctChannels24h

/-! ### The rows with one more that counts -/

/-- The rows of a reservation are the old ones with one more that counts. -/
def Counts (row : SpendRow) (rows rows' : List SpendRow) : Prop :=
  ∀ p : SpendRow → Bool, (∀ r, p r = true → r.state.counted = true) →
    (rows'.filter p).Perm ((row :: rows).filter p)

theorem Counts.total {l : Limit} (h : Counts row rows rows')
    (hl : ∀ r, l.counts r = true → r.state.counted = true) :
    l.total rows' = l.total rows + l.adds row := by
  have hperm : l.total rows' = l.total (row :: rows) := ((h l.counts hl).map l.weight).sum_eq
  rw [hperm, Limit.total, Window.load_cons, Int.add_comm]
  rfl

theorem Counts.channels {since : Int} (h : Counts row rows rows') :
    channels a since rows' = channels a since (row :: rows) := by
  have hperm := (h (inWindow a since) fun r hr => (Bool.and_eq_true_iff.mp hr).2).map (·.channelId)
  exact congrArg Nat.cast hperm.dedup.length_eq

theorem counts_append : Counts row rows (rows ++ [row]) := fun p _ =>
  (List.perm_append_singleton row rows).filter p

theorem counts_mapRow {f : SpendRow → SpendRow} {r : SpendRow} (hk : (rows.map SpendRow.key).Nodup)
    (hr : r ∈ rows) (hdead : r.state = .dead) : Counts (f r) rows (mapRow r.key f rows) := by
  intro p hp
  refine ((perm_mapRow hk hr).filter p).trans ?_
  rw [List.filter_cons, List.filter_cons]
  have hothers : (othersOf r.key rows).filter p = rows.filter p := by
    unfold othersOf
    rw [List.filter_filter]
    refine List.filter_congr fun r' hr' => ?_
    cases hpr : p r' with
    | false => rfl
    | true =>
      -- the dead row does not count, so a row that does has another key
      have hne : r'.key ≠ r.key := fun heq => by
        rw [List.inj_on_of_nodup_map hk hr' hr heq] at hpr
        have hcounted := hp r hpr
        rw [hdead] at hcounted
        cases hcounted
      simp [hne]
  rw [hothers]

/-! ### What the `INSERT` admits -/

theorem conjunction_ok {clauses : List (Except Exn Bool)} (h : conjunction clauses = .ok true) :
    ∀ c ∈ clauses, c = .ok true := by
  induction clauses with
  | nil => exact fun c hc => absurd hc List.not_mem_nil
  | cons c clauses ih =>
    obtain ⟨b, hb, h⟩ := bind_ok_iff.mp h
    cases b with
    | true => exact List.forall_mem_cons.mpr ⟨hb, ih h⟩
    | false => cases h

theorem clause_ok {cap adding : Int} {existing : Except Exn Int}
    (h : clause cap existing adding = .ok true) :
    cap = -1 ∨ ∃ n, existing = .ok n ∧ n + adding ≤ cap := by
  unfold clause at h
  split at h
  · exact .inl ‹_›
  · obtain ⟨n, hn, h⟩ := bind_ok_iff.mp h
    exact .inr ⟨n, hn, of_decide_eq_true (Except.ok.inj h)⟩

/-- A clause that holds leaves room for what it adds. -/
theorem room_of_clause {l : Limit} {existing : Except Exn Int} {adding : Int}
    (h : clause l.cap existing adding = .ok true)
    (htotal : ∀ n, existing = .ok n → n = l.total rows) (hadds : l.adds row ≤ adding) :
    l.Room row rows := by
  rcases clause_ok h with hoff | ⟨n, hn, hle⟩
  · exact .inl hoff
  · have heq := htotal n hn
    exact .inr (by omega)

theorem adds_le {p : SpendRow → Bool} {weight : SpendRow → Int} {cap : Int}
    (hw : 0 ≤ weight row) : (Limit.mk cap p weight).adds row ≤ weight row := by
  unfold Limit.adds
  split
  · exact le_rfl
  · exact hw

theorem total_units {cap since n : Int} {q : SpendRow → Bool}
    (h : sumInts (((t.countedRows a.chainId a.escrow since).filter q).map (·.amountUnits)) = .ok n) :
    n = (Limit.mk cap (fun r => q r && inWindow a since r) (·.amountUnits)).total t.spend.rows := by
  rw [sumInts_eq h, Tables.countedRows, countedSince, List.filter_filter]
  rfl

theorem total_count {cap since : Int} :
    t.windowCount a.chainId a.escrow since = (countLimit a cap since).total t.spend.rows := by
  show ((t.countedRows a.chainId a.escrow since).length : Int) =
    (((t.countedRows a.chainId a.escrow since).map fun _ => (1 : Int)).sum)
  rw [List.map_const', List.sum_replicate, nsmul_one]

/-- A row that the `INSERT` admits has room under the limits that it compares. -/
theorem rechecked_room (h : debitGuard caps a cuts t = .ok true) (hamount : row.amountUnits = a.amountUnits)
    (hpos : 0 ≤ a.amountUnits) : ∀ l ∈ rechecked caps a cuts, l.Room row t.spend.rows := by
  have hclauses := conjunction_ok h
  simp only [List.forall_mem_cons] at hclauses
  obtain ⟨h24h, h1h, h10m, hchannel, htx1h, htx24h, -⟩ := hclauses
  have hadds : ∀ {p : SpendRow → Bool} {cap : Int},
      (Limit.mk cap p (·.amountUnits)).adds row ≤ a.amountUnits := by
    intro p cap
    rw [← hamount]
    exact adds_le (hamount ▸ hpos)
  simp only [rechecked, List.forall_mem_cons]
  refine ⟨room_of_clause h24h (fun n hn => total_units hn) hadds,
    room_of_clause h1h (fun n hn => total_units hn) hadds,
    room_of_clause h10m (fun n hn => total_units hn) hadds,
    room_of_clause hchannel (fun n hn => total_units hn) hadds,
    room_of_clause htx1h (fun n hn => ?_) (adds_le zero_le_one),
    room_of_clause htx24h (fun n hn => ?_) (adds_le zero_le_one), fun l hl => absurd hl List.not_mem_nil⟩
  · rw [← Except.ok.inj hn]
    exact total_count
  · rw [← Except.ok.inj hn]
    exact total_count

theorem counted_of_limit {l : Limit} (h : l ∈ rechecked caps a cuts ++ unchecked caps a cuts)
    (r : SpendRow) (hr : l.counts r = true) : r.state.counted = true := by
  have hwindow : ∀ {since}, inWindow a since r = true → r.state.counted = true := fun h =>
    (Bool.and_eq_true_iff.mp h).2
  simp only [rechecked, unchecked, List.cons_append, List.nil_append, List.mem_cons,
    List.not_mem_nil, or_false] at h
  rcases h with rfl | rfl | rfl | rfl | rfl | rfl | rfl | rfl
  · exact hwindow (Bool.and_eq_true_iff.mp hr).2
  · exact hwindow (Bool.and_eq_true_iff.mp hr).2
  · exact hwindow (Bool.and_eq_true_iff.mp hr).2
  · exact hwindow (Bool.and_eq_true_iff.mp hr).2
  · exact hwindow hr
  · exact hwindow hr
  · exact hwindow (Bool.and_eq_true_iff.mp hr).2
  · exact hwindow hr

/-- After a reservation the limits hold exactly when those that were not compared had room. -/
theorem Counts.within_iff {revive : Bool} (h : Counts row rows rows')
    (hroom : revive = false → ∀ l ∈ rechecked caps a cuts, l.Room row rows) :
    Within caps a cuts rows' ↔ RoomLeft caps a cuts revive row rows := by
  have hholds : ∀ l ∈ rechecked caps a cuts ++ unchecked caps a cuts,
      (l.Holds rows' ↔ l.Room row rows) := fun l hl => by
    unfold Limit.Holds Limit.Room
    rw [h.total fun r hr => counted_of_limit hl r hr]
  refine ⟨fun hw => ⟨fun l hl => ?_, ?_⟩, fun hr => ⟨fun l hl => ?_, ?_⟩⟩
  · have hmem : l ∈ rechecked caps a cuts ++ unchecked caps a cuts := by
      split at hl
      · exact hl
      · exact List.mem_append_right _ hl
    exact (hholds l hmem).mp (hw.limits l hmem)
  · rw [← h.channels]
    exact hw.channels
  · refine (hholds l hl).mpr ?_
    cases revive with
    | true => exact hr.limits l hl
    | false =>
      rcases List.mem_append.mp hl with hl | hl
      · exact hroom rfl l hl
      · exact hr.limits l hl
  · rw [h.channels]
    exact hr.channels

/-! ### A debit against another writer -/

/-- The row that a reservation books at a time.  Its `seq`, nonce and hashes, which no limit looks at,
are left blank. -/
def bookedRow (x : Externals) (a : Request) (revive : Bool) (ts : Int) (t : Tables) : SpendRow :=
  match revive, t.get a.key with
  | true, some r => a.revived 0 0 0 r
  | _, _ => a.row x 0 ts 0 genesis

/-- The time at which a fresh row is booked, on the choices that the checks left: one for the other
writer, and three up to the reading of the clock. -/
def bookedAt (rest : List Choice) (t : Tables) : Int :=
  match rest with
  | _ :: _ :: _ :: c :: _ => max (seconds c.now) t.clockGuard.maxTs
  | _ => t.clockGuard.maxTs

theorem roomLeft_congr {row' : SpendRow} {revive : Bool}
    (hadds : ∀ l ∈ rechecked caps a cuts ++ unchecked caps a cuts, l.adds row' = l.adds row)
    (hchannels : channels a cuts.day (row' :: rows) = channels a cuts.day (row :: rows)) :
    RoomLeft caps a cuts revive row' rows ↔ RoomLeft caps a cuts revive row rows := by
  have hroom : ∀ l ∈ rechecked caps a cuts ++ unchecked caps a cuts,
      (l.Room row' rows ↔ l.Room row rows) := fun l hl => by
    unfold Limit.Room
    rw [hadds l hl]
  have hmem : ∀ l, (l ∈ if revive then rechecked caps a cuts ++ unchecked caps a cuts
      else unchecked caps a cuts) → l ∈ rechecked caps a cuts ++ unchecked caps a cuts := by
    intro l hl
    split at hl
    · exact hl
    · exact List.mem_append_right _ hl
  exact ⟨fun h => ⟨fun l hl => (hroom l (hmem l hl)).mp (h.limits l hl), hchannels ▸ h.channels⟩,
    fun h => ⟨fun l hl => (hroom l (hmem l hl)).mpr (h.limits l hl), hchannels.symm ▸ h.channels⟩⟩

theorem channels_congr {since : Int} {row' : SpendRow}
    (hwindow : inWindow a since row' = inWindow a since row) (hchannel : row'.channelId = row.channelId) :
    channels a since (row' :: rows) = channels a since (row :: rows) := by
  unfold channels
  rw [List.filter_cons, List.filter_cons, hwindow]
  split
  · rw [List.map_cons, List.map_cons, hchannel]
  · rfl

theorem Placed.within_iff {stamp : Int × Int} {revive : Bool} (hpos : 0 ≤ a.amountUnits)
    (h : Placed x caps a cuts stamp t revive rows') :
    Within caps a cuts rows' ↔
      RoomLeft caps a cuts revive (bookedRow x a revive stamp.2 t) t.spend.rows := by
  cases h with
  | insert nonce head hguard =>
    have hrow : bookedRow x a false stamp.2 t = a.row x 0 stamp.2 0 genesis := rfl
    rw [hrow]
    refine (counts_append.within_iff fun _ => rechecked_room hguard rfl hpos).trans
      (roomLeft_congr (fun l hl => ?_) (channels_congr rfl rfl))
    simp only [rechecked, unchecked, List.cons_append, List.nil_append, List.mem_cons,
      List.not_mem_nil, or_false] at hl
    rcases hl with rfl | rfl | rfl | rfl | rfl | rfl | rfl | rfl <;> rfl
  | @revive r nonce hr hkey hdead =>
    have hrow : bookedRow x a true stamp.2 t = a.revived 0 0 0 r := by
      unfold bookedRow
      rw [← hkey, get_eq_some hr]
    rw [hrow, ← hkey]
    refine ((counts_mapRow t.spend.constraints.1 hr hdead).within_iff fun h => by cases h).trans
      (roomLeft_congr (fun l hl => ?_) (channels_congr rfl rfl))
    simp only [rechecked, unchecked, List.cons_append, List.nil_append, List.mem_cons,
      List.not_mem_nil, or_false] at hl
    rcases hl with rfl | rfl | rfl | rfl | rfl | rfl | rfl | rfl <;> rfl

theorem debitChecks_pos {plan : Cuts × Bool}
    (h : (debitChecks x caps a).exec script w = (.returned plan, w₁, rest)) : 0 ≤ a.amountUnits := by
  unfold debitChecks at h
  split at h
  · cases h
  · omega

/-- `reserve`, while another writer leaves the tables `t` between its checks and its
transaction. -/
abbrev racedDebit (x : Externals) (caps : Caps) (a : Request) (t : Tables) : Code SpendRow :=
  (debitParts x caps a).raced t

/-- The same up to and including its `COMMIT`. -/
abbrev racedDebitToCommit (x : Externals) (caps : Caps) (a : Request) (t : Tables) : Code Unit :=
  (debitParts x caps a).racedToCommit t

/-- Whatever another writer commits between the checks of a debit and its transaction: if the debit is
committed, every limit holds for the committed rows exactly when those that the transaction does not
compare had room; otherwise it raises and leaves what the other writer left. -/
theorem race_kept {revive : Bool} (hclosed : w.db.working = none) (t : Tables)
    (hchecks : (debitChecks x caps a).exec script w = (.returned (cuts, revive), w₁, rest)) :
    (((racedDebitToCommit x caps a t).run script w).1 = .returned () →
      (Within caps a cuts ((racedDebitToCommit x caps a t).run script w).2.tables.spend.rows ↔
        RoomLeft caps a cuts revive (bookedRow x a revive (bookedAt rest t) t) t.spend.rows)) ∧
    (((racedDebit x caps a t).run script w).1 ≠ .stopped →
      ((racedDebitToCommit x caps a t).run script w).1 ≠ .returned () →
        (∃ e, ((racedDebit x caps a t).run script w).1 = .raised e) ∧
          Untouched t ((racedDebit x caps a t).run script w).2.tables) := by
  have hidle : Idle (fun _ => True) w := ⟨hclosed, trivial⟩
  have hclosed₁ : w₁.db.working = none := (hidle.debitChecks.returned hchecks).closed
  rw [run_eq_exec, run_eq_exec]
  cases rest with
  | nil =>
    obtain ⟨hstop, hstop'⟩ := Parts.exec_raced_nil (p := debitParts x caps a) (t := t) hchecks
    exact ⟨fun h => absurd (hstop'.symm.trans h) (by simp), fun hends => absurd hstop hends⟩
  | cons c rest =>
    obtain ⟨hraced, hcommit⟩ := Parts.exec_raced (p := debitParts x caps a) (t := t) hchecks
    have hfound : (Parts.found w₁ c t).db.working = none := hclosed₁
    rw [hraced, hcommit]
    refine ⟨fun hreturned => ?_, fun hends hnot => ?_⟩
    · have hexec : (opening >>= (debitParts x caps a).body (cuts, revive)).exec rest
          (Parts.found w₁ c t) = (.returned (),
            (((debitParts x caps a).resumed (cuts, revive)).toCommit.exec rest
              (Parts.found w₁ c t)).2) := Prod.ext hreturned rfl
      obtain ⟨stamp, w₂, r₂, hopening, hbody⟩ := exec_bind_returned.mp hexec
      obtain ⟨c₀, c₁, c₂, c₃, rfl, hts⟩ := opening_returned hfound hopening
      have hdraft := (Idle.opening (K := fun _ => True) ⟨hfound, trivial⟩).returned hopening
      have hplaced := (debitBody_placed stamp hdraft).returned hbody
      have hiff := hplaced.within_iff (debitChecks_pos hchecks)
      rw [hts] at hiff
      exact hiff
    · cases hexec : ((debitParts x caps a).resumed (cuts, revive)).whole.exec rest
          (Parts.found w₁ c t) with
      | mk o r =>
        rw [hexec] at hends
        cases o with
        | stopped => exact absurd rfl hends
        | returned row => exact absurd (Parts.committed_of_returned hexec) hnot
        | raised e =>
          refine ⟨⟨e, rfl⟩, ?_⟩
          refine (((lawful_debit x caps a).resumed (cuts, revive)).atomic hfound hexec).2.mpr ?_
          rw [run_eq_exec]
          exact hnot

/-- What another writer leaves that reserves it. -/
def otherTables : Tables :=
  (Operation.run Sample.plain (.reserve Sample.unlimited otherCent) (List.replicate 60 quiet)
    .initial).2.tables

/-- The execution of a debit against that writer, up to its `COMMIT`. -/
def racedCent (caps : Caps) : Process.Outcome Exn Unit × World :=
  (racedDebitToCommit Sample.plain caps cent otherTables).run (List.replicate 60 quiet) .initial

/-- The same up to its end. -/
def racedCentWhole (caps : Caps) : Process.Outcome Exn SpendRow × World :=
  (racedDebit Sample.plain caps cent otherTables).run (List.replicate 60 quiet) .initial

/-- Room for two debits of one cent, and for no more. -/
def twoCents : Caps :=
  { Sample.unlimited with
    units1h := 20000
    unitsChannel24h := 20000
    tx24h := 2
    txPerChannel24h := 2
    distinctChannels24h := 1 }

/-- Room for one debit an hour. -/
def oneTxPerHour : Caps := { Sample.unlimited with tx1h := 1 }

/-- Where there is room for both debits, both are committed and every limit holds; where the `INSERT`
finds no room, the second one raises and leaves what the first one left. -/
theorem race_kept_cents :
    Within twoCents cent (Cuts.at 0) (racedCent twoCents).2.tables.spend.rows ∧
      (∃ e, (racedCentWhole oneTxPerHour).1 = .raised e) ∧
        Untouched otherTables (racedCentWhole oneTxPerHour).2.tables := by
  have hchecks : ∀ caps ∈ [twoCents, oneTxPerHour], ((debitChecks Sample.plain caps cent).exec
      (List.replicate 60 quiet) .initial).1 = .returned (Cuts.at 0, false) := by decide +kernel
  refine ⟨((race_kept rfl otherTables (Prod.ext (hchecks _ (by simp)) rfl)).1
      (by decide +kernel)).mpr ⟨by decide +kernel, .inr (by decide +kernel)⟩,
    (race_kept rfl otherTables (Prod.ext (hchecks _ (by simp)) rfl)).2 ?_ (by decide +kernel)⟩
  exact fun hstop => absurd (congrArg Status.after hstop) (by decide +kernel)

/-- One transaction a day on a channel. -/
def onePerChannel : Caps := { Sample.unlimited with txPerChannel24h := 1 }

/-- Two writers reserve a debit each on one channel, and both are committed. -/
theorem race_not_kept :
    Within onePerChannel cent (Cuts.at 0) World.initial.tables.spend.rows ∧
      (racedCent onePerChannel).1 = .returned () ∧
      ¬ Within onePerChannel cent (Cuts.at 0) (racedCent onePerChannel).2.tables.spend.rows := by
  refine ⟨⟨by decide, .inl rfl⟩, by decide +kernel, fun h => ?_⟩
  have hbreach : ∃ l ∈ rechecked onePerChannel cent (Cuts.at 0) ++
      unchecked onePerChannel cent (Cuts.at 0),
      ¬ l.Holds (racedCent onePerChannel).2.tables.spend.rows := by decide +kernel
  obtain ⟨l, hl, hbreach⟩ := hbreach
  exact hbreach (h.limits l hl)

end EscrowSigner.Integrity
