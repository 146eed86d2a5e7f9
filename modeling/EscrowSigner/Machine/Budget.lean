import EscrowSigner.Window
import EscrowSigner.History
import EscrowSigner.Machine.Refinement

/-! The velocity caps over runs: what the rows of the books were granted in any window stays within
the cap of the window, as long as no window loses sight of a row that was revived. -/

namespace EscrowSigner.Machine

open Policy

variable {i : Instance} {env : State → Choice → Prop} {ok : State → Call → List Choice → Prop}
  {sel : SpendRow → Bool} {width t cap : Int} {rows rows' : List SpendRow} {row : SpendRow}

/-! ### Grants in a window -/

/-- Whether a selected row holds budget and its latest reservation lies in the window that ends at
`t`. -/
def grantedIn (sel : SpendRow → Bool) (width t : Int) (r : SpendRow) : Bool :=
  (r.state.counted && sel r) && Window.within (·.reservedAt) width t r

/-- The units granted in a window to the selected rows. -/
def grantedUnits (sel : SpendRow → Bool) (width t : Int) (rows : List SpendRow) : Int :=
  totalUnits (rows.filter (grantedIn sel width t))

def everyRow (_ : SpendRow) : Bool := true

def ofChannel (channelId : String) (r : SpendRow) : Bool := r.channelId == channelId

/-- Every window keeps its cap, at every moment. -/
structure WindowsKept (caps : Caps) (rows : List SpendRow) : Prop where
  units : ∀ window ∈ unitWindows caps, window.2 ≠ -1 → ∀ t,
    grantedUnits everyRow window.1 t rows ≤ window.2
  channel : caps.unitsChannel24h ≠ -1 → ∀ channelId t,
    grantedUnits (ofChannel channelId) 86400 t rows ≤ caps.unitsChannel24h

/-! ### Rows out of sight -/

/-- A debit that is being handled. -/
def Debiting (i : Instance) (s : State) (call : Calldata.DebitCall) : Prop :=
  ∃ body env, request s.log = some (.handle body) ∧ parseEnvelope i body = .ok env ∧
    Calldata.decodeDebit i.ext env.data = .ok call

/-- A row that holds budget and lies in a window by its latest reservation, but not by the stamp of
its first one, which is what the reads of the caps compare. -/
def Missed (now width : Int) (r : SpendRow) : Prop :=
  r.state.counted = true ∧ r.ts ≤ now - width ∧ now - width < r.reservedAt

/-- While a debit is handled, no capped window misses a row of another receipt. -/
def InSight (i : Instance) (s : State) (c : Choice) : Prop :=
  ∀ call, Debiting i s call → ∀ r ∈ s.rows, r.receiptId ≠ hexString call.receiptId →
    (∀ window ∈ unitWindows i.settings.caps, window.2 ≠ -1 →
      ¬ Missed (seconds c.now) window.1 r) ∧
    (i.settings.caps.unitsChannel24h ≠ -1 → r.channelId = hexString call.channelId →
      ¬ Missed (seconds c.now) 86400 r)

/-! ### The invariant -/

/-- Every amount is one of the pinned token. -/
def Denominated (rows : List SpendRow) : Prop :=
  ∀ r ∈ rows, 0 ≤ r.amountUnits ∧ (r.amountUnits = 0 ∨ r.token = lower Config.token)

/-- What a change of a row keeps of it. -/
structure KeepsGrant (f : SpendRow → SpendRow) : Prop where
  amountUnits : ∀ r, (f r).amountUnits = r.amountUnits
  token : ∀ r, (f r).token = r.token
  channelId : ∀ r, (f r).channelId = r.channelId
  reservedAt : ∀ r, (f r).reservedAt = r.reservedAt

theorem Denominated.mapRow {k : Key} {f : SpendRow → SpendRow} (h : Denominated rows)
    (hf : KeepsGrant f) : Denominated (mapRow k f rows) := by
  intro r hr
  obtain ⟨r', hr', ⟨-, rfl⟩ | ⟨-, rfl⟩⟩ := mem_mapRow.mp hr
  · rw [hf.amountUnits, hf.token]
    exact h r' hr'
  · exact h _ hr'

/-- A change that brings no row back into the budget grants nothing. -/
theorem grantedUnits_mapRow {k : Key} {f : SpendRow → SpendRow} (hd : Denominated rows)
    (hf : KeepsGrant f) (hsel : ∀ r r', r.channelId = r'.channelId → sel r = sel r')
    (hback : ∀ r ∈ rows, r.key = k → (f r).state.counted = true → r.state.counted = true) :
    grantedUnits sel width t (mapRow k f rows) ≤ grantedUnits sel width t rows := by
  refine Window.load_map_le (fun r hr => (hd r hr).1) fun r hr hp => ?_
  split at hp
  · rename_i hk
    simp only [grantedIn, Window.within, Bool.and_eq_true, hf.reservedAt] at hp
    rw [if_pos hk]
    refine ⟨?_, hf.amountUnits r⟩
    simp only [grantedIn, Window.within, Bool.and_eq_true]
    exact ⟨⟨hback r hr hk hp.1.1, hsel _ _ (hf.channelId r) ▸ hp.1.2⟩, hp.2⟩
  · rename_i hk
    rw [if_neg hk]
    exact ⟨hp, rfl⟩

theorem WindowsKept.mapRow {caps : Caps} {k : Key} {f : SpendRow → SpendRow}
    (h : WindowsKept caps rows) (hd : Denominated rows) (hf : KeepsGrant f)
    (hback : ∀ r ∈ rows, r.key = k → (f r).state.counted = true → r.state.counted = true) :
    WindowsKept caps (mapRow k f rows) where
  units window hw hl t :=
    (grantedUnits_mapRow hd hf (fun _ _ _ => rfl) hback).trans (h.units window hw hl t)
  channel hl channelId t :=
    (grantedUnits_mapRow hd hf (fun _ _ hc => by rw [ofChannel, ofChannel, hc]) hback).trans
      (h.channel hl channelId t)

/-! ### A grant -/

section Grant

variable {p : Plan} {seq ts nonce cut : Int}

theorem Places.reservedAt_eq (h : Places i p seq ts nonce rows rows' row) :
    row.reservedAt = ts := by
  cases h with
  | fresh head hkey => rfl
  | revived r hr hkey hdead hamount hsame => cases p <;> rfl

theorem Places.amount_eq (h : Places i p seq ts nonce rows rows' row) :
    row.amountUnits = (p.request i).amountUnits := by
  cases h with
  | fresh head hkey => rfl
  | revived r hr hkey hdead hamount hsame => rw [revived_amountUnits, hamount]

theorem Places.channel_eq (h : Places i p seq ts nonce rows rows' row) (hdebit : p.isDebit = true) :
    row.channelId = (p.request i).channelId := by
  cases h with
  | fresh head hkey => rfl
  | revived r hr hkey hdead hamount hsame =>
    have hr : (p.revived i seq ts nonce r).channelId = r.channelId := by cases p <;> rfl
    rw [hr]
    exact congrArg (fun t => t.2.1) (hsame hdebit)

/-- The rows of the other requests. -/
def othersOf (k : Key) (rows : List SpendRow) : List SpendRow := rows.filter (·.key ≠ k)

theorem perm_mapRow {f : SpendRow → SpendRow} {r : SpendRow} (hk : (rows.map SpendRow.key).Nodup)
    (hr : r ∈ rows) : (mapRow r.key f rows).Perm (f r :: othersOf r.key rows) := by
  induction rows with
  | nil => cases hr
  | cons r' rows ih =>
    rw [List.map_cons, List.nodup_cons] at hk
    rcases List.mem_cons.mp hr with rfl | hr
    · have hne : ∀ r' ∈ rows, r'.key ≠ r.key := fun r' hr' heq =>
        hk.1 (heq ▸ List.mem_map_of_mem hr')
      have hmap : mapRow r.key f rows = rows := by
        refine (List.map_congr_left fun r' hr' => ?_).trans (List.map_id rows)
        exact if_neg (hne r' hr')
      have hother : othersOf r.key rows = rows :=
        List.filter_eq_self.mpr fun r' hr' => decide_eq_true (hne r' hr')
      simp only [mapRow, List.map_cons, if_true, othersOf, List.filter_cons] at hmap hother ⊢
      simp only [hmap, ne_eq, not_true, decide_false, Bool.false_eq_true, if_false] at hother ⊢
      rw [hother]
    · have hne : r'.key ≠ r.key := fun heq => hk.1 (heq ▸ List.mem_map_of_mem hr)
      have ih := ih hk.2 hr
      simp only [mapRow, List.map_cons, othersOf, List.filter_cons, hne, ne_eq,
        not_false_eq_true, decide_true, if_true] at ih ⊢
      exact (ih.cons r').trans (List.Perm.swap _ _ _)

theorem Places.perm (h : Places i p seq ts nonce rows rows' row)
    (hk : (rows.map SpendRow.key).Nodup) : rows'.Perm (row :: othersOf row.key rows) := by
  cases h with
  | fresh head hkey =>
    have : othersOf ((p.request i).row i.ext seq ts nonce head).key rows = rows :=
      List.filter_eq_self.mpr fun r hr => decide_eq_true (hkey r hr)
    rw [this]
    exact List.perm_append_singleton _ _
  | revived r hr hkey hdead hamount hsame =>
    rw [revived_key]
    exact perm_mapRow hk hr

/-- What a reservation reads of a window covers what was granted to others in it. -/
theorem granted_le_counted {k : Key} {chainId : Int} {escrow : String} {q : SpendRow → Bool}
    (hd : Denominated rows) (hcut : cut ≤ ts)
    (hown : ∀ r ∈ rows, r.chainId = chainId ∧ r.escrow = escrow)
    (hsight : ∀ r ∈ rows, r.key ≠ k → sel r = true → ¬ Missed cut width r)
    (hq : ∀ r ∈ rows, sel r = true → q r = true ∨ r.amountUnits = 0) :
    Window.load (fun r => (r.state.counted && sel r) && Window.since (·.reservedAt) (ts - width) r)
        (·.amountUnits) (othersOf k rows) ≤
      totalUnits ((countedSince chainId escrow (cut - width) rows).filter q) := by
  have hright : totalUnits ((countedSince chainId escrow (cut - width) rows).filter q) =
      Window.load (fun r => q r && (r.chainId == chainId && r.escrow == escrow &&
        cut - width < r.ts && r.state.counted)) (·.amountUnits) rows := by
    simp only [totalUnits, countedSince, Window.load, List.filter_filter]
  rw [hright, othersOf, Window.load_filter]
  refine Window.load_mono (fun r hr => (hd r hr).1) fun r hr hp => ?_
  simp only [Window.since, Bool.and_eq_true, decide_eq_true_eq] at hp
  obtain ⟨⟨⟨hcounted, hsel⟩, hsince⟩, hk⟩ := hp
  refine (hq r hr hsel).imp (fun hq => ?_) id
  have hts : cut - width < r.ts := by
    by_contra hold
    exact hsight r hr hk hsel ⟨hcounted, not_lt.mp hold, by omega⟩
  simp only [hq, hown r hr, hts, hcounted, beq_self_eq_true, decide_true, Bool.and_self]

/-- A grant that fits the windows in which it lies keeps the windows of a selection. -/
theorem Places.granted (h : Places i p seq ts nonce rows rows' row)
    (hk : (rows.map SpendRow.key).Nodup) (hd : Denominated rows)
    (hold : ∀ t, grantedUnits sel width t rows ≤ cap)
    (hfit : row.amountUnits = 0 ∨ sel row = false ∨
      Window.load (fun r => (r.state.counted && sel r) &&
        Window.since (·.reservedAt) (ts - width) r) (·.amountUnits) (othersOf row.key rows) +
          row.amountUnits ≤ cap) (t : Int) :
    grantedUnits sel width t rows' ≤ cap := by
  have hother : ∀ t, Window.load (grantedIn sel width t) (·.amountUnits) (othersOf row.key rows) ≤
      cap := fun t => (Window.load_filter_le (fun r hr => (hd r hr).1) _).trans (hold t)
  have hperm : grantedUnits sel width t rows' =
      Window.load (grantedIn sel width t) (·.amountUnits) (row :: othersOf row.key rows) :=
    Window.load_perm (h.perm hk)
  rw [hperm]
  rcases hfit with hzero | hsel | hfit
  · rw [Window.load_cons, hzero, ite_self, Int.zero_add]
    exact hother t
  · rw [Window.load_cons, if_neg (by simp [grantedIn, hsel]), Int.zero_add]
    exact hother t
  · refine Window.admits (fun r hr => (hd r (List.mem_of_mem_filter hr)).1) hother ?_ t
    rw [h.reservedAt_eq]
    exact hfit

theorem Places.denominated (h : Places i p seq ts nonce rows rows' row)
    (hk : (rows.map SpendRow.key).Nodup) (hd : Denominated rows)
    (hp : 0 ≤ (p.request i).amountUnits ∧
      ((p.request i).amountUnits = 0 ∨ (p.request i).token = lower Config.token)) :
    Denominated rows' := by
  intro r hr
  rcases (h.mem hk).mp hr with rfl | ⟨hr, -⟩
  · cases h with
    | fresh head hkey => exact hp
    | revived r₀ hr₀ hkey hdead hamount hsame =>
      have htoken : (p.revived i seq ts nonce r₀).token = r₀.token := by cases p <;> rfl
      rw [revived_amountUnits, htoken]
      exact hd r₀ hr₀
  · exact hd r hr

end Grant

/-! ### Runs -/

/-- What the caps rest on: amounts of one token, and windows that were kept so far. -/
structure Budgeted (i : Instance) (rows : List SpendRow) : Prop where
  denominated : Denominated rows
  kept : WindowsKept i.settings.caps rows

theorem Budgeted.mapRow {k : Key} {f : SpendRow → SpendRow} (h : Budgeted i rows)
    (hf : KeepsGrant f)
    (hback : ∀ r ∈ rows, r.key = k → (f r).state.counted = true → r.state.counted = true) :
    Budgeted i (EscrowSigner.mapRow k f rows) :=
  ⟨h.denominated.mapRow hf, h.kept.mapRow h.denominated hf hback⟩

/-- A grant to a debit in sight of the windows keeps them. -/
theorem Budgeted.grantDebit {s : State} {body : Bytes} {e : Envelope}
    {call : Calldata.DebitCall} {channel : Channel} {fees : Fees} {seq ts cut : Int}
    (hsight : ∀ s c, env s c → InSight i s c) (hsound : Sound i .idle s)
    (h : Budgeted i s.rows)
    (hj : DebitEvidence i body e call channel fees s.log)
    (hfit : Fits i cut s.rows (.debit body e call channel fees)) (hcut : cut ≤ ts)
    (hshown : Shown env s.rows s.log cut)
    (hplace : Places i (.debit body e call channel fees) seq ts s.next s.rows rows row) :
    Budgeted i rows := by
  obtain ⟨s₀, c₀, he₀, hrows₀, hrequest₀, rfl⟩ := hshown.stood
  obtain ⟨instant, -, hadmitted⟩ := hj.admitted
  have hwithin := hfit.2.1
  have hsee : ∀ r ∈ s.rows, r.key ≠ row.key → _ := fun r hr hk =>
    hsight s₀ c₀ he₀ call ⟨body, e, hrequest₀ ▸ hj.asked, hj.envelope, hj.decoded⟩ r
      (hrows₀ ▸ hr) fun hid => hk <| by
        rw [hplace.key_eq]
        exact Key.mk.injEq .. ▸ ⟨(hsound.own r hr).1, (hsound.own r hr).2.1, hid⟩
  have hown : ∀ r ∈ s.rows, r.chainId = Config.chainId ∧ r.escrow = i.escrow := fun r hr =>
    ⟨(hsound.own r hr).1, (hsound.own r hr).2.1⟩
  refine ⟨hplace.denominated hsound.keys h.denominated
    ⟨hfit.1.le, .inr (channelState_eq_none i hadmitted).token⟩, ?_, ?_⟩
  · intro window hw hl
    refine hplace.granted hsound.keys h.denominated (h.kept.units window hw hl) (.inr (.inr ?_))
    rw [hplace.amount_eq]
    refine (Int.add_le_add_right (granted_le_counted h.denominated hcut hown
      (fun r hr hk _ => (hsee r hr hk).1 window hw hl) fun r hr _ => ?_) _).trans
      (hwithin.units window hw hl)
    refine (h.denominated r hr).2.symm.imp (fun ht => beq_iff_eq.mpr (ht.trans ?_)) id
    exact (channelState_eq_none i hadmitted).token.symm
  · intro hl channelId
    refine hplace.granted hsound.keys h.denominated (h.kept.channel hl channelId) (.inr ?_)
    by_cases hc : row.channelId = channelId
    · subst hc
      rw [hplace.channel_eq rfl, hplace.amount_eq]
      refine .inr ((Int.add_le_add_right (granted_le_counted h.denominated hcut hown
        (fun r hr hk hsel => (hsee r hr hk).2 hl (beq_iff_eq.mp hsel)) fun r _ hsel => .inl hsel)
          _).trans (hwithin.channel hl))
    · exact .inl (beq_eq_false_iff_ne.mpr hc)

/-- A grant without an amount keeps all windows. -/
theorem Budgeted.grantGasOnly {p : Plan} {seq ts nonce : Int} (hk : (rows.map SpendRow.key).Nodup)
    (h : Budgeted i rows) (hp : (p.request i).amountUnits = 0)
    (hplace : Places i p seq ts nonce rows rows' row) : Budgeted i rows' := by
  have hzero : row.amountUnits = 0 := hplace.amount_eq.trans hp
  exact ⟨hplace.denominated hk h.denominated ⟨hp.ge, .inl hp⟩,
    fun window hw hl => hplace.granted hk h.denominated (h.kept.units window hw hl)
      (.inl hzero),
    fun hl channelId => hplace.granted hk h.denominated (h.kept.channel hl channelId)
      (.inl hzero)⟩

theorem budgeted_step (hsteady : Steady env) (hsight : ∀ s c, env s c → InSight i s c)
    {φ φ' : Phase} {s s' : State} (hsound : Sound i φ s) (h : Budgeted i s.rows)
    (hstep : Step i env ok (φ, s) (φ', s')) : Budgeted i s'.rows := by
  cases hstep with
  | receive | finish | settle | pass | stamp | find | count | setNext | sign | balk | record | send
  | giveBack => exact ⟨h.denominated, h.kept⟩
  | @grant _ c p row rows ts seq cut he hj hfit hcut hshown hts hseq hplace hbind =>
    cases p with
    | debit body e call channel fees =>
      exact h.grantDebit hsight hsound hj hfit (hcut hsteady) hshown hplace
    | expire body e call fees => exact h.grantGasOnly hsound.keys rfl hplace
    | sweep recipient balance data receipt fees =>
      exact h.grantGasOnly hsound.keys rfl hplace
  | @mark _ c p row he =>
    refine h.mapRow ⟨fun _ => rfl, fun _ => rfl, fun _ => rfl, fun _ => rfl⟩ fun r hr hk _ => ?_
    rw [eq_of_key_eq hsound.keys hr hsound.phase.2.2 hk, hsound.phase.2.1]
    rfl
  | @broadcast _ c p row he =>
    refine h.mapRow ⟨fun _ => rfl, fun _ => rfl, fun _ => rfl, fun _ => rfl⟩ fun r hr hk _ => ?_
    rw [eq_of_key_eq hsound.keys hr hsound.phase.2.2 hk]
    rfl
  | @mine _ c row f u he hu =>
    refine h.mapRow ⟨fun _ => rfl, fun _ => rfl, fun _ => rfl, fun _ => rfl⟩ fun r hr hk _ => ?_
    rw [eq_of_key_eq hsound.keys hr hsound.phase.1 hk]
    exact RowState.counted_of_live hsound.phase.2
  | kill reason he hr hfalls =>
    exact h.mapRow ⟨fun _ => rfl, fun _ => rfl, fun _ => rfl, fun _ => rfl⟩ fun _ _ _ hc =>
      nomatch hc

/-- What the configuration accepts as a cap: `unlimited`, or a positive number. -/
def IsCap (n : Int) : Prop := n = -1 ∨ 0 < n

/-- The caps on units are caps that the configuration accepts. -/
def Caps.Loaded (caps : Caps) : Prop :=
  (∀ window ∈ unitWindows caps, IsCap window.2) ∧ IsCap caps.unitsChannel24h

theorem budgeted_initial (hcaps : Caps.Loaded i.settings.caps) :
    Budgeted i [] where
  denominated _ h := absurd h List.not_mem_nil
  kept :=
    { units := fun window hw hl _ => ((hcaps.1 window hw).resolve_left hl).le
      channel := fun hl _ _ => (hcaps.2.resolve_left hl).le }

/-- The caps hold over real time in every run in which the clock does not step back and no debit is
handled while a capped window has lost sight of a revived row. -/
theorem windows_kept {status : Status} {w : World} (hcaps : Caps.Loaded i.settings.caps)
    (h : Reaches i (fun s c => s.clock ≤ c.now ∧ InSight i s c) (fun _ _ _ => True) status w) :
    WindowsKept i.settings.caps w.tables.spend.rows := by
  obtain ⟨φ, -, hb⟩ := Reaches.invariant (I := fun _ s => Budgeted i s.rows) h
    (budgeted_initial hcaps) fun _ _ _ _ hsound hb hstep =>
      budgeted_step (fun _ _ he => he.1) (fun _ _ he => he.2) hsound hb hstep
  exact hb.kept

instance (now width : Int) (r : SpendRow) : Decidable (Missed now width r) :=
  inferInstanceAs (Decidable (_ ∧ _ ∧ _))

section Sample

open EscrowSigner.Sample

/-- One cent in ten minutes. -/
def oneCent : Caps := { unlimited with units10m := 10000 }

theorem oneCent_loaded : Caps.Loaded oneCent := by
  refine ⟨fun window hw => ?_, .inl rfl⟩
  simp only [unitWindows, List.mem_cons, List.not_mem_nil, or_false] at hw
  rcases hw with rfl | rfl | rfl
  · exact .inr (by decide)
  · exact .inl rfl
  · exact .inl rfl

/-- Where ten minutes are the only capped window, a row is in sight that they do not miss. -/
theorem inSight_oneCent {s : State} {c : Choice}
    (h : ∀ r ∈ s.rows, ¬ Missed (seconds c.now) 600 r) : InSight (signer oneCent "") s c := by
  refine fun call _ r hr _ => ⟨fun window hw hcap => ?_, fun hcap => absurd rfl hcap⟩
  simp only [unitWindows, List.mem_cons, List.not_mem_nil, or_false] at hw
  rcases hw with rfl | rfl | rfl
  · exact h r hr
  · exact absurd rfl hcap
  · exact absurd rfl hcap

/-- A debit whose simulation reverted is retried within ten minutes, and the next one comes when both
of its stamps have left the window. -/
theorem windows_kept_revived : ∃ w : World,
    w.tables.spend.rows.map (fun r => (r.ts, r.reservedAt)) = [(0, 100), (701, 701)] ∧
      WindowsKept oneCent w.tables.spend.rows := by
  obtain ⟨status, w, hw, hrows⟩ := Reach.exists_of_play
    (i := signer oneCent "") (K := fun _ _ _ => True)
    (E := fun w c => w.clock ≤ c.now ∧ ∀ r ∈ w.tables.spend.rows, ¬ Missed (seconds c.now) 600 r)
    (P := fun _ w => w.tables.spend.rows.map (fun r => (r.ts, r.reservedAt)) = [(0, 100), (701, 701)])
    [boot { time := 0 : Outside }.script,
      debit 1 { time := 0, simulate := .error (.reverted "Panic") : Outside }.script,
      debit 1 { time := 100 : Outside }.script, debit 2 { time := 701 : Outside }.script]
    (Q := fun _ => True) (fun _ _ _ _ => trivial) (by decide +kernel)
  exact ⟨w, hrows, windows_kept oneCent_loaded
    (hw.mono (fun _ _ h => ⟨h.1.1, inSight_oneCent h.1.2⟩) fun _ _ _ h => h)⟩

/-- A debit whose simulation reverted is retried after its first stamp has left the window: the
next debit does not see it, and two cents are granted within two seconds. -/
theorem windows_not_kept : Caps.Loaded oneCent ∧ ∃ status w,
    Reaches (signer oneCent "") (fun s c => s.clock ≤ c.now) (fun _ _ _ => True) status w ∧
      ¬ WindowsKept oneCent w.tables.spend.rows := by
  obtain ⟨status, w, hw, hunits⟩ := Reach.exists_of_play
    (i := signer oneCent "") (K := fun _ _ _ => True)
    (E := fun w c => (stateOf (signer oneCent "") w).clock ≤ c.now)
    (P := fun _ w => 10000 < grantedUnits everyRow 600 701 w.tables.spend.rows)
    [boot { time := 0 : Outside }.script,
      debit 1 { time := 0, simulate := .error (.reverted "Panic") : Outside }.script,
      debit 1 { time := 700 : Outside }.script, debit 2 { time := 701 : Outside }.script]
    (Q := fun _ => True) (fun _ _ _ _ => trivial) (by decide +kernel)
  refine ⟨oneCent_loaded, status, w, hw.mono (fun _ _ h => h.1) fun _ _ _ h => h, fun hkept => ?_⟩
  have : grantedUnits everyRow 600 701 w.tables.spend.rows ≤ 10000 :=
    hkept.units (600, 10000) (by decide) (by decide) 701
  omega

end Sample

end EscrowSigner.Machine
