import EscrowSigner.Machine.Rounds

/-! What a call does with the key, and what it says of it.  A call signs at most once and sends at most
the bytes that it has just signed, wherever it ends or is stopped; its decision tells how far it got. -/

namespace EscrowSigner.Machine

open Policy Process

variable {i : Instance} {α : Type} {log₀ ds : List Event} {w w' : World}

/-! ### Signatures and broadcasts -/

/-- Whether an event is a signature, a failed one too, or a broadcast. -/
def isDeed : Event → Bool
  | .sign .. => true
  | .rpc q _ => sends q
  | .call _ | .clock _ => false

/-- The signatures and broadcasts among events, the oldest first. -/
def deeds (es : List Event) : List Event := (es.filter isDeed).reverse

/-- Since the log `log₀`, the signatures and broadcasts were `ds`. -/
def Done (log₀ ds : List Event) (w : World) : Prop := ∃ es, w.log = es ++ log₀ ∧ deeds es = ds

theorem Done.same (h : Done log₀ ds w) (hlog : w'.log = w.log) : Done log₀ ds w' := by
  obtain ⟨es, heq, hds⟩ := h
  exact ⟨es, hlog.trans heq, hds⟩

theorem Done.event (h : Done log₀ ds w) {e : Event} (hlog : w'.log = e :: w.log) :
    Done log₀ (ds ++ [e].filter isDeed) w' := by
  obtain ⟨es, heq, rfl⟩ := h
  refine ⟨e :: es, by rw [hlog, heq, List.cons_append], ?_⟩
  unfold deeds
  cases he : isDeed e <;> simp [he]

theorem Done.aside (h : Done log₀ ds w) {e : Event} (he : isDeed e = false)
    (hlog : w'.log = e :: w.log) : Done log₀ ds w' := by
  simpa [he] using h.event hlog

theorem Done.deed (h : Done log₀ ds w) {e : Event} (he : isDeed e = true)
    (hlog : w'.log = e :: w.log) : Done log₀ (ds ++ [e]) w' := by
  simpa [he] using h.event hlog

theorem Passive.not_deed {c : Choice} {e : Event} (h : Passive c e) : isDeed e = false := by
  cases h with
  | clock => rfl
  | rpc q hq => exact hq

theorem Done.quiet (c : Choice) (w w' : World) (h : Done log₀ ds w)
    (hstep : Quiet (fun _ _ => True) c w w') : Done log₀ ds w' := by
  rcases hstep.log with hlog | ⟨e, he, hlog⟩
  · exact h.same hlog
  · exact h.aside he.not_deed hlog

theorem Done.ledger (c : Choice) (w w' : World) (h : Done log₀ ds w) (hstep : LedgerStep c w w') :
    Done log₀ ds w' := by
  rcases hstep.log with hlog | hlog
  · exact h.same hlog
  · exact h.aside rfl hlog

/-! ### What was started, and what is said of it -/

/-- How far a call can get: nothing was signed, the signature failed, or what was signed was sent or
not. -/
inductive Started : List Event → Prop
  | nothing : Started []
  | failed (row : SpendRow) (t : Nat) (tx : Tx) (e : Exn) : Started [.sign row t tx (.error e)]
  | signed (row : SpendRow) (t : Nat) (tx : Tx) (raw : Bytes) : Started [.sign row t tx (.ok raw)]
  | sent (row : SpendRow) (t : Nat) (tx : Tx) (raw : Bytes) (answer : Except Exn String) :
      Started [.sign row t tx (.ok raw), .rpc (.sendRaw raw) answer]

/-- How a call on its way to the broadcast ends. -/
inductive Ending
  | refused (status : Int) (reason : String)
  | unavailable
  | accepted (txHash : String)

/-- The answer to an ending. -/
def Ending.answer (k : Answers α) : Ending → Code α
  | refused status reason => k.refused status reason
  | unavailable => k.unavailable
  | accepted txHash => k.accepted txHash

/-- What signature and broadcast come to. -/
inductive Course (x : Externals) : List Event → Ending → Prop
  | failed (row : SpendRow) (t : Nat) (tx : Tx) (e : Exn) :
      Course x [.sign row t tx (.error e)] (.refused 500 "signing_failed")
  | rejected (row : SpendRow) (t : Nat) (tx : Tx) (raw : Bytes) (name : String) :
      Course x [.sign row t tx (.ok raw), .rpc (.sendRaw raw) (.error (.reverted name))]
        (.refused 422 s!"simulation_reverted:{name}")
  | unanswered (row : SpendRow) (t : Nat) (tx : Tx) (raw : Bytes) (detail : String) :
      Course x [.sign row t tx (.ok raw), .rpc (.sendRaw raw) (.error (.rpcUnavailable detail))]
        .unavailable
  | accepted (row : SpendRow) (t : Nat) (tx : Tx) (raw : Bytes) (answer : String) :
      Course x [.sign row t tx (.ok raw), .rpc (.sendRaw raw) (.ok answer)]
        (.accepted (hexString (x.keccak raw)))

/-- A decision that agrees with an ending; a sweep whose broadcast was not answered says nothing. -/
def Ending.Says : Ending → Option Decision → Prop
  | refused status reason, r => ∃ d, r = some d ∧ d.decision = "refused" ∧ d.status = status ∧
      d.reasonCode = reason
  | unavailable, r => ∀ d, r = some d → d.decision = "refused" ∧ d.status = 503 ∧
      d.reasonCode = "broadcast_failed"
  | accepted txHash, r => ∃ d, r = some d ∧ d.decision = "signed" ∧ d.status = 200 ∧
      d.txHash = txHash

/-- What a call that returned says of its signature and broadcast. -/
inductive OwnsUp (x : Externals) : List Event → Option Decision → Prop
  | nothing (r : Option Decision) (h : ∀ d, r = some d → d.decision ≠ "signed") : OwnsUp x [] r
  | ended (ds : List Event) (ending : Ending) (r : Option Decision) (h : Course x ds ending)
      (hr : ending.Says r) : OwnsUp x ds r

theorem Course.started {x : Externals} {ending : Ending} (h : Course x ds ending) :
    Started ds := by
  cases h with
  | failed row t tx e => exact .failed row t tx e
  | rejected row t tx raw name => exact .sent row t tx raw _
  | unanswered row t tx raw detail => exact .sent row t tx raw _
  | accepted row t tx raw answer => exact .sent row t tx raw _

/-! ### From the signature to the broadcast -/

/-- What holds wherever a call can be stopped. -/
def Sober (log₀ : List Event) (w : World) : Prop := ∃ ds, Done log₀ ds w ∧ Started ds

variable {env : World → Choice → Prop} {R : α → World → Prop} {k : Answers α}

theorem upholds_done {β : Type} {p : Code β} (hs : Started ds) (hp : p.Steps LedgerStep)
    (h : Done log₀ ds w) : Upholds env (Sober log₀) (Done log₀ ds) Anything p w :=
  upholds_of_steps hp Done.ledger (fun _ h => ⟨ds, h, hs⟩) h

theorem signRow_deeds (row : SpendRow) (tx : Tx) (h : Done log₀ [] w)
    (hk : ∀ {ds ending w}, Done log₀ ds w → Course i.ext ds ending →
      Arrives env (Sober log₀) (Sober log₀) R (ending.answer k) w) :
    Arrives env (Sober log₀) (Sober log₀) R (signRow i row tx k) w := by
  have sober : ∀ {ds}, Started ds → ∀ w, Done log₀ ds w → Sober log₀ w := fun hs _ h => ⟨_, h, hs⟩
  refine Through.bind (Through.attempt (through_sign
    (fun r w => ∃ t, Done log₀ [.sign row t tx r] w) (sober .nothing _ h)
      fun c _ _ => ⟨c.now, h.deed rfl rfl⟩)) fun r w hr => ?_
  cases r with
  | error e =>
    obtain ⟨t, hdone⟩ := hr
    refine Upholds.into (upholds_done (.failed row t tx e) (footprint_markDead _ _) hdone)
      (sober (.failed row t tx e)) fun _ _ hdone _ => ?_
    exact hk hdone (.failed row t tx e)
  | ok raw =>
    obtain ⟨t, hdone⟩ := hr
    have hsigned := Started.signed row t tx raw
    refine Upholds.into (upholds_done hsigned (footprint_markSigned _ _ _) hdone) (sober hsigned)
      fun _ w hdone _ => ?_
    refine Through.bind (Through.attempt (through_rpc
      (fun r w => Done log₀ [.sign row t tx (.ok raw), .rpc (.sendRaw raw) r] w)
        (sober hsigned _ hdone) fun c _ => hdone.deed rfl rfl)) fun r w hr => ?_
    have hsent := Started.sent row t tx raw
    split
    · exact Upholds.into (upholds_done (hsent _) (footprint_markDead _ _) hr) (sober (hsent _))
        fun _ _ hdone _ => hk hdone (.rejected row t tx raw _)
    · exact hk hr (.unanswered row t tx raw _)
    · exact sober (hsent _) _ hr
    · exact Upholds.into (upholds_done (hsent _) (footprint_setState _ _ _) hr) (sober (hsent _))
        fun _ _ hdone _ => hk hdone (.accepted row t tx raw _)

/-! ### Calls -/

theorem upheld_done (i : Instance) (log₀ : List Event) :
    Upheld i env (Sober log₀) (Done log₀ []) :=
  upheld_of_steps i Done.ledger (fun q c _ hq h => by
    have hq' : isDeed (.rpc q (c.answer q)) = false := hq
    exact h.aside hq' rfl) fun _ h => ⟨[], h, .nothing⟩

/-- Code that neither signs nor sends. -/
theorem through_quiet {β : Type} {p : Code β} (hp : p.Steps (Quiet fun _ _ => True))
    (h : Done log₀ [] w) :
    p.Through env (Sober log₀) (fun _ => Done log₀ []) (fun _ => Done log₀ []) w :=
  hp.through Done.quiet (fun _ h => ⟨[], h, .nothing⟩) h

theorem way_done (i : Instance) (log₀ : List Event) :
    Way i env (Sober log₀) (Done log₀ []) (Done log₀ []) (Sober log₀) where
  before := upheld_done i log₀
  after := upheld_done i log₀
  verify h := through_quiet (steps_verifyChainIdentity i false) h
  start _ h := ⟨[], h, .nothing⟩
  finish _ h := ⟨[], h, .nothing⟩

/-- What a request says of what it did. -/
def AccountsFor (i : Instance) (log₀ : List Event) (r : Option Decision) (w : World) : Prop :=
  ∃ ds, Done log₀ ds w ∧ OwnsUp i.ext ds r

theorem speaks_done (common : Common) :
    Speaks (Done log₀ []) (fun d => AccountsFor i log₀ (some d)) common where
  refused h _ _ _ := ⟨[], h, .nothing _ fun d hd => Option.some.inj hd ▸ by show "refused" ≠ _; decide⟩
  capped h _ _ := ⟨[], h, .nothing _ fun d hd => Option.some.inj hd ▸ by show "refused" ≠ _; decide⟩
  replayed h _ _ := ⟨[], h, .nothing _ fun d hd => Option.some.inj hd ▸ by show "replayed" ≠ _; decide⟩

theorem road_done (i : Instance) (log₀ : List Event) :
    Road i env (Sober log₀) (Done log₀ []) (Done log₀ []) (Sober log₀)
      (fun d => AccountsFor i log₀ (some d)) fun _ => True where
  toWay := way_done i log₀
  speaks _ := speaks_done _
  speaksVerified _ := speaks_done _
  sign _ row tx receiptId _ h := signRow_deeds row tx h fun {ds ending w} hdone hcourse => by
    cases ending with
    | refused status reason => exact ⟨ds, hdone, .ended ds _ _ hcourse ⟨_, rfl, rfl, rfl, rfl⟩⟩
    | unavailable =>
      exact ⟨ds, hdone, .ended ds _ _ hcourse fun d hd => Option.some.inj hd ▸ ⟨rfl, rfl, rfl⟩⟩
    | accepted txHash => exact ⟨ds, hdone, .ended ds _ _ hcourse ⟨_, rfl, rfl, rfl, rfl⟩⟩

/-- An audited decision of a sweep. -/
theorem decideSweep_done {d : Decision} (hs : Started ds) (h : Done log₀ ds w)
    (hd : OwnsUp i.ext ds (some d)) :
    Arrives env (Sober log₀) (Sober log₀) (AccountsFor i log₀) (decideSweep i d) w :=
  Upholds.into (upholds_auditSweep Done.ledger (fun _ h => ⟨ds, h, hs⟩) d h)
    (fun _ h => ⟨ds, h, hs⟩) fun _ _ hdone heq => ⟨ds, hdone, heq ▸ hd⟩

theorem reports_done (i : Instance) (log₀ : List Event) :
    Reports i env (Sober log₀) (Done log₀ []) (AccountsFor i log₀) where
  audit d _ h := upholds_auditSweep Done.ledger (fun _ h => ⟨[], h, .nothing⟩) d h
  silent h := ⟨[], h, .nothing _ fun _ hd => by cases hd⟩
  refused h d hd := ⟨[], h, .nothing _ fun d' hd' => by
    cases hd'
    rw [hd]
    decide⟩

theorem sweepRoad_done (i : Instance) (log₀ : List Event) :
    SweepRoad i env (Sober log₀) (Done log₀ []) (Done log₀ []) (Sober log₀)
      (AccountsFor i log₀) where
  toWay := way_done i log₀
  reports := reports_done i log₀
  reportsVerified := reports_done i log₀
  sign recipient balance common row tx _ h :=
    signRow_deeds row tx h fun {ds ending w} hdone hcourse => by
      cases ending with
      | refused status reason =>
        exact decideSweep_done hcourse.started hdone (.ended ds _ _ hcourse ⟨_, rfl, rfl, rfl, rfl⟩)
      | unavailable => exact ⟨ds, hdone, .ended ds _ _ hcourse fun d hd => by cases hd⟩
      | accepted txHash =>
        exact decideSweep_done hcourse.started hdone (.ended ds _ _ hcourse ⟨_, rfl, rfl, rfl, rfl⟩)

theorem serve_done (c : Call) (h : Done log₀ [] w) :
    (serve i c).Through env (Sober log₀) (fun _ => Sober log₀) (AccountsFor i log₀) w := by
  cases c with
  | boot =>
    have hboot : (boot i).Steps (Quiet fun _ _ => True) :=
      (steps_boot i).mono fun _ _ _ hq => ⟨hq.db.mono fun _ _ _ => trivial, hq.log⟩
    refine Through.bind ((through_quiet hboot h).mono (fun _ _ h => ⟨[], h, .nothing⟩)
      fun _ _ h => h) fun _ w hdone => ?_
    exact ⟨[], hdone, .nothing _ fun _ hd => by cases hd⟩
  | handle body => exact Through.bind ((road_done i log₀).handle body (fun _ _ => trivial) h) fun _ _ h => h
  | sweep => exact (sweepRoad_done i log₀).sweepProceeds h

/-- From any world, a call signs at most once and sends at most what it has just signed, wherever it
ends or is stopped; what it returns agrees with how far it got. -/
theorem deeds_accounted (i : Instance) (c : Call) (script : List Choice) (w : World) :
    ∃ ds, Done (w.record (.call c)).log ds (execute i c script w).2 ∧
      match (execute i c script w).1 with
      | .returned r => OwnsUp i.ext ds r
      | .raised _ | .stopped => Started ds := by
  have hbegin : Done (w.record (.call c)).log [] (w.record (.call c)) := ⟨[], rfl, rfl⟩
  have hrun := (serve_done (i := i) c hbegin).run (Process.admits_true _ script _)
  unfold execute
  split
  · rename_i r hr
    rw [hr] at hrun
    exact hrun
  · rename_i e hr
    rw [hr] at hrun
    exact hrun
  · rename_i hr
    rw [hr] at hrun
    exact hrun

end EscrowSigner.Machine
