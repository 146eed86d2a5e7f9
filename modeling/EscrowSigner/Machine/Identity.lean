import EscrowSigner.Machine.Rounds

/-! The identity of the chain.  Within one life of the process, every signature comes after a complete
identification of the chain that had not lapsed when the call of the signature read the clock. -/

namespace EscrowSigner.Machine

open Policy Process

variable {i : Instance} {env : World → Choice → Prop} {log₀ es es' : List Event} {e : Event}
  {w w' : World}

/-! ### Identifications in a log -/

/-- The reads of an identification that ended at an instant, the newest first. -/
def identification (i : Instance) (instant : Nat) : List Event :=
  [.clock instant, .rpc (.tokenDecimals Config.token) (.ok Config.tokenDecimals),
    .rpc (.hubAuthorized i.escrow i.address) (.ok true),
    .rpc (.domainSeparator i.escrow) (.ok (separator i)), .rpc .chainId (.ok Config.chainId)]

/-- Among the events is an identification that ended at the instant. -/
def Identified (i : Instance) (instant : Nat) (es : List Event) : Prop :=
  ∃ later earlier, es = later ++ (identification i instant ++ earlier)

theorem Identified.cons {instant : Nat} (h : Identified i instant es) :
    Identified i instant (e :: es) := by
  obtain ⟨later, earlier, rfl⟩ := h
  exact ⟨e :: later, earlier, rfl⟩

/-- How long an identification holds, in nanoseconds. -/
def identityTtl : Nat := Config.chainCacheTtlS * 1000000000

/-- Since the log `log₀` the chain was identified, and the call in progress read a time at which this
still held. -/
def Current (i : Instance) (log₀ es : List Event) : Prop :=
  ∃ instant read, Identified i instant es ∧ .clock read ∈ session (es ++ log₀) ∧
    read < instant + identityTtl

/-- Whether an event begins a call. -/
def isCall : Event → Bool
  | .call _ => true
  | _ => false

theorem session_cons (he : isCall e = false) (log : List Event) :
    session (e :: log) = e :: session log := by
  cases e with
  | call c => cases he
  | clock _ | rpc _ _ | sign _ _ _ _ => rfl

theorem Current.cons (h : Current i log₀ es) (he : isCall e = false) : Current i log₀ (e :: es) := by
  obtain ⟨instant, read, hid, hread, hlt⟩ := h
  refine ⟨instant, read, hid.cons, ?_, hlt⟩
  rw [List.cons_append, session_cons he]
  exact List.mem_cons_of_mem _ hread

/-- Whether an event is a signature, or an attempt at one. -/
def isSign : Event → Bool
  | .sign .. => true
  | _ => false

/-- At every signature among the events the identity of the chain was current. -/
def SignedCurrent (i : Instance) (log₀ : List Event) : List Event → Prop
  | [] => True
  | e :: es => (isSign e = true → Current i log₀ es) ∧ SignedCurrent i log₀ es

theorem SignedCurrent.cons (h : SignedCurrent i log₀ es) (he : isSign e = false) :
    SignedCurrent i log₀ (e :: es) :=
  ⟨fun hs => absurd (he.symm.trans hs) Bool.false_ne_true, h⟩

theorem SignedCurrent.at (h : SignedCurrent i log₀ es) {later earlier : List Event}
    (hes : es = later ++ e :: earlier) (he : isSign e = true) : Current i log₀ earlier := by
  induction later generalizing es with
  | nil =>
    subst hes
    exact h.1 he
  | cons e' later ih =>
    subst hes
    exact ih h.2 rfl

/-! ### What memory says of the identity -/

/-- The identification that memory holds on to, if any, is among the events. -/
def Remembers (i : Instance) (es : List Event) (mem : Memory) : Prop :=
  mem.chainOkUntil = 0 ∨
    ∃ instant, Identified i instant es ∧ mem.chainOkUntil = instant + identityTtl

theorem Remembers.cons {mem : Memory} (h : Remembers i es mem) : Remembers i (e :: es) mem :=
  h.imp_right fun ⟨instant, hid, heq⟩ => ⟨instant, hid.cons, heq⟩

/-- What holds since a process started on the log `log₀`. -/
def Watched (i : Instance) (log₀ : List Event) (w : World) : Prop :=
  ∃ es, w.log = es ++ log₀ ∧ SignedCurrent i log₀ es ∧ Remembers i es w.mem

/-- In the call in progress, the identity of the chain is current. -/
def WatchedCurrent (i : Instance) (log₀ : List Event) (w : World) : Prop :=
  ∃ es, w.log = es ++ log₀ ∧ SignedCurrent i log₀ es ∧ Remembers i es w.mem ∧ Current i log₀ es

theorem WatchedCurrent.watched (h : WatchedCurrent i log₀ w) : Watched i log₀ w := by
  obtain ⟨es, hlog, hsigns, hmem, -⟩ := h
  exact ⟨es, hlog, hsigns, hmem⟩

theorem Watched.same (h : Watched i log₀ w) (hlog : w'.log = w.log)
    (hmem : w'.mem.chainOkUntil = w.mem.chainOkUntil) : Watched i log₀ w' := by
  obtain ⟨es, heq, hsigns, hr⟩ := h
  refine ⟨es, hlog.trans heq, hsigns, ?_⟩
  unfold Remembers at hr ⊢
  rwa [hmem]

theorem Watched.event (h : Watched i log₀ w) (he : isSign e = false) (hlog : w'.log = e :: w.log)
    (hmem : w'.mem.chainOkUntil = w.mem.chainOkUntil) : Watched i log₀ w' := by
  obtain ⟨es, heq, hsigns, hr⟩ := h
  refine ⟨e :: es, by rw [hlog, heq, List.cons_append], hsigns.cons he, ?_⟩
  unfold Remembers at hr ⊢
  rw [hmem]
  exact Remembers.cons hr

theorem WatchedCurrent.same (h : WatchedCurrent i log₀ w) (hlog : w'.log = w.log)
    (hmem : w'.mem = w.mem) : WatchedCurrent i log₀ w' := by
  obtain ⟨es, heq, hsigns, hr, hcurrent⟩ := h
  exact ⟨es, hlog.trans heq, hsigns, hmem ▸ hr, hcurrent⟩

theorem WatchedCurrent.event (h : WatchedCurrent i log₀ w) (he : isCall e = false)
    (hlog : w'.log = e :: w.log) (hmem : w'.mem = w.mem) : WatchedCurrent i log₀ w' := by
  obtain ⟨es, heq, hsigns, hr, hcurrent⟩ := h
  exact ⟨e :: es, by rw [hlog, heq, List.cons_append], ⟨fun _ => hcurrent, hsigns⟩, hmem ▸ hr.cons,
    hcurrent.cons he⟩

theorem Watched.ledger (c : Choice) (w w' : World) (h : Watched i log₀ w)
    (hstep : LedgerStep c w w') : Watched i log₀ w' := by
  rcases hstep.log with hlog | hlog
  · exact h.same hlog (congrArg _ hstep.mem)
  · exact h.event rfl hlog (congrArg _ hstep.mem)

theorem WatchedCurrent.ledger (c : Choice) (w w' : World) (h : WatchedCurrent i log₀ w)
    (hstep : LedgerStep c w w') : WatchedCurrent i log₀ w' := by
  rcases hstep.log with hlog | hlog
  · exact h.same hlog hstep.mem
  · exact h.event rfl hlog hstep.mem

theorem upheld_watched (i : Instance) (log₀ : List Event) :
    Upheld i env (Watched i log₀) (Watched i log₀) :=
  upheld_of_steps i Watched.ledger (fun _ _ _ _ h => h.event rfl rfl rfl) fun _ h => h

theorem upheld_watchedCurrent (i : Instance) (log₀ : List Event) :
    UpheldSigning i env (Watched i log₀) (WatchedCurrent i log₀) :=
  upheldSigning_of_steps i WatchedCurrent.ledger (fun _ _ _ h => h.event rfl rfl rfl)
    (fun _ _ _ _ _ h => h.event rfl rfl rfl) fun _ h => h.watched

/-! ### Verification -/

/-- An identification that ends normally is in the log, and memory holds on to it. -/
theorem identify_watched (h : Watched i log₀ w) :
    (identifyChain i).Through env (Watched i log₀)
      (fun _ w' => Watched i log₀ w' ∧ w'.mem = w.mem)
      (fun _ w' => WatchedCurrent i log₀ w' ∧ w'.mem.ready = w.mem.ready ∧
        ∃ instant, w'.log = identification i instant ++ w.log) w := by
  have ask : ∀ {q : Query} {w₁ : World}, Watched i log₀ w₁ → w₁.mem = w.mem →
      (rpc q).Through env (Watched i log₀) (fun _ w' => Watched i log₀ w' ∧ w'.mem = w.mem)
        (fun a w' => (Watched i log₀ w' ∧ w'.mem = w.mem) ∧ w'.log = .rpc q (.ok a) :: w₁.log) w₁ :=
    fun {q w₁} h hmem => (through_rpc (fun r w' => (Watched i log₀ w' ∧ w'.mem = w.mem) ∧
      w'.log = .rpc q r :: w₁.log) h fun _ _ => ⟨⟨h.event rfl rfl rfl, hmem⟩, rfl⟩).mono
        (fun _ _ h => h.1) fun _ _ h => h
  refine Through.bind (ask h rfl) fun chainId w₁ ⟨h₁, hlog₁⟩ => ?_
  split
  · exact h₁
  rename_i hchain
  refine Through.bind (ask h₁.1 h₁.2) fun found w₂ ⟨h₂, hlog₂⟩ => ?_
  split
  · exact h₂
  rename_i hfound
  refine Through.bind (ask h₂.1 h₂.2) fun authorized w₃ ⟨h₃, hlog₃⟩ => ?_
  split
  · exact h₃
  rename_i hauthorized
  refine Through.bind (ask h₃.1 h₃.2) fun decimals w₄ ⟨h₄, hlog₄⟩ => ?_
  split
  · exact h₄
  rename_i hdecimals
  refine Through.bind (P := fun instant w₅ => (Watched i log₀ w₅ ∧ w₅.mem = w.mem) ∧
    w₅.log = .clock instant :: w₄.log) (.atomic h₄.1 fun c _ => ⟨⟨h₄.1.event rfl rfl rfl, h₄.2⟩, rfl⟩)
      fun instant w₅ ⟨h₅, hlog₅⟩ => ?_
  refine .atomic h₅.1 fun c _ => ?_
  obtain ⟨es, heq, hsigns, -⟩ := h
  cases not_not.mp hchain
  cases not_not.mp hfound
  cases not_not.mp hdecimals
  have hhub : authorized = true := by simpa using hauthorized
  subst hhub
  have hlog : w₅.log = identification i instant ++ w.log := by
    rw [hlog₅, hlog₄, hlog₃, hlog₂, hlog₁]
    rfl
  have hid : Identified i instant (identification i instant ++ es) := ⟨[], es, rfl⟩
  refine ⟨⟨_, ?_, ((((hsigns.cons rfl).cons rfl).cons rfl).cons rfl).cons rfl,
    .inr ⟨instant, hid, rfl⟩, instant, instant, hid, .head _, ?_⟩, ?_, instant, hlog⟩
  · exact hlog.trans (by rw [heq]; rfl)
  · unfold identityTtl Config.chainCacheTtlS
    omega
  · show w₅.mem.ready = w.mem.ready
    rw [h₅.2]

theorem verify_watched (h : Watched i log₀ w) :
    (verifyChainIdentity i false).Through env (Watched i log₀) (fun _ => Watched i log₀)
      (fun _ => WatchedCurrent i log₀) w := by
  have hcached : identityCached.Through env (Watched i log₀) (fun _ => Watched i log₀)
      (fun cached w => Watched i log₀ w ∧ (cached = true → WatchedCurrent i log₀ w)) w := by
    refine Through.bind (P := fun read w => Watched i log₀ w ∧ .clock read ∈ session w.log)
      (.atomic h fun c _ => ⟨h.event rfl rfl rfl, .head _⟩) fun read w ⟨h, hread⟩ => ?_
    refine Through.bind (P := fun mem w => Watched i log₀ w ∧ .clock read ∈ session w.log ∧
      mem = w.mem) (.atomic h fun c _ => ⟨h.same rfl rfl, hread, rfl⟩)
      fun mem w ⟨h, hread, hmem⟩ => .pure ⟨h, fun hlt => ?_⟩
    subst hmem
    obtain ⟨es, heq, hsigns, hr⟩ := h
    have hlt : read < w.mem.chainOkUntil := of_decide_eq_true hlt
    rcases hr with hzero | ⟨instant, hid, huntil⟩
    · omega
    · exact ⟨es, heq, hsigns, .inr ⟨instant, hid, huntil⟩, instant, read, hid, heq ▸ hread,
        huntil ▸ hlt⟩
  refine Through.bind hcached fun cached w ⟨h, hcurrent⟩ => ?_
  cases cached with
  | true => exact .pure (hcurrent rfl)
  | false => exact (identify_watched h).mono (fun _ _ h => h.1) fun _ _ h => h.1

theorem way_watched (i : Instance) (log₀ : List Event) :
    Way i env (Watched i log₀) (Watched i log₀) (WatchedCurrent i log₀) (Watched i log₀) where
  before := upheld_watched i log₀
  after := (upheld_watchedCurrent i log₀).toUpheld
  verify := verify_watched
  start _ h := h
  finish _ h := h.watched

/-! ### Calls -/

/-- A decision, of whatever kind, after which the identity is still watched. -/
theorem speaks_watched {J : World → Prop} (hJ : ∀ w, J w → Watched i log₀ w) (common : Common) :
    SpeaksSigned J (fun _ => Watched i log₀) common where
  refused h _ _ _ := hJ _ h
  capped h _ _ := hJ _ h
  replayed h _ _ := hJ _ h
  signed h _ _ := hJ _ h

theorem road_watched (i : Instance) (log₀ : List Event) :
    Road i env (Watched i log₀) (Watched i log₀) (WatchedCurrent i log₀) (Watched i log₀)
      (fun _ => Watched i log₀) fun _ => True where
  toWay := way_watched i log₀
  speaks _ := (speaks_watched (fun _ h => h) _).toSpeaks
  speaksVerified _ := (speaks_watched (fun _ h => h.watched) _).toSpeaks
  sign _ row tx receiptId _ h :=
    ((upheld_watchedCurrent i log₀).signRow
      ((speaks_watched (fun _ h => h.watched) _).closes receiptId) row tx h).mono
        (fun _ _ h => h.watched) fun _ _ h => h

theorem reports_watched {J : World → Prop} (hJ : ∀ w, J w → Watched i log₀ w)
    (hledger : ∀ c w w', J w → LedgerStep c w w' → J w') :
    ReportsSigned i env (Watched i log₀) J (fun _ => Watched i log₀) where
  audit d _ h := upholds_auditSweep hledger hJ d h
  silent h := hJ _ h
  refused h _ _ := hJ _ h
  signed h _ _ := hJ _ h

theorem sweepRoad_watched (i : Instance) (log₀ : List Event) :
    SweepRoad i env (Watched i log₀) (Watched i log₀) (WatchedCurrent i log₀) (Watched i log₀)
      (fun _ => Watched i log₀) where
  toWay := way_watched i log₀
  reports := (reports_watched (fun _ h => h) Watched.ledger).toReports
  reportsVerified := (reports_watched (fun _ h => h.watched) WatchedCurrent.ledger).toReports
  sign recipient balance common row tx _ h :=
    ((upheld_watchedCurrent i log₀).signRow
      ((reports_watched (fun _ h => h.watched) WatchedCurrent.ledger).closes recipient balance common)
        row tx h).mono (fun _ _ h => h.watched) fun _ _ h => h

end EscrowSigner.Machine
