import EscrowSigner.History
import EscrowSigner.Machine.Identity

/-! Lives of the process: what it is called for from its start until it stops.  A life that starts
unready signs only after a boot of its own in which the books verified and the chain was asked, and
only while the identity of the chain is current. -/

namespace EscrowSigner.Machine

open Policy Process Ledger

variable {α : Type} {i : Instance} {env : World → Choice → Prop} {log₀ es : List Event} {t : Tables}
  {w w' : World} {F : List Event → Prop}

/-! ### Boot -/

/-- What a boot that leaves the signer ready has found: the books verify, the ledger is not halted, and
in its session the chain was identified and the nonces were counted. -/
structure Cleared (i : Instance) (t : Tables) (es : List Event) : Prop where
  spend : verifySpend i.ext t = .ok ()
  audit : verifyAudit i.ext t = .ok ()
  running : ¬ (t.clockGuard.halted = true ∧ t.clockGuard.haltReason ≠ "")
  identified : ∃ instant, Identified i instant es
  counted : ∃ n, .rpc (.transactionCount i.address "pending") (.ok n) ∈ es

/-- A signer that is not ready, in a session of which `F` holds. -/
structure Unready (i : Instance) (log₀ : List Event) (F : List Event → Prop) (w : World) : Prop where
  watched : Watched i log₀ w
  unready : w.mem.ready = false
  session : F (session w.log)

/-- What holds of a session still holds when it goes on without a signature. -/
def GoesOn (F : List Event → Prop) : Prop := ∀ e es, isSign e = false → F es → F (e :: es)

theorem Unready.event (hF : GoesOn F) (h : Unready i log₀ F w) {e : Event} (hsign : isSign e = false)
    (hcall : isCall e = false) (hlog : w'.log = e :: w.log) (hmem : w'.mem = w.mem) :
    Unready i log₀ F w' where
  watched := h.watched.event hsign hlog (congrArg _ hmem)
  unready := (congrArg _ hmem).trans h.unready
  session := by
    rw [hlog, session_cons hcall]
    exact hF _ _ hsign h.session

theorem Unready.ledger (hF : GoesOn F) (c : Choice) (w w' : World) (h : Unready i log₀ F w)
    (hstep : LedgerStep c w w') : Unready i log₀ F w' := by
  rcases hstep.log with hlog | hlog
  · exact ⟨h.watched.same hlog (congrArg _ hstep.mem), (congrArg _ hstep.mem).trans h.unready,
      hlog ▸ h.session⟩
  · exact h.event hF rfl rfl hlog hstep.mem

theorem upheld_unready {S : World → Prop} (hF : GoesOn F) (hS : ∀ w, Unready i log₀ F w → S w) :
    Upheld i env S (Unready i log₀ F) :=
  upheld_of_steps i (Unready.ledger hF) (fun _ _ _ _ h => h.event hF rfl rfl rfl rfl) hS

/-- A read of the tables that stand. -/
theorem through_select {S J : World → Prop} {f : Tables → Except Exn α} (hS : S w)
    (hJ : ∀ c w', LedgerStep c w w' → J w') :
    (select f).Through env S (fun _ => J) (fun a w' => J w' ∧ f w.view = .ok a ∧ w'.view = w.view)
      w := by
  refine .atomic hS fun c _ => ?_
  have hstep : J (statement (fun t => do let a ← f t; return (t, a)) c (w.advance c)).1 :=
    hJ c _ (footprint_select f c w).1
  cases hc : c.fault with
  | some fault =>
    simp only [statement, hc] at hstep ⊢
    exact hstep
  | none =>
    have hview : (w.advance c).view = w.view := rfl
    simp only [statement, hc, hview] at hstep ⊢
    cases hf : f w.view with
    | ok a =>
      simp only [hf, Bind.bind, Except.bind, Pure.pure, Except.pure] at hstep ⊢
      exact ⟨hstep, trivial, congrArg Db.view w.db.write_view⟩
    | error e =>
      simp only [hf, Bind.bind, Except.bind] at hstep ⊢
      exact hstep

/-- The first step of a boot takes readiness back. -/
theorem through_unready (hF : F (session w.log)) (h : Watched i log₀ w) :
    (writeMemory fun m => { m with ready := false }).Through env (Watched i log₀)
      (fun _ => Unready i log₀ F) (fun _ w' => Unready i log₀ F w' ∧ w'.view = w.view) w :=
  .atomic h fun _ _ => ⟨⟨h.same rfl rfl, rfl, hF⟩, rfl⟩

theorem through_refuseToServe (reason : String) (h : Unready i log₀ F w) :
    (refuseToServe reason).Through env (Watched i log₀) (fun _ => Unready i log₀ F)
      (fun _ => Unready i log₀ F) w :=
  .atomic h.watched fun _ _ => ⟨h.watched.same rfl rfl, h.unready, h.session⟩

/-- What a boot leaves: a signer that is not ready, or one that was cleared on the tables `t`. -/
def Booted (i : Instance) (log₀ : List Event) (t : Tables) (w : World) : Prop :=
  Watched i log₀ w ∧ (w.mem.ready = true → Cleared i t (session w.log))

theorem Unready.booted (h : Unready i log₀ F w) : Booted i log₀ t w :=
  ⟨h.watched, fun hready => absurd (h.unready.symm.trans hready) Bool.false_ne_true⟩

/-- The reads of a boot. -/
theorem through_bootReads (h : Unready i log₀ (fun _ => True) w) :
    (bootReads i).Through env (Watched i log₀) (fun _ => Unready i log₀ fun _ => True)
      (fun _ => Unready i log₀ fun es => (∃ instant, Identified i instant es) ∧
        ∃ n, .rpc (.transactionCount i.address "pending") (.ok n) ∈ es) w := by
  have hidentified : GoesOn fun es => ∃ instant, Identified i instant es :=
    fun _ _ _ ⟨instant, hid⟩ => ⟨instant, hid.cons⟩
  have hfail : ∀ {F : List Event → Prop} {w}, Unready i log₀ F w → Unready i log₀ (fun _ => True) w :=
    fun h => ⟨h.watched, h.unready, trivial⟩
  refine Through.bind (P := fun _ => Unready i log₀ fun es => ∃ instant, Identified i instant es)
    ((identify_watched h.watched).mono ?_ ?_) fun _ w h => ?_
  · exact fun _ _ ⟨hw, hmem⟩ => ⟨hw, (congrArg _ hmem).trans h.unready, trivial⟩
  · rintro _ w' ⟨hw, hready, instant, hlog⟩
    refine ⟨hw.watched, hready.trans h.unready, instant, [], session w.log, ?_⟩
    rw [hlog]
    rfl
  refine Through.bind (((upheld_unready hidentified fun _ h => h.watched).reconcile h).mono
    (fun _ _ h => hfail h)
    fun _ _ h => h.1) fun reconciled w h => ?_
  refine Through.bind ((through_rpc (fun r w' => Unready i log₀ (fun es =>
    (∃ instant, Identified i instant es) ∧
      .rpc (.transactionCount i.address "pending") r ∈ es) w') h.watched fun c _ => ?_).mono
        (fun _ _ h => hfail h) fun _ _ h => h) fun n w h => ?_
  · obtain ⟨instant, hid⟩ := h.session
    exact ⟨h.watched.event rfl rfl rfl, h.unready, ⟨instant, hid.cons⟩, .head _⟩
  · exact ⟨h.watched, h.unready, h.session.1, n, h.session.2⟩

/-- The end of a boot, whose findings stay in the session. -/
theorem through_finishBoot (hF : GoesOn F) (reconciled : Bool) (chainNonce : Int)
    (h : Unready i log₀ F w) :
    (finishBoot i reconciled chainNonce).Through env (Watched i log₀) (fun _ => Unready i log₀ F)
      (fun _ w' => Watched i log₀ w' ∧ F (session w'.log)) w := by
  have ledger : ∀ {β : Type} {p : Code β} {w : World}, p.Steps LedgerStep → Unready i log₀ F w →
      Upholds env (Watched i log₀) (Unready i log₀ F) Anything p w := fun hp h =>
    upholds_of_steps hp (Unready.ledger hF) (fun _ h => h.watched) h
  refine Upholds.into (ledger (footprint_select _) h) (fun _ h => h) fun live w h _ => ?_
  refine Upholds.into (ledger (footprint_setNextNonce _ _ _) h) (fun _ h => h) fun _ w h _ => ?_
  refine Upholds.into (ledger (footprint_recordBoot _ _ _ _ _) h) (fun _ h => h) fun _ w h _ => ?_
  refine Upholds.into (ledger (footprint_audit (.tail _ (.tail _ (.head _)))) h) (fun _ h => h)
    fun _ w h _ => ?_
  exact .atomic h.watched fun _ _ => ⟨h.watched.same rfl rfl, h.session⟩

theorem through_boot (h : Watched i log₀ w) :
    (boot i).Through env (Watched i log₀) (fun _ => Unready i log₀ fun _ => True)
      (fun _ => Booted i log₀ w.view) w := by
  have hF : GoesOn fun _ => True := fun _ _ _ _ => trivial
  refine Through.bind (through_unready trivial h |>.mono (fun _ _ h => h) fun _ _ h => h)
    fun _ w₁ ⟨h₁, hview₁⟩ => ?_
  have read : ∀ {β : Type} {f : Tables → Except Exn β} {w : World},
      Unready i log₀ (fun _ => True) w →
      (select f).Through env (Watched i log₀) (fun _ => Unready i log₀ fun _ => True)
        (fun a w' => Unready i log₀ (fun _ => True) w' ∧ f w.view = .ok a ∧ w'.view = w.view) w :=
    fun h => through_select h.watched fun c w' hstep => Unready.ledger hF c _ w' h hstep
  have hverify : (verifyChains i.ext).Through env (Watched i log₀)
      (fun _ => Unready i log₀ fun _ => True)
      (fun _ w' => Unready i log₀ (fun _ => True) w' ∧ w'.view = w.view ∧
        verifySpend i.ext w.view = .ok () ∧ verifyAudit i.ext w.view = .ok ()) w₁ := by
    refine Through.bind (read h₁) fun _ w₂ ⟨h₂, hspend, hview₂⟩ => ?_
    refine (read h₂).mono (fun _ _ h => h) fun _ w₃ ⟨h₃, haudit, hview₃⟩ => ?_
    rw [hview₂, hview₁] at haudit hview₃
    rw [hview₁] at hspend
    exact ⟨h₃, hview₃, hspend, haudit⟩
  refine Through.bind (Through.attempt hverify) fun r w₂ hr => ?_
  split
  · obtain ⟨h₂, hview₂, hspend, haudit⟩ := hr
    refine Through.bind (P := fun reason w' => Unready i log₀ (fun _ => True) w' ∧
      (reason = "" → ¬ (w.view.clockGuard.halted = true ∧ w.view.clockGuard.haltReason ≠ ""))) ?_
      fun reason w₃ ⟨h₃, hreason⟩ => ?_
    · refine Through.bind (read h₂) fun guard w₃ ⟨h₃, hguard, _⟩ => .pure ⟨h₃, ?_⟩
      cases hguard
      rw [hview₂]
      cases w.view.clockGuard.halted <;> simp
    split
    · exact (through_refuseToServe _ h₃).mono (fun _ _ h => h) fun _ _ h => h.booted
    rename_i hrunning
    refine Through.bind (Through.attempt (through_bootReads h₃)) fun r w₄ hr => ?_
    split
    · refine (through_finishBoot (fun _ _ _ hF => ?_) _ _ hr).mono ?_ ?_
      · exact ⟨hF.1.imp fun _ hid => hid.cons, hF.2.imp fun _ hn => List.mem_cons_of_mem _ hn⟩
      · exact fun _ _ h => ⟨h.watched, h.unready, trivial⟩
      · exact fun _ w' ⟨hw, hF⟩ => ⟨hw, fun _ =>
          ⟨hspend, haudit, hreason (not_not.mp hrunning), hF.1, hF.2⟩⟩
    · exact (through_refuseToServe _ hr).mono (fun _ _ h => h) fun _ _ h => h.booted
    · exact (through_refuseToServe _ hr).mono (fun _ _ h => h) fun _ _ h => h.booted
    · exact hr
  · exact (through_refuseToServe _ hr).mono (fun _ _ h => h) fun _ _ h => h.booted
  · exact hr

/-! ### A signer that is not ready -/

/-- No signature was attempted in a session. -/
def Signless (es : List Event) : Prop := ∀ e ∈ es, isSign e = false

theorem goesOn_signless : GoesOn Signless :=
  fun _ _ he hes => List.forall_mem_cons.mpr ⟨he, hes⟩

theorem unready_memory (h : Unready i log₀ F w) :
    readMemory.Through env (Unready i log₀ F) (fun _ => Unready i log₀ F)
      (fun mem w' => Unready i log₀ F w' ∧ mem.ready = false) w :=
  .atomic h fun _ _ => ⟨⟨h.watched.same rfl rfl, h.unready, h.session⟩, h.unready⟩

/-- A signer that is not ready stays so, whatever it is called for, until it is booted. -/
theorem unready_serve {c : Call} (hc : c ≠ .boot) (hF : GoesOn F) (h : Unready i log₀ F w) :
    (serve i c).Through env (Unready i log₀ F) (fun _ => Unready i log₀ F)
      (fun _ => Unready i log₀ F) w := by
  have hup : Upheld i env (Unready i log₀ F) (Unready i log₀ F) := upheld_unready hF fun _ h => h
  cases c with
  | boot => exact absurd rfl hc
  | handle body =>
    refine Through.bind (P := fun _ => Unready i log₀ F) ?_ fun _ _ h => h
    have hhalted : Upholds env (Unready i log₀ F) (Unready i log₀ F) Anything Ledger.halted w :=
      (hup.read _ h).then fun _ _ h => .done h trivial
    refine Through.bind (hhalted.mono (fun _ _ h => h) fun _ _ h => h.1) fun reason w h => ?_
    split
    · exact h
    refine Through.bind (unready_memory h) fun mem w ⟨h, hmem⟩ => ?_
    rw [hmem]
    exact h
  | sweep =>
    show (sweepProceeds i).Through _ _ _ _ w
    unfold Policy.sweepProceeds
    generalize strip i.settings.sweepTo = recipient
    refine Through.bind (unready_memory h) fun mem w ⟨h, hmem⟩ => ?_
    rw [hmem, if_pos (.inr Bool.false_ne_true)]
    exact h

/-! ### Lives -/

/-- A call that came in during a life. -/
structure Visit where
  before : World
  call : Call
  script : List Choice

/-- The world that a call leaves, where it ends or is stopped. -/
def Visit.after (i : Instance) (v : Visit) : World := (execute i v.call v.script v.before).2

def Visit.status (i : Instance) (v : Visit) : Status := .after (execute i v.call v.script v.before).1

/-- A signature was attempted during a call. -/
def Visit.Signs (i : Instance) (v : Visit) : Prop := ∃ e ∈ session (v.after i).log, isSign e = true

/-- A life of the process from a world on: one call after the other, until one is stopped. -/
inductive Life (i : Instance) (w₀ : World) : List Visit → Status → World → Prop
  | start : Life i w₀ [] .running w₀
  | call {vs : List Visit} (v : Visit) (h : Life i w₀ vs .running v.before) :
      Life i w₀ (vs ++ [v]) (v.status i) (v.after i)

/-- The last boot among the calls cleared the signer. -/
def BootCleared (i : Instance) (vs : List Visit) : Prop :=
  ∃ us b us', vs = us ++ b :: us' ∧ b.call = .boot ∧
    Cleared i b.before.view (session (b.after i).log) ∧ ∀ u ∈ us', u.call ≠ .boot

theorem BootCleared.concat {vs : List Visit} {v : Visit} (h : BootCleared i vs)
    (hv : v.call ≠ .boot) : BootCleared i (vs ++ [v]) := by
  obtain ⟨us, b, us', rfl, hb, hcleared, hus⟩ := h
  refine ⟨us, b, us' ++ [v], by simp, hb, hcleared, fun u hu => ?_⟩
  rcases List.mem_append.mp hu with hu | hu
  · exact hus u hu
  · rw [List.mem_singleton.mp hu]
    exact hv

/-- What holds throughout a life. -/
structure Lived (i : Instance) (w₀ : World) (vs : List Visit) (status : Status) (w : World) : Prop where
  watched : Watched i w₀.log w
  ready : status = .running → w.mem.ready = true → BootCleared i vs
  signed : ∀ us v us', vs = us ++ v :: us' → v.Signs i → BootCleared i us

theorem watched_serve (c : Call) (h : Watched i log₀ w) :
    (serve i c).Through env (Watched i log₀) (fun _ => Watched i log₀) (fun _ => Watched i log₀) w := by
  cases c with
  | boot =>
    refine Through.bind ((through_boot h).mono (fun _ _ h => h.watched) fun _ _ h => h.1) ?_
    exact fun _ _ h => h
  | handle body =>
    exact Through.bind ((road_watched i log₀).handle body (fun _ _ => trivial) h) fun _ _ h => h
  | sweep => exact (sweepRoad_watched i log₀).sweepProceeds h

theorem boot_signless (h : Signless (session w.log)) (script : List Choice) :
    Signless (session ((serve i .boot).run script w).2.log) := by
  refine Steps.run (R := Quiet StaysHalted) ((steps_boot i).bind fun _ => Steps.pure _)
    (I := fun w => Signless (session w.log)) (fun c w w' h hstep => ?_) script h
  rcases hstep.log with hlog | ⟨e, he, hlog⟩
  · rw [hlog]
    exact h
  · cases he with
    | clock =>
      rw [hlog]
      exact goesOn_signless _ _ rfl h
    | rpc q hq =>
      rw [hlog]
      exact goesOn_signless _ _ rfl h

/-- What a boot has found that ended and left the signer ready. -/
theorem booted_cleared {script : List Choice} (h : Watched i log₀ w)
    (hrunning : Status.after (execute i .boot script w).1 = .running)
    (hready : (execute i .boot script w).2.mem.ready = true) :
    Cleared i w.view (session (execute i .boot script w).2.log) := by
  have hbegin : Watched i log₀ (w.record (.call .boot)) := h.event rfl rfl rfl
  have hserve : (serve i .boot).Through (fun _ _ => True) (Watched i log₀)
      (fun _ => Unready i log₀ fun _ => True) (fun _ => Booted i log₀ w.view)
      (w.record (.call .boot)) := by
    refine Through.bind (through_boot hbegin) ?_
    exact fun _ _ h => h
  have hrun := hserve.run (Process.admits_true _ script _)
  cases hout : (execute i .boot script w).1 with
  | returned r =>
    rw [show ((serve i .boot).run script (w.record (.call .boot))).1 = _ from hout] at hrun
    exact hrun.2 hready
  | raised e =>
    rw [show ((serve i .boot).run script (w.record (.call .boot))).1 = _ from hout] at hrun
    exact absurd (hrun.unready.symm.trans hready) Bool.false_ne_true
  | stopped =>
    rw [hout] at hrunning
    cases hrunning

/-- A call extends a life. -/
theorem Lived.call {w₀ : World} {vs : List Visit} (h : Lived i w₀ vs .running w) (c : Call)
    (script : List Choice) :
    Lived i w₀ (vs ++ [⟨w, c, script⟩]) (.after (execute i c script w).1) (execute i c script w).2 := by
  have hbegin : Watched i w₀.log (w.record (.call c)) := h.watched.event rfl rfl rfl
  have admits := fun {α : Type} (p : Code α) => Process.admits_true p script (w.record (.call c))
  -- a call of a signer that is not ready
  have asleep : ∀ {F}, GoesOn F → F [] → c ≠ .boot → w.mem.ready = false →
      Unready i w₀.log F (execute i c script w).2 := fun hF hnil hc hready =>
    (unready_serve hc hF (F := _) ⟨hbegin, hready, hnil⟩).anywhere (admits _)
  have hlast : Visit.Signs i ⟨w, c, script⟩ → BootCleared i vs := by
    rintro ⟨e, hmem, he⟩
    refine h.ready rfl (by_contra fun hready => ?_)
    have hsignless : Signless (session (execute i c script w).2.log) := by
      by_cases hc : c = .boot
      · subst hc
        exact boot_signless (fun _ hmem => absurd hmem List.not_mem_nil) script
      · exact (asleep goesOn_signless (fun _ hmem => absurd hmem List.not_mem_nil) hc
          (Bool.eq_false_of_not_eq_true hready)).session
    exact Bool.false_ne_true ((hsignless e hmem).symm.trans he)
  refine ⟨(watched_serve c hbegin).anywhere (admits _), fun hrunning hready => ?_,
    fun us v us' hvs hsigns => ?_⟩
  · by_cases hc : c = .boot
    · subst hc
      exact ⟨vs, ⟨w, .boot, script⟩, [], rfl, rfl, booted_cleared h.watched hrunning hready,
        fun _ hu => absurd hu List.not_mem_nil⟩
    · refine (h.ready rfl (by_contra fun hbefore => ?_)).concat hc
      have hstill := asleep (F := fun _ => True) (fun _ _ _ _ => trivial) trivial hc
        (Bool.eq_false_of_not_eq_true hbefore)
      exact Bool.false_ne_true (hstill.unready.symm.trans hready)
  · rcases List.eq_nil_or_concat us' with rfl | ⟨us'', last, rfl⟩
    · obtain ⟨rfl, hv⟩ := List.append_inj' hvs rfl
      cases hv
      exact hlast hsigns
    · rw [List.concat_eq_append, ← List.cons_append, ← List.append_assoc] at hvs
      obtain ⟨rfl, -⟩ := List.append_inj' hvs rfl
      exact h.signed us v us'' rfl hsigns

theorem Life.lived {w₀ : World} {vs : List Visit} {status : Status} (h : Life i w₀ vs status w)
    (hfresh : w₀.mem = .fresh) : Lived i w₀ vs status w := by
  induction h with
  | start =>
    refine ⟨⟨[], rfl, trivial, .inl (congrArg _ hfresh)⟩, fun _ hready => ?_, fun us v us' hvs => ?_⟩
    · rw [hfresh] at hready
      cases hready
    · exact absurd hvs.symm (List.append_ne_nil_of_right_ne_nil _ (List.cons_ne_nil _ _))
  | call v h ih => exact ih.call v.call v.script

/-- In every life of the process, whatever the database it starts on, the identity of the chain is
current at every signature: within the life the chain id, the domain separator, the authorization of
this key and the decimals of the token were read and found right, and the call of the signature read
the clock before this lapsed. -/
theorem signs_identified {w₀ : World} {vs : List Visit} {status : Status}
    (h : Life i w₀ vs status w) (hfresh : w₀.mem = .fresh) {later earlier : List Event} {e : Event}
    (hlog : w.log = later ++ e :: (earlier ++ w₀.log)) (he : isSign e = true) :
    Current i w₀.log earlier := by
  obtain ⟨es, heq, hsigns, -⟩ := (h.lived hfresh).watched
  rw [heq, ← List.cons_append, ← List.append_assoc] at hlog
  exact hsigns.at (List.append_cancel_right hlog) he

/-- In every life of the process, whatever the database it starts on, a call in which a signature is
attempted comes after a boot in which the books verified, the ledger was not halted, the chain was
identified and the nonces were counted, and no boot came in between. -/
theorem signs_booted {w₀ : World} {vs : List Visit} {status : Status} (h : Life i w₀ vs status w)
    (hfresh : w₀.mem = .fresh) {us us' : List Visit} {v : Visit} (hvs : vs = us ++ v :: us')
    (hsigns : v.Signs i) : BootCleared i us :=
  (h.lived hfresh).signed us v us' hvs hsigns

/-! ### A sample -/

section Sample

open EscrowSigner.Sample

/-- The choices of an environment in which the first debit is signed. -/
def fine : List Choice := ({ time := 0 } : Outside).script

def bootVisit : Visit := ⟨.initial, .boot, fine⟩

theorem signs_of_any {c : Call} {script : List Choice} {w : World}
    (h : (session ((serve i c).run script (w.record (.call c))).2.log).any isSign = true) :
    Visit.Signs i ⟨w, c, script⟩ :=
  List.any_eq_true.mp h

def debitVisit (w : World) : Visit := ⟨w, .handle [1], fine⟩

theorem debitVisit_before (w : World) : (debitVisit w).before = w := rfl

/-- A boot, then a debit. -/
theorem life_debit : ∃ w status, (debitVisit w).Signs (signer unlimited "") ∧
    Life (signer unlimited "") .initial [bootVisit, debitVisit w] status
      ((debitVisit w).after (signer unlimited "")) := by
  have hrunning : bootVisit.status (signer unlimited "") = .running := by decide +kernel
  have hboot : Life (signer unlimited "") .initial [bootVisit]
      (bootVisit.status (signer unlimited "")) (bootVisit.after (signer unlimited "")) :=
    Life.start.call bootVisit
  rw [hrunning] at hboot
  have hdebit : Life (signer unlimited "") .initial
      ([bootVisit] ++ [debitVisit (bootVisit.after (signer unlimited ""))])
        ((debitVisit (bootVisit.after (signer unlimited ""))).status (signer unlimited ""))
        ((debitVisit (bootVisit.after (signer unlimited ""))).after (signer unlimited "")) := by
    refine .call _ ?_
    rw [debitVisit_before]
    exact hboot
  refine ⟨bootVisit.after (signer unlimited ""), _, ?_, hdebit⟩
  have hcode : (do
      let decision ← answerParsed (signer unlimited "") (.ok ⟨escrow, debitData 1, Config.chainId, 100000, 0⟩)
      return some decision) = serve (signer unlimited "") (.handle [1]) :=
    serve_handle (parse_payload rfl rfl)
  have hany : ((session (((serve (signer unlimited "") (.handle [1])).run fine
      ((bootVisit.after (signer unlimited "")).record (.call (.handle [1])))).2.log)).any
        isSign) = true := by
    rw [← hcode]
    decide +kernel
  exact signs_of_any hany

/-- A debit is signed while the identity of the chain is current. -/
theorem signs_identified_debit : ∃ earlier, Current (signer unlimited "") World.initial.log earlier := by
  obtain ⟨w, status, ⟨e, hmem, he⟩, hlife⟩ := life_debit
  obtain ⟨later, earlier, hlog⟩ := List.append_of_mem (mem_of_mem_session hmem)
  have hsplit : ((debitVisit w).after (signer unlimited "")).log =
      later ++ e :: (earlier ++ World.initial.log) := by
    rw [hlog]
    exact congrArg _ (congrArg _ (List.append_nil earlier).symm)
  exact ⟨earlier, signs_identified hlife rfl hsplit he⟩

/-- A debit is signed after a boot that cleared the signer. -/
theorem signs_booted_debit : BootCleared (signer unlimited "") [bootVisit] := by
  obtain ⟨w, status, hsigns, hlife⟩ := life_debit
  have hvs : [bootVisit, debitVisit w] = [bootVisit] ++ debitVisit w :: [] := rfl
  exact signs_booted hlife rfl hvs hsigns

end Sample

end EscrowSigner.Machine
