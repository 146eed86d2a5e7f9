import EscrowSigner.Machine.Identity

/-! The trail of a call: what no event of a call breaks holds of the log wherever the call ends or is
stopped, from any world. -/

namespace EscrowSigner.Machine

open Policy Process

variable {i : Instance} {env : World → Choice → Prop} {F : List Event → Prop} {w w' : World}

/-- No event breaks `F`, but for the arrival of a call. -/
def Unbroken (F : List Event → Prop) : Prop := ∀ e es, isCall e = false → F es → F (e :: es)

/-- `F` holds of the log. -/
def Trail (F : List Event → Prop) (w : World) : Prop := F w.log

theorem Trail.event (hF : Unbroken F) (h : Trail F w) {e : Event} (he : isCall e = false)
    (hlog : w'.log = e :: w.log) : Trail F w' := by
  unfold Trail
  rw [hlog]
  exact hF e _ he h

theorem Trail.same (h : Trail F w) (hlog : w'.log = w.log) : Trail F w' := by
  unfold Trail
  rw [hlog]
  exact h

theorem Trail.ledger (hF : Unbroken F) (c : Choice) (w w' : World) (h : Trail F w)
    (hstep : LedgerStep c w w') : Trail F w' :=
  hstep.log.elim h.same (h.event hF rfl)

theorem Trail.quiet (hF : Unbroken F) {K : Tables → Tables → Prop} (c : Choice) (w w' : World)
    (h : Trail F w) (hstep : Quiet K c w w') : Trail F w' := by
  rcases hstep.log with hlog | ⟨e, hp, hlog⟩
  · exact h.same hlog
  · exact h.event hF (by cases hp <;> rfl) hlog

theorem upheld_trail (hF : Unbroken F) : UpheldSigning i env (Trail F) (Trail F) :=
  upheldSigning_of_steps i (Trail.ledger hF) (fun _ _ _ h => h.event hF rfl rfl)
    (fun _ _ _ _ _ h => h.event hF rfl rfl) fun _ h => h

/-- A part that neither signs nor sends. -/
theorem trail_quiet {α : Type} {K : Tables → Tables → Prop} {p : Code α} (hF : Unbroken F)
    (hp : p.Steps (Quiet K)) (h : Trail F w) :
    p.Through env (Trail F) (fun _ => Trail F) (fun _ => Trail F) w :=
  hp.through (Trail.quiet hF) (fun _ h => h) h

theorem trail_verify (hF : Unbroken F) (h : Trail F w) :
    Upholds env (Trail F) (Trail F) Anything (verifyChainIdentity i false) w :=
  (trail_quiet hF (steps_verifyChainIdentity (K := fun _ _ => True) i false) h).mono
    (fun _ _ h => h) fun _ _ h => ⟨h, trivial⟩

theorem trail_handle (hF : Unbroken F) (body : Bytes) (h : Trail F w) :
    (handle i body).Through env (Trail F) (fun _ => Trail F) (fun _ => Trail F) w := by
  have hspeaks : ∀ {common : Common}, True →
      SpeaksSigned (Trail F) (fun _ => Trail F) common := fun _ =>
    { refused := fun h _ _ _ => h, capped := fun h _ _ => h, replayed := fun h _ _ => h,
      signed := fun h _ _ => h }
  have hroad : Road i env (Trail F) (Trail F) (Trail F) (Trail F) (fun _ => Trail F)
      fun _ => True := (upheld_trail hF).road (trail_verify hF) hspeaks
  exact hroad.handle body (fun _ _ => trivial) h

/-- What no event of a call breaks, a call keeps. -/
theorem trail_serve (hF : Unbroken F) (c : Call) (h : Trail F w) :
    (serve i c).Through env (Trail F) (fun _ => Trail F) (fun _ => Trail F) w := by
  cases c with
  | boot => exact Through.bind (trail_quiet hF (steps_boot i) h) fun _ _ h => h
  | handle body => exact Through.bind (trail_handle hF body h) fun _ _ h => h
  | sweep =>
    have hreports : ReportsSigned i env (Trail F) (Trail F) (fun _ => Trail F) :=
      { audit := fun d _ h => upholds_auditSweep (Trail.ledger hF) (fun _ h => h) d h
        silent := fun h => h, refused := fun h _ _ => h, signed := fun h _ _ => h }
    exact ((upheld_trail hF).sweepRoad (trail_verify hF) hreports).sweepProceeds h

end EscrowSigner.Machine
