import EscrowSigner.Machine.Sweeps

/-! The refinement: wherever the service gets to from a new database, in the middle of a call or
after it, the machine has a run to the same state. -/

namespace EscrowSigner.Machine

variable {σ : Setting} {φ : Phase} {w : World} {c : Call}

/-- A call, from any state in which it can come in. -/
theorem At.serve (h : At σ .idle w) (hask : request w.log = some c) :
    Leads σ (fun _ => Ends σ) (serve σ.i c) w := by
  cases c with
  | boot => exact Leads.bind (h.boot hask) fun _ _ _ h => Triple.pure h
  | handle body => exact Leads.bind (h.handle hask) fun _ _ _ h => Triple.pure h.ends
  | sweep => exact h.sweepProceeds hask

/-- The call comes in: the machine is ready for its first step. -/
theorem At.receive (h : At σ φ w) (script : List Choice) (hφ : φ = .idle ∨ φ = .ended)
    (hok : σ.ok (stateOf σ.i w) c script) : At σ .idle (w.record (.call c)) :=
  h.step h.closed (.receive c script hφ hok)

/-- The execution of a call is a run of the machine: a call that returns or raises does so where a
call may end. -/
theorem At.execute {script : List Choice} (h : At σ φ w) (hφ : φ = .idle ∨ φ = .ended)
    (hok : σ.ok (stateOf σ.i w) c script)
    (henv : (EscrowSigner.serve σ.i c).Admits σ.permits script (w.record (.call c))) :
    Process.Meets σ.Safe (fun _ => Ends σ) (EscrowSigner.execute σ.i c script w).1
      (EscrowSigner.execute σ.i c script w).2 :=
  (((h.receive script hφ hok).serve rfl).run henv).mono fun r h => by
    cases r <;> exact h.2

/-- The first state: an empty ledger and a call to come. -/
theorem sound_initial (i : Instance) : Sound i .ended (stateOf i .initial) where
  keys := List.nodup_nil
  own _ h := absurd h List.not_mem_nil
  nonces _ h := absurd h List.not_mem_nil
  next := le_rfl
  attempts _ h := absurd h List.not_mem_nil
  phase := trivial

/-- The setting of a service that starts on a new database. -/
def fromScratch (i : Instance) (env : State → Choice → Prop)
    (ok : State → Call → List Choice → Prop) : Setting :=
  ⟨i, env, ok, (.ended, stateOf i .initial), sound_initial i⟩

/-- The worlds that the service reaches when the conditions look only at what the machine sees. -/
abbrev Reaches (i : Instance) (env : State → Choice → Prop)
    (ok : State → Call → List Choice → Prop) : Status → World → Prop :=
  Reach i (fun w => env (stateOf i w)) fun w => ok (stateOf i w)

variable {i : Instance} {env : State → Choice → Prop} {ok : State → Call → List Choice → Prop}
  {status : Status}

/-- Where the machine is when the service runs, and when it is stopped. -/
def Left (σ : Setting) : Status → World → Prop
  | .running, w => ∃ φ, At σ φ w ∧ (φ = .idle ∨ φ = .ended)
  | .stopped, w => ∃ φ, σ.Run φ w

/-- Between two calls the machine waits for the next one. -/
theorem Ends.left (h : Ends σ w) : Left σ .running w := by
  obtain ⟨φ, hat, -⟩ := h
  exact ⟨.ended, hat.stay .finish, .inr rfl⟩

theorem Left.of_meets {o : Process.Outcome Exn (Option Policy.Decision)}
    (h : Process.Meets σ.Safe (fun _ => Ends σ) o w) : Left σ (.after o) w := by
  cases o with
  | returned d => exact Ends.left h
  | raised e => exact Ends.left h
  | stopped =>
    obtain ⟨_, φ, hrun, -⟩ := h
    exact ⟨φ, hrun⟩

theorem Left.run (h : Left σ status w) : ∃ φ, σ.Run φ w := by
  cases status with
  | running =>
    obtain ⟨φ, hat, -⟩ := h
    exact ⟨φ, hat.run⟩
  | stopped => exact h

/-- The refinement: the service only reaches what the machine reaches. -/
theorem Reaches.left (h : Reaches i env ok status w) : Left (fromScratch i env ok) status w := by
  induction h with
  | initial => exact ⟨.ended, ⟨.refl, rfl⟩, .inr rfl⟩
  | call c script h hok henv ih =>
    obtain ⟨φ, hat, hφ⟩ := ih
    exact .of_meets (hat.execute hφ hok henv)
  | restart h ih =>
    obtain ⟨φ, hrun⟩ := ih.run
    exact ⟨.ended, ⟨hrun.tail .finish, rfl⟩, .inr rfl⟩

/-- What every step of the machine keeps holds wherever it is left. -/
theorem Left.invariant {I : Phase → State → Prop} (h : Left (fromScratch i env ok) status w)
    (hinit : I .ended (stateOf i .initial))
    (hstep : ∀ φ s φ' s', Sound i φ s → I φ s → Step i env ok (φ, s) (φ', s') → I φ' s') :
    ∃ φ, Sound i φ (stateOf i w) ∧ I φ (stateOf i w) := by
  obtain ⟨φ, hrun⟩ := h.run
  refine ⟨φ, Runs.invariant (I := fun φ s => Sound i φ s ∧ I φ s) hrun ⟨sound_initial i, hinit⟩ ?_⟩
  exact fun φ s φ' s' h hs => ⟨sound_step h.1 hs, hstep φ s φ' s' h.1 h.2 hs⟩

/-- An invariant of the machine holds wherever the service gets to. -/
theorem Reaches.invariant {I : Phase → State → Prop} (h : Reaches i env ok status w)
    (hinit : I .ended (stateOf i .initial))
    (hstep : ∀ φ s φ' s', Sound i φ s → I φ s → Step i env ok (φ, s) (φ', s') → I φ' s') :
    ∃ φ, Sound i φ (stateOf i w) ∧ I φ (stateOf i w) :=
  h.left.invariant hinit hstep

end EscrowSigner.Machine
