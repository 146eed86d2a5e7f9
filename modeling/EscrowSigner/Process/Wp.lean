import EscrowSigner.Process.Basic

/-! Weakest preconditions for processes.  `Wp env safe p Q s` says that from `s`, whatever the
choices that `env` allows, `safe` holds at every step that `p` comes to, of the state before the step
and the states that it may lead to, and that `Q` holds of how `p` ends. -/

namespace Process

variable {κ σ ε α β : Type}

/-- The weakest precondition of a process: `safe` at each step, and `Q` of the result and the state
at its end. -/
def Wp (env : σ → κ → Prop) (safe : σ → (κ → σ) → Prop) :
    Process κ σ ε α → (Except ε α → σ → Prop) → σ → Prop
  | ret a, Q, s => Q (.ok a) s
  | raise e, Q, s => Q (.error e) s
  | step next rest, Q, s =>
    safe s (next · s) ∧ ∀ c, env s c → (rest c s).Wp env safe Q (next c s)

variable {env : σ → κ → Prop} {safe : σ → (κ → σ) → Prop}

@[simp] theorem wp_ret {a : α} {Q : Except ε α → σ → Prop} {s : σ} :
    (ret a : Process κ σ ε α).Wp env safe Q s ↔ Q (.ok a) s := Iff.rfl

@[simp] theorem wp_raise {e : ε} {Q : Except ε α → σ → Prop} {s : σ} :
    (raise e : Process κ σ ε α).Wp env safe Q s ↔ Q (.error e) s := Iff.rfl

@[simp] theorem wp_ofExcept {r : Except ε α} {Q : Except ε α → σ → Prop} {s : σ} :
    (ofExcept r : Process κ σ ε α).Wp env safe Q s ↔ Q r s := by
  cases r <;> rfl

@[simp] theorem wp_atomic {f : κ → σ → σ × Except ε α} {Q : Except ε α → σ → Prop} {s : σ} :
    (atomic f : Process κ σ ε α).Wp env safe Q s ↔
      safe s (fun c => (f c s).1) ∧ ∀ c, env s c → Q (f c s).2 (f c s).1 := by
  simp only [atomic, Wp, wp_ofExcept]

/-- What a handler-free continuation has to meet: `f` on a value, the postcondition itself on an
exception. -/
def andThen (env : σ → κ → Prop) (safe : σ → (κ → σ) → Prop) (f : α → Process κ σ ε β)
    (Q : Except ε β → σ → Prop) : Except ε α → σ → Prop
  | .ok a, s => (f a).Wp env safe Q s
  | .error e, s => Q (.error e) s

@[simp] theorem andThen_ok {f : α → Process κ σ ε β} {Q : Except ε β → σ → Prop} {a : α} {s : σ} :
    andThen env safe f Q (.ok a) s ↔ (f a).Wp env safe Q s := Iff.rfl

@[simp] theorem andThen_error {f : α → Process κ σ ε β} {Q : Except ε β → σ → Prop} {e : ε}
    {s : σ} : andThen env safe f Q (.error e) s ↔ Q (.error e) s := Iff.rfl

@[simp] theorem wp_bind {p : Process κ σ ε α} {f : α → Process κ σ ε β}
    {Q : Except ε β → σ → Prop} {s : σ} :
    (p.bind f).Wp env safe Q s ↔ p.Wp env safe (andThen env safe f Q) s := by
  induction p generalizing s with
  | ret a => rfl
  | raise e => rfl
  | step next rest ih =>
    simp only [bind, Wp]
    exact and_congr_right fun _ => forall_congr' fun c => imp_congr_right fun _ => ih c s

@[simp] theorem wp_attempt {p : Process κ σ ε α} {Q : Except ε (Except ε α) → σ → Prop} {s : σ} :
    p.attempt.Wp env safe Q s ↔ p.Wp env safe (fun r => Q (.ok r)) s := by
  induction p generalizing s with
  | ret a => rfl
  | raise e => rfl
  | step next rest ih =>
    simp only [attempt, Wp]
    exact and_congr_right fun _ => forall_congr' fun c => imp_congr_right fun _ => ih c s

/-- The rule of consequence. -/
theorem Wp.mono {p : Process κ σ ε α} {Q Q' : Except ε α → σ → Prop} {s : σ}
    (h : p.Wp env safe Q s) (hQ : ∀ r s', Q r s' → Q' r s') : p.Wp env safe Q' s := by
  induction p generalizing s with
  | ret a => exact hQ _ _ h
  | raise e => exact hQ _ _ h
  | step next rest ih => exact ⟨h.1, fun c hc => ih c s (h.2 c hc)⟩

/-- A process with weaker guarantees, in an environment that allows less. -/
theorem Wp.weaken {env' : σ → κ → Prop} {safe' : σ → (κ → σ) → Prop} {p : Process κ σ ε α}
    {Q : Except ε α → σ → Prop} {s : σ} (h : p.Wp env safe Q s)
    (henv : ∀ s c, env' s c → env s c) (hsafe : ∀ s f, safe s f → safe' s f) :
    p.Wp env' safe' Q s := by
  induction p generalizing s with
  | ret a => exact h
  | raise e => exact h
  | step next rest ih => exact ⟨hsafe s _ h.1, fun c hc => ih c s (h.2 c (henv s c hc))⟩

theorem Wp.and {p : Process κ σ ε α} {Q Q' : Except ε α → σ → Prop} {s : σ}
    (h : p.Wp env safe Q s) (h' : p.Wp env safe Q' s) :
    p.Wp env safe (fun r s' => Q r s' ∧ Q' r s') s := by
  induction p generalizing s with
  | ret a => exact ⟨h, h'⟩
  | raise e => exact ⟨h, h'⟩
  | step next rest ih => exact ⟨h.1, fun c hc => ih c s (h.2 c hc) (h'.2 c hc)⟩

/-- What `Wp` promises of an outcome. -/
def Meets (safe : σ → (κ → σ) → Prop) (Q : Except ε α → σ → Prop) : Outcome ε α → σ → Prop
  | .returned a, s => Q (.ok a) s
  | .raised e, s => Q (.error e) s
  | .stopped, s => ∃ next, safe s next

theorem Meets.mono {Q Q' : Except ε α → σ → Prop} {o : Outcome ε α} {s : σ} (h : Meets safe Q o s)
    (hQ : ∀ r, Q r s → Q' r s) : Meets safe Q' o s := by
  cases o with
  | returned a => exact hQ _ h
  | raised e => exact hQ _ h
  | stopped => exact h

/-- `Wp` is sound for `run`: every execution whose choices `env` allows ends as promised. -/
theorem Wp.run {p : Process κ σ ε α} {Q : Except ε α → σ → Prop} {s : σ}
    (h : p.Wp env safe Q s) {script : List κ} (ha : p.Admits env script s) :
    Meets safe Q (p.run script s).1 (p.run script s).2 := by
  induction p generalizing script s with
  | ret a => exact h
  | raise e => exact h
  | step next rest ih =>
    cases script with
    | nil => exact ⟨_, h.1⟩
    | cons c script => exact ih c s (h.2 c ha.1) ha.2

theorem run_nil_snd (p : Process κ σ ε α) (s : σ) : (p.run [] s).2 = s := by
  cases p <;> rfl

/-- Where an execution is stopped, `safe` relates the state to the states after one more step. -/
theorem Wp.run_next {p : Process κ σ ε α} {Q : Except ε α → σ → Prop} {s : σ}
    (h : p.Wp env safe Q s) {script : List κ} (ha : p.Admits env script s)
    (hstop : (p.run script s).1 = .stopped) :
    safe (p.run script s).2 fun c => (p.run (script ++ [c]) s).2 := by
  induction p generalizing script s with
  | ret a => cases hstop
  | raise e => cases hstop
  | step next rest ih =>
    cases script with
    | nil =>
      simp only [List.nil_append, Process.run, run_nil_snd]
      exact h.1
    | cons c script => exact ih c s (h.2 c ha.1) ha.2 hstop

end Process
