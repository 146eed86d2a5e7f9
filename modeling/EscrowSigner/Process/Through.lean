import EscrowSigner.Process.Exec

/-! Executions that can be stopped.  `Through env S E Q` says of a process that `S` holds wherever it
can be stopped, and how it can end.  Where nothing is asked of the states in between, it is `Under`. -/

namespace Process

variable {κ σ ε α β : Type}

/-- From `s`, whatever the choices that `env` allows, `S` holds before every step, and the process
returns into `Q` or raises into `E`. -/
def Through (env : σ → κ → Prop) (S : σ → Prop) (E : ε → σ → Prop) (Q : α → σ → Prop)
    (p : Process κ σ ε α) (s : σ) : Prop :=
  p.Wp env (fun s _ => S s)
    (fun r s' => match r with
      | .ok a => Q a s'
      | .error e => E e s') s

section Through

variable {env : σ → κ → Prop} {S : σ → Prop} {E E' : ε → σ → Prop} {P Q : α → σ → Prop}
  {R : β → σ → Prop} {p : Process κ σ ε α} {s : σ}

theorem Through.pure {a : α} (h : Q a s) : (Pure.pure a : Process κ σ ε α).Through env S E Q s := h

theorem Through.ofExcept {r : Except ε α} (hok : ∀ a, r = .ok a → Q a s)
    (herr : ∀ e, r = .error e → E e s) : (ofExcept r : Process κ σ ε α).Through env S E Q s := by
  cases r with
  | ok a => exact hok a rfl
  | error e => exact herr e rfl

theorem Through.bind {f : α → Process κ σ ε β} (hp : p.Through env S E P s)
    (hf : ∀ a s', P a s' → (f a).Through env S E R s') : (p >>= f).Through env S E R s := by
  refine wp_bind.mpr (Wp.mono hp fun r s' h => ?_)
  cases r with
  | ok a => exact hf a s' h
  | error e => exact h

theorem Through.attempt (hp : p.Through env S E P s) :
    p.attempt.Through env S E' (fun r s' => match r with
      | .ok a => P a s'
      | .error e => E e s') s :=
  wp_attempt.mpr (Wp.mono hp fun _ _ h => h)

theorem Through.mono (hp : p.Through env S E P s) (hE : ∀ e s', E e s' → E' e s')
    (hQ : ∀ a s', P a s' → Q a s') : p.Through env S E' Q s := by
  refine Wp.mono hp fun r s' h => ?_
  cases r with
  | ok a => exact hQ a s' h
  | error e => exact hE e s' h

theorem Through.atomic {f : κ → σ → σ × Except ε α} (hs : S s)
    (h : ∀ c, env s c → match (f c s).2 with
      | .ok a => Q a (f c s).1
      | .error e => E e (f c s).1) : (atomic f : Process κ σ ε α).Through env S E Q s :=
  wp_atomic.mpr ⟨hs, h⟩

/-- Steps that keep `I`, of states in which the process can be stopped. -/
theorem Steps.through {L : κ → σ → σ → Prop} {I : σ → Prop} (hp : p.Steps L)
    (hI : ∀ c s s', I s → L c s s' → I s') (hS : ∀ s, I s → S s) (hs : I s) :
    p.Through env S (fun _ => I) (fun _ => I) s := by
  have hwp : p.Wp env (fun s _ => S s) (fun _ => I) s := hp.wp hI (fun s _ h _ => hS s h) hs
  refine Wp.mono hwp fun r _ h => ?_
  cases r <;> exact h

/-- Where an execution ends or is stopped. -/
theorem Through.run (hp : p.Through env S E Q s) {script : List κ} (ha : p.Admits env script s) :
    match (p.run script s).1 with
    | .returned a => Q a (p.run script s).2
    | .raised e => E e (p.run script s).2
    | .stopped => S (p.run script s).2 := by
  have hm := Wp.run hp ha
  cases ho : (p.run script s).1 with
  | returned a =>
    rw [ho] at hm
    exact hm
  | raised e =>
    rw [ho] at hm
    exact hm
  | stopped =>
    rw [ho] at hm
    exact hm.choose_spec

/-- A property of all states where the process ends or can be stopped. -/
theorem Through.anywhere {I : σ → Prop} (hp : p.Through env I (fun _ => I) (fun _ => I) s)
    {script : List κ} (ha : p.Admits env script s) : I (p.run script s).2 := by
  have hm := hp.run ha
  cases ho : (p.run script s).1 with
  | returned a =>
    rw [ho] at hm
    exact hm
  | raised e =>
    rw [ho] at hm
    exact hm
  | stopped =>
    rw [ho] at hm
    exact hm

end Through

end Process
