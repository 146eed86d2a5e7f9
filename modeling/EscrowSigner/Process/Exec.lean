import EscrowSigner.Process.Frame

/-! Executions that hand on what they leave: `exec` returns the choices that a process did not
consume, so the parts of a process run one after the other on one script.  `Ends E Q` says how a
process can end, whatever the choices. -/

namespace Process

variable {κ σ ε α β : Type}

/-- The execution of a process on a script, with the choices that are left. -/
def exec : Process κ σ ε α → List κ → σ → Outcome ε α × σ × List κ
  | ret a, script, s => (.returned a, s, script)
  | raise e, script, s => (.raised e, s, script)
  | step _ _, [], s => (.stopped, s, [])
  | step next rest, c :: script, s => (rest c s).exec script (next c s)

theorem run_eq_exec (p : Process κ σ ε α) (script : List κ) (s : σ) :
    p.run script s = ((p.exec script s).1, (p.exec script s).2.1) := by
  induction p generalizing script s with
  | ret a => rfl
  | raise e => rfl
  | step next rest ih =>
    cases script with
    | nil => rfl
    | cons c script => exact ih c s script _

/-- The second part runs on what the first part leaves. -/
theorem exec_bind (p : Process κ σ ε α) (f : α → Process κ σ ε β) (script : List κ) (s : σ) :
    (p.bind f).exec script s =
      match p.exec script s with
      | (.returned a, s', rest) => (f a).exec rest s'
      | (.raised e, s', rest) => (.raised e, s', rest)
      | (.stopped, s', rest) => (.stopped, s', rest) := by
  induction p generalizing script s with
  | ret a => rfl
  | raise e => rfl
  | step next rest ih =>
    cases script with
    | nil => rfl
    | cons c script => exact ih c s script _

/-- The body of a `try` ends where the handlers begin. -/
theorem exec_attempt (p : Process κ σ ε α) (script : List κ) (s : σ) :
    p.attempt.exec script s =
      match p.exec script s with
      | (.returned a, s', rest) => (.returned (.ok a), s', rest)
      | (.raised e, s', rest) => (.returned (.error e), s', rest)
      | (.stopped, s', rest) => (.stopped, s', rest) := by
  induction p generalizing script s with
  | ret a => rfl
  | raise e => rfl
  | step next rest ih =>
    cases script with
    | nil => rfl
    | cons c script => exact ih c s script _

/-- One atomic step, and what it leaves. -/
theorem exec_atomic (f : κ → σ → σ × Except ε α) (c : κ) (script : List κ) (s : σ) :
    (atomic f).exec (c :: script) s =
      match (f c s).2 with
      | .ok a => (.returned a, (f c s).1, script)
      | .error e => (.raised e, (f c s).1, script) := by
  show (ofExcept (f c s).2 : Process κ σ ε α).exec script (f c s).1 = _
  cases (f c s).2 <;> rfl

theorem bind_assoc {γ : Type} (p : Process κ σ ε α) (f : α → Process κ σ ε β)
    (g : β → Process κ σ ε γ) : (p.bind f).bind g = p.bind fun a => (f a).bind g := by
  induction p with
  | ret a => rfl
  | raise e => rfl
  | step next rest ih => exact congrArg (step next) (funext fun c => funext fun s => ih c s)

/-- A `try` around two parts: the second runs only when the first returned. -/
theorem attempt_bind (p : Process κ σ ε α) (f : α → Process κ σ ε β) :
    (p.bind f).attempt =
      p.attempt.bind fun r => match r with
        | .ok a => (f a).attempt
        | .error e => ret (.error e) := by
  induction p with
  | ret a => rfl
  | raise e => rfl
  | step next rest ih => exact congrArg (step next) (funext fun c => funext fun s => ih c s)

/-- A sequence returns when both of its parts do. -/
theorem exec_bind_returned {p : Process κ σ ε α} {f : α → Process κ σ ε β} {script rest : List κ}
    {s s' : σ} {b : β} :
    (p >>= f).exec script s = (.returned b, s', rest) ↔
      ∃ a s₁ r₁, p.exec script s = (.returned a, s₁, r₁) ∧
        (f a).exec r₁ s₁ = (.returned b, s', rest) := by
  rw [bind_eq, exec_bind]
  cases p.exec script s with
  | mk o r =>
    obtain ⟨s₁, r₁⟩ := r
    cases o with
    | returned a =>
      refine ⟨fun h => ⟨a, s₁, r₁, rfl, h⟩, ?_⟩
      rintro ⟨a', s₁', r₁', heq, h⟩
      cases heq
      exact h
    | raised e => exact ⟨fun h => (by cases h), fun ⟨_, _, _, h, _⟩ => (by cases h)⟩
    | stopped => exact ⟨fun h => (by cases h), fun ⟨_, _, _, h, _⟩ => (by cases h)⟩

/-- A step that returns consumes one choice. -/
theorem exec_atomic_returned {f : κ → σ → σ × Except ε α} {script rest : List κ} {s s' : σ} {a : α} :
    (atomic f).exec script s = (.returned a, s', rest) ↔
      ∃ c, script = c :: rest ∧ f c s = (s', .ok a) := by
  cases script with
  | nil => exact ⟨fun h => (by cases h), fun ⟨_, h, _⟩ => (by cases h)⟩
  | cons c script =>
    cases hf : f c s with
    | mk s₁ r =>
      rw [exec_atomic, hf]
      cases r with
      | ok a' =>
        refine ⟨fun h => ?_, fun ⟨c', hc, h⟩ => ?_⟩
        · cases h
          exact ⟨c, rfl, hf⟩
        · cases hc
          cases hf.symm.trans h
          rfl
      | error e =>
        refine ⟨fun h => (by cases h), fun ⟨c', hc, h⟩ => ?_⟩
        cases hc
        cases hf.symm.trans h

/-! ### How a process ends -/

/-- From `s`, whatever the choices that `env` allows, the process returns into `Q` or raises into
`E`. -/
def Under (env : σ → κ → Prop) (E : ε → σ → Prop) (Q : α → σ → Prop) (p : Process κ σ ε α)
    (s : σ) : Prop :=
  p.Wp env (fun _ _ => True)
    (fun r s' => match r with
      | .ok a => Q a s'
      | .error e => E e s') s

/-- Whatever the choices. -/
abbrev Ends (E : ε → σ → Prop) (Q : α → σ → Prop) (p : Process κ σ ε α) (s : σ) : Prop :=
  p.Under (fun _ _ => True) E Q s

section Under

variable {env env' : σ → κ → Prop} {E E' : ε → σ → Prop} {P Q : α → σ → Prop} {R : β → σ → Prop}
  {p : Process κ σ ε α} {s : σ}

theorem Under.pure {a : α} (h : Q a s) : (Pure.pure a : Process κ σ ε α).Under env E Q s := h

theorem Under.raise {e : ε} (h : E e s) : (raise e : Process κ σ ε α).Under env E Q s := h

theorem Under.bind {f : α → Process κ σ ε β} (hp : p.Under env E P s)
    (hf : ∀ a s', P a s' → (f a).Under env E R s') : (p >>= f).Under env E R s := by
  refine wp_bind.mpr (Wp.mono hp fun r s' h => ?_)
  cases r with
  | ok a => exact hf a s' h
  | error e => exact h

theorem Under.attempt (hp : p.Under env E P s) :
    p.attempt.Under env E' (fun r s' => match r with
      | .ok a => P a s'
      | .error e => E e s') s :=
  wp_attempt.mpr (Wp.mono hp fun _ _ h => h)

theorem Under.mono (hp : p.Under env E P s) (hE : ∀ e s', E e s' → E' e s')
    (hQ : ∀ a s', P a s' → Q a s') : p.Under env E' Q s := by
  refine Wp.mono hp fun r s' h => ?_
  cases r with
  | ok a => exact hQ a s' h
  | error e => exact hE e s' h

/-- An environment that allows less. -/
theorem Under.weaken (hp : p.Under env E P s) (henv : ∀ s c, env' s c → env s c) :
    p.Under env' E P s := Wp.weaken hp henv fun _ _ h => h

theorem Under.and (hp : p.Under env E P s) (hp' : p.Under env E' Q s) :
    p.Under env (fun e s' => E e s' ∧ E' e s') (fun a s' => P a s' ∧ Q a s') s := by
  refine Wp.mono (Wp.and hp hp') fun r s' h => ?_
  cases r <;> exact h

theorem Under.atomic {f : κ → σ → σ × Except ε α}
    (h : ∀ c, env s c → match (f c s).2 with
      | .ok a => Q a (f c s).1
      | .error e => E e (f c s).1) : (atomic f : Process κ σ ε α).Under env E Q s :=
  wp_atomic.mpr ⟨trivial, h⟩

theorem Under.trivial (p : Process κ σ ε α) (s : σ) :
    p.Under env (fun _ _ => True) (fun _ _ => True) s := by
  induction p generalizing s with
  | ret a => exact True.intro
  | raise e => exact True.intro
  | step next rest ih => exact ⟨True.intro, fun c _ => ih c s _⟩

/-- What a process that ends so does on a script. -/
theorem Under.exec (hp : p.Under env E Q s) {script : List κ} (ha : p.Admits env script s) :
    match p.exec script s with
    | (.returned a, s', _) => Q a s'
    | (.raised e, s', _) => E e s'
    | (.stopped, _, _) => True := by
  have hm := Wp.run hp ha
  rw [run_eq_exec] at hm
  cases ho : p.exec script s with
  | mk o r =>
    rw [ho] at hm
    cases o with
    | returned a => exact hm
    | raised e => exact hm
    | stopped => trivial

end Under

/-- Every exception that a process may raise is one of `S`. -/
def Raises (S : ε → Prop) : Process κ σ ε α → Prop
  | ret _ => True
  | raise e => S e
  | step _ rest => ∀ c s, (rest c s).Raises S

section Raises

variable {S : ε → Prop} {p : Process κ σ ε α}

theorem Raises.pure (a : α) : (Pure.pure a : Process κ σ ε α).Raises S := trivial

theorem Raises.raise {e : ε} (h : S e) : (raise e : Process κ σ ε α).Raises S := h

theorem Raises.ofExcept {r : Except ε α} (h : ∀ e, r = .error e → S e) :
    (ofExcept r : Process κ σ ε α).Raises S := by
  cases r with
  | ok a => trivial
  | error e => exact h e rfl

theorem Raises.bind {f : α → Process κ σ ε β} (hp : p.Raises S) (hf : ∀ a, (f a).Raises S) :
    (p >>= f).Raises S := by
  induction p with
  | ret a => exact hf a
  | raise e => exact hp
  | step next rest ih => exact fun c s => ih c s (hp c s)

/-- The body of a `try` raises nothing. -/
theorem Raises.attempt (p : Process κ σ ε α) : p.attempt.Raises S := by
  induction p with
  | ret a => trivial
  | raise e => trivial
  | step next rest ih => exact fun c s => ih c s

theorem Raises.atomic {f : κ → σ → σ × Except ε α} (h : ∀ c s e, (f c s).2 = .error e → S e) :
    (atomic f : Process κ σ ε α).Raises S :=
  fun c s => Raises.ofExcept fun e he => h c s e he

theorem Raises.under (h : p.Raises S) (env : σ → κ → Prop) (s : σ) :
    p.Under env (fun e _ => S e) (fun _ _ => True) s := by
  induction p generalizing s with
  | ret a => trivial
  | raise e => exact h
  | step next rest ih => exact ⟨trivial, fun c _ => ih c s (h c s) _⟩

end Raises

section Ends

variable {E : ε → σ → Prop} {Q : α → σ → Prop} {p : Process κ σ ε α} {s s' : σ}
  {script rest : List κ}

theorem Ends.returned (hp : p.Ends E Q s) {a : α}
    (ho : p.exec script s = (.returned a, s', rest)) : Q a s' := by
  have h := Under.exec hp (admits_true p script s)
  rw [ho] at h
  exact h

theorem Ends.raised (hp : p.Ends E Q s) {e : ε}
    (ho : p.exec script s = (.raised e, s', rest)) : E e s' := by
  have h := Under.exec hp (admits_true p script s)
  rw [ho] at h
  exact h

end Ends

end Process
