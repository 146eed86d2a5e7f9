import EscrowSigner.Process.Wp

/-! Frames: what every step of a process does to the state, wherever the process stands.  `Steps R`
says that each step relates the state before it to the state after it by `R`, so what `R` keeps holds
throughout.  `Keeps I Q` follows one execution: the state keeps `I`, and what is returned meets
`Q`. -/

namespace Process

variable {κ σ ε α β : Type} {R R' : κ → σ → σ → Prop}

/-- Every step of a process relates the state before it to the state after it. -/
def Steps (R : κ → σ → σ → Prop) : Process κ σ ε α → Prop
  | step next rest => ∀ c s, R c s (next c s) ∧ (rest c s).Steps R
  | _ => True

theorem Steps.pure (a : α) : (Pure.pure a : Process κ σ ε α).Steps R := trivial

theorem Steps.raise (e : ε) : (.raise e : Process κ σ ε α).Steps R := trivial

theorem Steps.bind {p : Process κ σ ε α} {f : α → Process κ σ ε β} (hp : p.Steps R)
    (hf : ∀ a, (f a).Steps R) : (p >>= f).Steps R := by
  induction p with
  | ret a => exact hf a
  | raise e => trivial
  | step next rest ih => exact fun c s => ⟨(hp c s).1, ih c s (hp c s).2⟩

theorem Steps.attempt {p : Process κ σ ε α} (hp : p.Steps R) : p.attempt.Steps R := by
  induction p with
  | ret a => trivial
  | raise e => trivial
  | step next rest ih => exact fun c s => ⟨(hp c s).1, ih c s (hp c s).2⟩

theorem Steps.ofExcept (r : Except ε α) : (.ofExcept r : Process κ σ ε α).Steps R := by
  cases r <;> trivial

theorem Steps.atomic {f : κ → σ → σ × Except ε α} (h : ∀ c s, R c s (f c s).1) :
    (.atomic f : Process κ σ ε α).Steps R :=
  fun c s => ⟨h c s, Steps.ofExcept _⟩

theorem Steps.mono {p : Process κ σ ε α} (h : p.Steps R) (hR : ∀ c s s', R c s s' → R' c s s') :
    p.Steps R' := by
  induction p with
  | ret a => trivial
  | raise e => trivial
  | step next rest ih => exact fun c s => ⟨hR c s _ (h c s).1, ih c s (h c s).2⟩

/-- What `R` keeps holds at every step and at the end. -/
theorem Steps.wp {p : Process κ σ ε α} (h : p.Steps R) {env : σ → κ → Prop}
    {safe : σ → (κ → σ) → Prop} {I : σ → Prop} (hI : ∀ c s s', I s → R c s s' → I s')
    (hsafe : ∀ s next, I s → (∀ c, R c s (next c)) → safe s next) {s : σ} (hs : I s) :
    p.Wp env safe (fun _ s' => I s') s := by
  induction p generalizing s with
  | ret a => exact hs
  | raise e => exact hs
  | step next rest ih =>
    exact ⟨hsafe s _ hs fun c => (h c s).1, fun c _ => ih c s (h c s).2 (hI c s _ hs (h c s).1)⟩

/-- What `R` keeps holds wherever an execution ends or is stopped. -/
theorem Steps.run {p : Process κ σ ε α} (h : p.Steps R) {I : σ → Prop}
    (hI : ∀ c s s', I s → R c s s' → I s') (script : List κ) {s : σ} (hs : I s) :
    I (p.run script s).2 := by
  induction p generalizing script s with
  | ret a => exact hs
  | raise e => exact hs
  | step next rest ih =>
    cases script with
    | nil => exact hs
    | cons c script => exact ih c s (h c s).2 script (hI c s _ hs (h c s).1)

/-! ### One execution -/

/-- From `s` on the state keeps `I`, and what the process returns meets `Q`. -/
def Keeps (I : σ → Prop) (Q : α → σ → Prop) (p : Process κ σ ε α) (s : σ) : Prop :=
  p.Wp (fun _ _ => True) (fun s' _ => I s') (fun r s' => I s' ∧ ∀ a, r = .ok a → Q a s') s

section Keeps

variable {I : σ → Prop} {P Q : α → σ → Prop} {Q' : β → σ → Prop} {s : σ}

theorem Keeps.ret {a : α} (hs : I s) (h : Q a s) :
    (.ret a : Process κ σ ε α).Keeps I Q s :=
  ⟨hs, fun _ ha => Except.ok.inj ha ▸ h⟩

theorem Keeps.raise {e : ε} (hs : I s) : (.raise e : Process κ σ ε α).Keeps I Q s :=
  ⟨hs, fun _ ha => by cases ha⟩

theorem Keeps.atomic {f : κ → σ → σ × Except ε α} (hs : I s)
    (h : ∀ c, I (f c s).1 ∧ ∀ a, (f c s).2 = .ok a → Q a (f c s).1) :
    (.atomic f : Process κ σ ε α).Keeps I Q s :=
  wp_atomic.mpr ⟨hs, fun c _ => h c⟩

theorem Keeps.bind {p : Process κ σ ε α} {f : α → Process κ σ ε β} (hp : p.Keeps I P s)
    (hf : ∀ a s', I s' → P a s' → (f a).Keeps I Q' s') : (p >>= f).Keeps I Q' s := by
  refine wp_bind.mpr (Wp.mono hp fun r s' h => ?_)
  cases r with
  | error e => exact ⟨h.1, fun _ hb => by cases hb⟩
  | ok a => exact hf a s' h.1 (h.2 a rfl)

theorem Keeps.attempt {p : Process κ σ ε α} (hp : p.Keeps I P s) :
    p.attempt.Keeps I (fun r s' => ∀ a, r = .ok a → P a s') s :=
  wp_attempt.mpr (Wp.mono hp fun _ _ h => ⟨h.1, fun _ hr => Except.ok.inj hr ▸ h.2⟩)

theorem Steps.keeps {p : Process κ σ ε α} (hp : p.Steps R)
    (hI : ∀ c s s', I s → R c s s' → I s') (hs : I s) : p.Keeps I (fun _ _ => True) s :=
  (hp.wp hI (fun _ _ h _ => h) hs).mono fun _ _ h => ⟨h, fun _ _ => trivial⟩

/-- Wherever an execution ends or is stopped, the state keeps `I`. -/
theorem Keeps.run {p : Process κ σ ε α} (h : p.Keeps I Q s) (script : List κ) :
    I (p.run script s).2 := by
  have hm := Wp.run h (admits_true p script s)
  cases ho : (p.run script s).1 with
  | returned a =>
    rw [ho] at hm
    exact hm.1
  | raised e =>
    rw [ho] at hm
    exact hm.1
  | stopped =>
    rw [ho] at hm
    exact hm.choose_spec

/-- What a process returns meets `Q`. -/
theorem Keeps.returned {p : Process κ σ ε α} (h : p.Keeps I Q s) {script : List κ} {a : α}
    (ho : (p.run script s).1 = .returned a) : Q a (p.run script s).2 := by
  have hm := Wp.run h (admits_true p script s)
  rw [ho] at hm
  exact hm.2 a rfl

end Keeps

end Process
