import EscrowSigner.Process.Exec

/-! Two processes in lockstep: on the same choices they are stopped, raise or return together, in
states that are related. -/

namespace Process

variable {κ σ ε α α' β β' : Type}

/-- From `s` and `s'` both processes end together on the same choices: they return into `Q`, they raise
one exception in `S`, or they are stopped in `S`. -/
def Lockstep (S : σ → σ → Prop) (Q : α → α' → σ → σ → Prop) :
    Process κ σ ε α → Process κ σ ε α' → σ → σ → Prop
  | ret a, ret a', s, s' => Q a a' s s'
  | raise e, raise e', s, s' => e = e' ∧ S s s'
  | step next rest, step next' rest', s, s' =>
    S s s' ∧ ∀ c, Lockstep S Q (rest c s) (rest' c s') (next c s) (next' c s')
  | _, _, _, _ => False

/-- Two results that are of one kind. -/
def Both (S : σ → σ → Prop) (Q : α → α' → σ → σ → Prop) :
    Except ε α → Except ε α' → σ → σ → Prop
  | .ok a, .ok a', s, s' => Q a a' s s'
  | .error e, .error e', s, s' => e = e' ∧ S s s'
  | _, _, _, _ => False

/-- Two ends of one kind. -/
def Meet (S : σ → σ → Prop) (Q : α → α' → σ → σ → Prop) :
    Outcome ε α × σ → Outcome ε α' × σ → Prop
  | (.returned a, s), (.returned a', s') => Q a a' s s'
  | (.raised e, s), (.raised e', s') => e = e' ∧ S s s'
  | (.stopped, s), (.stopped, s') => S s s'
  | _, _ => False

section Lockstep

variable {S : σ → σ → Prop} {Q P : α → α' → σ → σ → Prop} {R : β → β' → σ → σ → Prop}
  {p : Process κ σ ε α} {p' : Process κ σ ε α'} {s s' : σ}

theorem Lockstep.raise {e : ε} (h : S s s') :
    Lockstep S Q (raise e : Process κ σ ε α) (raise e) s s' := ⟨rfl, h⟩

theorem Lockstep.mono (h : Lockstep S P p p' s s') (hQ : ∀ a a' s s', P a a' s s' → Q a a' s s') :
    Lockstep S Q p p' s s' := by
  induction p generalizing p' s s' with
  | ret a => cases p' <;> first | exact hQ _ _ _ _ h | exact h
  | raise e => cases p' <;> exact h
  | step next rest ih =>
    cases p' with
    | ret a' => exact h
    | raise e' => exact h
    | step next' rest' => exact ⟨h.1, fun c => ih c s (h.2 c)⟩

/-- One part after the other. -/
theorem Lockstep.bind {f : α → Process κ σ ε β} {f' : α' → Process κ σ ε β'}
    (h : Lockstep S P p p' s s')
    (hf : ∀ a a' s s', P a a' s s' → Lockstep S R (f a) (f' a') s s') :
    Lockstep S R (p >>= f) (p' >>= f') s s' := by
  induction p generalizing p' s s' with
  | ret a =>
    cases p' with
    | ret a' => exact hf a a' s s' h
    | raise e' => exact h.elim
    | step next' rest' => exact h.elim
  | raise e =>
    cases p' with
    | ret a' => exact h.elim
    | raise e' => exact h
    | step next' rest' => exact h.elim
  | step next rest ih =>
    cases p' with
    | ret a' => exact h.elim
    | raise e' => exact h.elim
    | step next' rest' => exact ⟨h.1, fun c => ih c s (h.2 c)⟩

theorem Lockstep.attempt (h : Lockstep S Q p p' s s') :
    Lockstep S (Both S Q) p.attempt p'.attempt s s' := by
  induction p generalizing p' s s' with
  | ret a => cases p' <;> exact h
  | raise e => cases p' <;> exact h
  | step next rest ih =>
    cases p' with
    | ret a' => exact h
    | raise e' => exact h
    | step next' rest' => exact ⟨h.1, fun c => ih c s (h.2 c)⟩

/-- A process with itself, from one state. -/
theorem Lockstep.refl (hS : ∀ s, S s s) (p : Process κ σ ε α) (s : σ) :
    Lockstep S (fun a a' s s' => a' = a ∧ s' = s) p p s s := by
  induction p generalizing s with
  | ret a => exact ⟨rfl, rfl⟩
  | raise e => exact ⟨rfl, hS s⟩
  | step next rest ih => exact ⟨hS s, fun c => ih c s _⟩

/-- The same process first. -/
theorem Lockstep.behind {p : Process κ σ ε α} {f : α → Process κ σ ε β}
    {f' : α → Process κ σ ε β'} (hS : ∀ s, S s s)
    (hf : ∀ a s, Lockstep S R (f a) (f' a) s s) : Lockstep S R (p >>= f) (p >>= f') s s := by
  refine (Lockstep.refl hS p s).bind fun a a' s s' h => ?_
  obtain ⟨rfl, rfl⟩ := h
  exact hf a' s'

theorem Lockstep.ofExcept {r : Except ε α} {r' : Except ε α'} (h : Both S Q r r' s s') :
    Lockstep S Q (ofExcept r : Process κ σ ε α) (ofExcept r') s s' := by
  cases r with
  | ok a => cases r' <;> exact h
  | error e => cases r' <;> exact h

theorem Lockstep.atomic {g : κ → σ → σ × Except ε α} {g' : κ → σ → σ × Except ε α'} (hS : S s s')
    (h : ∀ c, Both S Q (g c s).2 (g' c s').2 (g c s).1 (g' c s').1) :
    Lockstep S Q (Process.atomic g) (Process.atomic g') s s' :=
  ⟨hS, fun c => .ofExcept (h c)⟩

theorem Lockstep.run (h : Lockstep S Q p p' s s') (script : List κ) :
    Meet S Q (p.run script s) (p'.run script s') := by
  induction p generalizing p' script s s' with
  | ret a =>
    cases p' with
    | ret a' => exact h
    | raise e' => exact h.elim
    | step next' rest' => exact h.elim
  | raise e =>
    cases p' with
    | ret a' => exact h.elim
    | raise e' => exact h
    | step next' rest' => exact h.elim
  | step next rest ih =>
    cases p' with
    | ret a' => exact h.elim
    | raise e' => exact h.elim
    | step next' rest' =>
      cases script with
      | nil => exact h.1
      | cons c script => exact ih c s (h.2 c) script

end Lockstep

/-- Ends with one value are one end. -/
theorem Meet.same {S : σ → σ → Prop} {r r' : Outcome ε α × σ}
    (h : Meet S (fun a a' s s' => a = a' ∧ S s s') r r') : r'.1 = r.1 ∧ S r.2 r'.2 := by
  obtain ⟨o, s⟩ := r
  obtain ⟨o', s'⟩ := r'
  cases o with
  | returned a =>
    cases o' with
    | returned a' => exact ⟨congrArg Outcome.returned h.1.symm, h.2⟩
    | raised e' => exact h.elim
    | stopped => exact h.elim
  | raised e =>
    cases o' with
    | returned a' => exact h.elim
    | raised e' => exact ⟨congrArg Outcome.raised h.1.symm, h.2⟩
    | stopped => exact h.elim
  | stopped =>
    cases o' with
    | returned a' => exact h.elim
    | raised e' => exact h.elim
    | stopped => exact ⟨rfl, h⟩

end Process
