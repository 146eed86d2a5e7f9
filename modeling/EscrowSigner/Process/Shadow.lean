import EscrowSigner.Process.Exec

/-! Two processes side by side.  `p'` shadows `p` when it ends like `p` on the same choices and a few
calm ones in between, which `p` does not ask for, or parts from it into a process that is excused. -/

namespace Process

variable {κ σ ε α β : Type}

/-! ### The choices that an execution uses up -/

/-- The process ends having used up exactly the choices `used`. -/
def Uses (p : Process κ σ ε α) (s : σ) (used : List κ) (o : Outcome ε α) (s₁ : σ) : Prop :=
  o ≠ .stopped ∧ ∀ rest, p.exec (used ++ rest) s = (o, s₁, rest)

section Uses

variable {p : Process κ σ ε α} {s s₁ : σ} {used script rest : List κ} {o : Outcome ε α}

theorem uses_of_exec (h : p.exec script s = (o, s₁, rest)) (ho : o ≠ .stopped) :
    ∃ used, script = used ++ rest ∧ p.Uses s used o s₁ := by
  induction p generalizing script s with
  | ret a =>
    cases h
    exact ⟨[], rfl, ho, fun _ => rfl⟩
  | raise e =>
    cases h
    exact ⟨[], rfl, ho, fun _ => rfl⟩
  | step next more ih =>
    cases script with
    | nil =>
      cases h
      exact absurd rfl ho
    | cons c script =>
      obtain ⟨used, rfl, -, hused⟩ := ih c s h
      exact ⟨c :: used, rfl, ho, hused⟩

theorem Uses.bind {f : α → Process κ σ ε β} {o : Outcome ε β} (h : (p >>= f).Uses s used o s₁) :
    (∃ a s₂ first second, used = first ++ second ∧ p.Uses s first (.returned a) s₂ ∧
      (f a).Uses s₂ second o s₁) ∨
    ∃ e, o = .raised e ∧ p.Uses s used (.raised e) s₁ := by
  obtain ⟨ho, hexec⟩ := h
  have hone := hexec []
  rw [bind_eq, exec_bind] at hone
  cases hp : p.exec (used ++ []) s with
  | mk o₁ r =>
    obtain ⟨s₂, r₁⟩ := r
    rw [hp] at hone
    cases o₁ with
    | stopped =>
      cases hone
      exact absurd rfl ho
    | raised e =>
      cases hone
      obtain ⟨first, hfirst, hp⟩ := uses_of_exec hp (by simp)
      rw [List.append_nil, List.append_nil] at hfirst
      exact .inr ⟨e, rfl, hfirst ▸ hp⟩
    | returned a =>
      obtain ⟨first, hfirst, hused⟩ := uses_of_exec hp (by simp)
      obtain ⟨second, hsecond, hf⟩ := uses_of_exec hone ho
      rw [hsecond, List.append_nil, List.append_nil] at hfirst
      exact .inl ⟨a, s₂, first, second, hfirst, hused, hf⟩

theorem Uses.attempt {o : Outcome ε (Except ε α)} (h : p.attempt.Uses s used o s₁) :
    ∃ o₁, p.Uses s used o₁ s₁ ∧ match o₁ with
      | .returned a => o = .returned (.ok a)
      | .raised e => o = .returned (.error e)
      | .stopped => False := by
  obtain ⟨ho, hexec⟩ := h
  have hone := hexec []
  rw [exec_attempt] at hone
  cases hp : p.exec (used ++ []) s with
  | mk o₁ r =>
    obtain ⟨s₂, r₁⟩ := r
    rw [hp] at hone
    cases o₁ with
    | stopped =>
      cases hone
      exact absurd rfl ho
    | raised e =>
      cases hone
      obtain ⟨first, hfirst, hp⟩ := uses_of_exec hp (by simp)
      rw [List.append_nil, List.append_nil] at hfirst
      exact ⟨_, hfirst ▸ hp, rfl⟩
    | returned a =>
      cases hone
      obtain ⟨first, hfirst, hp⟩ := uses_of_exec hp (by simp)
      rw [List.append_nil, List.append_nil] at hfirst
      exact ⟨_, hfirst ▸ hp, rfl⟩

theorem Uses.ends {E : ε → σ → Prop} {Q : α → σ → Prop} {a : α} (h : p.Uses s used (.returned a) s₁)
    (hp : p.Ends E Q s) : Q a s₁ := Ends.returned hp (h.2 [])

end Uses

/-! ### Excuses -/

/-- An outcome that is excused, where a process that was stopped is. -/
def Excuses (X : α → Prop) (E : ε → Prop) : Outcome ε α → Prop
  | .returned a => X a
  | .raised e => E e
  | .stopped => True

/-- However a process ends, `X` holds of what it returns and `E` of what it raises. -/
def Leaves (X : α → Prop) (E : ε → Prop) : Process κ σ ε α → Prop
  | ret a => X a
  | raise e => E e
  | step _ rest => ∀ c s, (rest c s).Leaves X E

/-- A process that raises what is excused, if it ends. -/
abbrev Fails (E : ε → Prop) (p : Process κ σ ε α) : Prop := p.Leaves (fun _ => False) E

section Leaves

variable {X X' : α → Prop} {Y : β → Prop} {E E' F : ε → Prop} {p : Process κ σ ε α}

theorem Leaves.pure {a : α} (h : X a) : (Pure.pure a : Process κ σ ε α).Leaves X E := h

theorem Leaves.raise {e : ε} (h : E e) : (raise e : Process κ σ ε α).Leaves X E := h

theorem Leaves.ofExcept {r : Except ε α} (hok : ∀ a, r = .ok a → X a)
    (herr : ∀ e, r = .error e → E e) : (ofExcept r : Process κ σ ε α).Leaves X E := by
  cases r with
  | ok a => exact hok a rfl
  | error e => exact herr e rfl

theorem Leaves.mono (h : p.Leaves X E) (hX : ∀ a, X a → X' a) (hE : ∀ e, E e → E' e) :
    p.Leaves X' E' := by
  induction p with
  | ret a => exact hX a h
  | raise e => exact hE e h
  | step next rest ih => exact fun c s => ih c s (h c s)

theorem Leaves.bind {f : α → Process κ σ ε β} (h : p.Leaves X E) (hf : ∀ a, X a → (f a).Leaves Y E) :
    (p >>= f).Leaves Y E := by
  induction p with
  | ret a => exact hf a h
  | raise e => exact h
  | step next rest ih => exact fun c s => ih c s (h c s)

theorem Leaves.attempt (h : p.Leaves X E) :
    p.attempt.Leaves (fun r => match r with
      | .ok a => X a
      | .error e => E e) F := by
  induction p with
  | ret a => exact h
  | raise e => exact h
  | step next rest ih => exact fun c s => ih c s (h c s)

theorem Leaves.atomic {f : κ → σ → σ × Except ε α} (hok : ∀ c s a, (f c s).2 = .ok a → X a)
    (herr : ∀ c s e, (f c s).2 = .error e → E e) : (atomic f : Process κ σ ε α).Leaves X E :=
  fun c s => Leaves.ofExcept (hok c s) (herr c s)

theorem Leaves.trivial (p : Process κ σ ε α) : p.Leaves (fun _ => True) (fun _ => True) := by
  induction p with
  | ret a => exact True.intro
  | raise e => exact True.intro
  | step next rest ih => exact fun c s => ih c s

theorem Raises.leaves {S : ε → Prop} (h : p.Raises S) : p.Leaves (fun _ => True) S := by
  induction p with
  | ret a => trivial
  | raise e => exact h
  | step next rest ih => exact fun c s => ih c s (h c s)

/-- What fails has failed before anything that would follow. -/
theorem Fails.bind {f : α → Process κ σ ε β} (h : p.Fails E) : (p >>= f).Fails E :=
  Leaves.bind h fun _ h => h.elim

theorem Leaves.under (h : p.Leaves X E) (env : σ → κ → Prop) (s : σ) :
    p.Under env (fun e _ => E e) (fun a _ => X a) s := by
  induction p generalizing s with
  | ret a => exact h
  | raise e => exact h
  | step next rest ih => exact ⟨True.intro, fun c _ => ih c s (h c s) _⟩

theorem Leaves.exec (h : p.Leaves X E) (script : List κ) (s : σ) :
    Excuses X E (p.exec script s).1 := by
  induction p generalizing script s with
  | ret a => exact h
  | raise e => exact h
  | step next rest ih =>
    cases script with
    | nil => trivial
    | cons c script => exact ih c s (h c s) script _

end Leaves

/-! ### Calm choices in between -/

/-- `padded` is `used` with at most `n` calm choices put in. -/
inductive Padded (calm : κ → Prop) : Nat → List κ → List κ → Prop
  | nil (n : Nat) : Padded calm n [] []
  | keep {n : Nat} (c : κ) {used padded : List κ} (h : Padded calm n used padded) :
      Padded calm n (c :: used) (c :: padded)
  | put {n : Nat} {c : κ} (hc : calm c) {used padded : List κ} (h : Padded calm n used padded) :
      Padded calm (n + 1) used (c :: padded)

section Padded

variable {calm : κ → Prop} {m n : Nat} {used used' padded padded' : List κ}

theorem Padded.refl (used : List κ) : Padded calm n used used := by
  induction used with
  | nil => exact .nil n
  | cons c used ih => exact .keep c ih

theorem Padded.mono (h : Padded calm m used padded) (hle : m ≤ n) : Padded calm n used padded := by
  induction h generalizing n with
  | nil => exact .nil n
  | keep c h ih => exact .keep c (ih hle)
  | put hc h ih =>
    obtain ⟨k, rfl⟩ := Nat.exists_eq_add_of_le hle
    rw [Nat.add_right_comm]
    exact .put hc (ih (Nat.le_add_right _ k))

theorem Padded.append (h : Padded calm m used padded) (h' : Padded calm n used' padded') :
    Padded calm (m + n) (used ++ used') (padded ++ padded') := by
  induction h with
  | nil => exact h'.mono (Nat.le_add_left n _)
  | keep c h ih => exact .keep c ih
  | put hc h ih =>
    rw [Nat.add_right_comm]
    exact .put hc ih

end Padded

/-! ### Shadows -/

/-- From `s`, every execution of `p` that ends is matched by one of `p'`, which is given at most `n` calm
choices more and ends in the same way, unless after a shared beginning `p'` goes on as a process that is
excused. -/
def Shadows (calm : κ → Prop) (n : Nat) (D : Process κ σ ε α → Prop) (p p' : Process κ σ ε α)
    (s : σ) : Prop :=
  ∀ used o s₁, p.Uses s used o s₁ →
    (∃ padded, Padded calm n used padded ∧ p'.Uses s padded o s₁) ∨
    ∃ shared padded q s₂, shared <+: used ∧ Padded calm n shared padded ∧ D q ∧
      ∀ rest, p'.exec (padded ++ rest) s = q.exec rest s₂

section Shadows

variable {calm : κ → Prop} {m n : Nat} {D D' : Process κ σ ε α → Prop} {R : Process κ σ ε β → Prop}
  {p p' : Process κ σ ε α} {f f' : α → Process κ σ ε β} {s : σ}

theorem Shadows.refl (p : Process κ σ ε α) (s : σ) : Shadows calm n D p p s :=
  fun _ _ _ h => .inl ⟨_, .refl _, h⟩

theorem Shadows.excused (h : D p') : Shadows calm n D p p' s :=
  fun _ _ _ _ => .inr ⟨[], [], p', s, List.nil_prefix, .nil n, h, fun _ => rfl⟩

theorem Shadows.mono (h : Shadows calm m D p p' s) (hle : m ≤ n) (hD : ∀ q, D q → D' q) :
    Shadows calm n D' p p' s := by
  intro used o s₁ hused
  rcases h used o s₁ hused with
    ⟨padded, hpadded, hp'⟩ | ⟨shared, padded, q, s₂, hshared, hpadded, hq, hrest⟩
  · exact .inl ⟨padded, hpadded.mono hle, hp'⟩
  · exact .inr ⟨shared, padded, q, s₂, hshared, hpadded.mono hle, hD q hq, hrest⟩

/-- One after the other.  The second parts meet where both of the first parts have returned, and an
excused first part has to be excused with what follows it. -/
theorem Shadows.bind (hp : Shadows calm m D p p' s)
    (hf : ∀ a s₁, (∃ used, p.Uses s used (.returned a) s₁) →
      (∃ used, p'.Uses s used (.returned a) s₁) → Shadows calm n R (f a) (f' a) s₁)
    (hD : ∀ q, D q → R (q >>= f')) :
    Shadows calm (m + n) R (p >>= f) (p' >>= f') s := by
  have hexcused : ∀ {padded : List κ} {q : Process κ σ ε α} {s₂ : σ},
      (∀ rest, p'.exec (padded ++ rest) s = q.exec rest s₂) →
        ∀ rest, (p' >>= f').exec (padded ++ rest) s = (q >>= f').exec rest s₂ := fun h rest => by
    rw [bind_eq, bind_eq, exec_bind, exec_bind, h]
  intro used o s₁ hused
  rcases hused.bind with ⟨a, s₂, first, second, rfl, h₁, h₂⟩ | ⟨e, rfl, h₁⟩
  · rcases hp _ _ _ h₁ with
      ⟨padded₁, hpadded₁, hp'⟩ | ⟨shared, padded, q, s₃, hshared, hpadded, hq, hrest⟩
    · have hnext : ∀ rest, (p' >>= f').exec (padded₁ ++ rest) s = (f' a).exec rest s₂ := fun rest => by
        rw [bind_eq, exec_bind, hp'.2 rest]
      rcases hf a s₂ ⟨first, h₁⟩ ⟨padded₁, hp'⟩ _ _ _ h₂ with
        ⟨padded₂, hpadded₂, hf'⟩ | ⟨shared, padded₂, q, s₃, ⟨more, rfl⟩, hpadded₂, hq, hrest⟩
      · refine .inl ⟨padded₁ ++ padded₂, hpadded₁.append hpadded₂, hf'.1, fun rest => ?_⟩
        rw [List.append_assoc, hnext]
        exact hf'.2 rest
      · refine .inr ⟨first ++ shared, padded₁ ++ padded₂, q, s₃, ⟨more, List.append_assoc _ _ _⟩,
          hpadded₁.append hpadded₂, hq, fun rest => ?_⟩
        rw [List.append_assoc, hnext]
        exact hrest rest
    · exact .inr ⟨shared, padded, q >>= f', s₃, hshared.trans ⟨second, rfl⟩,
        hpadded.mono (Nat.le_add_right m n), hD q hq, hexcused hrest⟩
  · rcases hp _ _ _ h₁ with
      ⟨padded, hpadded, hp'⟩ | ⟨shared, padded, q, s₃, hshared, hpadded, hq, hrest⟩
    · refine .inl ⟨padded, hpadded.mono (Nat.le_add_right m n), by simp, fun rest => ?_⟩
      rw [bind_eq, exec_bind, hp'.2 rest]
    · exact .inr ⟨shared, padded, q >>= f', s₃, hshared, hpadded.mono (Nat.le_add_right m n), hD q hq,
        hexcused hrest⟩

theorem Shadows.attempt (hp : Shadows calm n D p p' s) :
    Shadows calm n (fun r => ∃ q, r = q.attempt ∧ D q) p.attempt p'.attempt s := by
  intro used o s₁ hused
  obtain ⟨o₁, hused₁, ho⟩ := hused.attempt
  rcases hp _ _ _ hused₁ with
    ⟨padded, hpadded, hp'⟩ | ⟨shared, padded, q, s₃, hshared, hpadded, hq, hrest⟩
  · refine .inl ⟨padded, hpadded, hused.1, fun rest => ?_⟩
    rw [exec_attempt, hp'.2 rest]
    cases o₁ with
    | returned a => exact ho ▸ rfl
    | raised e => exact ho ▸ rfl
    | stopped => exact ho.elim
  · refine .inr ⟨shared, padded, q.attempt, s₃, hshared, hpadded, ⟨q, rfl, hq⟩,
      fun rest => ?_⟩
    rw [exec_attempt, exec_attempt, hrest]

/-- The same process first. -/
theorem Shadows.behind (p : Process κ σ ε α)
    (hf : ∀ a s₁, (∃ used, p.Uses s used (.returned a) s₁) → Shadows calm n R (f a) (f' a) s₁) :
    Shadows calm n R (p >>= f) (p >>= f') s := by
  have h : Shadows calm 0 (fun _ => False) p p s := .refl p s
  exact (h.bind (fun a s₁ hused _ => hf a s₁ hused) fun _ hq => hq.elim).mono
    (Nat.le_of_eq (Nat.zero_add n)) fun _ h => h

/-- A step that ends in the same way, or raises what is excused. -/
theorem Shadows.atomic {g g' : κ → σ → σ × Except ε α}
    (h : ∀ c, g' c s = g c s ∨ ∃ e, (g' c s).2 = .error e ∧ D (raise e)) :
    Shadows calm n D (atomic g) (atomic g') s := by
  intro used o s₁ hused
  have hone := hused.2 []
  cases used with
  | nil =>
    cases hone
    exact absurd rfl hused.1
  | cons c used =>
    rcases h c with heq | ⟨e, he, hD⟩
    · refine .inl ⟨c :: used, .refl _, hused.1, fun rest => ?_⟩
      rw [← hused.2 rest, List.cons_append, exec_atomic, exec_atomic, heq]
    · refine .inr ⟨[c], [c], raise e, (g' c s).1, ⟨used, rfl⟩, .refl _, hD, fun rest => ?_⟩
      rw [List.cons_append, List.nil_append, exec_atomic, he]
      rfl

/-- A calm step of the second process alone, which leaves the state. -/
theorem Shadows.alone {g : κ → σ → σ × Except ε α} {q : Process κ σ ε β} {c : κ} {a : α}
    (hc : calm c) (hg : g c s = (s, .ok a)) (h : Shadows calm n R q (f a) s) :
    Shadows calm (n + 1) R q (Process.atomic g >>= f) s := by
  have hnext : ∀ script, (Process.atomic g >>= f).exec (c :: script) s = (f a).exec script s :=
    fun script => by
      rw [bind_eq, exec_bind, exec_atomic, hg]
  intro used o s₁ hused
  rcases h _ _ _ hused with
    ⟨padded, hpadded, hf⟩ | ⟨shared, padded, r, s₂, hshared, hpadded, hr, hrest⟩
  · exact .inl ⟨c :: padded, .put hc hpadded, hf.1, fun rest => (hnext _).trans (hf.2 rest)⟩
  · exact .inr ⟨shared, c :: padded, r, s₂, hshared, .put hc hpadded, hr,
      fun rest => (hnext _).trans (hrest rest)⟩

/-- A calm step of the second process alone, which raises what is excused. -/
theorem Shadows.alone_raises {g : κ → σ → σ × Except ε α} {q : Process κ σ ε β} {c : κ} {e : ε}
    (hc : calm c) (hg : (g c s).2 = .error e) (he : R (raise e)) :
    Shadows calm (n + 1) R q (Process.atomic g >>= f) s := by
  refine fun _ _ _ _ => .inr ⟨[], [c], raise e, (g c s).1, List.nil_prefix, .put hc (.nil n), he,
    fun rest => ?_⟩
  rw [List.cons_append, List.nil_append, bind_eq, exec_bind, exec_atomic, hg]
  rfl

end Shadows

end Process
