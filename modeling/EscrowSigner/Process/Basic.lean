import Mathlib.Logic.Relation

/-! Processes that act on a state one atomic step at a time.  A choice of the environment decides
each step, an exception ends a process early, and a process may be stopped before any step.  `run`
executes a process on a script of choices and stops it where the script ends, so the scripts of
every length give every point at which a process can stop. -/

/-- A process on states `σ` that consumes choices `κ`, raises exceptions `ε` and returns `α`. -/
inductive Process (κ σ ε α : Type) : Type
  | ret (a : α)
  | raise (e : ε)
  | step (next : κ → σ → σ) (rest : κ → σ → Process κ σ ε α)

/-- How the execution of a process ends. -/
inductive Process.Outcome (ε α : Type) : Type
  | returned (a : α)
  | raised (e : ε)
  | stopped
deriving DecidableEq

namespace Process

variable {κ σ ε α β : Type}

/-- `p`, then `f` on the value that `p` returns. -/
def bind : Process κ σ ε α → (α → Process κ σ ε β) → Process κ σ ε β
  | ret a, f => f a
  | raise e, _ => raise e
  | step next rest, f => step next fun c s => (rest c s).bind f

instance : Monad (Process κ σ ε) where
  pure := ret
  bind := bind

/-- `p` with its exceptions returned as values: the body of a `try` whose handlers look at the
result. -/
def attempt : Process κ σ ε α → Process κ σ ε (Except ε α)
  | ret a => ret (.ok a)
  | raise e => ret (.error e)
  | step next rest => step next fun c s => (rest c s).attempt

/-- A result as a process that takes no step. -/
def ofExcept : Except ε α → Process κ σ ε α
  | .ok a => ret a
  | .error e => raise e

/-- One atomic step: `f` gives the next state and the result. -/
def atomic (f : κ → σ → σ × Except ε α) : Process κ σ ε α :=
  step (fun c s => (f c s).1) fun c s => ofExcept (f c s).2

/-- The execution of a process on a script from a state. -/
def run : Process κ σ ε α → List κ → σ → Outcome ε α × σ
  | ret a, _, s => (.returned a, s)
  | raise e, _, s => (.raised e, s)
  | step _ _, [], s => (.stopped, s)
  | step next rest, c :: script, s => (rest c s).run script (next c s)

/-- Every choice of the script that the process consumes is one that `env` allows in the state
where it is consumed. -/
def Admits (env : σ → κ → Prop) : Process κ σ ε α → List κ → σ → Prop
  | step next rest, c :: script, s => env s c ∧ (rest c s).Admits env script (next c s)
  | _, _, _ => True

theorem Admits.mono {env env' : σ → κ → Prop} (henv : ∀ s c, env s c → env' s c)
    {p : Process κ σ ε α} {script : List κ} {s : σ} (h : p.Admits env script s) :
    p.Admits env' script s := by
  induction p generalizing script s with
  | ret a => trivial
  | raise e => trivial
  | step next rest ih =>
    cases script with
    | nil => trivial
    | cons c script => exact ⟨henv s c h.1, ih c s h.2⟩

theorem Admits.and_of_forall {env : σ → κ → Prop} {Q : κ → Prop} {p : Process κ σ ε α}
    {script : List κ} {s : σ} (h : p.Admits env script s) (hQ : ∀ c ∈ script, Q c) :
    p.Admits (fun s c => env s c ∧ Q c) script s := by
  induction p generalizing script s with
  | ret a => trivial
  | raise e => trivial
  | step next rest ih =>
    cases script with
    | nil => trivial
    | cons c script =>
      exact ⟨⟨h.1, hQ c List.mem_cons_self⟩, ih c s h.2 fun c' hc => hQ c' (List.mem_cons_of_mem c hc)⟩

instance decidableAdmits (env : σ → κ → Prop) [∀ s c, Decidable (env s c)] :
    (p : Process κ σ ε α) → (script : List κ) → (s : σ) → Decidable (p.Admits env script s)
  | step _ rest, c :: script, s =>
    have := decidableAdmits env (rest c s) script
    inferInstanceAs (Decidable (_ ∧ _))
  | step _ _, [], _ => .isTrue trivial
  | ret _, _, _ => .isTrue trivial
  | raise _, _, _ => .isTrue trivial

@[simp] theorem pure_eq_ret (a : α) : (pure a : Process κ σ ε α) = ret a := rfl

@[simp] theorem bind_eq (p : Process κ σ ε α) (f : α → Process κ σ ε β) : p >>= f = p.bind f := rfl

@[simp] theorem ret_bind (a : α) (f : α → Process κ σ ε β) : (ret a).bind f = f a := rfl

@[simp] theorem raise_bind (e : ε) (f : α → Process κ σ ε β) :
    (raise e : Process κ σ ε α).bind f = raise e := rfl

theorem bind_ret (p : Process κ σ ε α) : p.bind ret = p := by
  induction p with
  | ret a => rfl
  | raise e => rfl
  | step next rest ih => exact congrArg (step next) (funext fun c => funext fun s => ih c s)

/-- One atomic step, and what follows its result. -/
theorem run_atomic_bind (f : κ → σ → σ × Except ε α) (k : α → Process κ σ ε β) (c : κ)
    (script : List κ) (s : σ) :
    ((atomic f).bind k).run (c :: script) s =
      match (f c s).2 with
      | .ok a => (k a).run script (f c s).1
      | .error e => (.raised e, (f c s).1) := by
  show ((ofExcept (f c s).2).bind k).run script (f c s).1 = _
  cases (f c s).2 <;> rfl

/-- Choices beyond the end of an execution are not consumed. -/
theorem run_append_of_ended {p : Process κ σ ε α} {script : List κ} {s : σ} (more : List κ)
    (h : (p.run script s).1 ≠ .stopped) : p.run (script ++ more) s = p.run script s := by
  induction p generalizing script s with
  | ret a => rfl
  | raise e => rfl
  | step next rest ih =>
    cases script with
    | nil => exact absurd rfl h
    | cons c script => exact ih c s h

/-- An execution ends when the choices do not. -/
theorem exists_ends (p : Process κ σ ε α) (choices : Nat → κ) (s : σ) :
    ∃ n, (p.run ((List.range n).map choices) s).1 ≠ .stopped := by
  induction p generalizing choices s with
  | ret a => exact ⟨0, by simp [run]⟩
  | raise e => exact ⟨0, by simp [run]⟩
  | step next rest ih =>
    obtain ⟨n, hn⟩ := ih (choices 0) s (fun k => choices (k + 1)) (next (choices 0) s)
    refine ⟨n + 1, ?_⟩
    rw [List.range_succ_eq_map, List.map_cons, List.map_map]
    exact hn

/-- A script with every choice allowed exists for an unconstrained environment. -/
theorem admits_true (p : Process κ σ ε α) (script : List κ) (s : σ) :
    p.Admits (fun _ _ => True) script s := by
  induction p generalizing script s with
  | ret a => trivial
  | raise e => trivial
  | step next rest ih =>
    cases script with
    | nil => trivial
    | cons c script => exact ⟨trivial, ih c s script _⟩

end Process
