import EscrowSigner.Process.Progress
import Mathlib.Tactic.Choose

/-! Processes that are built from parts: what holds of the parts, and is kept by sequencing and by
catching exceptions, holds of the whole. -/

namespace Process

variable {κ σ ε α β ρ μ : Type}

/-- The process is put together from processes in `M`. -/
inductive Built (M : ∀ β : Type, Process κ σ ε β → Prop) : ∀ {α : Type}, Process κ σ ε α → Prop
  | part {α : Type} {p : Process κ σ ε α} (h : M α p) : Built M p
  | ret {α : Type} (a : α) : Built M (.ret a : Process κ σ ε α)
  | raise {α : Type} (e : ε) : Built M (.raise e : Process κ σ ε α)
  | bind {α β : Type} {p : Process κ σ ε α} {f : α → Process κ σ ε β} (hp : Built M p)
      (hf : ∀ a, Built M (f a)) : Built M (p >>= f)
  | attempt {α : Type} {p : Process κ σ ε α} (hp : Built M p) : Built M p.attempt

variable {M N : ∀ β : Type, Process κ σ ε β → Prop} {p : Process κ σ ε α}

theorem Built.pure (a : α) : Built M (Pure.pure a : Process κ σ ε α) := .ret a

theorem Built.ofExcept (r : Except ε α) : Built M (ofExcept r : Process κ σ ε α) := by
  cases r with
  | ok a => exact .ret a
  | error e => exact .raise e

/-- What is built from local parts is local. -/
theorem Built.local {res : σ → ρ} {out : σ → μ} (h : Built M p)
    (hM : ∀ β (q : Process κ σ ε β), M β q → q.Local res out) : p.Local res out := by
  induction h with
  | part h => exact hM _ _ h
  | ret a => trivial
  | raise e => trivial
  | bind _ _ ihp ihf => exact ihp.bind ihf
  | attempt _ ih => exact ih.attempt

/-- A thread that does what the process does, under the discipline of the mutex and without a turn. -/
def Threads (res : σ → ρ) (out : σ → μ) (N : ∀ β : Type, Process κ σ ε β → Prop)
    (p : Process κ σ ε α) (t : Thread κ σ ε α) : Prop :=
  t.code = p ∧ t.Obeys res out N ∧ t.Plain

/-- A process in `N`, run under the mutex. -/
theorem threads_whole {res : σ → ρ} {out : σ → μ} (h : N α p) :
    Threads res out N p (Thread.whole p) :=
  ⟨Thread.code_whole p, Thread.obeys_whole h, Thread.plain_whole p⟩

/-- One step outside the mutex. -/
theorem threads_atomic {res : σ → ρ} {out : σ → μ} {f : κ → σ → σ × Except ε α}
    (h : Outside res out (fun c s => (f c s).1) fun c s => (f c s).2) :
    Threads res out N (atomic f)
      (.own (fun c s => (f c s).1) fun c s => Thread.ofExcept (f c s).2) := by
  refine ⟨?_, ⟨fun c s => ⟨(h c s).1, fun s' hs => ?_⟩, fun _ _ => Thread.obeys_ofExcept _⟩,
    fun _ _ => Thread.plain_ofExcept _⟩
  · exact congrArg (step _) (funext fun c => funext fun s => Thread.code_ofExcept _)
  · exact ⟨((h c s).2 s' hs).1, congrArg Thread.ofExcept ((h c s).2 s' hs).2⟩

/-- What is built from parts that threads can run, a thread can run. -/
theorem Built.threads {res : σ → ρ} {out : σ → μ} (h : Built M p)
    (hM : ∀ β (q : Process κ σ ε β), M β q → ∃ t, Threads res out N q t) :
    ∃ t, Threads res out N p t := by
  induction h with
  | part h => exact hM _ _ h
  | ret a => exact ⟨.ret a, rfl, trivial, trivial⟩
  | raise e => exact ⟨.raise e, rfl, trivial, trivial⟩
  | bind _ _ ihp ihf =>
    obtain ⟨t, rfl, hobeys, hplain⟩ := ihp
    choose u hu using ihf
    refine ⟨t.bind u, ?_, hobeys.bind fun a => (hu a).2.1, hplain.bind fun a => (hu a).2.2⟩
    rw [Thread.code_bind]
    exact congrArg _ (funext fun a => (hu a).1)
  | attempt _ ih =>
    obtain ⟨t, rfl, hobeys, hplain⟩ := ih
    exact ⟨t.attempt, Thread.code_attempt t, hobeys.attempt, hplain.attempt⟩

end Process
