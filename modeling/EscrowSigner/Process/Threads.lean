import EscrowSigner.Process.Basic
import Mathlib.Logic.Function.Basic
import Mathlib.Logic.Relation

/-! Threads under a mutex.  A thread takes steps of its own, and under the mutex it runs whole
processes; a second lock gives one thread the turn.  Where what is run under the mutex depends on a
resource alone, which the steps outside leave alone, every run of a pool of threads has the same
replies as one in which each locked process runs at once. -/

namespace Process

/-- A thread: steps of its own, processes that it runs under the mutex, and the start and the end of
its turn. -/
inductive Thread (κ σ ε α : Type) : Type 1
  | ret (a : α)
  | raise (e : ε)
  | own (next : κ → σ → σ) (rest : κ → σ → Thread κ σ ε α)
  | locked {β : Type} (body : Process κ σ ε β) (rest : Except ε β → Thread κ σ ε α)
  | acquire (rest : Thread κ σ ε α)
  | release (rest : Thread κ σ ε α)

variable {κ σ ε α β ι ρ μ : Type}

namespace Thread

/-- What a thread does, without its locks. -/
def code : Thread κ σ ε α → Process κ σ ε α
  | ret a => .ret a
  | raise e => .raise e
  | own next rest => .step next fun c s => (rest c s).code
  | locked body rest => body.attempt.bind fun r => (rest r).code
  | acquire rest => rest.code
  | release rest => rest.code

def bind : Thread κ σ ε α → (α → Thread κ σ ε β) → Thread κ σ ε β
  | ret a, f => f a
  | raise e, _ => raise e
  | own next rest, f => own next fun c s => (rest c s).bind f
  | locked body rest, f => locked body fun r => (rest r).bind f
  | acquire rest, f => acquire (rest.bind f)
  | release rest, f => release (rest.bind f)

def attempt : Thread κ σ ε α → Thread κ σ ε (Except ε α)
  | ret a => ret (.ok a)
  | raise e => ret (.error e)
  | own next rest => own next fun c s => (rest c s).attempt
  | locked body rest => locked body fun r => (rest r).attempt
  | acquire rest => acquire rest.attempt
  | release rest => release rest.attempt

def ofExcept : Except ε α → Thread κ σ ε α
  | .ok a => ret a
  | .error e => raise e

/-- One locked process. -/
def whole (p : Process κ σ ε α) : Thread κ σ ε α := locked p ofExcept

/-- A thread that has the turn until it ends, whichever way it ends: the body of a `with`. -/
def holding (t : Thread κ σ ε α) : Thread κ σ ε α :=
  acquire (t.attempt.bind fun r => release (ofExcept r))

end Thread

/-! ### Erasure of the locks -/

theorem bind_assoc' {γ : Type} (p : Process κ σ ε α) (f : α → Process κ σ ε β)
    (g : β → Process κ σ ε γ) : (p.bind f).bind g = p.bind fun a => (f a).bind g := by
  induction p with
  | ret a => rfl
  | raise e => rfl
  | step next rest ih => exact congrArg (step next) (funext fun c => funext fun s => ih c s)

/-- To catch an exception and raise it again changes nothing. -/
theorem attempt_bind_ofExcept (p : Process κ σ ε α) : p.attempt.bind ofExcept = p := by
  induction p with
  | ret a => rfl
  | raise e => rfl
  | step next rest ih => exact congrArg (step next) (funext fun c => funext fun s => ih c s)

theorem attempt_attempt_bind (p : Process κ σ ε α) (f : Except ε α → Process κ σ ε β) :
    (p.attempt.bind f).attempt = p.attempt.bind fun r => (f r).attempt := by
  induction p with
  | ret a => rfl
  | raise e => rfl
  | step next rest ih => exact congrArg (step next) (funext fun c => funext fun s => ih c s)

namespace Thread

theorem code_bind (t : Thread κ σ ε α) (f : α → Thread κ σ ε β) :
    (t.bind f).code = t.code.bind fun a => (f a).code := by
  induction t with
  | ret a => rfl
  | raise e => rfl
  | own next rest ih => exact congrArg (step next) (funext fun c => funext fun s => ih c s)
  | locked body rest ih =>
    refine Eq.trans ?_ (bind_assoc' _ _ _).symm
    exact congrArg _ (funext ih)
  | acquire rest ih => exact ih
  | release rest ih => exact ih

theorem code_attempt (t : Thread κ σ ε α) : t.attempt.code = t.code.attempt := by
  induction t with
  | ret a => rfl
  | raise e => rfl
  | own next rest ih => exact congrArg (step next) (funext fun c => funext fun s => ih c s)
  | locked body rest ih => exact (congrArg _ (funext ih)).trans (attempt_attempt_bind _ _).symm
  | acquire rest ih => exact ih
  | release rest ih => exact ih

theorem code_ofExcept (r : Except ε α) :
    (ofExcept r : Thread κ σ ε α).code = .ofExcept r := by cases r <;> rfl

theorem code_whole (p : Process κ σ ε α) : (whole p).code = p :=
  (congrArg _ (funext code_ofExcept)).trans (attempt_bind_ofExcept p)

end Thread

/-! ### Pools -/

/-- Where a thread stands: between two locked processes, or inside one. -/
inductive Running (κ σ ε α : Type) : Type 1
  | between (t : Thread κ σ ε α)
  | inside {β : Type} (body : Process κ σ ε β) (rest : Except ε β → Thread κ σ ε α)

/-- The thread holds the mutex. -/
def Running.Inside : Running κ σ ε α → Prop
  | between _ => False
  | inside .. => True

/-- Threads on one state, and whose turn it is. -/
structure Pool (ι κ σ ε α : Type) : Type 1 where
  state : σ
  turn : Option ι
  threads : ι → Running κ σ ε α

/-- How an execution that ended went. -/
def Outcome.result : Outcome ε α → Option (Except ε α)
  | .returned a => some (.ok a)
  | .raised e => some (.error e)
  | .stopped => none

namespace Pool

/-- A pool whose threads have not started. -/
def start (s : σ) (ts : ι → Thread κ σ ε α) : Pool ι κ σ ε α := ⟨s, none, fun j => .between (ts j)⟩

variable [DecidableEq ι]

def set (P : Pool ι κ σ ε α) (j : ι) (r : Running κ σ ε α) : Pool ι κ σ ε α :=
  { P with threads := Function.update P.threads j r }

/-- One step of one thread. -/
inductive Step (P : Pool ι κ σ ε α) : Pool ι κ σ ε α → Prop
  | own {j : ι} {next : κ → σ → σ} {rest : κ → σ → Thread κ σ ε α} (c : κ)
      (h : P.threads j = .between (.own next rest)) :
      Step P { P.set j (.between (rest c P.state)) with state := next c P.state }
  | lock {j : ι} {β : Type} {body : Process κ σ ε β} {rest : Except ε β → Thread κ σ ε α}
      (h : P.threads j = .between (.locked body rest)) (hfree : ∀ k, ¬ (P.threads k).Inside) :
      Step P (P.set j (.inside body rest))
  | work {j : ι} {β : Type} {next : κ → σ → σ} {more : κ → σ → Process κ σ ε β}
      {rest : Except ε β → Thread κ σ ε α} (c : κ)
      (h : P.threads j = .inside (.step next more) rest) :
      Step P { P.set j (.inside (more c P.state) rest) with state := next c P.state }
  | unlock {j : ι} {β : Type} {b : β} {rest : Except ε β → Thread κ σ ε α}
      (h : P.threads j = .inside (.ret b) rest) : Step P (P.set j (.between (rest (.ok b))))
  | fail {j : ι} {β : Type} {e : ε} {rest : Except ε β → Thread κ σ ε α}
      (h : P.threads j = .inside (.raise e : Process κ σ ε β) rest) :
      Step P (P.set j (.between (rest (.error e))))
  | acquire {j : ι} {rest : Thread κ σ ε α} (h : P.threads j = .between (.acquire rest))
      (hfree : P.turn = none) : Step P { P.set j (.between rest) with turn := some j }
  | release {j : ι} {rest : Thread κ σ ε α} (h : P.threads j = .between (.release rest)) :
      Step P { P.set j (.between rest) with turn := none }

/-- One step of one thread, where a locked process is one step. -/
inductive Whole (P : Pool ι κ σ ε α) : Pool ι κ σ ε α → Prop
  | own {j : ι} {next : κ → σ → σ} {rest : κ → σ → Thread κ σ ε α} (c : κ)
      (h : P.threads j = .between (.own next rest)) :
      Whole P { P.set j (.between (rest c P.state)) with state := next c P.state }
  | locked {j : ι} {β : Type} {body : Process κ σ ε β} {rest : Except ε β → Thread κ σ ε α}
      {r : Except ε β} (script : List κ) (h : P.threads j = .between (.locked body rest))
      (hends : (body.run script P.state).1.result = some r) :
      Whole P { P.set j (.between (rest r)) with state := (body.run script P.state).2 }
  | acquire {j : ι} {rest : Thread κ σ ε α} (h : P.threads j = .between (.acquire rest))
      (hfree : P.turn = none) : Whole P { P.set j (.between rest) with turn := some j }
  | release {j : ι} {rest : Thread κ σ ε α} (h : P.threads j = .between (.release rest)) :
      Whole P { P.set j (.between rest) with turn := none }

/-- The pools that a pool reaches. -/
abbrev Reaches : Pool ι κ σ ε α → Pool ι κ σ ε α → Prop := Relation.ReflTransGen Step

/-- The pools that a pool reaches when locked processes run at once. -/
abbrev ReachesWhole : Pool ι κ σ ε α → Pool ι κ σ ε α → Prop := Relation.ReflTransGen Whole

end Pool

/-! ### Locality -/

section Local

variable (res : σ → ρ) (out : σ → μ)

/-- The process reads and writes the resource alone. -/
def Local : Process κ σ ε α → Prop
  | step next rest => ∀ c s, out (next c s) = out s ∧ (rest c s).Local ∧
      ∀ s', res s' = res s → res (next c s') = res (next c s) ∧ rest c s' = rest c s
  | _ => True

variable {res out}

theorem Local.bind {p : Process κ σ ε α} {f : α → Process κ σ ε β} (hp : p.Local res out)
    (hf : ∀ a, (f a).Local res out) : (p >>= f).Local res out := by
  induction p with
  | ret a => exact hf a
  | raise e => trivial
  | step next rest ih =>
    intro c s
    obtain ⟨hout, hrest, hres⟩ := hp c s
    exact ⟨hout, ih c s hrest, fun s' hs =>
      ⟨(hres s' hs).1, congrArg (Process.bind · f) (hres s' hs).2⟩⟩

theorem Local.attempt {p : Process κ σ ε α} (hp : p.Local res out) : p.attempt.Local res out := by
  induction p with
  | ret a => trivial
  | raise e => trivial
  | step next rest ih =>
    intro c s
    obtain ⟨hout, hrest, hres⟩ := hp c s
    exact ⟨hout, ih c s hrest, fun s' hs =>
      ⟨(hres s' hs).1, congrArg Process.attempt (hres s' hs).2⟩⟩

theorem Local.ofExcept (r : Except ε α) : (Process.ofExcept r : Process κ σ ε α).Local res out := by
  cases r <;> trivial

theorem Local.atomic {f : κ → σ → σ × Except ε α} (hout : ∀ c s, out (f c s).1 = out s)
    (hres : ∀ c s s', res s' = res s →
      res (f c s').1 = res (f c s).1 ∧ (f c s').2 = (f c s).2) :
    (Process.atomic f).Local res out := by
  exact fun c s => ⟨hout c s, .ofExcept _, fun s' hs =>
    ⟨(hres c s s' hs).1, congrArg Process.ofExcept (hres c s s' hs).2⟩⟩

/-- The process goes through a script from one state and stands at another process and state. -/
inductive Gone (p : Process κ σ ε α) (s : σ) : List κ → Process κ σ ε α → σ → Prop
  | refl : Gone p s [] p s
  | step {script : List κ} {next : κ → σ → σ} {rest : κ → σ → Process κ σ ε α} {s' : σ}
      (h : Gone p s script (.step next rest) s') (c : κ) :
      Gone p s (script ++ [c]) (rest c s') (next c s')

variable {p p' : Process κ σ ε α} {s s' t : σ} {script : List κ}

theorem Gone.run (h : p.Gone s script p' s') (more : List κ) :
    p.run (script ++ more) s = p'.run more s' := by
  induction h generalizing more with
  | refl => rfl
  | step h c ih =>
    rw [List.append_assoc]
    exact ih (c :: more)

theorem Gone.run_all (h : p.Gone s script p' s') : p.run script s = p'.run [] s' := by
  have hrun := h.run []
  rwa [List.append_nil] at hrun

theorem Gone.local (h : p.Gone s script p' s') (hp : p.Local res out) : p'.Local res out := by
  induction h with
  | refl => exact hp
  | step h c ih => exact (ih c _).2.1

theorem Gone.keeps (h : p.Gone s script p' s') (hp : p.Local res out) : out s' = out s := by
  induction h with
  | refl => rfl
  | step h c ih => exact (h.local hp c _).1.trans ih

/-- A local process goes the same way from every state with the same resource. -/
theorem Gone.transfer (h : p.Gone s script p' s') (hp : p.Local res out) (ht : res t = res s) :
    ∃ t', p.Gone t script p' t' ∧ res t' = res s' := by
  induction h with
  | refl => exact ⟨t, .refl, ht⟩
  | step h c ih =>
    obtain ⟨t', hgone, ht'⟩ := ih
    obtain ⟨hres, hrest⟩ := (h.local hp c _).2.2 t' ht'
    refine ⟨_, hrest ▸ hgone.step c, hres⟩

/-- A local process does the same to every state with the same resource. -/
theorem Local.run {p : Process κ σ ε α} {s s' : σ} (hp : p.Local res out) (hs : res s' = res s)
    (script : List κ) :
    (p.run script s').1 = (p.run script s).1 ∧ res (p.run script s').2 = res (p.run script s).2 := by
  induction p generalizing s s' script with
  | ret a => exact ⟨rfl, hs⟩
  | raise e => exact ⟨rfl, hs⟩
  | step next rest ih =>
    cases script with
    | nil => exact ⟨rfl, hs⟩
    | cons c script =>
      obtain ⟨-, hrest, hsame⟩ := hp c s
      obtain ⟨hres, hcode⟩ := hsame s' hs
      have hnext := ih c s hrest hres script
      show ((rest c s').run script (next c s')).1 = _ ∧ res ((rest c s').run script (next c s')).2 = _
      rw [hcode]
      exact hnext

end Local

/-! ### Reduction -/

section Reduction

variable (res : σ → ρ) (out : σ → μ) (M : ∀ β : Type, Process κ σ ε β → Prop)

/-- A step outside the mutex: it leaves the resource, and what it does depends on no more than what
`out` shows. -/
def Outside {τ : Type*} (next : κ → σ → σ) (rest : κ → σ → τ) : Prop :=
  ∀ c s, res (next c s) = res s ∧
    ∀ s', out s' = out s → out (next c s') = out (next c s) ∧ rest c s' = rest c s

/-- The thread runs only processes in `M` under the mutex, and leaves the resource alone outside. -/
def Thread.Obeys : Thread κ σ ε α → Prop
  | .ret _ => True
  | .raise _ => True
  | .own next rest => Outside res out next rest ∧ ∀ c s, (rest c s).Obeys
  | .locked body rest => M _ body ∧ ∀ r, (rest r).Obeys
  | .acquire rest => rest.Obeys
  | .release rest => rest.Obeys

variable {res out} {M}

theorem Thread.Obeys.bind {t : Thread κ σ ε α} {f : α → Thread κ σ ε β} (ht : t.Obeys res out M)
    (hf : ∀ a, (f a).Obeys res out M) : (t.bind f).Obeys res out M := by
  induction t with
  | ret a => exact hf a
  | raise e => trivial
  | own next rest ih =>
    refine ⟨fun c s => ⟨(ht.1 c s).1, fun s' hs => ?_⟩, fun c s => ih c s (ht.2 c s)⟩
    exact ⟨((ht.1 c s).2 s' hs).1, congrArg (Thread.bind · f) ((ht.1 c s).2 s' hs).2⟩
  | locked body rest ih => exact ⟨ht.1, fun r => ih r (ht.2 r)⟩
  | acquire rest ih => exact ih ht
  | release rest ih => exact ih ht

theorem Thread.Obeys.attempt {t : Thread κ σ ε α} (ht : t.Obeys res out M) :
    t.attempt.Obeys res out M := by
  induction t with
  | ret a => trivial
  | raise e => trivial
  | own next rest ih =>
    refine ⟨fun c s => ⟨(ht.1 c s).1, fun s' hs => ?_⟩, fun c s => ih c s (ht.2 c s)⟩
    exact ⟨((ht.1 c s).2 s' hs).1, congrArg Thread.attempt ((ht.1 c s).2 s' hs).2⟩
  | locked body rest ih => exact ⟨ht.1, fun r => ih r (ht.2 r)⟩
  | acquire rest ih => exact ih ht
  | release rest ih => exact ih ht

theorem Thread.obeys_ofExcept (r : Except ε α) :
    (Thread.ofExcept r : Thread κ σ ε α).Obeys res out M := by cases r <;> trivial

theorem Thread.obeys_whole {p : Process κ σ ε α} (hp : M _ p) : (Thread.whole p).Obeys res out M :=
  ⟨hp, Thread.obeys_ofExcept⟩

theorem Thread.Obeys.holding {t : Thread κ σ ε α} (ht : t.Obeys res out M) :
    t.holding.Obeys res out M :=
  Thread.Obeys.bind ht.attempt fun r => Thread.obeys_ofExcept r

namespace Pool

variable [DecidableEq ι]

/-- Where two pools stand alike: nobody is inside, or one thread is inside and the resource is what
its process made of it so far. -/
inductive Alike (res : σ → ρ) (M : ∀ β : Type, Process κ σ ε β → Prop) (P Q : Pool ι κ σ ε α) :
    Prop
  | free (h : P.threads = Q.threads) (hfree : ∀ k, ¬ (P.threads k).Inside)
      (hres : res P.state = res Q.state)
  | inside {j : ι} {β : Type} {body p : Process κ σ ε β} {rest : Except ε β → Thread κ σ ε α}
      {script : List κ} {s : σ} (h : P.threads = Function.update Q.threads j (.inside p rest))
      (hbody : Q.threads j = .between (.locked body rest)) (hM : M _ body)
      (hfree : ∀ k, ¬ (Q.threads k).Inside) (hgone : body.Gone Q.state script p s)
      (hres : res P.state = res s)

/-- What a pool with locks has in common with one in which locked processes run at once. -/
structure Follows (res : σ → ρ) (out : σ → μ) (M : ∀ β : Type, Process κ σ ε β → Prop)
    (P Q : Pool ι κ σ ε α) : Prop where
  turn : P.turn = Q.turn
  same : out P.state = out Q.state
  obeys : ∀ j t, Q.threads j = .between t → t.Obeys res out M
  alike : Alike res M P Q

variable {P P' Q Q' : Pool ι κ σ ε α} {j : ι} {t t' : Thread κ σ ε α}

theorem not_inside_update {threads : ι → Running κ σ ε α} (hfree : ∀ k, ¬ (threads k).Inside)
    (k : ι) : ¬ (Function.update threads j (.between t) k).Inside := by
  by_cases hk : k = j
  · subst hk
    rw [Function.update_self]
    exact id
  · rw [Function.update_of_ne hk]
    exact hfree k

theorem Alike.between (h : Alike res M P Q) (hj : P.threads j = .between t) :
    Q.threads j = .between t := by
  cases h with
  | free h hfree hres => rwa [← h]
  | @inside k _ _ _ _ _ _ h hbody hM hfree hgone hres =>
    by_cases hk : j = k
    · subst hk
      rw [h, Function.update_self] at hj
      cases hj
    · rwa [h, Function.update_of_ne hk] at hj

/-- A thread moves in both pools, outside the mutex. -/
theorem Alike.move (hlocal : ∀ β (p : Process κ σ ε β), M β p → p.Local res out)
    (h : Alike res M P Q) (hj : P.threads j = .between t) {s s' : σ} {turn turn' : Option ι}
    (hs : res s = res P.state) (hs' : res s' = res Q.state) :
    Alike res M ⟨s, turn, Function.update P.threads j (.between t')⟩
      ⟨s', turn', Function.update Q.threads j (.between t')⟩ := by
  cases h with
  | free h hfree hres =>
    exact .free (congrArg (Function.update · j _) h) (not_inside_update hfree)
      ((hs.trans hres).trans hs'.symm)
  | @inside k _ body p rest script s₁ h hbody hM hfree hgone hres =>
    have hk : k ≠ j := by
      rintro rfl
      rw [h, Function.update_self] at hj
      cases hj
    obtain ⟨s₂, hgone', hs₂⟩ := hgone.transfer (hlocal _ _ hM) hs'
    have hbody' : Function.update Q.threads j (.between t') k = .between (.locked body rest) :=
      (Function.update_of_ne hk _ _).trans hbody
    refine .inside (j := k) ?_ hbody' hM (not_inside_update hfree) hgone'
      ((hs.trans hres).trans hs₂.symm)
    rw [h]
    exact Function.update_comm hk _ _ _

/-- What a thread that is inside makes of the resource, and what it has still to do. -/
theorem Alike.inside_eq {β : Type} {p : Process κ σ ε β} {rest : Except ε β → Thread κ σ ε α}
    (h : Alike res M P Q) (hj : P.threads j = .inside p rest) :
    ∃ (body : Process κ σ ε β) (script : List κ) (s : σ),
      P.threads = Function.update Q.threads j (.inside p rest) ∧
      Q.threads j = .between (.locked body rest) ∧ M β body ∧ (∀ k, ¬ (Q.threads k).Inside) ∧
      body.Gone Q.state script p s ∧ res P.state = res s := by
  cases h with
  | free h hfree hres =>
    refine absurd ?_ (hfree j)
    rw [hj]
    trivial
  | @inside k _ body p' rest' script s h hbody hM hfree hgone hres =>
    by_cases hk : j = k
    · subst hk
      rw [h, Function.update_self] at hj
      cases hj
      exact ⟨body, script, s, h, hbody, hM, hfree, hgone, hres⟩
    · refine absurd ?_ (hfree j)
      rw [h, Function.update_of_ne hk] at hj
      rw [hj]
      trivial

theorem obeys_update (hobeys : ∀ k t, Q.threads k = .between t → t.Obeys res out M)
    (ht : t'.Obeys res out M) (k : ι) (t : Thread κ σ ε α)
    (hk : Function.update Q.threads j (.between t') k = .between t) : t.Obeys res out M := by
  by_cases hkj : k = j
  · subst hkj
    rw [Function.update_self] at hk
    cases hk
    exact ht
  · rw [Function.update_of_ne hkj] at hk
    exact hobeys k t hk

/-- A thread leaves the mutex: in the other pool its process runs at once. -/
theorem Follows.leave (hlocal : ∀ β (p : Process κ σ ε β), M β p → p.Local res out)
    (h : Follows res out M P Q) {β : Type} {p : Process κ σ ε β}
    {rest : Except ε β → Thread κ σ ε α} (hj : P.threads j = .inside p rest) {r : Except ε β}
    (hp : ∀ s, ∃ o : Outcome ε β, p.run [] s = (o, s) ∧ o.result = some r) :
    ∃ Q', ReachesWhole Q Q' ∧ Follows res out M (P.set j (.between (rest r))) Q' := by
  obtain ⟨body, script, s, hthreads, hbody, hM, hfree, hgone, hres⟩ := h.alike.inside_eq hj
  obtain ⟨o, hrun, hr⟩ := hp s
  have hall : body.run script Q.state = (o, s) := hgone.run_all.trans hrun
  have hends : (body.run script Q.state).1.result = some r := by rw [hall]; exact hr
  have hstate : (body.run script Q.state).2 = s := by rw [hall]
  refine ⟨_, .single (.locked script hbody hends), h.turn, ?_, ?_, .free ?_ ?_ ?_⟩
  · show out P.state = out _
    rw [hstate, h.same]
    exact (hgone.keeps (hlocal _ _ hM)).symm
  · exact obeys_update h.obeys ((h.obeys j _ hbody).2 r)
  · show Function.update P.threads j _ = Function.update Q.threads j _
    rw [hthreads, Function.update_idem]
  · show ∀ k, ¬ (Function.update P.threads j (.between (rest r)) k).Inside
    rw [hthreads, Function.update_idem]
    exact not_inside_update hfree
  · show res P.state = res _
    rw [hstate, hres]

/-- The simulation of one step. -/
theorem Follows.step (hlocal : ∀ β (p : Process κ σ ε β), M β p → p.Local res out)
    (h : Follows res out M P Q) (hstep : Step P P') :
    ∃ Q', ReachesWhole Q Q' ∧ Follows res out M P' Q' := by
  cases hstep with
  | @own j next rest c hj =>
    have hQ := h.alike.between hj
    obtain ⟨houtside, hrest⟩ := h.obeys j _ hQ
    obtain ⟨hout, hsame⟩ := (houtside c P.state).2 Q.state h.same.symm
    refine ⟨_, .single (.own c hQ), h.turn, hout.symm, ?_, ?_⟩
    · exact obeys_update h.obeys (hrest c _)
    · show Alike res M _ ⟨_, _, Function.update Q.threads j (.between (rest c Q.state))⟩
      rw [hsame]
      exact h.alike.move hlocal hj (houtside c _).1 (houtside c _).1
  | @lock j β body rest hj hfree =>
    have hQ := h.alike.between hj
    refine ⟨Q, .refl, h.turn, h.same, h.obeys, ?_⟩
    cases h.alike with
    | free hthreads _ hres =>
      refine .inside (j := j) (congrArg (Function.update · j _) hthreads) hQ (h.obeys j _ hQ).1 ?_
        .refl hres
      rw [← hthreads]
      exact hfree
    | @inside k _ _ p rest' _ _ hthreads _ _ _ _ _ =>
      refine absurd ?_ (hfree k)
      rw [hthreads, Function.update_self]
      trivial
  | @work j β next more rest c hj =>
    obtain ⟨body, script, s, hthreads, hbody, hM, hfree, hgone, hres⟩ := h.alike.inside_eq hj
    obtain ⟨hout, -, hsame⟩ := hgone.local (hlocal _ _ hM) c s
    obtain ⟨hnext, hmore⟩ := hsame P.state hres
    refine ⟨Q, .refl, h.turn, ?_, h.obeys, ?_⟩
    · exact ((hgone.local (hlocal _ _ hM) c P.state).1.trans h.same)
    · refine .inside (j := j) ?_ hbody hM hfree (hmore ▸ hgone.step c) hnext
      show Function.update P.threads j _ = _
      rw [hthreads, Function.update_idem]
  | unlock hj => exact h.leave hlocal hj fun s => ⟨_, rfl, rfl⟩
  | fail hj => exact h.leave hlocal hj fun s => ⟨_, rfl, rfl⟩
  | @acquire j rest hj hfree =>
    have hQ := h.alike.between hj
    refine ⟨_, .single (.acquire hQ (h.turn.symm.trans hfree)), rfl, h.same, ?_, ?_⟩
    · have hrest : (Thread.acquire rest).Obeys res out M := h.obeys j _ hQ
      exact obeys_update h.obeys hrest
    · exact h.alike.move hlocal hj rfl rfl
  | @release j rest hj =>
    have hQ := h.alike.between hj
    refine ⟨_, .single (.release hQ), rfl, h.same, ?_, ?_⟩
    · have hrest : (Thread.release rest).Obeys res out M := h.obeys j _ hQ
      exact obeys_update h.obeys hrest
    · exact h.alike.move hlocal hj rfl rfl

theorem follows_start {s : σ} {ts : ι → Thread κ σ ε α} (hts : ∀ j, (ts j).Obeys res out M) :
    Follows res out M (.start s ts) (.start s ts) where
  turn := rfl
  same := rfl
  obeys j t ht := by
    cases ht
    exact hts j
  alike := .free rfl (fun _ => id) rfl

/-- The reduction: whatever a pool of threads reaches step by step, it reaches with every locked
process run at once, but for the process that a thread is inside of. -/
theorem reduces (hlocal : ∀ β (p : Process κ σ ε β), M β p → p.Local res out) {s : σ}
    {ts : ι → Thread κ σ ε α} (hts : ∀ j, (ts j).Obeys res out M) (h : Reaches (.start s ts) P) :
    ∃ Q, ReachesWhole (.start s ts) Q ∧ Follows res out M P Q := by
  induction h with
  | refl => exact ⟨_, .refl, follows_start hts⟩
  | tail _ hstep ih =>
    obtain ⟨Q, hQ, hfollows⟩ := ih
    obtain ⟨Q', hQ', hfollows'⟩ := hfollows.step hlocal hstep
    exact ⟨Q', hQ.trans hQ', hfollows'⟩

/-! ### What whole processes keep -/

theorem whole_keeps {J : ρ → Prop}
    (hJ : ∀ β (p : Process κ σ ε β), M β p → ∀ s script, J (res s) →
      (p.run script s).1 ≠ .stopped → J (res (p.run script s).2))
    {s : σ} {ts : ι → Thread κ σ ε α} (hts : ∀ j, (ts j).Obeys res out M) (hs : J (res s))
    (h : ReachesWhole (.start s ts) Q) :
    J (res Q.state) ∧ ∀ j t, Q.threads j = .between t → t.Obeys res out M := by
  induction h with
  | refl =>
    refine ⟨hs, fun j t ht => ?_⟩
    cases ht
    exact hts j
  | tail _ hstep ih =>
    obtain ⟨hres, hobeys⟩ := ih
    cases hstep with
    | @own j next rest c hj =>
      obtain ⟨houtside, hrest⟩ := hobeys j _ hj
      refine ⟨?_, obeys_update hobeys (hrest c _)⟩
      show J (res (next c _))
      rw [(houtside c _).1]
      exact hres
    | @locked j β body rest r script hj hends =>
      obtain ⟨hM, hrest⟩ := hobeys j _ hj
      refine ⟨hJ β body hM _ script hres fun hstopped => ?_, obeys_update hobeys (hrest r)⟩
      rw [hstopped] at hends
      cases hends
    | @acquire j rest hj hfree =>
      have hrest : (Thread.acquire rest).Obeys res out M := hobeys j _ hj
      exact ⟨hres, obeys_update hobeys hrest⟩
    | @release j rest hj =>
      have hrest : (Thread.release rest).Obeys res out M := hobeys j _ hj
      exact ⟨hres, obeys_update hobeys hrest⟩

/-- What whole processes keep of the resource holds where nobody is inside, and where somebody is, what
his process made of it since. -/
theorem keeps {J : ρ → Prop} (hlocal : ∀ β (p : Process κ σ ε β), M β p → p.Local res out)
    (hJ : ∀ β (p : Process κ σ ε β), M β p → ∀ s script, J (res s) →
      (p.run script s).1 ≠ .stopped → J (res (p.run script s).2))
    {s : σ} {ts : ι → Thread κ σ ε α} (hts : ∀ j, (ts j).Obeys res out M) (hs : J (res s))
    (h : Reaches (.start s ts) P) :
    J (res P.state) ∨ ∃ (β : Type) (p : Process κ σ ε β) (s₁ : σ) (script : List κ), M β p ∧
      J (res s₁) ∧ res P.state = res (p.run script s₁).2 := by
  obtain ⟨Q, hQ, hfollows⟩ := reduces hlocal hts h
  have hkept := whole_keeps hJ hts hs hQ
  cases hfollows.alike with
  | free _ _ hres => exact .inl (hres ▸ hkept.1)
  | @inside _ β body p _ script s₂ _ _ hM _ hgone hres =>
    refine .inr ⟨β, body, Q.state, script, hM, hkept.1, ?_⟩
    rw [hgone.run_all, hres]
    cases p <;> rfl

end Pool

end Reduction

end Process
