import EscrowSigner.Machine.Testimony
import EscrowSigner.Server.Routes

/-! The server as it runs, one task at a time, and its refinement: wherever requests, probes and the
timer lead the process, the machine has a run to the same state.  So the machine's invariants hold of
the books between the handler's own audit rows as well. -/

namespace EscrowSigner.Server

open Policy Machine

/-- The worlds that the server reaches from a world, with what came to it, newest first.  Every step
meets a choice that `env` allows, and what comes is what `ok` allows. -/
inductive Serves (i : Instance) (front : Front) (int : String → Option Int)
    (env : State → Choice → Prop) (ok : State → Arrival → Prop) (w₀ : World) :
    Status → List Arrival → World → Prop
  | start : Serves i front int env ok w₀ .running [] w₀
  | arrive {as : List Arrival} {w : World} (a : Arrival) (script : List Choice)
      (h : Serves i front int env ok w₀ .running as w) (hok : ok (stateOf i w) a)
      (henv : ((a.task front int).code i).Admits (fun w => env (stateOf i w)) script
        ((a.task front int).enter w)) :
      Serves i front int env ok w₀ (.after ((a.task front int).execute i script w).1) (a :: as)
        ((a.task front int).execute i script w).2
  | restart {status : Status} {as : List Arrival} {w : World}
      (h : Serves i front int env ok w₀ status as w) :
      Serves i front int env ok w₀ .running as w.restart

/-- Whatever comes may come, and whatever the environment chooses it may choose. -/
theorem Serves.task {i : Instance} {front : Front} {int : String → Option Int} {w₀ w : World}
    {as : List Arrival} {a : Arrival} {task : Task}
    (h : Serves i front int (fun _ _ => True) (fun _ _ => True) w₀ .running as w)
    (htask : a.task front int = task) (script : List Choice) :
    Serves i front int (fun _ _ => True) (fun _ _ => True) w₀ (.after (task.execute i script w).1)
      (a :: as) (task.execute i script w).2 := by
  subst htask
  exact h.arrive a script trivial (Process.admits_true _ script _)

variable {σ : Setting} {φ : Phase} {w w' : World}

/-! ### Reads -/

/-- A read that leaves the machine where it is. -/
abbrev Peeks (σ : Setting) (φ : Phase) {α : Type} (p : Code α) (w : World) : Prop :=
  Leads σ (fun _ w' => At σ φ w' ∧ w'.tables = w.tables) p w

theorem peeks_view {α : Type} (f : Tables → α) (h : At σ φ w) :
    Peeks σ φ (select fun t => .ok (f t)) w :=
  (h.select (f := fun t => .ok (f t)) (.inr ⟨_, rfl⟩)).mono fun _ _ _ h => ⟨h.1, h.2.2.1⟩

theorem Peeks.then {α β : Type} {p : Code α} {f : α → Code β} (hp : Peeks σ φ p w)
    (hf : ∀ a w', At σ φ w' → Peeks σ φ (f a) w') : Peeks σ φ (p >>= f) w :=
  Leads.bind hp fun a w' _ h => (hf a w' h.1).mono fun _ _ _ h' => ⟨h'.1, h'.2.trans h.2⟩

theorem peeks_pure {α : Type} {a : α} (h : At σ φ w) : Peeks σ φ (Pure.pure a) w := Triple.pure ⟨h, rfl⟩

theorem peeks_halted (h : At σ φ w) : Peeks σ φ Ledger.halted w := by
  unfold Ledger.halted
  exact Peeks.then (peeks_view _ h) fun _ _ h => peeks_pure h

theorem peeks_stats (h : At σ φ w) : Peeks σ φ Ledger.stats w := by
  unfold Ledger.stats
  refine Peeks.then (Leads.mono h.now fun _ _ _ h => ⟨h.1, h.2.1⟩) fun _ _ h => ?_
  refine Peeks.then (peeks_view _ h) fun _ _ h => ?_
  refine Peeks.then (peeks_view _ h) fun _ _ h => ?_
  refine Peeks.then (peeks_view _ h) fun _ _ h => ?_
  refine Peeks.then (peeks_view _ h) fun _ _ h => ?_
  refine Peeks.then (peeks_halted h) fun _ _ h => ?_
  exact Peeks.then (peeks_view _ h) fun _ _ h => peeks_pure h

/-- A GET changes nothing that the machine sees. -/
theorem peeks_get (path : String) (h : At σ φ w) : Peeks σ φ (get σ.i path) w := by
  unfold get
  split
  · refine Peeks.then h.readMemory fun _ _ h => Peeks.then h.readMemory fun _ _ h => ?_
    exact Peeks.then h.readMemory fun _ _ h => Peeks.then (peeks_halted h) fun _ _ h => peeks_pure h
  split
  · exact Peeks.then (peeks_stats h) fun _ _ h => Peeks.then h.readMemory fun _ _ h => peeks_pure h
  split
  · unfold getReceipt
    split
    · refine Peeks.then (peeks_view _ h) fun row _ h => ?_
      cases row <;> exact peeks_pure h
    · exact peeks_pure h
  · exact peeks_pure h

/-! ### Tasks -/

/-- Where the machine can be when the next task comes. -/
def Waits (σ : Setting) (w : World) : Prop := Left σ .running w

/-- The decision of the handler is audited. -/
theorem At.decide {d : Decision} (h : At σ φ w)
    (hok : Free σ φ ∨ ∀ n ∈ (requestFields σ.i d).ints, inInt64 n = true) :
    Leads σ (fun _ w' => At σ φ w' ∨ Ends σ w') (decide σ.i d) w := by
  unfold Server.decide
  refine Triple.catch (h.audit hok) ?_ ?_
  · rintro _ w₁ - ⟨h₁, -⟩
    exact Triple.pure (.inl h₁)
  · rintro e w₁ - h₁
    dsimp only
    split
    · exact Triple.pure (.inr h₁)
    · exact Triple.pure (.inr h₁)

theorem waits_of_at (h : At σ φ w) (hφ : φ = .idle ∨ φ = .ended) : Waits σ w := ⟨φ, h, hφ⟩

/-- A request, from its body to its audited decision. -/
theorem At.post {body : Bytes} (h : At σ .idle w) (hask : request w.log = some (.handle body)) :
    Leads σ (fun _ => Waits σ) (post σ.i body) w := by
  have hdecide : ∀ {w : World} (d : Decision), Ends σ w →
      Leads σ (fun _ => Waits σ) (Server.decide σ.i d) w := by
    intro w d h
    obtain ⟨φ, hat, hfree⟩ := h.free
    exact (At.decide hat (.inl hfree)).mono fun _ _ _ h =>
      h.elim (fun h => (h.ends hfree).left) Ends.left
  unfold Server.post
  exact Triple.catch (h.handle hask) (fun d _ _ h => hdecide d h.ends) fun e _ _ h => hdecide _ h

/-- What is audited without a call is a refusal. -/
theorem door_audited {front : Front} {int : String → Option Int} {r : Incoming} {d : Decision}
    (h : door front int r = .ok (.audited d)) :
    d = refuse 401 "unauthorized" .none ∨ d = refuse 413 "body_too_large" .none := by
  unfold door at h
  split at h
  · cases h
  obtain ⟨allowed, -, h⟩ := bind_ok_iff.mp h
  cases allowed with
  | false =>
    cases h
    exact .inl rfl
  | true =>
    simp only [if_true] at h
    split at h
    · cases h
    split at h
    · cases h
    split at h
    · cases h
      exact .inr rfl
    unfold readBody at h
    obtain ⟨raw, -, h⟩ := bind_ok_iff.mp h
    split at h
    · cases h
    split at h
    · cases h
      exact .inr rfl
    · cases h

/-- The calls that the machine may take: those that come as `ok` allows. -/
def Comes (front : Front) (int : String → Option Int) (ok : State → Arrival → Prop) (s : State)
    (c : Call) (_ : List Choice) : Prop :=
  ∃ a, ok s a ∧ a.task front int = .call c

variable {front : Front} {int : String → Option Int} {ok : State → Arrival → Prop}
  {as : List Arrival} {status : Status}

theorem task_post {r : Incoming} {task : Task} (h : (Arrival.post r).task front int = task)
    (hne : ∀ e, task ≠ .fails e) : door front int r = .ok task := by
  simp only [Arrival.task] at h
  cases hdoor : door front int r with
  | ok found =>
    rw [hdoor] at h
    exact congrArg Except.ok h
  | error e =>
    rw [hdoor] at h
    exact absurd h.symm (hne e)

/-- What the handler audits on its own fits into the columns. -/
theorem task_audited {a : Arrival} {d : Decision} (h : a.task front int = .audited d) :
    ∀ n ∈ (requestFields σ.i d).ints, inInt64 n = true := by
  cases a with
  | post r =>
    rcases door_audited (task_post h nofun) with rfl | rfl
    · show ∀ n ∈ [401, Config.chainId], inInt64 n = true
      decide
    · show ∀ n ∈ [413, Config.chainId], inInt64 n = true
      decide
  | boot | sweep | get => cases h

/-- A task after which the next one can come, whether it returns or raises. -/
abbrev Passes (σ : Setting) {α : Type} (p : Code α) (w : World) : Prop :=
  Triple σ (fun _ => Waits σ) (fun _ => Waits σ) p w

theorem Passes.returning {α β : Type} {P : α → World → Prop} {p : Code α} {f : α → β}
    (hp : Leads σ P p w) (hP : ∀ a w', P a w' → Waits σ w') :
    Passes σ (do
      let a ← p
      return f a) w :=
  Triple.bind (Triple.mono hp (fun a _ _ h => hP a _ h) fun _ _ _ h => h.left) fun _ _ _ h =>
    Triple.pure h

/-- A task, from any state in which one can come. -/
theorem Waits.task {a : Arrival} (h : Waits σ w)
    (hcalls : ∀ c, a.task front int = .call c → σ.ok (stateOf σ.i w) c []) :
    Passes σ ((a.task front int).code σ.i) ((a.task front int).enter w) := by
  obtain ⟨φ, hat, hφ⟩ := h
  cases htask : a.task front int with
  | call c =>
    have hbegin : At σ .idle (w.record (.call c)) := hat.receive [] hφ (hcalls c htask)
    cases c with
    | handle raw => exact .returning (At.post hbegin rfl) fun _ _ h => h
    | boot | sweep => exact .returning (hbegin.serve rfl) fun _ _ h => h.left
  | audited d =>
    exact .returning (At.decide hat (.inr (task_audited htask))) fun _ _ h =>
      h.elim (fun h => waits_of_at h hφ) Ends.left
  | read path => exact .returning (peeks_get path hat) fun _ _ h => waits_of_at h.1 hφ
  | plain reply => exact Triple.pure (waits_of_at hat hφ)
  | fails e => exact Triple.raise (waits_of_at hat hφ)

/-- The refinement: from a new database, the server only reaches what the machine reaches. -/
theorem Serves.left {i : Instance} {env : State → Choice → Prop}
    (h : Serves i front int env ok .initial status as w) :
    Left (fromScratch i env (Comes front int ok)) status w := by
  induction h with
  | start => exact ⟨.ended, ⟨.refl, rfl⟩, .inr rfl⟩
  | @arrive as w a script h hok henv ih =>
    have hpasses : Passes (fromScratch i env (Comes front int ok)) ((a.task front int).code i)
        ((a.task front int).enter w) := Waits.task ih fun c hc => ⟨a, hok, hc⟩
    have hm := Process.Wp.run hpasses henv
    unfold Task.execute
    cases hrun : (((a.task front int).code i).run script ((a.task front int).enter w)).1 with
    | returned reply =>
      rw [hrun] at hm
      exact hm.2
    | raised e =>
      rw [hrun] at hm
      exact hm.2
    | stopped =>
      rw [hrun] at hm
      obtain ⟨_, φ, hreach, -⟩ := hm
      exact ⟨φ, hreach⟩
  | restart h ih =>
    obtain ⟨φ, hrun⟩ := ih.run
    exact ⟨.ended, ⟨hrun.tail .finish, rfl⟩, .inr rfl⟩

/-- An invariant of the machine holds wherever the server gets to. -/
theorem Serves.invariant {i : Instance} {env : State → Choice → Prop} {I : Phase → State → Prop}
    (h : Serves i front int env ok .initial status as w) (hinit : I .ended (stateOf i .initial))
    (hstep : ∀ φ s φ' s', Sound i φ s → I φ s → Step i env (Comes front int ok) (φ, s) (φ', s') →
      I φ' s') : ∃ φ, Sound i φ (stateOf i w) ∧ I φ (stateOf i w) :=
  h.left.invariant hinit hstep

end EscrowSigner.Server
