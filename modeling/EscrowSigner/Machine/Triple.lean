import EscrowSigner.Machine.Invariant

/-! Triples that follow the code through the machine: at every point where the code can be stopped
the machine has a run to the state of the world, and the postconditions say in which phase it is. -/

namespace EscrowSigner.Machine

/-- What the steps of a call share: the instance, what the environment allows, and the state of the
machine in which the call starts. -/
structure Setting where
  i : Instance
  env : State → Choice → Prop
  ok : State → Call → List Choice → Prop
  start : Phase × State
  sound : Sound i start.1 start.2

/-- An event of the key, or a broadcast, belongs to the plan that is being worked on. -/
def Covered (i : Instance) (φ : Phase) : Event → Prop
  | .sign row _ tx _ => ∃ p, φ = .working p row .held ∧ tx = p.tx i row
  | .rpc (.sendRaw raw) _ => ∃ p row, φ = .working p row .recorded ∧ raw = p.raw i row
  | _ => True

theorem Passive.covered {i : Instance} {φ : Phase} {c : Choice} {e : Event} (h : Passive c e) :
    Covered i φ e := by
  cases h with
  | clock => trivial
  | rpc q hq =>
    cases q with
    | sendRaw raw => cases hq
    | _ => trivial

namespace Setting

variable (σ : Setting)

/-- The choices that the environment allows in a world. -/
def permits (w : World) (c : Choice) : Prop := σ.env (stateOf σ.i w) c

/-- The machine has a run to a phase and the state of a world. -/
def Run (φ : Phase) (w : World) : Prop := Runs σ.i σ.env σ.ok σ.start (φ, stateOf σ.i w)

/-- Statements succeed, and the clock neither steps back nor stands behind the ledger. -/
def Healthy : Prop :=
  (∀ s c, σ.env s c → c.fault = none ∧ s.clock ≤ c.now) ∧
    σ.start.2.maxTs ≤ seconds σ.start.2.clock + Ledger.clockToleranceS

/-- What a step commits is what was committed before it, or a step of the machine away from it. -/
def Commits (φ : Phase) (w w' : World) : Prop :=
  w'.tables = w.tables ∨ ∃ φ', Step σ.i σ.env σ.ok (φ, stateOf σ.i w) (φ', stateOf σ.i w')

/-- The process can be stopped here, a step to `next` asks the key for nothing and sends nothing
that the phase does not cover, and the machine can follow what it commits. -/
def Safe (w : World) (next : Choice → World) : Prop :=
  ∃ φ, σ.Run φ w ∧ (∀ c e, σ.permits w c → (next c).log = e :: w.log → Covered σ.i φ e) ∧
    ∀ c, σ.permits w c → σ.Commits φ w (next c)

end Setting

variable {σ : Setting} {φ φ' : Phase} {w w' w'' : World} {α β : Type}

/-- The machine is in phase `φ` at `w`, where no transaction is open. -/
structure At (σ : Setting) (φ : Phase) (w : World) : Prop where
  run : σ.Run φ w
  closed : w.db.working = none

/-- A call may end here, by returning or by raising: nothing is left half done unless a statement
failed or the clock stepped back. -/
def Ends (σ : Setting) (w : World) : Prop := ∃ φ, At σ φ w ∧ (σ.Healthy → φ = .idle)

/-- The log of the call in progress only grows, a steady clock goes on, and a lasting chain grows. -/
structure Later (σ : Setting) (w w' : World) : Prop where
  request : request w'.log = request w.log
  session : ∀ e ∈ session w.log, e ∈ session w'.log
  log : ∀ e ∈ w.log, e ∈ w'.log
  clock : Steady σ.env → w.clock ≤ w'.clock
  chain : Lasting σ.env → ∀ h ∈ w.chain.receipts, h ∈ w'.chain.receipts

theorem Later.refl (w : World) : Later σ w w :=
  ⟨rfl, fun _ h => h, fun _ h => h, fun _ => le_rfl, fun _ _ h => h⟩

theorem Shown.later {rows : List SpendRow} {cut : Int} (h : Shown σ.env rows w.log cut)
    (hl : Later σ w w') : Shown σ.env rows w'.log cut where
  read := by
    obtain ⟨instant, hread, hcut⟩ := h.read
    exact ⟨instant, hl.session _ hread, hcut⟩
  stood := by
    rw [hl.request]
    exact h.stood

theorem Later.trans (h : Later σ w w') (h' : Later σ w' w'') : Later σ w w'' :=
  ⟨h'.request.trans h.request, fun e he => h'.session e (h.session e he),
    fun e he => h'.log e (h.log e he), fun hs => (h.clock hs).trans (h'.clock hs),
    fun hl x hx => h'.chain hl x (h.chain hl x hx)⟩

/-- A postcondition for values and one for exceptions. -/
def either (P : α → World → Prop) (E : Exn → World → Prop) : Except Exn α → World → Prop
  | .ok a, w => P a w
  | .error e, w => E e w

@[simp] theorem either_ok {P : α → World → Prop} {E : Exn → World → Prop} {a : α} :
    either P E (.ok a) w ↔ P a w := Iff.rfl

@[simp] theorem either_error {P : α → World → Prop} {E : Exn → World → Prop} {e : Exn} :
    either P E (.error e) w ↔ E e w := Iff.rfl

/-- From `w` the code ends in `P` or raises into `E`, and can be stopped anywhere on the way. -/
def Triple (σ : Setting) (P : α → World → Prop) (E : Exn → World → Prop) (p : Code α) (w : World) :
    Prop :=
  p.Wp σ.permits σ.Safe (fun r w' => Later σ w w' ∧ either P E r w') w

/-- A triple whose exceptions may leave the call. -/
def Leads (σ : Setting) (P : α → World → Prop) (p : Code α) (w : World) : Prop :=
  Triple σ P (fun _ => Ends σ) p w

/-! ### Rules -/

section Rules

variable {P : α → World → Prop} {Q : β → World → Prop} {E F : Exn → World → Prop}

theorem Triple.pure {a : α} (h : P a w) : Triple σ P E (Pure.pure a) w := ⟨.refl w, h⟩

theorem Triple.raise {e : Exn} (h : E e w) : Triple σ P E (throwExn e) w := ⟨.refl w, h⟩

theorem Triple.bind {p : Code α} {f : α → Code β} (hp : Triple σ P E p w)
    (hf : ∀ a w', Later σ w w' → P a w' → Triple σ Q E (f a) w') : Triple σ Q E (p >>= f) w := by
  refine Process.wp_bind.mpr (Process.Wp.mono hp fun r w' => ?_)
  rintro ⟨hl, hr⟩
  cases r with
  | ok a => exact Process.Wp.mono (hf a w' hl hr) fun _ _ h => ⟨hl.trans h.1, h.2⟩
  | error e => exact ⟨hl, hr⟩

/-- A `try`: the handlers see the value or the exception. -/
theorem Triple.catch {p : Code α} {f : Except Exn α → Code β} (hp : Triple σ P E p w)
    (hok : ∀ a w', Later σ w w' → P a w' → Triple σ Q F (f (.ok a)) w')
    (herr : ∀ e w', Later σ w w' → E e w' → Triple σ Q F (f (.error e)) w') :
    Triple σ Q F (p.attempt >>= f) w := by
  refine Process.wp_bind.mpr (Process.wp_attempt.mpr (Process.Wp.mono hp fun r w' => ?_))
  rintro ⟨hl, hr⟩
  cases r with
  | ok a => exact Process.Wp.mono (hok a w' hl hr) fun _ _ h => ⟨hl.trans h.1, h.2⟩
  | error e => exact Process.Wp.mono (herr e w' hl hr) fun _ _ h => ⟨hl.trans h.1, h.2⟩

theorem Triple.mono {p : Code α} {P' : α → World → Prop} (hp : Triple σ P E p w)
    (hP : ∀ a w', Later σ w w' → P a w' → P' a w')
    (hE : ∀ e w', Later σ w w' → E e w' → F e w') : Triple σ P' F p w := by
  refine Process.Wp.mono hp fun r w' => ?_
  rintro ⟨hl, hr⟩
  cases r with
  | ok a => exact ⟨hl, hP a w' hl hr⟩
  | error e => exact ⟨hl, hE e w' hl hr⟩

theorem Triple.ofExcept {r : Except Exn α} (hP : ∀ a, r = .ok a → P a w)
    (hE : ∀ e, r = .error e → E e w) : Triple σ P E (.ofExcept r) w := by
  cases r with
  | ok a => exact ⟨.refl w, hP a rfl⟩
  | error e => exact ⟨.refl w, hE e rfl⟩

theorem Triple.action {f : Choice → World → World × Except Exn α}
    (hs : σ.Safe w fun c => (f c (w.advance c)).1)
    (hf : ∀ c, σ.permits w c →
      Later σ w (f c (w.advance c)).1 ∧ either P E (f c (w.advance c)).2 (f c (w.advance c)).1) :
    Triple σ P E (action f) w :=
  Process.wp_atomic.mpr ⟨hs, hf⟩

theorem Leads.bind {p : Code α} {f : α → Code β} (hp : Leads σ P p w)
    (hf : ∀ a w', Later σ w w' → P a w' → Leads σ Q (f a) w') : Leads σ Q (p >>= f) w :=
  Triple.bind hp hf

theorem Leads.mono {p : Code α} {P' : α → World → Prop} (hp : Leads σ P p w)
    (hP : ∀ a w', Later σ w w' → P a w' → P' a w') : Leads σ P' p w :=
  Triple.mono hp hP fun _ _ _ h => h

theorem Leads.and {P' : α → World → Prop} {p : Code α} (hp : Leads σ P p w)
    (hq : Leads σ P' p w) :
    Leads σ (fun a w' => P a w' ∧ P' a w') p w := by
  refine (Process.Wp.and hp hq).mono fun r w' h => ⟨h.1.1, ?_⟩
  cases r with
  | ok a => exact ⟨h.1.2, h.2.2⟩
  | error e => exact h.1.2

end Rules

/-! ### Phases at a world -/

/-- A step that records nothing, or an event that changes nothing else, is safe if the machine can
follow what it commits. -/
theorem Setting.Run.safe {next : Choice → World} (h : σ.Run φ w)
    (hlog : ∀ c, (next c).log = w.log ∨ ∃ e, Passive c e ∧ (next c).log = e :: w.log)
    (hcommits : ∀ c, σ.permits w c → σ.Commits φ w (next c)) : σ.Safe w next := by
  refine ⟨φ, h, fun c e _ he => ?_, hcommits⟩
  rcases hlog c with hlog | ⟨e', hp, hlog⟩
  · rw [hlog] at he
    exact absurd he.symm (List.cons_ne_self e w.log)
  · rw [hlog, List.cons.injEq] at he
    exact he.1 ▸ hp.covered

theorem At.soundness (h : At σ φ w) : Sound σ.i φ (stateOf σ.i w) := sound_run h.run σ.sound

theorem At.view (h : At σ φ w) : w.view = w.tables := by
  simp [World.view, Db.view, World.tables, h.closed]

/-- A step of the machine from here to another world. -/
theorem At.step (h : At σ φ w) (hc : w'.db.working = none)
    (hs : Step σ.i σ.env σ.ok (φ, stateOf σ.i w) (φ', stateOf σ.i w')) : At σ φ' w' :=
  ⟨h.run.tail hs, hc⟩

/-- A step of the machine that leaves the world as it is. -/
theorem At.stay (h : At σ φ w)
    (hs : Step σ.i σ.env σ.ok (φ, stateOf σ.i w) (φ', stateOf σ.i w)) : At σ φ' w :=
  h.step h.closed hs

theorem At.settle (h : At σ φ w) (hφ : φ.settled = true) : At σ .idle w := h.stay (.settle hφ)

/-- An exception may leave the call here. -/
def Free (σ : Setting) (φ : Phase) : Prop := φ.settled = true ∨ ¬ σ.Healthy

theorem At.ends (h : At σ φ w) (hφ : Free σ φ) : Ends σ w := by
  rcases hφ with hφ | hh
  · exact ⟨.idle, h.settle hφ, fun _ => rfl⟩
  · exact ⟨.ended, h.stay .finish, fun h' => absurd h' hh⟩

/-- Where a call may end, the machine is in a phase that an exception may leave. -/
theorem Ends.free (h : Ends σ w) : ∃ φ, At σ φ w ∧ Free σ φ := by
  obtain ⟨φ, hat, hφ⟩ := h
  by_cases hh : σ.Healthy
  · exact ⟨φ, hat, .inl (by rw [hφ hh]; rfl)⟩
  · exact ⟨φ, hat, .inr hh⟩

theorem At.endsIdle (h : At σ .idle w) : Ends σ w := h.ends (.inl rfl)

/-- With a steady clock the ledger never stands further ahead than the tolerance. -/
theorem sane_step {i : Instance} {env : State → Choice → Prop}
    {ok : State → Call → List Choice → Prop} (hs : Steady env) {s s' : State}
    (h : s.maxTs ≤ seconds s.clock + Ledger.clockToleranceS)
    (hstep : Step i env ok (φ, s) (φ', s')) :
    s'.maxTs ≤ seconds s'.clock + Ledger.clockToleranceS := by
  have later : ∀ c, env s c → s.maxTs ≤ seconds c.now + Ledger.clockToleranceS := fun c hc =>
    h.trans (Int.add_le_add_right (seconds_mono (hs s c hc)) _)
  have stamped : ∀ c ts, env s c → Stamped env s ts →
      ts ≤ seconds c.now + Ledger.clockToleranceS := by
    rintro c ts hc ⟨instant, hi, rfl⟩
    have : seconds instant ≤ seconds c.now := seconds_mono ((hi hs).trans (hs s c hc))
    exact max_le (by unfold Ledger.clockToleranceS; omega) (later c hc)
  cases hstep with
  | receive | finish | settle => exact h
  | pass he hlog hts hseq =>
    rcases hts with rfl | hts
    · exact later _ he
    · exact stamped _ _ he hts
  | grant he hj hfit hcut hshown hts => exact stamped _ _ he hts
  | stamp _ _ he | find he | count he | setNext he | sign he | balk _ he | mark he | record he | send he
  | broadcast he | mine he | kill _ he | giveBack he => exact later _ he

theorem Setting.Healthy.steady (h : σ.Healthy) : Steady σ.env := fun s c hc => (h.1 s c hc).2

theorem At.sane (h : At σ φ w) (hh : σ.Healthy) :
    w.tables.clockGuard.maxTs ≤ seconds w.clock + Ledger.clockToleranceS :=
  Runs.invariant (I := fun _ s => s.maxTs ≤ seconds s.clock + Ledger.clockToleranceS) h.run hh.2
    fun _ _ _ _ => sane_step hh.steady

end EscrowSigner.Machine
