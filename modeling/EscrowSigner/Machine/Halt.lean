import EscrowSigner.History
import EscrowSigner.Machine.Frames

/-! The halt: a halted ledger stays halted, and no call of a halted service asks the key for a
signature or sends anything, as long as a sweep does not get past its preamble. -/

namespace EscrowSigner.Machine

open Policy Process

variable {i : Instance}

instance (t : Tables) : Decidable (Tables.IsHalted t) := inferInstanceAs (Decidable (_ ∧ _))

/-- The ledger is halted, in what is committed and in what is not. -/
def Halted (w : World) : Prop := Holds Tables.IsHalted w.db

/-- No step of the code ends a halt. -/
theorem Halted.firm {c : Choice} {w w' : World} (h : Halted w) (hs : Firm StaysHalted c w w') :
    Halted w' :=
  Writes.holds hs h fun _ _ ht hK => hK ht

/-! ### The use of the key -/

/-- Whether an event is a request for a signature, or a broadcast. -/
def usesKey : Event → Bool
  | .sign .. => true
  | .rpc q _ => sends q
  | .call _ | .clock _ => false

theorem Passive.usesKey {c : Choice} {e : Event} (h : Passive c e) : usesKey e = false := by
  cases h with
  | clock => rfl
  | rpc q hq => exact hq

/-- What was signed and sent according to a log. -/
def keyUses (log : List Event) : List Event := log.filter usesKey

/-- The ledger is halted, and nothing was signed or sent since `log`. -/
structure Idle (log : List Event) (w : World) : Prop where
  halted : Halted w
  unused : keyUses w.log = keyUses log

theorem Idle.quiet {log : List Event} {c : Choice} {w w' : World} (h : Idle log w)
    (hq : Quiet StaysHalted c w w') : Idle log w' := by
  refine ⟨h.halted.firm (c := c) hq.db, ?_⟩
  rcases hq.log with hlog | ⟨e, hp, hlog⟩
  · rw [hlog, h.unused]
  · rw [hlog, keyUses, List.filter_cons, hp.usesKey]
    exact h.unused

/-- The execution of a process stays idle. -/
def StaysIdle {α : Type} (log : List Event) (p : Code α) (w : World) : Prop :=
  p.Wp (fun _ _ => True) (fun w' _ => Idle log w') (fun _ => Idle log) w

theorem Idle.steps {α : Type} {log : List Event} {p : Code α} {w : World} (h : Idle log w)
    (hp : p.Steps (Quiet StaysHalted)) : StaysIdle log p w :=
  hp.wp (fun _ _ _ => Idle.quiet) (fun _ _ h _ => h) h

theorem StaysIdle.run {α : Type} {log : List Event} {p : Code α} {w : World}
    (h : StaysIdle log p w) (script : List Choice) : Idle log (p.run script w).2 := by
  have hm := Wp.run h (admits_true p script w)
  cases ho : (p.run script w).1 with
  | returned a =>
    rw [ho] at hm
    exact hm
  | raised e =>
    rw [ho] at hm
    exact hm
  | stopped =>
    rw [ho] at hm
    exact hm.choose_spec

/-- What the property `halted` reads of a halted ledger is a reason. -/
theorem Idle.halted_ne {log : List Event} {w : World} (h : Idle log w) :
    Ledger.halted.Wp (fun _ _ => True) (fun w' _ => Idle log w')
      (fun r w' => Idle log w' ∧ ∀ reason, r = .ok reason → reason ≠ "") w := by
  refine wp_bind.mpr (wp_select h fun c r w' _ hq hr => ?_)
  have hnext : Idle log w' := h.quiet ⟨hq.db.mono fun _ _ => KeepsSpend.halted, hq.log⟩
  cases r with
  | error e => exact ⟨hnext, fun _ he => by cases he⟩
  | ok row =>
    refine ⟨hnext, fun reason hreason => ?_⟩
    obtain ⟨hhalted, hne⟩ : Tables.IsHalted w.view := Holds.view h.halted
    cases hr row rfl
    rw [← Except.ok.inj hreason, if_pos hhalted]
    exact hne

/-- A request to a halted service is refused at its first step. -/
theorem Idle.handle {log : List Event} {w : World} (h : Idle log w) (rawBody : Bytes) :
    StaysIdle log (handle i rawBody) w := by
  refine wp_bind.mpr (h.halted_ne.mono fun r w' => ?_)
  rintro ⟨hidle, hne⟩
  cases r with
  | error e => exact hidle
  | ok reason =>
    refine andThen_ok.mpr ?_
    rw [if_pos (hne reason rfl)]
    exact hidle

/-- A sweep that does not get past its preamble. -/
def StopsEarly (i : Instance) (w : World) : Prop :=
  strip i.settings.sweepTo = "" ∨ w.mem.ready = false ∨
    lower (strip i.settings.sweepTo) = lower i.address

theorem Idle.sweep {log : List Event} {w : World} (h : Idle log w) (hstop : StopsEarly i w) :
    StaysIdle log (sweepProceeds i) w := by
  unfold StopsEarly at hstop
  unfold sweepProceeds StaysIdle
  generalize strip i.settings.sweepTo = recipient at hstop ⊢
  refine wp_bind.mpr (wp_atomic.mpr ⟨h, fun c _ => ?_⟩)
  have hnext : Idle log (w.advance c) := h.quiet (steps_readMemory c w).1
  refine andThen_ok.mpr ?_
  split
  · exact hnext
  · rename_i hgo
    obtain ⟨hblank, hready⟩ := not_or.mp hgo
    have hown := (hstop.resolve_left hblank).resolve_left fun hr => hready (by
      show ¬ w.mem.ready = true
      rw [hr]
      exact Bool.false_ne_true)
    rw [if_pos hown]
    exact hnext

/-! ### Runs -/

/-- The worlds that the service reaches from a world between two calls. -/
inductive Onwards (i : Instance) (ok : World → Call → List Choice → Prop) (w₀ : World) :
    Status → World → Prop
  | start : Onwards i ok w₀ .running w₀
  | call {w : World} (c : Call) (script : List Choice) (h : Onwards i ok w₀ .running w)
      (hok : ok w c script) :
      Onwards i ok w₀ (.after (execute i c script w).1) (execute i c script w).2
  | restart {s : Status} {w : World} (h : Onwards i ok w₀ s w) : Onwards i ok w₀ .running w.restart

theorem Idle.execute {log : List Event} {w : World} (h : Idle log w) (c : Call)
    (hstop : c = .sweep → StopsEarly i w) (script : List Choice) :
    Idle log (execute i c script w).2 := by
  have hcall : Idle log (w.record (.call c)) := ⟨h.halted, h.unused⟩
  cases c with
  | boot => exact StaysIdle.run (hcall.steps ((steps_boot i).bind fun _ => Steps.pure _)) script
  | handle rawBody =>
    refine StaysIdle.run (p := serve i (.handle rawBody)) (wp_bind.mpr ?_) script
    refine (hcall.handle rawBody).mono fun r w' hidle => ?_
    cases r <;> exact hidle
  | sweep => exact StaysIdle.run (hcall.sweep (hstop rfl)) script

/-- From a world with a halted ledger on, nothing is signed and nothing is sent, whatever is
requested and whatever the clock and the chain say, if every sweep stops in its preamble. -/
theorem halted_uses_no_key {w₀ w : World} {status : Status} (hhalted : Tables.IsHalted w₀.tables)
    (hclosed : w₀.db.working = none)
    (h : Onwards i (fun w c _ => c = .sweep → StopsEarly i w) w₀ status w) :
    keyUses w.log = keyUses w₀.log := by
  have hidle : Idle w₀.log w := by
    induction h with
    | start => exact ⟨⟨hhalted, fun t ht => by rw [hclosed] at ht; cases ht⟩, rfl⟩
    | call c script h hok ih => exact ih.execute c hok script
    | restart h ih => exact ⟨⟨ih.halted.committed, fun t ht => by cases ht⟩, ih.unused⟩
  exact hidle.unused

section Sample

open EscrowSigner.Sample

def treasury : String := "0x3333333333333333333333333333333333333333"

/-- The instance that sweeps its proceeds. -/
abbrev sweeper : Instance := signer unlimited treasury

/-- The clock steps back while a debit is requested, and the ledger is halted. -/
def regression : List (Turn sweeper) :=
  [boot { time := 100 : Outside }.script, debit 1 { time := 50 : Outside }.script]

/-- The timer ticks when the clock is right again. -/
def laterSweep : Outside := { time := 101, balance := 5 }

/-- A halted service that sweeps nothing signs nothing on a debit, on a restart and on a tick. -/
theorem halted_uses_no_key_on_debit : ∃ w₀ : World, Tables.IsHalted w₀.tables ∧
    keyUses (execute (signer unlimited "") .sweep laterSweep.script
      (execute (signer unlimited "") (.handle [1]) laterSweep.script w₀).2.restart).2.log =
      keyUses w₀.log := by
  let w₀ : World := { World.initial with
    db := ⟨{ Tables.empty with clockGuard := ⟨0, 0, true, "clock regression"⟩ }, none⟩ }
  have hhalted : Tables.IsHalted w₀.tables := by decide
  have hblank : strip "" = "" := by decide
  exact ⟨w₀, hhalted, halted_uses_no_key hhalted rfl
    (((Onwards.start.call _ _ fun h => by cases h).restart).call _ _ fun _ => .inl hblank)⟩

/-- After the clock stepped back and recovered, the timer's sweep is signed by the halted service. -/
theorem halted_uses_key : ∃ w₀ status w, Reach sweeper (fun _ _ => True) (fun _ _ _ => True)
    .running w₀ ∧ Tables.IsHalted w₀.tables ∧
      Onwards sweeper (fun _ _ _ => True) w₀ status w ∧ keyUses w.log ≠ keyUses w₀.log := by
  obtain ⟨status, w₀, hw, hrunning, hhalted, huses⟩ := Reach.exists_of_play (Q := fun _ => True)
    (E := fun _ _ => True) (K := fun _ _ _ => True)
    (P := fun status w => status = .running ∧ Tables.IsHalted w.tables ∧
      (keyUses (execute sweeper .sweep laterSweep.script w).2.log).length ≠
        (keyUses w.log).length) regression (fun _ _ _ _ => trivial) (by decide +kernel)
  subst hrunning
  refine ⟨w₀, _, _, hw.mono (fun _ _ _ => trivial) fun _ _ _ h => h, hhalted,
    Onwards.start.call .sweep laterSweep.script trivial, fun heq => huses ?_⟩
  rw [heq]

end Sample

end EscrowSigner.Machine
