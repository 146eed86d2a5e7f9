import EscrowSigner.Machine.Authority
import EscrowSigner.Machine.Trail
import EscrowSigner.Server.Receipts

/-! Who gets something out of the server: a signature is only ever asked of the key on behalf of the
timer or of a request that was admitted, and what is not admitted changes nothing but the audit trail. -/

namespace EscrowSigner.Server

open Policy Machine
open Process (Through)

variable {i : Instance} {front : Front} {int : String → Option Int} {as : List Arrival}
  {status : Status} {script : List Choice} {w w₀ : World} {env : State → Choice → Prop}
  {ok : State → Arrival → Prop}

/-! ### Calls -/

theorem steps_decide (i : Instance) (d : Decision) : (decide i d).Steps (Quiet KeepsSpend) := by
  refine (steps_audit i.ext _).attempt.bind fun r => ?_
  split
  · exact Process.Steps.pure _
  · split <;> exact Process.Steps.pure _

theorem steps_stats : Ledger.stats.Steps (Quiet KeepsSpend) :=
  steps_now.bind fun _ => (steps_select _).bind fun _ => (steps_select _).bind fun _ =>
    (steps_select _).bind fun _ => (steps_select _).bind fun _ => steps_halted.bind fun _ =>
      steps_guardRow.bind fun _ => Process.Steps.pure _

theorem steps_path (i : Instance) (path : String) : (get i path).Steps (Quiet KeepsSpend) := by
  unfold get
  split
  · exact steps_readMemory.bind fun _ => steps_readMemory.bind fun _ => steps_readMemory.bind fun _ =>
      steps_halted.bind fun _ => Process.Steps.pure _
  split
  · exact steps_stats.bind fun _ => steps_readMemory.bind fun _ => Process.Steps.pure _
  split
  · unfold getReceipt
    split
    · refine (steps_get _).bind fun row => ?_
      split <;> exact Process.Steps.pure _
    · exact Process.Steps.pure _
  · exact Process.Steps.pure _

/-- The calls of a log came to the server. -/
def CallsCame (front : Front) (int : String → Option Int) (as : List Arrival) (log : List Event) :
    Prop :=
  ∀ c, .call c ∈ log → ∃ a ∈ as, a.task front int = .call c

theorem unbroken_callsCame : Unbroken (CallsCame front int as) := by
  intro e es he h c hc
  rcases List.mem_cons.mp hc with rfl | hc
  · cases he
  · exact h c hc

/-- What no event breaks, a task keeps. -/
theorem trail_task {F : List Event → Prop} (hF : Unbroken F) (task : Task)
    (h : Trail F (task.enter w)) : Trail F (task.execute i script w).2 := by
  have hdecide : ∀ (d : Decision) {w : World}, Trail F w → (decide i d).Through (fun _ _ => True)
      (Trail F) (fun _ => Trail F) (fun _ => Trail F) w :=
    fun d _ h => trail_quiet hF (steps_decide i d) h
  have hcode : (task.code i).Through (fun _ _ => True) (Trail F) (fun _ => Trail F)
      (fun _ => Trail F) (task.enter w) := by
    cases task with
    | call c =>
      cases c with
      | handle raw =>
        refine Through.bind (P := fun _ => Trail F) ?_ fun _ _ h => h
        refine Through.bind (Through.attempt (trail_handle hF raw h)) fun r _ hr => ?_
        cases r with
        | ok d => exact hdecide d hr
        | error e => exact hdecide _ hr
      | boot | sweep => exact Through.bind (trail_serve hF _ h) fun _ _ h => h
    | audited d => exact Through.bind (hdecide d h) fun _ _ h => h
    | read path => exact Through.bind (trail_quiet hF (steps_path i path) h) fun _ _ h => h
    | plain reply => exact h
    | fails e => exact h
  exact hcode.anywhere (Process.admits_true _ script _)

/-- A task asks only for signatures that are vouched for. -/
theorem vouched_task (task : Task) (hv : AllVouched i w.log) :
    AllVouched i (task.execute i script w).2.log := by
  have hcode : Watches i (fun _ _ => True) (task.code i) (task.enter w) := by
    cases task with
    | call c =>
      have hcall : AllVouched i (w.record (.call c)).log := ⟨trivial, hv⟩
      cases c with
      | handle raw =>
        refine Watches.bind (P := fun _ _ => True) ?_ fun _ _ hv _ _ => .ret hv trivial
        refine (Watches.handle hcall rfl).attempt.bind fun r _ hv _ _ => ?_
        cases r with
        | ok d => exact .quiet hv (steps_decide i d)
        | error e => exact .quiet hv (steps_decide i _)
      | boot | sweep => exact (Watches.serve _ hcall rfl).bind fun _ _ hv _ _ => .ret hv trivial
    | audited d => exact (Watches.quiet hv (steps_decide i d)).bind fun _ _ hv _ _ => .ret hv trivial
    | read path => exact (Watches.quiet hv (steps_path i path)).bind fun _ _ hv _ _ => .ret hv trivial
    | plain reply => exact .ret hv trivial
    | fails e => exact .raise hv
  have hm := Process.Wp.run hcode (Process.admits_true _ script _)
  unfold Task.execute
  cases ho : ((task.code i).run script (task.enter w)).1 with
  | returned reply =>
    rw [ho] at hm
    exact hm.1
  | raised e =>
    rw [ho] at hm
    exact hm.1
  | stopped =>
    rw [ho] at hm
    exact hm.choose_spec

/-- On behalf of whom a call is made. -/
inductive Sanctioned (front : Front) (int : String → Option Int) (as : List Arrival) : Call → Prop
  | timer (h : .sweep ∈ as) : Sanctioned front int as .sweep
  | request (r : Incoming) (raw : Bytes) (h : .post r ∈ as) (hr : Admitted front int r raw) :
      Sanctioned front int as (.handle raw)

theorem CallsCame.sanctioned {log : List Event} (h : CallsCame front int as log) {c : Call}
    (hc : .call c ∈ log) (hboot : c ≠ .boot) : Sanctioned front int as c := by
  obtain ⟨a, ha, htask⟩ := h c hc
  cases a with
  | boot =>
    cases htask
    exact absurd rfl hboot
  | sweep =>
    cases htask
    exact .timer ha
  | get path => cases htask
  | post r =>
    obtain ⟨raw, rfl, hr⟩ := door_call.mp (task_post htask nofun)
    exact .request r raw ha hr

theorem mem_of_request {log : List Event} {c : Call} (h : request log = some c) : .call c ∈ log := by
  induction log with
  | nil => cases h
  | cons e log ih =>
    cases e with
    | call c' =>
      cases h
      exact .head _
    | clock | rpc | sign => exact .tail _ (ih h)

/-- What stands in the log of the server: the calls came, and the signatures are vouched for. -/
structure Accounted (i : Instance) (front : Front) (int : String → Option Int) (as : List Arrival)
    (w : World) : Prop where
  calls : CallsCame front int as w.log
  vouched : AllVouched i w.log

theorem Serves.accounted (h : Serves i front int env ok w₀ status as w) (hfresh : w₀.log = []) :
    Accounted i front int as w := by
  induction h with
  | start =>
    constructor
    · rw [hfresh]
      exact fun _ hc => absurd hc List.not_mem_nil
    · rw [hfresh]
      trivial
  | @arrive as w a script h hok henv ih =>
    have hmore : CallsCame front int (a :: as) w.log := fun c hc => by
      obtain ⟨a', ha', htask⟩ := ih.calls c hc
      exact ⟨a', .tail _ ha', htask⟩
    refine ⟨trail_task unbroken_callsCame _ ?_, vouched_task _ ih.vouched⟩
    unfold Trail
    cases htask : a.task front int with
    | call c =>
      intro c' hc
      rcases List.mem_cons.mp hc with hc | hc
      · cases hc
        exact ⟨a, .head _, htask⟩
      · exact hmore c' hc
    | audited | read | plain | fails => exact hmore
  | restart h ih => exact ⟨ih.calls, ih.vouched⟩

theorem asked_of_justified {p : Plan} {log : List Event} (h : Justified i log p) :
    ∃ c, request log = some c ∧ c ≠ .boot := by
  cases p with
  | debit body env call channel fees => exact ⟨_, h.asked, nofun⟩
  | expire body env call fees => exact ⟨_, h.asked, nofun⟩
  | sweep recipient balance data receipt fees => exact ⟨_, h.asked, nofun⟩

/-- Whatever world the server starts in, every signature that is asked for stands in a call of the
timer or of an admitted request, and it is for what that call may ask for. -/
theorem signs_sanctioned (h : Serves i front int env ok w₀ status as w) (hfresh : w₀.log = [])
    {later earlier : List Event} {row : SpendRow} {t : Nat} {tx : Tx} {r : Except Exn Bytes}
    (hlog : w.log = later ++ .sign row t tx r :: earlier) :
    ∃ c, request earlier = some c ∧ Sanctioned front int as c ∧ Shape i earlier tx := by
  obtain ⟨hcalls, hvouched⟩ := h.accounted hfresh
  have hsuffix : .sign row t tx r :: earlier <:+ w.log := by
    rw [hlog]
    exact List.suffix_append _ _
  obtain ⟨p, hp, rfl⟩ := hvouched.vouched hsuffix
  obtain ⟨c, hasked, hboot⟩ := asked_of_justified hp
  have hcame : .call c ∈ w.log := hsuffix.subset (.tail _ (mem_of_request hasked))
  exact ⟨c, hasked, hcalls.sanctioned hcame hboot, hp.shape⟩

/-- The signature of a debit stands in the call of its request. -/
theorem signs_sanctioned_debit : ∃ c tx, ∃ earlier : List Event, request earlier = some c ∧
    Sanctioned smallFront readsOne [.post debitPost, .boot] c ∧
      Shape (Sample.signer Sample.unlimited "") earlier tx := by
  obtain ⟨status, w, hserves, hshown⟩ := serves_debit
  obtain ⟨e, he, hsign⟩ := List.any_eq_true.mp (Bool.and_eq_true_iff.mp hshown).1
  obtain ⟨later, earlier, hlog⟩ := List.append_of_mem he
  cases e with
  | sign row t tx r =>
    obtain ⟨c, h⟩ := signs_sanctioned hserves rfl hlog
    exact ⟨c, tx, earlier, h⟩
  | call | clock | rpc => cases hsign

end EscrowSigner.Server
