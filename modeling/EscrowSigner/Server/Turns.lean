import EscrowSigner.Process.Turns
import EscrowSigner.Server.Bystanders
import EscrowSigner.Server.Threads

/-! The signing lock.  While a call has the turn, whatever else comes to the server does no more than a
bystander may, and it does not wait for the call. -/

namespace EscrowSigner.Server

open Policy
open Process (Thread Pool Running)

variable {i : Instance} {front : Front} {int : String → Option Int} {ι : Type}
  {t : Thread Choice World Exn (Option Reply)}

/-! ### Threads -/

/-- What comes to the server is a call, or comes from a bystander. -/
theorem bystander_of_task {a : Arrival} (hcall : ∀ c, a.task front int ≠ .call c) :
    Bystander front int a := by
  cases a with
  | boot => exact absurd rfl (hcall .boot)
  | sweep => exact absurd rfl (hcall .sweep)
  | get path => exact .get path
  | post r =>
    exact .post r fun raw hr => hcall (.handle raw) (task_of_door (door_call.mpr ⟨raw, rfl, hr⟩))

theorem Bystander.not_call {a : Arrival} (h : Bystander front int a) (c : Call) :
    a.task front int ≠ .call c := by
  intro htask
  cases h with
  | get path => cases htask
  | post r hnot =>
    obtain ⟨raw, -, hr⟩ := door_call.mp (task_post htask nofun)
    exact hnot raw hr

/-- A call moves in its turn, and a bystander strays. -/
theorem Hosts.mild (h : Hosts i front int t) : (Running.between t).Mild Strays false := by
  obtain ⟨a, ha⟩ := h
  generalize htask : a.task front int = task at ha
  cases ha with
  | @call c body hbody =>
    have hplain : (Thread.own (fun _ w => w.record (.call c)) fun _ _ => body : Thread Choice World
        Exn (Option Reply)).Plain := fun _ _ => hbody.2.2
    exact .inl hplain.confined
  | other hcall ht =>
    refine .inr ?_
    have hsteps : (task.code i).Steps Strays := by
      subst htask
      exact (bystander_of_task hcall).steps.1
    rw [← ht.1] at hsteps
    exact hsteps

theorem Bystander.plain {a : Arrival} (h : Bystander front int a) (ht : Does i (a.task front int) t) :
    t.Plain := by
  generalize htask : a.task front int = task at ht
  cases ht with
  | call c => exact absurd htask (h.not_call c)
  | other _ ht => exact ht.2.2

theorem Does.eq_callThread {c : Call} (h : Does i (.call c) t) : ∃ c body, t = callThread c body := by
  cases h with
  | call c h => exact ⟨_, _, rfl⟩
  | other hcall => exact absurd rfl (hcall c)

/-! ### Pools -/

variable [DecidableEq ι] {ts : ι → Thread Choice World Exn (Option Reply)}
  {P P' : Pool ι Choice World Exn (Option Reply)} {w₀ : World} {j k : ι}

/-- While a call has the turn, outside of its transactions, the others leave its books, its memory and
the chain alone, however many they are and however far they go. -/
theorem calls_undisturbed (hts : ∀ j, Hosts i front int (ts j))
    (h : Pool.Reaches (.start w₀ ts) P) (hturn : P.turn = some j)
    (hclosed : P.state.db.working = none)
    (hrun : Relation.ReflTransGen (Pool.Others j) P P') :
    Aside P.state P'.state ∧ P'.turn = some j := by
  have hstart : Pool.Orderly (.start w₀ ts) :=
    Pool.orderly_start fun j => (hts j).choose_spec.obeys.2
  have hmild : Pool.Mild Strays (.start w₀ ts) := fun j => (hts j).mild
  exact (hmild.reaches hstart h).undisturbed (hstart.reaches h) hturn hrun Aside.step
    (.refl hclosed)

/-- Wherever a thread stands outside of the ledger, and for however long: a bystander whose connection was
accepted gets its answer meanwhile. -/
theorem bystanders_answered (hts : ∀ j, Hosts i front int (ts j))
    (h : Pool.Reaches (.start w₀ ts) P) (hout : ¬ (P.threads j).Inside) (hkj : j ≠ k) {a : Arrival}
    (ha : Bystander front int a) (hk : Does i (a.task front int) (ts k)) :
    ∃ P', Relation.ReflTransGen (Pool.Others j) P P' ∧ (P'.threads k).Ended := by
  have horderly : Pool.Orderly P :=
    (Pool.orderly_start fun j => (hts j).choose_spec.obeys.2).reaches h
  have hplain : ((Pool.start w₀ ts).threads k).Plain := ha.plain hk
  have : Nonempty Choice := ⟨Integrity.quiet⟩
  exact horderly.answers hout hkj (Pool.plain_reaches hplain h)

/-! ### A sample -/

section Sample

open EscrowSigner.Sample

/-- The debit has the turn, and neither has done anything yet. -/
theorem sampleTurn : ∃ (ts : Bool → Thread Choice World Exn (Option Reply))
    (P : Pool Bool Choice World Exn (Option Reply)),
    (∀ j, Does (signer unlimited "") ((sampleArrival j).task smallFront readsOne) (ts j)) ∧
      Pool.Reaches (.start .initial ts) P ∧ P.turn = some true ∧ ¬ (P.threads true).Inside ∧
        P.state = .initial := by
  choose ts hts using fun j => exists_does (i := signer unlimited "")
    ((sampleArrival j).task smallFront readsOne)
  have hdebit := hts true
  rw [sampleArrival, task_debitPost] at hdebit
  obtain ⟨c, body, hbody⟩ := hdebit.eq_callThread
  have hacquire : (Pool.start World.initial ts).threads true = .between (callThread c body) :=
    congrArg Running.between hbody
  refine ⟨ts, _, hts, .single (.acquire hacquire rfl), rfl, ?_, rfl⟩
  dsimp only [Pool.set]
  rw [Function.update_self]
  exact id

/-- The look at the receipt comes to its end while the debit has the turn, and changes nothing. -/
theorem calls_undisturbed_sample : ∃ P P' : Pool Bool Choice World Exn (Option Reply),
    P.turn = some true ∧ (P'.threads false).Ended ∧ Aside P.state P'.state ∧ P'.turn = some true := by
  obtain ⟨ts, P, hts, hreach, hturn, hout, hstate⟩ := sampleTurn
  have horderly : Pool.Orderly P := (Pool.orderly_start fun j => (hts j).obeys.2).reaches hreach
  have hplain : ((Pool.start World.initial ts).threads false).Plain :=
    Bystander.plain (.get debitPath) (hts false)
  have : Nonempty Choice := ⟨Integrity.quiet⟩
  obtain ⟨P', hrun, hend⟩ := horderly.answers (k := false) hout nofun (Pool.plain_reaches hplain hreach)
  exact ⟨P, P', hturn, hend,
    calls_undisturbed (fun j => ⟨_, hts j⟩) hreach hturn (hstate ▸ rfl) hrun⟩

/-- The look at the receipt is answered while the debit has the turn. -/
theorem bystanders_answered_sample : ∃ P P' : Pool Bool Choice World Exn (Option Reply),
    P.turn = some true ∧ Relation.ReflTransGen (Pool.Others true) P P' ∧
      (P'.threads false).Ended := by
  obtain ⟨ts, P, hts, hreach, hturn, hout, -⟩ := sampleTurn
  obtain ⟨P', hrun, hend⟩ := bystanders_answered (k := false) (fun j => ⟨_, hts j⟩) hreach hout
    nofun (.get debitPath) (hts false)
  exact ⟨P, P', hturn, hrun, hend⟩

end Sample

end EscrowSigner.Server
